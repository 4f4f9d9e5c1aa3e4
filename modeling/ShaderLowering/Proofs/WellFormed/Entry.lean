import ShaderLowering.Proofs.WellFormed.Bodies

/-!
The entry function is sound as well. It is written without the stack of constructs, so each of its
parts says on its own which labels it takes, announces and places.
-/

namespace ShaderLowering.Lower

open Spirv (Id Node Merge Exit)

variable {functions : Array Spirv.Function} {o : Obligations} {env : Environment} {s t : State}
  {d : Draft}

/-- A step inside a function that leaves nothing open behind itself. -/
def Tidy (m : Lower Unit) : Prop :=
  ∀ {functions : Array Spirv.Function} {o : Obligations} {env : Environment} {s t : State}
    {d : Draft}, d.Describes s → d.Plain functions o → result m env s = (.ok (), t) →
      ∃ e : Draft, e.Describes t ∧ e.Plain functions o

theorem Tidy.of_interface (m : InterfaceStep Unit) : Tidy (liftM m) := by
  intro functions o env s t d hd plain run
  obtain ⟨e, writes, he⟩ := (emits_of_interface run).describes hd
  exact ⟨e, he, plain.writes writes⟩

theorem Tidy.of_emission (m : Emission Unit) : Tidy (liftM m) :=
  Tidy.of_interface m.toInterfaceStep

theorem Tidy.bind {m : Lower Unit} {k : Unit → Lower Unit} (first : Tidy m)
    (second : Tidy (k ())) : Tidy (m >>= k) := by
  intro functions o env s t d hd plain run
  obtain ⟨_, s₁, run₁, run⟩ := result_bind_eq_ok.1 run
  obtain ⟨e, he, plain'⟩ := first hd plain run₁
  exact second he plain' run

theorem Tidy.emission_bind {α : Type} {m : Emission α} {k : α → Lower Unit}
    (rest : ∀ a, Tidy (k a)) : Tidy (liftM m >>= k) := by
  intro functions o env s t d hd plain run
  obtain ⟨a, s₁, run₁, run⟩ := result_bind_eq_ok.1 run
  obtain ⟨e, writes, he⟩ := Lower.of_emission hd run₁
  exact rest a he (plain.writes writes) run

theorem Tidy.pure : Tidy (Pure.pure ()) := by
  intro functions o env s t d hd plain run
  cases run
  exact ⟨d, hd, plain⟩

/-- A tidy step for each element of a list. -/
theorem Tidy.forIn {α : Type} {m : α → Lower Unit} (tidy : ∀ a, Tidy (m a)) (xs : List α) :
    Tidy (forIn xs () fun a _ => do m a; return .yield ()) := by
  induction xs with
  | nil => exact Tidy.pure
  | cons a rest ih =>
    intro functions o env s t d hd plain run
    rw [List.forIn_cons] at run
    obtain ⟨_, s₁, run₁, run⟩ := result_bind_eq_ok.1 run
    obtain ⟨_, s₂, run₂, yielded⟩ := result_bind_eq_ok.1 run₁
    cases yielded
    obtain ⟨e, he, plain'⟩ := tidy a hd plain run₂
    exact ih he plain' run

/-- The loop over instances takes all its labels first and places them in that order. -/
theorem runInstances_tidy (phase : PatchPhase) : Tidy (runInstances phase) := by
  intro functions o env s t d hd plain run
  obtain ⟨_, s₁, word, run⟩ := result_bind_eq_ok.1 run
  obtain ⟨_, s₂, bool, run⟩ := result_bind_eq_ok.1 run
  obtain ⟨d₁, writes₁, hd₁⟩ := of_emission hd word
  obtain ⟨d₂, writes₂, hd₂⟩ := of_emission hd₁ bool
  have plain₂ := (plain.writes writes₁).writes writes₂
  -- The labels of header, check, body, continue block and merge.
  obtain ⟨_, s₃, header, run⟩ := result_bind_eq_ok.1 run
  obtain ⟨rfl, hd₃⟩ := of_fresh hd₂ header
  obtain ⟨_, s₄, check, run⟩ := result_bind_eq_ok.1 run
  obtain ⟨rfl, hd₄⟩ := of_fresh hd₃ check
  obtain ⟨_, s₅, body, run⟩ := result_bind_eq_ok.1 run
  obtain ⟨rfl, hd₅⟩ := of_fresh hd₄ body
  obtain ⟨_, s₆, continue_, run⟩ := result_bind_eq_ok.1 run
  obtain ⟨rfl, hd₆⟩ := of_fresh hd₅ continue_
  obtain ⟨_, s₇, merge, run⟩ := result_bind_eq_ok.1 run
  obtain ⟨rfl, hd₇⟩ := of_fresh hd₆ merge
  have taken := plain₂.take 5 [d₂.next + 4] (by simp [List.range']) (List.nodup_singleton _)
  have notCase := taken.owes.not_case (l := d₂.next) List.mem_cons_self
  obtain ⟨_, s₈, left, run⟩ := result_bind_eq_ok.1 run
  obtain ⟨n, ho, hd₈⟩ := of_terminate hd₇ (.branch d₂.next) left
  have plain₈ := taken.exit ho (.branch d₂.next) rfl
    (by simp [Exit.targets, List.range'])
  obtain ⟨_, s₉, entered, run⟩ := result_bind_eq_ok.1 run
  have hd₉ := of_beginBlock hd₈ rfl entered
  have plain₉ := plain₈.enter rfl (l := d₂.next) rfl
  obtain ⟨_, s₁₀, announced, run⟩ := result_bind_eq_ok.1 run
  obtain ⟨_, ho₁₀, hd₁₀⟩ := of_merge hd₉ (.loop (d₂.next + 4) (d₂.next + 3)) announced
  cases ho₁₀
  obtain ⟨_, s₁₁, left, run⟩ := result_bind_eq_ok.1 run
  obtain ⟨_, ho₁₁, hd₁₁⟩ := of_terminate hd₁₀ (.branch (d₂.next + 1)) left
  cases ho₁₁
  have plain₁₁ := plain₉.exit_header rfl (.branch (d₂.next + 1)) rfl (b := d₂.next + 4)
    (c := d₂.next + 3) rfl (by simp [List.range']) notCase (by simp [Exit.targets, List.range'])
  obtain ⟨_, s₁₂, entered, run⟩ := result_bind_eq_ok.1 run
  have hd₁₂ := of_beginBlock hd₁₁ rfl entered
  have plain₁₂ := plain₁₁.enter rfl (l := d₂.next + 1) rfl
  obtain ⟨inRange, s₁₃, tested, run⟩ := result_bind_eq_ok.1 run
  obtain ⟨d₁₃, writes₁₃, hd₁₃⟩ := of_emission hd₁₂ tested
  have plain₁₃ := plain₁₂.writes writes₁₃
  obtain ⟨_, s₁₄, left, run⟩ := result_bind_eq_ok.1 run
  obtain ⟨n₁₃, ho₁₃, hd₁₄⟩ := of_terminate hd₁₃ (.test inRange (d₂.next + 2) (d₂.next + 4)) left
  have plain₁₄ := plain₁₃.exit ho₁₃ (.test inRange (d₂.next + 2) (d₂.next + 4)) rfl
    (by simp [Exit.targets, List.range'])
  obtain ⟨_, s₁₅, entered, run⟩ := result_bind_eq_ok.1 run
  have hd₁₅ := of_beginBlock hd₁₄ rfl entered
  have plain₁₅ := plain₁₄.enter rfl (l := d₂.next + 2) rfl
  obtain ⟨_, s₁₆, called, run⟩ := result_bind_eq_ok.1 run
  obtain ⟨d₁₆, writes₁₆, hd₁₆⟩ := of_emission hd₁₅ called
  have plain₁₆ := plain₁₅.writes writes₁₆
  obtain ⟨_, s₁₇, left, run⟩ := result_bind_eq_ok.1 run
  obtain ⟨n₁₆, ho₁₆, hd₁₇⟩ := of_terminate hd₁₆ (.branch (d₂.next + 3)) left
  have plain₁₇ := plain₁₆.exit ho₁₆ (.branch (d₂.next + 3)) rfl
    (by simp [Exit.targets, List.range'])
  obtain ⟨_, s₁₈, entered, run⟩ := result_bind_eq_ok.1 run
  have hd₁₈ := of_beginBlock hd₁₇ rfl entered
  have plain₁₈ := plain₁₇.enter rfl (l := d₂.next + 3) rfl
  obtain ⟨_, s₁₉, counted, run⟩ := result_bind_eq_ok.1 run
  obtain ⟨d₁₉, writes₁₉, hd₁₉⟩ := of_emission hd₁₈ counted
  have plain₁₉ := plain₁₈.writes writes₁₉
  -- The open block is the continue block, so the jump to the header closes the loop.
  obtain ⟨_, s₂₀, left, run⟩ := result_bind_eq_ok.1 run
  obtain ⟨n₁₉, ho₁₉, hd₂₀⟩ := of_terminate hd₁₉ (.branch d₂.next) left
  have plain₂₀ := plain₁₉.exit_loop ho₁₉ (writes₁₉.label rfl ho₁₉) rfl
  exact ⟨_, of_beginBlock hd₂₀ rfl run, plain₂₀.enter rfl rfl⟩

theorem runPatchPhase_tidy (phase : PatchPhase) : Tidy (runPatchPhase phase) := by
  refine Tidy.emission_bind fun first => Tidy.bind (Tidy.of_emission _) ?_
  split
  · exact Tidy.of_emission _
  · exact runInstances_tidy phase

/-- The step runs between a test and the place where the paths meet again. -/
theorem inFirstInvocation_tidy {step : Lower Unit} (tidy : Tidy step) :
    Tidy (inFirstInvocation step) := by
  intro functions o env s t d hd plain run
  obtain ⟨isFirst, s₁, tested, run⟩ := result_bind_eq_ok.1 run
  obtain ⟨d₁, writes, hd₁⟩ := of_emission hd tested
  obtain ⟨_, s₂, first, run⟩ := result_bind_eq_ok.1 run
  obtain ⟨rfl, hd₂⟩ := of_fresh hd₁ first
  obtain ⟨_, s₃, second, run⟩ := result_bind_eq_ok.1 run
  obtain ⟨rfl, hd₃⟩ := of_fresh hd₂ second
  have taken := (plain.writes writes).take 2 [d₁.next + 1] (by simp [List.range'])
    (List.nodup_singleton _)
  obtain ⟨_, s₄, merge, run⟩ := result_bind_eq_ok.1 run
  obtain ⟨n, ho, hd₄⟩ := of_merge hd₃ (.selection (d₁.next + 1)) merge
  obtain ⟨_, s₅, test, run⟩ := result_bind_eq_ok.1 run
  obtain ⟨_, ho', hd₅⟩ := of_terminate hd₄ (.test isFirst d₁.next (d₁.next + 1)) test
  cases ho'
  have plain₅ := taken.exit_selection ho (.test isFirst d₁.next (d₁.next + 1)) rfl rfl
    (List.mem_cons_of_mem _ List.mem_cons_self) (by simp [Exit.targets, List.range'])
  obtain ⟨_, s₆, entered, run⟩ := result_bind_eq_ok.1 run
  have hd₆ := of_beginBlock hd₅ rfl entered
  obtain ⟨_, s₇, stepped, run⟩ := result_bind_eq_ok.1 run
  obtain ⟨d₇, hd₇, plain₇⟩ := tidy hd₆ (plain₅.enter rfl (l := d₁.next) rfl) stepped
  obtain ⟨_, s₈, left, run⟩ := result_bind_eq_ok.1 run
  obtain ⟨n, ho, hd₈⟩ := of_terminate hd₇ (.branch (d₁.next + 1)) left
  have plain₈ := plain₇.exit ho (.branch (d₁.next + 1)) rfl (by simp [Exit.targets])
  exact ⟨_, of_beginBlock hd₈ rfl run, plain₈.enter rfl rfl⟩

theorem runPatchPhases_tidy (h : HullState) : Tidy (runPatchPhases h) :=
  Tidy.bind (Tidy.forIn runPatchPhase_tidy _) (Tidy.of_emission _)

theorem runPhases_tidy (h : HullState) : Tidy (runPhases h) :=
  Tidy.bind (Tidy.of_interface (runControlPoints h))
    (inFirstInvocation_tidy (runPatchPhases_tidy h))

/-- An entry function with tidy contents can be sealed. -/
theorem entryFunction_sealed {contents : Lower Unit} (tidy : Tidy contents)
    {literals : List (List UInt32)} (rest : s.AtRest)
    (closed : Sealed s.builder.module.functions literals)
    (run : result (entryFunction contents) env s = (.ok (), t)) :
    t.AtRest ∧ Sealed t.builder.module.functions literals := by
  unfold entryFunction at run
  rw [result_get_bind] at run
  obtain ⟨_, s₁, opened, run⟩ := result_bind_eq_ok.1 run
  obtain ⟨d₁, hd₁, begins, _⟩ := of_openFunction rest opened
  obtain ⟨_, s₂, started, run⟩ := result_bind_eq_ok.1 run
  have hd₂ := of_beginFreshBlock hd₁ begins.open? started
  obtain ⟨_, s₃, ran, run⟩ := result_bind_eq_ok.1 run
  obtain ⟨d₃, hd₃, plain₃⟩ := tidy hd₂ begins.opens.plain ran
  obtain ⟨_, s₄, returned, run⟩ := result_bind_eq_ok.1 run
  obtain ⟨n, ho, hd₄⟩ := of_terminate hd₃ .ret returned
  have plain₄ := plain₃.exit ho .ret rfl fun _ hl => absurd hl List.not_mem_nil
  obtain ⟨rest', functions, _⟩ := of_endFunction hd₄ rfl plain₄.constructs run
  refine ⟨rest', ?_⟩
  rw [functions]
  have sealed := plain₄.owes.sealed rfl (plain₄.earlier ▸ closed)
  rwa [List.flatten_eq_nil_iff.2 plain₄.switches, List.append_nil] at sealed

theorem lowerEntryPoint_sealed {literals : List (List UInt32)} (rest : s.AtRest)
    (closed : Sealed s.builder.module.functions literals)
    (run : result lowerEntryPoint env s = (.ok (), t)) :
    Sealed t.builder.module.functions literals := by
  have announced {u : State} {contents : Lower Unit} (tidy : Tidy contents) (atRest : u.AtRest)
      (closed : Sealed u.builder.module.functions literals)
      (run : result (do entryFunction contents; announceEntryPoint) env u = (.ok (), t)) :
      Sealed t.builder.module.functions literals := by
    obtain ⟨_, u₁, entered, run⟩ := result_bind_eq_ok.1 run
    obtain ⟨rest₁, closed₁⟩ := entryFunction_sealed tidy atRest closed entered
    have same := ((emits_of_result run).atRest rest₁).2
    rwa [same]
  unfold lowerEntryPoint at run
  rw [result_get_bind] at run
  split at run
  · exact announced (runPhases_tidy _) rest closed run
  · rw [result_get_bind] at run
    obtain ⟨body, u, found, run⟩ := result_bind_eq_ok.1 run
    obtain ⟨rest₁, same⟩ := (emits_of_result found).atRest rest
    exact announced (Tidy.of_emission (runBody body)) rest₁ (same ▸ closed) run

end ShaderLowering.Lower
