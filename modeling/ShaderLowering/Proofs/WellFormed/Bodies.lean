import ShaderLowering.Proofs.WellFormed.Literals

/-!
Opening and closing functions. Between functions a state is at rest: nothing is open, and the
functions that are there are sealed, that is, well formed and with known switches. Inside of a
function there is a draft, and a step that succeeds takes it to another.
-/

namespace ShaderLowering

open Spirv (Id Instr Node Merge Exit)

/-- Functions that are well formed, with the literals of all their switches. -/
structure Sealed (functions : Array Spirv.Function) (literals : List (List UInt32)) : Prop where
  wellFormed : ∀ f ∈ functions, f.WellFormed
  literals : (functions.toList.flatMap Spirv.Function.switches).map Instr.literals = literals

theorem Sealed.push {functions : Array Spirv.Function} {literals : List (List UInt32)}
    {f : Spirv.Function} (h : Sealed functions literals) (wellFormed : f.WellFormed) :
    Sealed (functions.push f) (literals ++ f.switches.map Instr.literals) := by
  refine ⟨fun g hg => ?_, ?_⟩
  · rcases Array.mem_push.1 hg with hg | rfl
    · exact h.wellFormed g hg
    · exact wellFormed
  · rw [Array.toList_push, List.flatMap_append, List.map_append, h.literals,
      List.flatMap_singleton]

/-- No function is open. -/
structure State.AtRest (s : State) : Prop where
  function? : s.builder.function? = none
  block? : s.builder.block? = none
  constructs : s.constructs = []

theorem Adds.functions {s t : State} (h : Adds s t) (closed : s.builder.function? = none) :
    t.builder.module.functions = s.builder.module.functions := by
  have nowhere (b c : Spirv.Builder) (none_ : b.function? = none) (i : Instr) :
      b.push i ≠ .ok c := by
    intro placed
    obtain ⟨_, _, some_, _⟩ := Spirv.Builder.push_eq_ok.1 placed
    rw [none_] at some_
    cases some_
  have variable_ (pointerType : Id) (storage : Spirv.StorageClass) (initial? : Option Id) :
      (s.builder.variable_ pointerType storage initial?).2.module.functions =
        s.builder.module.functions := by
    unfold Spirv.Builder.variable_
    dsimp only
    split
    · next c placed => exact absurd placed (nowhere s.builder.fresh.2 c closed _)
    · rfl
  cases h with
  | fresh | declareNew | annotate | stage => rfl
  | declare key =>
    obtain ⟨id, _, _, same⟩ | ⟨_, new⟩ := s.builder.declare_eq key
    · rw [same]
    · rw [new]
      rfl
  | newVariable pointerType storage initial? => exact variable_ pointerType storage initial?
  | temp pointerType => exact variable_ pointerType .priv none
  | push _ _ _ _ c placed => exact absurd placed (nowhere _ c closed _)
  | note _ same => exact same.functions

/-- Ordinary steps outside of functions do nothing to functions. -/
theorem Emits.atRest {s t : State} (h : Emits s t) (rest : s.AtRest) :
    t.AtRest ∧ t.builder.module.functions = s.builder.module.functions := by
  induction h with
  | refl => exact ⟨rest, rfl⟩
  | step _ last ih =>
    obtain ⟨before, functions⟩ := ih
    refine ⟨⟨?_, ?_, ?_⟩, ?_⟩
    · exact last.function?.trans before.function?
    · exact last.block?.trans before.block?
    · exact last.constructs.trans before.constructs
    · exact (last.functions before.function?).trans functions

/-- States that agree on the last opcode and the body. Stages other than hull stay so. -/
structure State.SameCourse (s t : State) : Prop where
  lastOpcode? : t.lastOpcode? = s.lastOpcode?
  body? : t.body? = s.body?
  hull? : s.stage.hull? = none → t.stage.hull? = none

namespace State.SameCourse

variable {s t u : State}

theorem refl (s : State) : s.SameCourse s :=
  ⟨rfl, rfl, fun h => h⟩

theorem trans (first : s.SameCourse t) (second : t.SameCourse u) : s.SameCourse u :=
  ⟨second.lastOpcode?.trans first.lastOpcode?, second.body?.trans first.body?,
    fun h => second.hull? (first.hull? h)⟩

end State.SameCourse

theorem Emits.sameCourse {s t : State} (h : Emits s t) : s.SameCourse t := by
  refine ⟨?_, h.body?, h.hull?⟩
  induction h with
  | refl => rfl
  | step _ last ih => exact last.lastOpcode?.trans ih

theorem Lower.sameCourse_of_tryBuild {env : Environment} {s t : State}
    {f : Spirv.Builder → Except Spirv.BuildError Spirv.Builder}
    (run : result (tryBuild f) env s = (.ok (), t)) : s.SameCourse t := by
  obtain ⟨b, rfl⟩ := state_of_tryBuild run
  exact ⟨rfl, rfl, fun h => h⟩

/-- A function that has just been opened under an id, behind given functions. -/
structure Draft.Begins (functions : Array Spirv.Function) (id : Id) (d : Draft) : Prop where
  earlier : d.earlier = functions
  done : d.done = []
  open? : d.open? = none
  constructs : d.constructs = []
  definition : d.definition.result? = some id

namespace Lower

variable {α : Type} {env : Environment} {s t : State} {d e : Draft} {n : Node} {a b : α}

theorem Reaches.of_ok {m : Lower α} (h : Reaches m env s a d)
    (run : result m env s = (.ok b, t)) : b = a ∧ d.Describes t := by
  obtain ⟨c, result, describes⟩ := h
  rw [result] at run
  cases run
  exact ⟨rfl, describes⟩

theorem of_fresh (hd : d.Describes s) {id : Id} (run : result (liftM fresh) env s = (.ok id, t)) :
    id = d.next ∧ (d.take 1).Describes t :=
  (fresh_reaches hd).of_ok run

theorem of_terminate (hd : d.Describes s) (leave : Exit)
    (run : result (tryBuild (·.terminate leave.instr)) env s = (.ok (), t)) :
    ∃ n, d.open? = some n ∧ (d.exit n leave).Describes t := by
  cases ho : d.open? with
  | none => exact absurd run ((terminate_fails hd ho _).not_ok t)
  | some n => exact ⟨n, rfl, ((terminate_reaches hd ho leave).of_ok run).2⟩

theorem of_merge (hd : d.Describes s) (merge : Merge)
    (run : result (tryBuild (·.push merge.instr)) env s = (.ok (), t)) :
    ∃ n, d.open? = some n ∧ Draft.Describes { d with open? := some (n.announce merge) } t := by
  cases ho : d.open? with
  | none => exact absurd run ((merge_fails hd ho _).not_ok t)
  | some n => exact ⟨n, rfl, ((merge_reaches hd ho merge).of_ok run).2⟩

theorem of_beginBlock (hd : d.Describes s) (ho : d.open? = none) {label : Id}
    (run : result (beginBlock label) env s = (.ok (), t)) : (d.enter label).Describes t :=
  ((beginBlock_reaches hd ho label).of_ok run).2

theorem emits_of_result {m : Emission α} {r : Except CompileError α}
    (run : result (liftM m) env s = (r, t)) : Emits s t :=
  Emission.emits_of_run run

theorem emits_of_interface {m : InterfaceStep α} {r : Except CompileError α}
    (run : result (liftM m) env s = (r, t)) : Emits s t :=
  m.emits_of_run run

theorem of_emission {m : Emission α} (hd : d.Describes s)
    (run : result (liftM m) env s = (.ok a, t)) : ∃ e, d.Writes e ∧ e.Describes t :=
  (emits_of_result run).describes hd

theorem of_beginFunction {returnType functionType id : Id} {id? : Option Id} (rest : s.AtRest)
    (run : result (beginFunction returnType functionType id?) env s = (.ok id, t)) :
    ∃ (d : Draft) (b : Spirv.Builder), t = { s with builder := b } ∧ d.Describes t ∧
      d.Begins s.builder.module.functions id ∧ d.globals = s.builder.module.globals := by
  have begun : ∃ b, s.builder.beginFunction returnType functionType id? = .ok (id, b) ∧
      t = { s with builder := b } := by
    unfold beginFunction at run
    rw [result_bind, result_get] at run
    unfold andThen at run
    dsimp only at run
    cases h : s.builder.beginFunction returnType functionType id? with
    | error e =>
      rw [h] at run
      cases run
    | ok p =>
      rw [h] at run
      cases run
      exact ⟨_, rfl, rfl⟩
  obtain ⟨b, begun, rfl⟩ := begun
  unfold Spirv.Builder.beginFunction at begun
  rw [rest.function?] at begun
  cases id? <;> cases begun
  all_goals refine ⟨⟨s.builder.module.functions, _, [], none, _, s.builder.module.globals, [],
    s.lastOpcode?.bind Opcode.ofCode?⟩, _, rfl, ⟨⟨rfl, rfl, ?_, rfl, rfl⟩, rest.constructs, rfl⟩,
    ⟨rfl, rfl, rfl, rfl, rfl⟩, rfl⟩
  all_goals exact rest.block?

theorem of_endFunction (hd : d.Describes s) (ho : d.open? = none) (hc : d.constructs = [])
    (run : result endFunction env s = (.ok (), t)) :
    t.AtRest ∧ t.builder.module.functions = d.functions ∧
      t.builder.module.globals = d.globals := by
  have ended : s.builder.endFunction = .ok { s.builder with function? := none } := by
    rw [Spirv.Builder.endFunction, hd.builder.function?]
  rw [endFunction, result_tryBuild, ended] at run
  cases run
  refine ⟨⟨rfl, ?_, ?_⟩, hd.builder.functions, hd.builder.globals⟩
  · exact hd.builder.block?_of_none ho
  · exact hd.constructs.trans hc

end Lower

/-- A draft whose open node, if there is one, ends with a return. -/
def Draft.ended (d : Draft) : Draft :=
  match d.open? with
  | some n => d.exit n .ret
  | none => d

theorem Draft.open?_ended (d : Draft) : d.ended.open? = none := by
  unfold ended
  split
  · rfl
  · next h => exact h

theorem Draft.constructs_ended (d : Draft) : d.ended.constructs = d.constructs := by
  unfold ended
  split <;> rfl

theorem Draft.globals_ended (d : Draft) : d.ended.globals = d.globals := by
  unfold ended
  split <;> rfl

namespace Lower

variable {env : Environment} {s t : State} {d : Draft}

/-- A step after a check. -/
theorem result_check {f : Fault} {m : Lower Unit} {p : Prop} [Decidable p] :
    result (if p then (do failWith f; m) else m) env s = (.ok (), t) ↔
      ¬ p ∧ result m env s = (.ok (), t) := by
  split
  · next h =>
    constructor
    · intro run
      cases run
    · exact fun run => absurd h run.1
  · next h => exact ⟨fun run => ⟨h, run⟩, fun run => run.2⟩

/-- Closing a body asks that all its constructs are closed. -/
theorem of_closeBody (hd : d.Describes s) (inFunction : s.inFunction = true)
    (run : result closeBody env s = (.ok (), t)) :
    d.constructs = [] ∧ t.AtRest ∧ t.builder.module.functions = d.ended.functions ∧
      t.inFunction = false ∧ t.builder.module.globals = d.globals ∧ s.SameCourse t := by
  unfold closeBody at run
  rw [result_get_bind, if_pos inFunction, result_get_bind] at run
  obtain ⟨noneLeft, run⟩ := result_check.1 run
  have constructs : d.constructs = [] := by
    rw [← hd.constructs]
    exact List.length_eq_zero_iff.1 (not_not.1 noneLeft)
  obtain ⟨block?, s₁, opened, run⟩ := result_bind_eq_ok.1 run
  have same : s = s₁ := by
    cases opened
    rfl
  subst same
  obtain ⟨rfl, hd₁⟩ := (openBlock_reaches hd).of_ok opened
  have ended : ∃ s₂, d.ended.Describes s₂ ∧ s.SameCourse s₂ ∧ result (do
      endFunction
      modify fun s => { s with inFunction := false }) env s₂ = (.ok (), t) := by
    unfold Draft.ended
    cases ho : d.open? with
    | none =>
      rw [ho] at run
      exact ⟨s, hd₁, .refl s, run⟩
    | some n =>
      rw [ho] at run
      obtain ⟨_, s₂, returned, run⟩ := result_bind_eq_ok.1 run
      have course : s.SameCourse s₂ :=
        sameCourse_of_tryBuild (f := (·.terminate Exit.ret.instr)) returned
      exact ⟨s₂, ((terminate_reaches hd₁ ho .ret).of_ok returned).2, course, run⟩
  obtain ⟨s₂, hd₂, course, run⟩ := ended
  obtain ⟨_, s₃, ended, run⟩ := result_bind_eq_ok.1 run
  cases run
  obtain ⟨rest, functions, globals⟩ := of_endFunction hd₂ d.open?_ended
    (d.constructs_ended.trans constructs) ended
  refine ⟨constructs, ⟨rest.function?, rest.block?, rest.constructs⟩, functions, rfl,
    globals.trans d.globals_ended, ?_⟩
  exact (course.trans (sameCourse_of_tryBuild ended)).trans ⟨rfl, rfl, fun h => h⟩

theorem of_closeBody_outside (inFunction : s.inFunction = false)
    (run : result closeBody env s = (.ok (), t)) : t = s := by
  unfold closeBody at run
  rw [result_get_bind, inFunction] at run
  cases run
  rfl

end Lower

namespace Draft

variable {d : Draft} {literals : List (List UInt32)}

theorem forecast_of_no_constructs (hc : d.constructs = []) (insts : List Instruction) :
    d.forecast insts = d.switches.flatten := by
  rw [forecast, hc, awaited, ShaderLowering.forecast]
  have (ends : List (List (List UInt32))) (k : Nat) :
      ((ends.zipIdx k).flatMap fun p => p.1 ++ (List.lookup p.2 []).toList) = ends.flatten := by
    induction ends generalizing k with
    | nil => rfl
    | cons l rest ih =>
      rw [List.zipIdx_cons, List.flatMap_cons, ih, List.flatten_cons]
      exact congrArg (· ++ rest.flatten) (List.append_nil l)
  exact this _ 0

/-- A body that owes nothing can be sealed. -/
theorem Owes.sealed (h : d.Owes .nothing) (ho : d.open? = none)
    (earlier : Sealed d.earlier literals) :
    Sealed d.functions (literals ++ d.switches.flatten) := by
  have complete : Spirv.Complete d.nodes := by
    rw [nodes_of_none ho]
    exact (h.sound_none ho).complete
  have switches : (Spirv.Function.ofNodes d.definition d.nodes).switches.map Instr.literals =
      d.switches.flatten := by
    unfold Spirv.Function.switches Spirv.Function.ofNodes
    dsimp only
    rw [List.flatMap_map, List.map_flatMap, Draft.switches, ← List.flatMap_def]
    exact List.flatMap_congr fun n hn => (complete.ended n hn).switches_block
  rw [← switches]
  exact earlier.push (complete.wellFormed _)

theorem IsSound.ended (h : d.IsSound) : d.ended.IsSound := by
  unfold IsSound
  rw [d.constructs_ended]
  unfold Draft.ended
  split
  · next n ho => exact Owes.exit h ho .ret fun _ hl => absurd hl List.not_mem_nil
  · exact h

theorem IsSound.switches_ended (h : d.IsSound) : d.ended.switches = d.switches := by
  unfold Draft.ended
  split
  · next n ho => exact switches_exit ho (h.isOpen ho) rfl
  · rfl

end Draft

namespace Draft

/-- A body without constructs and switches, behind given functions. -/
structure Plain (functions : Array Spirv.Function) (o : Obligations) (d : Draft) : Prop where
  earlier : d.earlier = functions
  constructs : d.constructs = []
  owes : d.Owes o
  switches : ∀ l ∈ d.switches, l = []

namespace Plain

variable {functions : Array Spirv.Function} {o o' : Obligations} {d e : Draft} {n : Node}

theorem extend (h : d.Plain functions o) (more : d.Extends e) (earlier : e.earlier = d.earlier)
    (constructs : e.constructs = d.constructs) (owes : e.Owes o') : e.Plain functions o' := by
  obtain ⟨added, ends, none_⟩ := more
  refine ⟨earlier.trans h.earlier, constructs.trans h.constructs, owes, fun l hl => ?_⟩
  rw [ends] at hl
  exact (List.mem_append.1 hl).elim (h.switches l) (none_ l)

theorem writes (h : d.Plain functions o) (w : d.Writes e) : e.Plain functions o :=
  h.extend (h.owes.extends_writes w) w.sameFunction.earlier w.constructs (h.owes.writes w)

theorem take (h : d.Plain functions o) (k : Nat) (merges : List Id)
    (among : ∀ l ∈ merges, l ∈ List.range' d.next k) (once : merges.Nodup) :
    (d.take k).Plain functions { o with
      pending := List.range' d.next k ++ o.pending
      promised := merges ++ o.promised } :=
  h.extend (.of_eq rfl) rfl rfl (h.owes.take k merges among once)

theorem enter (h : d.Plain functions o) (ho : d.open? = none) {l : Id} {pending : List Id}
    (due : o.pending = l :: pending) : (d.enter l).Plain functions { o with pending } :=
  h.extend (.enter ho l) rfl rfl (h.owes.enter ho due)

theorem exit (h : d.Plain functions o) (ho : d.open? = some n) (leave : Exit)
    (plain : leave.isSwitch = false) (targets : ∀ l ∈ leave.targets, l ∈ o.pending) :
    (d.exit n leave).Plain functions o :=
  h.extend (.exit ho (h.owes.isOpen ho) plain) rfl rfl
    (h.owes.exit ho leave fun l hl => .inl (targets l hl))

theorem exit_selection (h : d.Plain functions o) (ho : d.open? = some n) (leave : Exit) {l : Id}
    {promised : List Id} (plain : leave.isSwitch = false) (merge : o.promised = l :: promised)
    (pending : l ∈ o.pending) (targets : ∀ l ∈ leave.targets, l ∈ o.pending) :
    (d.exit (n.announce (.selection l)) leave).Plain functions { o with promised } :=
  h.extend (.exit_announced ho (h.owes.isOpen ho) _ plain) rfl rfl
    (h.owes.exit_selection ho leave merge pending fun l hl => .inl (targets l hl))

theorem exit_header (h : d.Plain functions o) (ho : d.open? = some n) (leave : Exit) {b c : Id}
    {promised : List Id} (plain : leave.isSwitch = false) (merge : o.promised = b :: promised)
    (pending : b ∈ o.pending ∧ c ∈ o.pending) (notCase : n.label ∉ o.cases)
    (targets : ∀ l ∈ leave.targets, l ∈ o.pending) :
    (d.exit (n.announce (.loop b c)) leave).Plain functions
      { o with promised, loops := (n.label, c) :: o.loops } :=
  h.extend (.exit_announced ho (h.owes.isOpen ho) _ plain) rfl rfl
    (h.owes.exit_header ho leave merge pending notCase targets)

theorem exit_loop (h : d.Plain functions o) (ho : d.open? = some n) {label c : Id}
    {loops : List (Id × Id)} (continue_ : n.label = c) (loop : o.loops = (label, c) :: loops) :
    (d.exit n (.branch label)).Plain functions { o with loops } := by
  subst continue_
  exact h.extend (.exit ho (h.owes.isOpen ho) rfl) rfl rfl (h.owes.exit_loop ho label loop)

theorem isSound (h : d.Plain functions .nothing) : d.IsSound := by
  unfold IsSound
  rw [h.constructs]
  exact h.owes

theorem forecast_eq (h : d.Plain functions o) (insts : List Instruction) :
    d.forecast insts = [] := by
  rw [forecast_of_no_constructs h.constructs]
  exact List.flatten_eq_nil_iff.2 h.switches

end Plain

/-- A function that begins is plain. -/
theorem Begins.plain {functions : Array Spirv.Function} {id : Id} {d : Draft}
    (h : d.Begins functions id) : d.Plain functions .nothing := by
  refine ⟨h.earlier, h.constructs, ?_, ?_⟩
  · refine .of_none h.open? ?_
    rw [h.done]
    exact .empty d.next
  · rw [Draft.switches, Draft.nodes_of_none h.open?, h.done]
    exact fun l hl => absurd hl List.not_mem_nil

theorem Begins.writes {functions : Array Spirv.Function} {id : Id} {d e : Draft}
    (h : d.Begins functions id) (w : d.Writes e) : e.Begins functions id := by
  obtain ⟨_, _, _, _, _, _, rfl⟩ := w
  refine ⟨h.earlier, h.done, ?_, h.constructs, h.definition⟩
  rw [h.open?]
  rfl

/-- A function with its first block, which is open, behind given functions. -/
structure Opens (functions : Array Spirv.Function) (id : Id) (d : Draft) : Prop where
  plain : d.Plain functions .nothing
  done : d.done = []
  open? : ∃ n, d.open? = some n
  definition : d.definition.result? = some id

theorem Begins.opens {functions : Array Spirv.Function} {id : Id} {d : Draft}
    (h : d.Begins functions id) : ((d.take 1).enter d.next).Opens functions id := by
  have taken := h.plain.take 1 [] (fun _ hl => absurd hl List.not_mem_nil) List.nodup_nil
  exact ⟨taken.enter h.open? rfl, h.done, ⟨_, rfl⟩, h.definition⟩

end Draft

/-- A state outside of bodies. The switches that are there and those to come, when `insts` are to
be lowered, have the given literals. -/
structure State.Outside (insts : List Instruction) (total : List (List UInt32)) (s : State) :
    Prop where
  rest : s.AtRest
  inFunction : s.inFunction = false
  closed : ∃ literals, Sealed s.builder.module.functions literals ∧
    literals ++ declaredLiterals insts = total

/-- A state between two instructions: outside of bodies or inside a sound one. -/
inductive State.Standing (insts : List Instruction) (total : List (List UInt32)) (s : State) : Prop
  | outside (h : s.Outside insts total)
  | inside {d : Draft} {literals : List (List UInt32)} (describes : d.Describes s)
    (inFunction : s.inFunction = true) (sound : d.IsSound) (earlier : Sealed d.earlier literals)
    (expected : literals ++ d.forecast insts ++ declaredLiterals insts = total)

section Emits

variable {insts : List Instruction} {total : List (List UInt32)} {s t : State}

theorem State.Outside.emits (h : s.Outside insts total) (added : Emits s t) :
    t.Outside insts total := by
  obtain ⟨rest, functions⟩ := added.atRest h.rest
  exact ⟨rest, added.inFunction.trans h.inFunction, functions ▸ h.closed⟩

theorem State.Standing.emits (h : s.Standing insts total) (added : Emits s t) :
    t.Standing insts total := by
  cases h with
  | outside h => exact .outside (h.emits added)
  | @inside d _ describes inFunction sound earlier expected =>
    obtain ⟨e, writes, he⟩ := added.describes describes
    refine .inside he (added.inFunction.trans inFunction) (sound.writes writes)
      (writes.sameFunction.earlier ▸ earlier) ?_
    rw [sound.forecast_writes writes, expected]

end Emits

namespace Lower

variable {env : Environment} {s t : State} {insts : List Instruction}
  {total : List (List UInt32)}

/-- Opening a function begins a draft behind the functions that are there. -/
theorem of_openFunction {id : Id} {id? : Option Id} (rest : s.AtRest)
    (run : result (openFunction id?) env s = (.ok id, t)) :
    ∃ d : Draft, d.Describes t ∧ d.Begins s.builder.module.functions id ∧
      s.builder.module.globals.toList <+: d.globals.toList ∧ s.SameCourse t := by
  obtain ⟨void, s₁, first, run⟩ := result_bind_eq_ok.1 run
  obtain ⟨type, s₂, second, run⟩ := result_bind_eq_ok.1 run
  have emits := (emits_of_result first).trans (emits_of_result second)
  obtain ⟨rest₂, functions⟩ := emits.atRest rest
  obtain ⟨d, b, rfl, hd, begins, globals⟩ := of_beginFunction rest₂ run
  exact ⟨d, hd, functions ▸ begins, globals ▸ emits.globals,
    emits.sameCourse.trans ⟨rfl, rfl, fun h => h⟩⟩

/-- Closing a body seals it. -/
theorem closeBody_outside (h : s.Standing insts total)
    (run : result closeBody env s = (.ok (), t)) : t.Outside insts total := by
  cases h with
  | outside h => exact of_closeBody_outside h.inFunction run ▸ h
  | @inside d literals describes inFunction sound earlier expected =>
    obtain ⟨constructs, rest, functions, outside, _⟩ := of_closeBody describes inFunction run
    have owes : d.ended.Owes .nothing := by
      have := sound.ended
      unfold Draft.IsSound at this
      rwa [d.constructs_ended, constructs] at this
    have before : Sealed d.ended.earlier literals := by
      unfold Draft.ended
      split <;> exact earlier
    refine ⟨rest, outside, _, functions ▸ owes.sealed d.open?_ended before, ?_⟩
    rw [sound.switches_ended, ← Draft.forecast_of_no_constructs constructs insts, expected]

/-- A function begins with a block. -/
theorem of_beginFreshBlock {d : Draft} (hd : d.Describes s) (ho : d.open? = none)
    (run : result beginFreshBlock env s = (.ok (), t)) : ((d.take 1).enter d.next).Describes t :=
  ((beginFreshBlock_reaches hd ho).of_ok run).2

/-- Opening a body leaves its first block open. -/
theorem of_beginBody {text : String} {id : Id} (rest : s.AtRest)
    (run : result (beginBody text) env s = (.ok id, t)) :
    ∃ d : Draft, d.Describes t ∧ d.Opens s.builder.module.functions id ∧ t.inFunction = true ∧
      s.SameCourse t := by
  obtain ⟨_, s₁, opened, run⟩ := result_bind_eq_ok.1 run
  obtain ⟨d, hd, begins, _, course⟩ := of_openFunction rest opened
  obtain ⟨_, s₂, named, run⟩ := result_bind_eq_ok.1 run
  obtain ⟨d₂, writes, hd₂⟩ := of_emission hd named
  have course₂ := course.trans (emits_of_result named).sameCourse
  obtain ⟨_, s₃, entered, run⟩ := result_bind_eq_ok.1 run
  have begins₂ := begins.writes writes
  have hd₃ := of_beginFreshBlock hd₂ begins₂.open? entered
  obtain ⟨_, s₄, noted, run⟩ := result_bind_eq_ok.1 run
  cases noted
  cases run
  exact ⟨_, ⟨hd₃.builder, hd₃.constructs, hd₃.last?⟩, begins₂.opens, rfl,
    (course₂.trans (sameCourse_of_tryBuild entered)).trans ⟨rfl, rfl, fun h => h⟩⟩

/-- Opening a body. -/
theorem beginBody_standing {text : String} {id : Id} (h : s.Outside insts total)
    (run : result (beginBody text) env s = (.ok id, t)) : t.Standing insts total := by
  obtain ⟨literals, earlier, expected⟩ := h.closed
  obtain ⟨d, hd, opens, inFunction, _⟩ := of_beginBody h.rest run
  refine .inside hd inFunction opens.plain.isSound (opens.plain.earlier ▸ earlier) ?_
  rw [opens.plain.forecast_eq, List.append_nil, expected]

theorem beginControlPointPhase_standing (h : s.Outside insts total)
    (run : result beginControlPointPhase env s = (.ok (), t)) : t.Standing insts total := by
  obtain ⟨_, s₁, first, run⟩ := result_bind_eq_ok.1 run
  obtain ⟨_, run⟩ := result_check.1 run
  obtain ⟨_, s₂, opened, run⟩ := result_bind_eq_ok.1 run
  obtain ⟨_, s₃, second, run⟩ := result_bind_eq_ok.1 run
  have standing := beginBody_standing (h.emits (emits_of_result first)) opened
  exact (standing.emits (emits_of_result second)).emits (emits_of_interface run)

theorem beginPatchPhase_standing {isJoin : Bool} (h : s.Outside insts total)
    (run : result (beginPatchPhase isJoin) env s = (.ok (), t)) : t.Standing insts total := by
  obtain ⟨_, s₁, h₁, run⟩ := result_bind_eq_ok.1 run
  obtain ⟨_, s₂, h₂, run⟩ := result_bind_eq_ok.1 run
  obtain ⟨_, s₃, h₃, run⟩ := result_bind_eq_ok.1 run
  obtain ⟨_, s₄, h₄, run⟩ := result_bind_eq_ok.1 run
  obtain ⟨_, s₅, opened, run⟩ := result_bind_eq_ok.1 run
  obtain ⟨_, s₆, h₆, run⟩ := result_bind_eq_ok.1 run
  have outside := (((h.emits (emits_of_result h₁)).emits (emits_of_result h₂)).emits
    (emits_of_result h₃)).emits (emits_of_result h₄)
  have standing := beginBody_standing outside opened
  exact (standing.emits (emits_of_result h₆)).emits (emits_of_interface run)

/-- The beginning of a phase closes the body that is open and may open another. -/
theorem lowerHullPhase_standing {inst : Instruction} (h : s.Standing insts total)
    (run : result (lowerHullPhase inst) env s = (.ok (), t)) : t.Standing insts total := by
  obtain ⟨_, s₁, first, run⟩ := result_bind_eq_ok.1 run
  obtain ⟨_, s₂, closed, run⟩ := result_bind_eq_ok.1 run
  have outside := closeBody_outside (h.emits (emits_of_result first)) closed
  split at run
  · obtain ⟨_, s₃, second, run⟩ := result_bind_eq_ok.1 run
    exact .outside ((outside.emits (emits_of_result second)).emits (emits_of_interface run))
  · exact beginControlPointPhase_standing outside run
  · exact beginPatchPhase_standing outside run
  · exact beginPatchPhase_standing outside run
  · exact .outside (outside.emits (emits_of_result run))

end Lower

end ShaderLowering
