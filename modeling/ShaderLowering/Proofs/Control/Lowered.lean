import ShaderLowering.Proofs.Control.Refinement
import ShaderLowering.Proofs.Program.Heads

/-!
Lowered shaders refine their programs. In a stage with one body, lowering opens that body, takes its
draft through the instructions, and closes it; the entry function is put behind it. So the first
function of the module realizes the last draft, and what it does is what the program says.
-/

namespace ShaderLowering

open Spirv (Id Instr Node)

namespace Draft

variable {d e f : Draft} {insts : List Instruction} {marks : List Mark}

theorem Runs.sameFunction (h : d.Runs insts marks f) : d.SameFunction f := by
  induction h with
  | nil => exact ⟨rfl, rfl⟩
  | event _ lowers _ ih | control _ lowers _ ih =>
    have first := lowers.sameFunction
    exact ⟨ih.earlier.trans first.earlier, ih.definition.trans first.definition⟩

theorem sameFunction_ended (d : Draft) : d.SameFunction d.ended := by
  unfold ended
  split <;> exact ⟨rfl, rfl⟩

end Draft

namespace Lower

variable {env : Environment} {s t : State} {d : Draft} {inst : Instruction}

/-- Phases are only there in hull shaders. -/
theorem not_hullShaderPhase (notHull : s.stage.hull? = none)
    (run : result (lowerInstruction inst) env s = (.ok (), t)) :
    inst.family ≠ .hullShaderPhase := by
  intro phase
  obtain ⟨_, u, lowered, _⟩ := result_bind_eq_ok.1 run
  unfold lowerByFamily at lowered
  rw [phase] at lowered
  obtain ⟨h, v, asked, _⟩ := result_bind_eq_ok.1 lowered
  have asked : (orFault s.stage.hull? .notInHull).run env s = (.ok h, v) := asked
  rw [notHull] at asked
  cases asked

/-- A state in front of all functions, on the course of an earlier one. -/
structure Ahead (s t : State) : Prop where
  rest : t.AtRest
  functions : t.builder.module.functions = #[]
  course : s.SameCourse t

theorem Ahead.emits {u : State} (h : Ahead s t) (added : Emits t u) : Ahead s u := by
  obtain ⟨rest, functions⟩ := added.atRest h.rest
  exact ⟨rest, functions.trans h.functions, h.course.trans added.sameCourse⟩

/-- The beginning of a stage with one body opens it. -/
theorem begin_opens (notHull : env.stage ≠ .hull) (ahead : Ahead s s)
    (run : result begin env s = (.ok (), t)) :
    ∃ (d : Draft) (id : Id), d.Describes t ∧ d.Opens #[] id ∧ t.body? = some id ∧
      t.inFunction = true ∧ t.lastOpcode? = s.lastOpcode? ∧
        (s.stage.hull? = none → t.stage.hull? = none) := by
  unfold begin at run
  rw [result_read_bind] at run
  obtain ⟨_, s₁, taken, run⟩ := result_bind_eq_ok.1 run
  have h₁ := ahead.emits (emits_of_result taken)
  rw [result_modify_bind] at run
  obtain ⟨_, s₂, required, run⟩ := result_bind_eq_ok.1 run
  have h₂ : Ahead s s₂ := by
    refine Ahead.emits ?_ (emits_of_result required)
    exact ⟨⟨h₁.rest.function?, h₁.rest.block?, h₁.rest.constructs⟩, h₁.functions,
      h₁.course.trans ⟨rfl, rfl, fun h => h⟩⟩
  obtain ⟨_, s₃, taken, run⟩ := result_bind_eq_ok.1 run
  have h₃ := h₂.emits (emits_of_result taken)
  rw [result_modify_bind] at run
  obtain ⟨_, s₄, named, run⟩ := result_bind_eq_ok.1 run
  have h₄ : Ahead s s₄ := by
    refine Ahead.emits ?_ (emits_of_result named)
    exact ⟨⟨h₃.rest.function?, h₃.rest.block?, h₃.rest.constructs⟩, h₃.functions,
      h₃.course.trans ⟨rfl, rfl, fun h => h⟩⟩
  rw [if_pos notHull] at run
  obtain ⟨id, s₅, opened, run⟩ := result_bind_eq_ok.1 run
  obtain ⟨d, hd, opens, inFunction, course⟩ := of_beginBody h₄.rest opened
  cases run
  rw [h₄.functions] at opens
  have course := h₄.course.trans course
  exact ⟨d, id, ⟨hd.builder, hd.constructs, hd.last?⟩, opens, rfl, inFunction,
    course.lastOpcode?, course.hull?⟩

/-- An entry function that does not direct control stands behind the functions that are there. -/
theorem entryFunction_pushes {contents : Emission Unit} (rest : s.AtRest)
    (run : result (entryFunction (liftM contents)) env s = (.ok (), t)) :
    t.AtRest ∧ (∃ f, t.builder.module.functions = s.builder.module.functions.push f) ∧
      s.builder.module.globals.toList <+: t.builder.module.globals.toList ∧ s.SameCourse t := by
  unfold entryFunction at run
  rw [result_get_bind] at run
  obtain ⟨_, s₁, opened, run⟩ := result_bind_eq_ok.1 run
  obtain ⟨d₁, hd₁, begins, globals, course₁⟩ := of_openFunction rest opened
  obtain ⟨_, s₂, started, run⟩ := result_bind_eq_ok.1 run
  have hd₂ := of_beginFreshBlock hd₁ begins.open? started
  have course₂ := course₁.trans (sameCourse_of_tryBuild started)
  obtain ⟨_, s₃, ran, run⟩ := result_bind_eq_ok.1 run
  obtain ⟨d₃, writes, hd₃⟩ := of_emission hd₂ ran
  have plain₃ := begins.opens.plain.writes writes
  have course₃ := course₂.trans (emits_of_result ran).sameCourse
  obtain ⟨_, s₄, returned, run⟩ := result_bind_eq_ok.1 run
  obtain ⟨n, ho, hd₄⟩ := of_terminate hd₃ .ret returned
  have course₄ := course₃.trans
    (sameCourse_of_tryBuild (f := (·.terminate Spirv.Exit.ret.instr)) returned)
  obtain ⟨rest', functions, globals'⟩ := of_endFunction hd₄ rfl plain₃.constructs run
  let entry : Draft := d₃.exit n .ret
  refine ⟨rest', ⟨.ofNodes entry.definition entry.nodes, functions.trans ?_⟩, ?_,
    course₄.trans (sameCourse_of_tryBuild run)⟩
  · exact congrArg (Array.push · _) plain₃.earlier
  · rw [globals']
    obtain ⟨_, _, _, _, _, longer, rfl⟩ := writes
    exact globals.trans longer

/-- Closing the shader seals the body and puts the entry function behind it. -/
theorem finish_pushes (hd : d.Describes s) (inFunction : s.inFunction = true)
    (notHull : s.stage.hull? = none) (run : result finish env s = (.ok (), t)) :
    d.constructs = [] ∧ (∃ f, t.builder.module.functions = d.ended.functions.push f) ∧
      d.globals.toList <+: t.builder.module.globals.toList ∧ t.body? = s.body? := by
  unfold finish at run
  rw [result_get_bind] at run
  obtain ⟨_, run⟩ := result_check.1 run
  obtain ⟨_, u, closed, run⟩ := result_bind_eq_ok.1 run
  obtain ⟨constructs, rest, functions, _, globals, course⟩ := of_closeBody hd inFunction closed
  have notHull := course.hull? notHull
  unfold lowerEntryPoint at run
  rw [result_get_bind] at run
  split at run
  · next h stage =>
    rw [stage] at notHull
    cases notHull
  · rw [result_get_bind] at run
    obtain ⟨body, v, found, run⟩ := result_bind_eq_ok.1 run
    obtain ⟨rest₁, functions₁⟩ := (emits_of_result found).atRest rest
    obtain ⟨_, w, entered, run⟩ := result_bind_eq_ok.1 run
    obtain ⟨rest₂, ⟨f, functions₂⟩, globals₂, course₂⟩ := entryFunction_pushes rest₁ entered
    have announced := emits_of_result run
    refine ⟨constructs, ⟨f, ?_⟩, ?_, ?_⟩
    · rw [(announced.atRest rest₂).2, functions₂, functions₁, functions]
    · rw [← globals]
      exact ((emits_of_result found).globals.trans globals₂).trans announced.globals
    · have all := ((course.trans (emits_of_result found).sameCourse).trans course₂).trans
        announced.sameCourse
      exact all.body?

end Lower

namespace Lowering

variable {l m : Lowering} {d : Draft} {insts : List Instruction}

/-- Instructions that are lowered inside of a body take its draft along. -/
theorem steps_runs (hd : d.Describes l.state) (inFunction : l.state.inFunction = true)
    (notHull : l.state.stage.hull? = none) (run : l.steps insts = .ok m) :
    ∃ f, d.Runs insts (l.marks insts) f ∧ f.Describes m.state ∧ l.state.SameSetting m.state := by
  induction insts generalizing l d with
  | nil =>
    cases run
    exact ⟨d, .nil d, hd, rfl, rfl, fun h => h⟩
  | cons inst rest ih =>
    obtain ⟨k, stepped, run⟩ := steps_cons.1 run
    have lowered := (step_eq_ok.1 stepped).1
    obtain ⟨e, lowers, he, setting⟩ := Lower.lowerInstruction_describes hd
      (Lower.not_hullShaderPhase notHull lowered) lowered
    obtain ⟨f, runs, hf, setting'⟩ := ih he (setting.inFunction.trans inFunction)
      (setting.hull? notHull) run
    have after : (l.step inst).2 = k := by rw [stepped]
    refine ⟨f, ?_, hf, setting'.inFunction.trans setting.inFunction,
      setting'.body?.trans setting.body?, fun h => setting'.hull? (setting.hull? h)⟩
    unfold marks
    rw [after]
    by_cases family : inst.family = .controlFlow
    · rw [if_pos family]
      exact .control family lowers runs
    · rw [if_neg family, hd.builder.block?]
      exact .event family lowers runs

end Lowering

variable {env : Environment} {insts : List Instruction} {l : Lowering}

/-- Where the first draft of a body is, and how its instructions lead to the draft that the body
realizes. -/
structure Realization (env : Environment) (insts : List Instruction) (b : Body) (d f : Draft)
    (marks : List Mark) : Prop where
  body : body? env insts = some b
  done : d.done = []
  open? : ∃ n, d.open? = some n
  constructs : d.constructs = []
  last? : d.last? = none
  sound : d.IsSound
  runs : d.Runs insts marks f
  real : b.Realizes f marks

/-- Lowering gives a body that realizes its last draft. -/
theorem exists_realization (notHull : env.stage ≠ .hull)
    (lowered : lowerInstructions env insts = .ok l) :
    ∃ b d f marks, Realization env insts b d f marks ∧
      b.function.definition.result? = l.state.body? := by
  obtain ⟨first, last, started, stepped, closed⟩ := lowerInstructions_eq_ok.1 lowered
  obtain ⟨stage, known, begun, environment⟩ := Lowering.start_eq_ok.1 started
  have stage_notHull : stage.hull? = none := by
    cases of : env.stage with
    | hull => exact absurd of notHull
    | _ =>
      rw [of] at known
      cases known <;> rfl
  obtain ⟨d, id, hd, opens, body, inFunction, lastOpcode?, hull?⟩ :=
    Lower.begin_opens notHull ⟨⟨rfl, rfl, rfl⟩, rfl, .refl _⟩ begun
  obtain ⟨f, runs, hf, setting⟩ :=
    Lowering.steps_runs hd inFunction (hull? stage_notHull) stepped
  have finished := (Lowering.run_eq_ok.1 (Lowering.close_eq_ok.1 closed)).1
  obtain ⟨constructs, ⟨entry, functions⟩, globals, sameBody⟩ :=
    Lower.finish_pushes hf (setting.inFunction.trans inFunction)
      (setting.hull? (hull? stage_notHull)) finished
  have same := runs.sameFunction
  have earlier : f.ended.earlier = #[] :=
    (f.sameFunction_ended.earlier.trans same.earlier).trans opens.plain.earlier
  have first_ : l.state.builder.module.functions[0]? =
      some (.ofNodes f.ended.definition f.ended.nodes) := by
    rw [functions, Draft.functions, earlier]
    rfl
  let b : Body := ⟨.ofNodes f.ended.definition f.ended.nodes, l.state.builder.module.globals,
    eventsAt (first.marks insts)⟩
  have found : body? env insts = some b := by
    unfold body?
    rw [started, lowered]
    dsimp only
    rw [first_]
    rfl
  have last? : d.last? = none := by
    rw [← hd.last?, lastOpcode?]
    rfl
  have sound := opens.plain.isSound
  refine ⟨b, d, f, first.marks insts,
    ⟨found, opens.done, opens.open?, opens.plain.constructs, last?,
    sound, runs, ⟨runs.sound sound, constructs, ?_, globals, rfl⟩⟩, ?_⟩
  · exact List.toList_toArray
  · have definition : f.ended.definition = d.definition :=
      f.sameFunction_ended.definition.trans same.definition
    change f.ended.definition.result? = _
    rw [definition, opens.definition, sameBody, setting.body?, body]

/-- Program and body belong together at the start. -/
theorem Realization.together {b : Body} {d f : Draft} {marks : List Mark}
    (h : Realization env insts b d f marks) (classified : ∀ inst ∈ insts, inst.Classified) :
    Together b f marks (.start insts) b.start := by
  obtain ⟨n, opened⟩ := h.open?
  have notLabel : Lower.isLabel d.last? = false := by
    rw [h.last?]
    rfl
  have point : Point f marks d insts [] marks := by
    refine ⟨h.sound, h.runs, rfl, fun m hm => absurd hm List.not_mem_nil, fun isLabel => ?_,
      classified⟩
    rw [notLabel] at isLabel
    cases isLabel
  refine ⟨d, n, [], marks, point, opened, ?_, ?_, ?_⟩
  · rw [h.last?]
    rfl
  · rw [h.constructs]
    exact .nil
  · rw [h.done, Body.start, Body.enter, h.real.events]
    rfl

/-- The family that belongs to an opcode says whether it directs control. -/
theorem Instruction.HasFamily.classified {inst : Instruction} (h : inst.HasFamily) :
    inst.Classified :=
  fun _ known control => (h.family_eq known).trans control

/-- In a stage with one body, lowering preserves the meaning of control flow. Whatever the oracle
says, as many events as one may ask for are the same in the body as in the program, and so is the
ending; control never comes where it should not. The body is the one that the entry point calls. -/
theorem lowerInstructions_refines (notHull : env.stage ≠ .hull)
    (classified : ∀ inst ∈ insts, inst.Classified)
    (lowered : lowerInstructions env insts = .ok l) :
    ∃ b, body? env insts = some b ∧ b.function.definition.result? = l.state.body? ∧
      ∀ (oracle : Nat → UInt32) (n : Nat), ∃ events ending,
        (Cursor.step oracle).Yields (.start insts) n events ending ∧
          (b.step oracle).Yields b.start n events ending ∧ ending ≠ .undefined := by
  obtain ⟨b, d, f, marks, realization, definition⟩ := exists_realization notHull lowered
  refine ⟨b, realization.body, definition, fun oracle n => ?_⟩
  have together := realization.together classified
  have simulates := realization.real.simulates oracle
  obtain ⟨events, ending, yields⟩ := (Cursor.step oracle).exists_yields (.start insts) n
  refine ⟨events, ending, yields, (simulates.yields_iff together n events ending).1 yields, ?_⟩
  exact simulates.yields_defined (fun _ _ _ related step => (related.stop realization.real step).1)
    together yields

/-- A pixel shader that leaves a loop between two instructions. -/
def breakInLoop : Program :=
  .assume [0x50, 10, 0x01000030, 0x0100003a, 0x03040003, 0x00004001, 1, 0x0100003a, 0x01000016,
    0x0100003e]

theorem lowerInstructions_refines_breakInLoop :
    ∃ insts l b, breakInLoop.instructions = .ok insts ∧
      lowerInstructions (breakInLoop.environment insts ⟨[], [], []⟩ .default) insts = .ok l ∧
      body? (breakInLoop.environment insts ⟨[], [], []⟩ .default) insts = some b ∧
      ∀ (oracle : Nat → UInt32) (n : Nat), ∃ events ending,
        (Cursor.step oracle).Yields (.start insts) n events ending ∧
          (b.step oracle).Yields b.start n events ending ∧ ending ≠ .undefined := by
  have succeeds : (compile breakInLoop ⟨[], [], []⟩ .default).isOk = true := by decide +kernel
  cases compiled : compile breakInLoop ⟨[], [], []⟩ .default with
  | error e =>
    rw [compiled] at succeeds
    cases succeeds
  | ok artifact =>
    obtain ⟨insts, l, decoded, lowered, _⟩ := compile_eq_ok.1 compiled
    have classified : ∀ inst ∈ insts, inst.Classified := fun inst member =>
      Instruction.HasFamily.classified (breakInLoop.hasFamily decoded inst member)
    have notHull : breakInLoop.stage ≠ .hull := by decide
    obtain ⟨b, body, _, same⟩ := lowerInstructions_refines notHull classified lowered
    exact ⟨insts, l, b, decoded, lowered, body, same⟩

end ShaderLowering
