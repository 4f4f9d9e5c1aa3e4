import ShaderLowering.Proofs.Conduct.Instructions

/-!
Stripping debug names. Two lowerings of a shader that differ only in whether names are stripped go
in step from the first instruction to the entry point. So both fail for the same reason, or both
succeed, and then one module is the other without its names.
-/

namespace ShaderLowering

open Spirv (Instr)

namespace Lower

theorem begin_blind : Blind (result begin) :=
  (begin_neat : Neat CompileError.IsAny [] begin).blind

theorem lowerInstruction_blind (inst : Instruction) : Blind (result (lowerInstruction inst)) :=
  (lowerInstruction_marksOnce (.inr fun _ => trivial) :
    MarksOnce CompileError.IsAny _ (lowerInstruction inst)).blind

theorem finish_blind : Blind (result finish) :=
  (finish_neat : Neat CompileError.IsAny [] finish).blind

end Lower

namespace Lowering

variable {env : Environment} {l m : Lowering} {insts : List Instruction}

/-- A lowering where debug names are stripped. -/
def unnamed (l : Lowering) : Lowering :=
  ⟨l.environment.unnamed, l.state.unnamed⟩

theorem run_unnamed {step : Lower Unit} (blind : Blind (Lower.result step)) (l : Lowering) :
    l.unnamed.run step = ((l.run step).1, (l.run step).2.unnamed) := by
  change ((Lower.result step l.environment.unnamed l.state.unnamed).1,
    Lowering.mk l.environment.unnamed
      (Lower.result step l.environment.unnamed l.state.unnamed).2) = _
  rw [blind.same]
  rfl

theorem start_unnamed (env : Environment) : start env.unnamed = (start env).map unnamed := by
  unfold start
  rw [show env.unnamed.stage = env.stage from rfl]
  cases StageState.initial? env.stage with
  | none => rfl
  | some stage =>
    dsimp only
    have opens := run_unnamed Lower.begin_blind ⟨env, .initial env.options.version stage⟩
    rw [show run ⟨env.unnamed, .initial env.unnamed.options.version stage⟩ Lower.begin = _
      from opens]
    cases (run ⟨env, .initial env.options.version stage⟩ Lower.begin).1 <;> rfl

/-- Up to any instruction the lowerings go in step. -/
theorem steps_unnamed (l : Lowering) (insts : List Instruction) :
    l.unnamed.steps insts = (l.steps insts).map unnamed := by
  induction insts generalizing l with
  | nil => rfl
  | cons inst rest ih =>
    have step : l.unnamed.step inst = ((l.step inst).1, (l.step inst).2.unnamed) :=
      run_unnamed (Lower.lowerInstruction_blind inst) l
    rw [steps, steps, step]
    cases l.step inst with
    | mk r m =>
      cases r with
      | error e => rfl
      | ok _ => exact ih m

theorem close_unnamed (l : Lowering) : l.unnamed.close = l.close.map unnamed := by
  unfold close
  rw [run_unnamed Lower.finish_blind]
  cases l.run Lower.finish with
  | mk r m => cases r <;> rfl

theorem namesApart_start (started : start env = .ok l) : l.state.NamesApart := by
  obtain ⟨stage, _, begun, _⟩ := start_eq_ok.1 started
  have apart := Lower.begin_blind.apart env (.initial env.options.version stage)
    (Spirv.Module.namesApart_empty _)
  rw [begun] at apart
  exact apart

theorem namesApart_steps (apart : l.state.NamesApart) (stepped : l.steps insts = .ok m) :
    m.state.NamesApart := by
  induction insts generalizing l with
  | nil =>
    cases stepped
    exact apart
  | cons inst rest ih =>
    obtain ⟨k, step, more⟩ := steps_cons.1 stepped
    have kept := (Lower.lowerInstruction_blind inst).apart l.environment l.state apart
    rw [(step_eq_ok.1 step).1] at kept
    exact ih kept more

theorem namesApart_close (apart : l.state.NamesApart) (closed : l.close = .ok m) :
    m.state.NamesApart := by
  have kept := Lower.finish_blind.apart l.environment l.state apart
  rw [(run_eq_ok.1 (close_eq_ok.1 closed)).1] at kept
  exact kept

end Lowering

theorem lowerInstructions_unnamed (env : Environment) (insts : List Instruction) :
    lowerInstructions env.unnamed insts = (lowerInstructions env insts).map Lowering.unnamed := by
  unfold lowerInstructions
  rw [Lowering.start_unnamed]
  cases Lowering.start env with
  | error e => rfl
  | ok first =>
    change (first.unnamed.steps insts >>= Lowering.close) =
      (first.steps insts >>= Lowering.close).map Lowering.unnamed
    rw [Lowering.steps_unnamed]
    cases first.steps insts with
    | error e => rfl
    | ok last => exact last.close_unnamed

theorem lowerInstructions_namesApart {env : Environment} {insts : List Instruction} {l : Lowering}
    (lowered : lowerInstructions env insts = .ok l) : l.state.NamesApart := by
  obtain ⟨first, last, started, stepped, closed⟩ := lowerInstructions_eq_ok.1 lowered
  exact Lowering.namesApart_close
    (Lowering.namesApart_steps (Lowering.namesApart_start started) stepped) closed

/-- The second lowering gives what the first one gives, without its debug names. -/
structure Lowering.StripsTo (l m : Lowering) : Prop where
  bound : m.state.builder.nextId = l.state.builder.nextId
  header : m.artifact.code.take 5 = l.artifact.code.take 5
  instructions : m.state.builder.module.instructions =
    l.state.builder.module.instructions.filter (!·.isName)
  code : m.artifact.code = l.artifact.code.take 5 ++
    (l.state.builder.module.instructions.filter (!·.isName)).flatMap Instr.words
  stage : m.artifact.stage = l.artifact.stage
  entryPoint : m.artifact.entryPoint = l.artifact.entryPoint
  slots : m.artifact.slots = l.artifact.slots
  interface : m.artifact.interface = l.artifact.interface

/-- A module starts with five words of its own. -/
theorem Lowering.take_code (l : Lowering) :
    l.artifact.code.take 5 = l.state.builder.module.header l.state.builder.nextId :=
  List.take_left' rfl

theorem Lowering.stripsTo_unnamed {l : Lowering} (apart : l.state.NamesApart) :
    l.StripsTo l.unnamed where
  bound := rfl
  header := l.unnamed.take_code.trans l.take_code.symm
  instructions := apart.instructions_unnamed
  code := by
    rw [← Spirv.Module.NamesApart.instructions_unnamed apart, take_code]
    rfl
  stage := rfl
  entryPoint := rfl
  slots := rfl
  interface := rfl

/-- Compiled with debug names and without, a program fails for the same reason, or gives the same
but for the names. -/
theorem compile_stripNames (program : Program) (entries : SignatureEntries) (options : Options) :
    (∃ e, compile program entries { options with stripNames := false } = .error e ∧
      compile program entries { options with stripNames := true } = .error e) ∨
    ∃ insts l m, program.instructions = .ok insts ∧
      lowerInstructions (program.environment insts entries { options with stripNames := false })
        insts = .ok l ∧
      lowerInstructions (program.environment insts entries { options with stripNames := true })
        insts = .ok m ∧
      compile program entries { options with stripNames := false } = .ok l.artifact ∧
      compile program entries { options with stripNames := true } = .ok m.artifact ∧
      l.StripsTo m := by
  cases decoded : program.instructions with
  | error e =>
    have fails (o : Options) : compile program entries o = .error (.malformed e) := by
      unfold compile
      rw [decoded]
    exact .inl ⟨_, fails _, fails _⟩
  | ok insts =>
    have runs (o : Options) : compile program entries o =
        (lowerInstructions (program.environment insts entries o) insts).map Lowering.artifact := by
      unfold compile
      rw [decoded]
    have strips := lowerInstructions_unnamed
      (program.environment insts entries { options with stripNames := false }) insts
    change lowerInstructions (program.environment insts entries { options with stripNames := true })
      insts = _ at strips
    rw [runs, runs, strips]
    cases lowered : lowerInstructions
      (program.environment insts entries { options with stripNames := false }) insts with
    | error e => exact .inl ⟨e, rfl, rfl⟩
    | ok l =>
      rw [lowered] at strips
      exact .inr ⟨insts, l, l.unnamed, rfl, lowered, strips, rfl, rfl,
        Lowering.stripsTo_unnamed (lowerInstructions_namesApart lowered)⟩

end ShaderLowering
