import ShaderLowering.Proofs.Control.Brackets
import ShaderLowering.Proofs.Control.Lowered
import ShaderLowering.Proofs.Lowering.Opening

/-!
Which lists of control-flow instructions a pixel shader may consist of. An instruction is lowered
exactly where the machine of the grammar can read its opcode, and the shader can be finished exactly
when the stack of brackets is empty. So the lists that are accepted are those that the grammar
derives, and the depth of a lowering counts the constructs that are open.
-/

namespace ShaderLowering

open Spirv (Id)

namespace Opcode

/-- The control-flow instructions that compute a condition or selector. -/
def computes : Opcode → Bool
  | .ifOp | .switch | .breakIf | .continueIf | .retIf | .discard => true
  | _ => false

end Opcode

/-- A control-flow instruction with its opcode. Its condition, selector or literal is an immediate,
if it has one. -/
structure Instruction.Steers (inst : Instruction) (op : Opcode) : Prop where
  op? : inst.op? = some op
  family : inst.family = .controlFlow
  immediate : op.computes = true ∨ op = .caseOp → Lower.HasImmediate inst

namespace Bracket

/-- Conditions and selectors are only read where a statement may stand. -/
theorem isOpen_of_computes {stack next : List Bracket} {op : Opcode} (computes : op.computes = true)
    (h : step? stack op = some next) : isOpen stack = true := by
  cases reads_of_step h with
  | openIf opened | openLoop opened | openSwitch opened | jump opened => exact opened
  | firstLabel labels | label labels =>
    obtain rfl | rfl := Opcode.eq_of_labels labels <;> cases computes
  | _ => cases computes

end Bracket

namespace Draft

variable {d e : Draft}

theorem Writes.regular (w : d.Writes e) (h : d.Regular) : e.Regular := by
  obtain ⟨code, next, globals, _, _, _, rfl⟩ := w
  refine ⟨?_, h.inner, h.placed⟩
  rw [Option.isSome_map]
  exact h.open?

theorem Writes.brackets_eq (w : d.Writes e) : e.brackets = d.brackets := by
  obtain ⟨code, next, globals, _, _, _, rfl⟩ := w
  rfl

end Draft

namespace Lower

variable {env : Environment} {s t : State} {d : Draft} {inst : Instruction} {op : Opcode}

/-- Where there is a place for it, the condition, selector or literal of an instruction is there. -/
theorem tested_total (steers : inst.Steers op) (pixel : env.stage = .pixel)
    (place : op.computes = true → s.HasPlace) :
    ∃ id t, (tested inst).run env s = (.ok id, t) ∧ t.stage = s.stage := by
  cases computes : op.computes with
  | true =>
    have immediate := steers.immediate (.inl computes)
    have available : True → s.HasPlace := fun _ => place computes
    have conditional := condition_succeeds immediate env s available
    unfold tested
    rw [steers.op?]
    unfold Opcode.computes at computes
    split at computes
    case h_1 | h_3 | h_4 | h_5 => exact conditional
    case h_2 => exact selector_succeeds immediate env s available
    case h_6 =>
      have checked : ¬ env.stage ≠ .pixel := fun h => h pixel
      dsimp only
      rw [run_idle_bind (Emission.run_read env s), if_neg checked]
      exact conditional
    case h_7 => cases computes
  | false =>
    by_cases label : op = .caseOp
    · obtain ⟨operand, first, immediate⟩ := steers.immediate (.inr label)
      have found : (source inst 0).run env s = (.ok operand, s) := by
        unfold source
        rw [first]
        rfl
      have checked : ¬ operand.type ≠ .imm32 := fun h => h immediate
      refine ⟨0, s, ?_, rfl⟩
      unfold tested
      rw [steers.op?, label]
      dsimp only
      rw [run_idle_bind found, if_neg checked]
      rfl
    · refine ⟨0, s, ?_, rfl⟩
      unfold tested
      rw [steers.op?]
      cases op <;> first | rfl | exact absurd rfl label | cases computes

/-- Whatever is computed first, an instruction that the machine cannot read is refused. -/
theorem lowerControlFlow_refused (steers : inst.Steers op) (hd : d.Describes s)
    (regular : d.Regular)
    (stuck : Bracket.step? d.brackets op = none) :
    result (lowerControlFlow inst) env s ≠ (.ok (), t) := by
  intro run
  obtain ⟨e, f, id, writes, _, directed, _⟩ := lowerControlFlow_describes hd run
  have mirrors := Draft.control_mirrors (writes.regular regular) steers.op? id
  rw [directed, writes.brackets_eq, stuck] at mirrors
  cases mirrors

/-- An instruction that the machine can read is lowered. -/
theorem lowerControlFlow_accepted {next : List Bracket} (steers : inst.Steers op)
    (pixel : env.stage = .pixel) (hd : d.Describes s) (regular : d.Regular)
    (reads : Bracket.step? d.brackets op = some next) :
    ∃ (t : State) (e : Draft), result (lowerControlFlow inst) env s = (.ok (), t) ∧
      e.Describes t ∧ e.Regular ∧
      e.brackets = next ∧ t.stage = s.stage := by
  have place (computes : op.computes = true) : s.HasPlace := by
    obtain ⟨n, ho⟩ := regular.exists_open (Bracket.isOpen_of_computes computes reads)
    refine ⟨?_, ?_⟩
    · rw [hd.builder.function?]
      rfl
    · rw [hd.builder.block?_of_open ho]
      rfl
  obtain ⟨id, u, tested, stage⟩ := tested_total steers pixel place
  obtain ⟨e, writes, described⟩ := (Emission.emits_of_run tested).describes hd
  have mirrors := Draft.control_mirrors (writes.regular regular) steers.op? id
  have follows := directed_follows inst id env u e described
  rw [writes.brackets_eq, reads] at mirrors
  generalize directed : e.control? inst id = f? at mirrors follows
  cases mirrors with
  | there regular' =>
    obtain ⟨b, reached, described'⟩ := follows
    exact ⟨_, _, lowerControlFlow_eq_ok.2 ⟨id, u, tested, reached⟩, described', regular',
      rfl, stage⟩

end Lower

namespace Lowering

/-- A pixel shader in the course of being lowered, without interface registers, with given
constructs open. -/
structure Stands (l : Lowering) (stack : List Bracket) : Prop where
  pixel : l.environment.stage = .pixel
  inFunction : l.state.inFunction = true
  body? : l.state.body?.isSome = true
  stage : ∃ mode? early, l.state.stage = .pixel mode? early
  inputs : l.state.inputs = .empty
  outputs : l.state.outputs = .empty
  patchInputs : l.state.patchInputs = .empty
  draft : ∃ d : Draft, d.Describes l.state ∧ d.Regular ∧ d.brackets = stack

variable {l m : Lowering} {stack next : List Bracket} {inst : Instruction} {op : Opcode}
  {insts : List Instruction} {ops : List Opcode}

namespace Stands

theorem depth_eq (h : l.Stands stack) : l.depth = stack.length := by
  obtain ⟨d, hd, _, rfl⟩ := h.draft
  rw [depth, hd.constructs, Draft.brackets, List.length_map]

/-- What the machine can read is lowered, and then both agree again on what is open. -/
theorem step (h : l.Stands stack) (steers : inst.Steers op)
    (reads : Bracket.step? stack op = some next) :
    ∃ m, l.step inst = (.ok (), m) ∧ m.Stands next := by
  obtain ⟨d, hd, regular, rfl⟩ := h.draft
  obtain ⟨t, e, run, described, regular', brackets, stage⟩ :=
    Lower.lowerControlFlow_accepted steers h.pixel hd regular reads
  obtain ⟨_, _, _, _, _, _, _, setting⟩ := Lower.lowerControlFlow_describes hd run
  have kept := (Lower.lowerControlFlow_keeps inst).of_ok run
  let m : Lowering := { l with state := { t with lastOpcode? := some inst.opcode } }
  have lowered : Lower.result (Lower.lowerInstruction inst) l.environment l.state =
      (.ok (), m.state) := by
    refine Lower.result_bind_eq_ok.2 ⟨(), t, ?_, rfl⟩
    exact (Lower.lowerByFamily_controlFlow steers.family).2 ⟨h.inFunction, run⟩
  refine ⟨m, step_eq_ok.2 ⟨lowered, rfl⟩, h.pixel, setting.inFunction.trans h.inFunction, ?_, ?_,
    kept.inputs.trans h.inputs, kept.outputs.trans h.outputs, kept.patchInputs.trans h.patchInputs,
    ?_⟩
  · exact (congrArg Option.isSome setting.body?).trans h.body?
  · obtain ⟨mode?, early, known⟩ := h.stage
    exact ⟨mode?, early, stage.trans known⟩
  · refine ⟨{ e with last? := inst.op? }, ⟨described.builder.withLast _, described.constructs, rfl⟩,
      ⟨regular'.open?, regular'.inner, regular'.placed⟩, brackets⟩

/-- What the machine cannot read is refused. -/
theorem step_refused (h : l.Stands stack) (steers : inst.Steers op)
    (stuck : Bracket.step? stack op = none) : l.step inst ≠ (.ok (), m) := by
  intro run
  obtain ⟨d, hd, regular, rfl⟩ := h.draft
  obtain ⟨_, t, lowered, _⟩ := Lower.result_bind_eq_ok.1 (step_eq_ok.1 run).1
  have controlled := ((Lower.lowerByFamily_controlFlow steers.family).1 lowered).2
  exact Lower.lowerControlFlow_refused steers hd regular stuck controlled

/-- What the machine can read is lowered, instruction by instruction. -/
theorem steps (h : l.Stands stack) (steers : List.Forall₂ Instruction.Steers insts ops)
    (run : Bracket.run? stack ops = some next) : ∃ m, l.steps insts = .ok m ∧ m.Stands next := by
  induction steers generalizing l stack with
  | nil =>
    cases run
    exact ⟨l, rfl, h⟩
  | cons first _ ih =>
    obtain ⟨middle, reads, run⟩ := Option.bind_eq_some_iff.1 run
    obtain ⟨k, stepped, hk⟩ := h.step first reads
    obtain ⟨m, more, hm⟩ := ih hk run
    exact ⟨m, steps_cons.2 ⟨k, stepped, more⟩, hm⟩

/-- The machine can read what is lowered. -/
theorem run_of_steps (h : l.Stands stack) (steers : List.Forall₂ Instruction.Steers insts ops)
    (lowered : l.steps insts = .ok m) :
    ∃ next, Bracket.run? stack ops = some next ∧ m.Stands next := by
  induction steers generalizing l stack with
  | nil =>
    cases lowered
    exact ⟨stack, rfl, h⟩
  | @cons inst op _ ops first _ ih =>
    obtain ⟨k, stepped, lowered⟩ := steps_cons.1 lowered
    cases reads : Bracket.step? stack op with
    | none => exact absurd stepped (h.step_refused first reads)
    | some middle =>
      obtain ⟨k', stepped', hk⟩ := h.step first reads
      rw [stepped] at stepped'
      cases stepped'
      obtain ⟨next, run, hm⟩ := ih hk lowered
      refine ⟨next, ?_, hm⟩
      rw [Bracket.run_cons, reads]
      exact run

/-- A shader can be finished when all constructs are closed. -/
theorem close_iff (h : l.Stands stack) : (∃ m, l.close = .ok m) ↔ stack = [] := by
  obtain ⟨d, hd, regular, rfl⟩ := h.draft
  constructor
  · rintro ⟨m, closed⟩
    obtain ⟨notHull⟩ : Nonempty (l.state.stage.hull? = none) := by
      obtain ⟨_, _, stage⟩ := h.stage
      rw [stage]
      exact ⟨rfl⟩
    have finished := (run_eq_ok.1 (close_eq_ok.1 closed)).1
    exact Draft.brackets_nil (Lower.finish_pushes hd h.inFunction notHull finished).1
  · intro empty
    have constructs : d.constructs = [] := List.map_eq_nil_iff.1 empty
    obtain ⟨n, ho⟩ := regular.exists_open (by rw [empty]; rfl)
    obtain ⟨mode?, early, stage⟩ := h.stage
    have placed : Lower.Placed l.state true true l.state := by
      refine ⟨.refl _, ?_, ?_, rfl, rfl⟩
      · rw [hd.builder.function?]
        rfl
      · rw [hd.builder.block?_of_open ho]
        rfl
    obtain ⟨u, finished⟩ := Lower.finish_total h.pixel placed h.inFunction
      (hd.constructs.trans constructs) h.inputs h.outputs h.patchInputs h.body? stage
    exact ⟨⟨l.environment, u⟩, close_eq_ok.2 (run_eq_ok.2 ⟨finished, rfl⟩)⟩

end Stands

/-- A pixel shader begins with nothing open. -/
theorem start_stands {env : Environment} (pixel : env.stage = .pixel) :
    ∃ l, start env = .ok l ∧ l.Stands [] := by
  let initial : State := .initial env.options.version (.pixel none false)
  have notHull : env.stage ≠ .hull := by
    rw [pixel]
    exact ShaderStage.noConfusion
  have known : StageState.initial? env.stage = some (.pixel none false) := by
    rw [pixel]
    rfl
  obtain ⟨_, t, begun, same, stage⟩ := Lower.begin_leads notHull initial
    ⟨.refl initial, rfl, rfl, rfl, rfl⟩
  obtain ⟨d, id, hd, opens, body?, inFunction, _⟩ :=
    Lower.begin_opens notHull ⟨⟨rfl, rfl, rfl⟩, rfl, .refl _⟩ begun
  refine ⟨⟨env, t⟩, start_eq_ok.2 ⟨_, known, begun, rfl⟩, pixel, inFunction, ?_,
    ⟨none, false, stage⟩, same.inputs, same.outputs, same.patchInputs, d, hd, ?_, ?_⟩
  · exact Option.isSome_iff_exists.2 ⟨id, body?⟩
  · obtain ⟨n, ho⟩ := opens.open?
    apply Draft.Regular.of_open
    · rw [ho]
      rfl
    · rw [Draft.brackets_nil opens.plain.constructs]
      exact List.not_mem_nil
    · intro s hs
      rw [opens.plain.constructs] at hs
      exact absurd hs List.not_mem_nil
  · exact Draft.brackets_nil opens.plain.constructs

end Lowering

variable {env : Environment} {insts : List Instruction} {ops : List Opcode}

/-- A list of control-flow instructions makes a pixel shader exactly when the grammar derives it.
After each prefix that is accepted the depth counts the constructs that it opens and does not
close. -/
theorem accepts_iff_derives (pixel : env.stage = .pixel)
    (steers : List.Forall₂ Instruction.Steers insts ops) :
    ∃ first, Lowering.start env = .ok first ∧
      ((∃ last artifact, first.steps insts = .ok last ∧ last.finish = .ok artifact) ↔
        Derives .outermost .body ops) ∧
      ∀ n l, first.steps (insts.take n) = .ok l →
        l.depth + (ops.take n).countP Opcode.closes = (ops.take n).countP Opcode.opens := by
  obtain ⟨first, started, stands⟩ := Lowering.start_stands pixel
  refine ⟨first, started, ?_, fun n l lowered => ?_⟩
  · rw [← Bracket.run_iff_derives]
    constructor
    · rintro ⟨last, artifact, lowered, finished⟩
      obtain ⟨stack, run, hl⟩ := stands.run_of_steps steers lowered
      obtain ⟨m, closed, _⟩ : ∃ m, last.close = .ok m ∧ m.artifact = artifact := by
        unfold Lowering.finish at finished
        cases closed : last.close with
        | error e =>
          rw [closed] at finished
          cases finished
        | ok m =>
          rw [closed] at finished
          cases finished
          exact ⟨m, rfl, rfl⟩
      rw [run, hl.close_iff.1 ⟨m, closed⟩]
    · intro run
      obtain ⟨last, lowered, hl⟩ := stands.steps steers run
      obtain ⟨m, closed⟩ := hl.close_iff.2 rfl
      refine ⟨last, m.artifact, lowered, ?_⟩
      rw [Lowering.finish, closed]
      rfl
  · obtain ⟨stack, run, hl⟩ := stands.run_of_steps (List.forall₂_take n steers) lowered
    have counted := Bracket.length_of_run run
    rw [hl.depth_eq]
    simpa using counted

/-- A pixel shader without signatures. -/
def barePixel : Environment :=
  ⟨.pixel, .default, .empty, .empty, .empty, .ofProgram [] .empty .empty⟩

/-- An instruction with an opcode and an immediate. -/
def directive (op : Opcode) (immediate : UInt32) : Instruction :=
  { (default : Instruction) with
    opcode := op.code
    family := .controlFlow
    src := [{ (default : Operand) with type := .imm32, imm := .replicate immediate }] }

/-- A loop that is left under a condition, and an instruction in it that is not reached. -/
def guardedLoop : List Instruction :=
  [directive .loop 0, directive .breakIf 1, directive .continueOp 0, directive .endLoop 0]

theorem accepts_iff_derives_guardedLoop :
    ∃ first last artifact, Lowering.start barePixel = .ok first ∧
      first.steps guardedLoop = .ok last ∧ last.finish = .ok artifact := by
  have steers (op : Opcode) (immediate : UInt32) (known : Opcode.ofCode? op.code = some op) :
      (directive op immediate).Steers op := ⟨known, rfl, fun _ => ⟨_, rfl, rfl⟩⟩
  have all : List.Forall₂ Instruction.Steers guardedLoop
      [.loop, .breakIf, .continueOp, .endLoop] := by
    refine .cons (steers _ _ ?_) (.cons (steers _ _ ?_) (.cons (steers _ _ ?_)
      (.cons (steers _ _ ?_) .nil)))
    all_goals decide +kernel
  have derives : Derives .outermost .body [.loop, .breakIf, .continueOp, .endLoop] := by
    apply Bracket.run_iff_derives.1
    decide
  obtain ⟨first, started, accepts, _⟩ := @accepts_iff_derives barePixel _ _ rfl all
  obtain ⟨last, artifact, lowered, finished⟩ := accepts.2 derives
  exact ⟨first, last, artifact, started, lowered, finished⟩

end ShaderLowering
