import ShaderLowering.Proofs.Control.Acceptance

/-!
Refused instructions. What a step did before it failed stays done. Constructs are opened last,
after everything that can fail, and most instructions that are refused leave them as they were. But
an instruction that closes a construct takes the innermost off the stack before it looks at it, so
a construct that is not its own is lost, and what it announced is never placed.
-/

namespace ShaderLowering

open Spirv (Id)

namespace Lower

variable {α β : Type} {env : Environment} {s t : State}

/-- A step that does nothing to the constructs, whether it fails or not. -/
def Spares (m : Lower α) : Prop :=
  ∀ env s r t, result m env s = (r, t) → t.constructs = s.constructs

/-- A step that leaves the constructs as they were if it fails. -/
def Cautious (m : Lower α) : Prop :=
  ∀ env s e t, result m env s = (.error e, t) → t.constructs = s.constructs

namespace Spares

theorem pure (a : α) : Spares (Pure.pure a : Lower α) := by
  intro env s r t ran
  cases ran
  rfl

theorem bind {m : Lower α} {k : α → Lower β} (first : Spares m) (later : ∀ a, Spares (k a)) :
    Spares (m >>= k) := by
  intro env s r t ran
  rw [result_bind] at ran
  rcases ran₁ : result m env s with ⟨e | a, u⟩
  · rw [ran₁] at ran
    cases ran
    exact first env s _ t ran₁
  · rw [ran₁] at ran
    exact (later a env u r t ran).trans (first env s _ u ran₁)

theorem emission (m : Emission α) : Spares (liftM m) :=
  fun _ _ _ _ ran => (Emission.emits_of_run ran).constructs

theorem interfaceStep (m : InterfaceStep α) : Spares (liftM m) :=
  fun _ _ _ _ ran => (m.emits_of_run ran).constructs

theorem tryBuild (f : Spirv.Builder → Except Spirv.BuildError Spirv.Builder) :
    Spares (tryBuild f) := by
  intro env s r t ran
  rw [result_tryBuild] at ran
  split at ran <;> cases ran <;> rfl

theorem get : Spares MonadState.get := by
  intro env s r t ran
  cases ran
  rfl

theorem read : Spares MonadReader.read := by
  intro env s r t ran
  cases ran
  rfl

theorem modify {f : State → State} (same : ∀ s, (f s).constructs = s.constructs) :
    Spares (modify f) := by
  intro env s r t ran
  cases ran
  exact same s

theorem ite {p : Prop} [Decidable p] {yes no : Lower α} (hyes : Spares yes) (hno : Spares no) :
    Spares (if p then yes else no) := by
  split
  · exact hyes
  · exact hno

end Spares

namespace Cautious

theorem of_spares {m : Lower α} (spares : Spares m) : Cautious m :=
  fun env s _ t ran => spares env s _ t ran

/-- What may fail is done first, and does nothing to the constructs. -/
theorem bind {m : Lower α} {k : α → Lower β} (first : Spares m) (later : ∀ a, Cautious (k a)) :
    Cautious (m >>= k) := by
  intro env s e t ran
  rw [result_bind] at ran
  rcases ran₁ : result m env s with ⟨e | a, u⟩
  · rw [ran₁] at ran
    cases ran
    exact first env s _ t ran₁
  · rw [ran₁] at ran
    exact (later a env u e t ran).trans (first env s _ u ran₁)

/-- What is done last cannot fail. -/
theorem bind_pure {m : Lower α} {k : α → Lower β} (first : Cautious m)
    (last : ∀ a env s e t, result (k a) env s ≠ (.error e, t)) : Cautious (m >>= k) := by
  intro env s e t ran
  rw [result_bind] at ran
  rcases ran₁ : result m env s with ⟨e | a, u⟩
  · rw [ran₁] at ran
    cases ran
    exact first env s _ t ran₁
  · rw [ran₁] at ran
    exact absurd ran (last a env u e t)

/-- Changing the state does not fail. -/
theorem modify (f : State → State) : Cautious (modify f) := by
  intro env s e t ran
  cases ran

end Cautious

theorem terminate_spares (op : Spirv.ControlOp) (args : List Spirv.Arg) :
    Spares (terminate op args) :=
  .tryBuild _

theorem branch_spares (label : Id) : Spares (branch label) :=
  terminate_spares _ _

theorem ret_spares : Spares ret :=
  terminate_spares _ _

theorem selectionMerge_spares (label : Id) : Spares (selectionMerge label) :=
  .tryBuild _

theorem beginBlock_spares (label : Id) : Spares (beginBlock label) :=
  .tryBuild _

theorem beginFreshBlock_spares : Spares beginFreshBlock :=
  .tryBuild _

theorem openBlock_spares : Spares openBlock? :=
  .bind .get fun _ => .pure _

theorem openFunction_spares (id? : Option Id) : Spares (openFunction id?) := by
  refine .bind (.emission _) fun void => .bind (.emission _) fun type => ?_
  refine .bind .get fun s => ?_
  cases s.builder.beginFunction void type id? with
  | error e =>
    intro env s r t ran
    cases ran
    rfl
  | ok p => exact .bind (.modify fun _ => rfl) fun _ => .pure _

theorem beginBody_spares (text : String) : Spares (beginBody text) :=
  .bind (openFunction_spares none) fun _ => .bind (.emission _) fun _ =>
    .bind beginFreshBlock_spares fun _ => .bind (.modify fun _ => rfl) fun _ => .pure _

theorem closeBody_spares : Spares closeBody := by
  refine .bind .get fun s => .ite ?_ (.pure ())
  have close : Spares (do endFunction; modify fun s => { s with inFunction := false }) :=
    .bind (.tryBuild _) fun _ => .modify fun _ => rfl
  have ended : Spares (do
      if (← openBlock?).isSome then ret
      endFunction
      modify fun s => { s with inFunction := false }) :=
    .bind openBlock_spares fun _ => .ite (.bind ret_spares fun _ => close) close
  exact .bind .get fun s => .ite (.bind (.emission _) fun _ => ended) ended

theorem beginControlPointPhase_spares : Spares beginControlPointPhase := by
  have begins : Spares (do
      let function ← beginBody "hs_control_point"
      let h ← hullState
      setHullState { h with controlPoint? := some function, phase := .controlPoint }) :=
    .bind (beginBody_spares _) fun function => .bind (.emission _) fun h => .interfaceStep _
  exact .bind (.emission _) fun h => .ite (.bind (.emission _) fun _ => begins) begins

theorem beginPatchPhase_spares (isJoin : Bool) : Spares (beginPatchPhase isJoin) := by
  refine .bind (.emission _) fun h => .bind (.emission _) fun word => ?_
  refine .bind (.emission _) fun instanceId => .bind (.emission _) fun _ => ?_
  exact .bind (beginBody_spares _) fun function => .bind (.emission _) fun h => .interfaceStep _

theorem lowerHullPhase_spares (inst : Instruction) : Spares (lowerHullPhase inst) := by
  refine .bind (.emission _) fun _ => .bind closeBody_spares fun _ => ?_
  split
  · exact .bind (.emission _) fun h => .interfaceStep _
  · exact beginControlPointPhase_spares
  · exact beginPatchPhase_spares false
  · exact beginPatchPhase_spares true
  · exact .emission _

theorem jumpTo_spares (label : Id) : Spares (jumpTo label) :=
  .bind (branch_spares label) fun _ => beginFreshBlock_spares

theorem jumpIf_spares (inst : Instruction) {jump : Lower Unit} (h : Spares jump) :
    Spares (jumpIf inst jump) := by
  refine .bind (.emission _) fun condition => .bind (.emission _) fun taken => ?_
  refine .bind (.emission _) fun merge => .bind (selectionMerge_spares merge) fun _ => ?_
  refine .bind (terminate_spares _ _) fun _ => .bind (beginBlock_spares taken) fun _ => ?_
  exact .bind h fun _ => beginBlock_spares merge

theorem breakTarget_spares : Spares breakTarget :=
  .bind .get fun _ => .emission _

theorem continueTarget_spares : Spares continueTarget :=
  .bind .get fun _ => .emission _

theorem lastOp_spares : Spares lastOp? :=
  .bind .get fun _ => .pure _

theorem closeCase_spares (next : Id) : Spares (closeCase next) := by
  have closes : Spares (do
      if isJump (← lastOp?) then terminate .unreachable [] else branch next) :=
    .bind lastOp_spares fun _ => .ite (terminate_spares _ _) (branch_spares next)
  exact .bind openBlock_spares fun _ => .ite (.pure ()) closes

theorem lowerIf_cautious (inst : Instruction) : Cautious (lowerIf inst) := by
  refine .bind (.emission _) fun condition => .bind (.emission _) fun thenLabel => ?_
  refine .bind (.emission _) fun elseLabel => .bind (.emission _) fun endLabel => ?_
  refine .bind (selectionMerge_spares _) fun _ => .bind (terminate_spares _ _) fun _ => ?_
  exact .bind (beginBlock_spares _) fun _ => .modify _

theorem lowerLoop_cautious : Cautious lowerLoop := by
  refine .bind (.emission _) fun headerLabel => .bind (.emission _) fun bodyLabel => ?_
  refine .bind (.emission _) fun continueLabel => .bind (.emission _) fun breakLabel => ?_
  refine .bind (branch_spares _) fun _ => .bind (beginBlock_spares _) fun _ => ?_
  refine .bind (.tryBuild _) fun _ => .bind (branch_spares _) fun _ => ?_
  exact .bind (beginBlock_spares _) fun _ => .modify _

theorem lowerSwitch_cautious (inst : Instruction) : Cautious (lowerSwitch inst) := by
  refine .bind (.emission _) fun selector => .bind (.emission _) fun headerLabel => ?_
  refine .bind (.emission _) fun breakLabel => .bind (branch_spares _) fun _ => ?_
  refine .bind (beginBlock_spares _) fun _ => .bind openBlock_spares fun block? => ?_
  refine .bind (.emission _) fun header => .bind (.modify fun _ => rfl) fun _ => ?_
  exact .modify _

theorem caseLabel_cautious : Cautious caseLabel := by
  refine .bind lastOp_spares fun last? => .bind .get fun s => ?_
  split
  · split
    · exact .of_spares (.pure _)
    · refine .bind (.emission _) fun label => .bind (closeCase_spares _) fun _ => ?_
      refine .bind (beginBlock_spares _) fun _ => .bind_pure (.modify _) fun _ env s e t ran => ?_
      cases ran
  · exact .of_spares (.emission _)

theorem lowerCase_cautious (inst : Instruction) : Cautious (lowerCase inst) := by
  have labels (op : Operand) : Cautious (do
      let label ← caseLabel
      modifySwitch fun s => Switch.addCase s op.imm.x label) :=
    .bind_pure caseLabel_cautious fun _ env s e t ran => by cases ran
  refine .bind (.emission _) fun op => ?_
  split
  · exact .bind (.emission _) fun _ => labels op
  · exact labels op

theorem lowerDefault_cautious : Cautious lowerDefault :=
  .bind_pure caseLabel_cautious fun _ env s e t ran => by cases ran

end Lower

/-- The constructs with a mark that the innermost branch has had its `else`. -/
def markElse : List Construct → List Construct
  | .branch elseLabel endLabel _ :: rest => .branch elseLabel endLabel true :: rest
  | constructs => constructs

/-- What an instruction that is refused leaves of the constructs: one that closes a construct has
taken the innermost off the stack, and `else` has marked the branch that it belongs to. -/
def Opcode.forfeits (op : Opcode) (constructs : List Construct) : List Construct :=
  match op with
  | .endIf | .endLoop | .endSwitch => constructs.tail
  | .elseOp => markElse constructs
  | _ => constructs

theorem Opcode.forfeits_of_closes {op : Opcode} (closes : op.closes = true)
    (constructs : List Construct) : op.forfeits constructs = constructs.tail := by
  unfold Opcode.closes at closes
  split at closes
  · rfl
  · rfl
  · rfl
  · cases closes

namespace Lower

variable {env : Environment} {s t : State} {inst : Instruction} {e : CompileError}

/-- A step after the innermost construct has been taken off the stack. -/
theorem constructs_of_popped {k : Option Construct → Lower Unit} (later : ∀ c?, Spares (k c?))
    (failed : result (popConstruct >>= k) env s = (.error e, t)) :
    t.constructs = s.constructs.tail := by
  rw [result_bind, popConstruct, result_modifyGet] at failed
  unfold andThen at failed
  dsimp only at failed
  cases hc : s.constructs with
  | nil =>
    rw [hc] at failed
    exact (later none env s _ t failed).trans hc
  | cons c rest =>
    rw [hc] at failed
    exact later (some c) env _ _ t failed

theorem lowerEndIf_forfeits (failed : result lowerEndIf env s = (.error e, t)) :
    t.constructs = s.constructs.tail := by
  refine constructs_of_popped (fun c? => ?_) failed
  split
  · next elseLabel endLabel hadElse =>
    have ends : Spares (beginBlock endLabel) := beginBlock_spares endLabel
    refine .bind (branch_spares endLabel) fun _ => .ite ends ?_
    exact .bind (beginBlock_spares elseLabel) fun _ => .bind (branch_spares endLabel) fun _ => ends
  · exact .emission _

theorem lowerEndLoop_forfeits (failed : result lowerEndLoop env s = (.error e, t)) :
    t.constructs = s.constructs.tail := by
  refine constructs_of_popped (fun c? => ?_) failed
  split
  · exact .bind (branch_spares _) fun _ => .bind (beginBlock_spares _) fun _ =>
      .bind (branch_spares _) fun _ => beginBlock_spares _
  · exact .emission _

theorem lowerEndSwitch_forfeits (failed : result lowerEndSwitch env s = (.error e, t)) :
    t.constructs = s.constructs.tail := by
  refine constructs_of_popped (fun c? => ?_) failed
  split
  · next s =>
    have header : Spares (closeHeader s) :=
      .bind (.tryBuild _) fun _ => .bind (selectionMerge_spares _) fun _ => terminate_spares _ _
    exact .bind (closeCase_spares _) fun _ => .bind header fun _ => beginBlock_spares _
  · exact .emission _

theorem lowerElse_forfeits (failed : result lowerElse env s = (.error e, t)) :
    t.constructs = markElse s.constructs := by
  unfold lowerElse at failed
  rw [result_get_bind] at failed
  split at failed
  · next elseLabel endLabel hadElse rest hc =>
    rw [hc]
    cases hadElse with
    | true =>
      cases failed
      exact hc
    | false =>
      have branches : Spares (do branch endLabel; beginBlock elseLabel) :=
        .bind (branch_spares endLabel) fun _ => beginBlock_spares elseLabel
      exact branches env { s with constructs := .branch elseLabel endLabel true :: rest } _ t failed
  · next other =>
    cases failed
    unfold markElse
    split
    · next hc => exact absurd hc (other _ _ _ _)
    · rfl

theorem lowerControlFlow_forfeits (failed : result (lowerControlFlow inst) env s = (.error e, t)) :
    t.constructs = inst.op?.elim s.constructs (·.forfeits s.constructs) := by
  have jumps (label : Id) : Spares (jumpIf inst (branch label)) :=
    jumpIf_spares inst (branch_spares label)
  have discards : Spares (jumpIf inst (terminate .kill [])) :=
    jumpIf_spares inst (terminate_spares _ _)
  unfold lowerControlFlow at failed
  cases known : inst.op? with
  | none =>
    rw [known] at failed
    exact Spares.emission (unsupported inst) env s _ t failed
  | some op =>
    rw [known] at failed
    cases op
    case ifOp => exact lowerIf_cautious inst env s e t failed
    case elseOp => exact lowerElse_forfeits failed
    case endIf => exact lowerEndIf_forfeits failed
    case loop => exact lowerLoop_cautious env s e t failed
    case endLoop => exact lowerEndLoop_forfeits failed
    case switch => exact lowerSwitch_cautious inst env s e t failed
    case caseOp => exact lowerCase_cautious inst env s e t failed
    case defaultOp => exact lowerDefault_cautious env s e t failed
    case endSwitch => exact lowerEndSwitch_forfeits failed
    case breakOp => exact Spares.bind breakTarget_spares jumpTo_spares env s _ t failed
    case continueOp => exact Spares.bind continueTarget_spares jumpTo_spares env s _ t failed
    case breakIf => exact Spares.bind breakTarget_spares jumps env s _ t failed
    case continueIf => exact Spares.bind continueTarget_spares jumps env s _ t failed
    case ret => exact Spares.bind ret_spares (fun _ => beginFreshBlock_spares) env s _ t failed
    case retIf => exact jumpIf_spares inst ret_spares env s _ t failed
    case discard =>
      exact Spares.bind .read (fun _ => .ite (.bind (.emission _) fun _ => discards) discards)
        env s _ t failed
    all_goals exact Spares.emission (unsupported inst) env s _ t failed

/-- What is left of the constructs where an instruction is refused, in any state. -/
theorem lowerInstruction_forfeits (failed : result (lowerInstruction inst) env s = (.error e, t)) :
    t.constructs = if s.inFunction then inst.control?.elim s.constructs (·.forfeits s.constructs)
      else s.constructs := by
  have failed : result (lowerByFamily inst) env s = (.error e, t) := by
    rw [lowerInstruction, result_bind] at failed
    rcases ran : result (lowerByFamily inst) env s with ⟨e' | a, u⟩
    · rw [ran] at failed
      exact failed
    · rw [ran] at failed
      cases failed
  by_cases family : inst.family = .controlFlow
  · rw [Instruction.control?, if_pos family]
    unfold lowerByFamily lowerExecutable at failed
    rw [family] at failed
    cases inFunction : s.inFunction with
    | true =>
      rw [result_get_bind, inFunction] at failed
      exact lowerControlFlow_forfeits failed
    | false =>
      rw [result_get_bind, inFunction] at failed
      cases failed
      rfl
  · have spares : Spares (lowerByFamily inst) := by
      unfold lowerByFamily lowerExecutable
      cases hf : inst.family with
      | controlFlow => exact absurd hf family
      | declaration => exact .interfaceStep _
      | customData | float64 | textureQueryMsPos => exact .emission _
      | hullShaderPhase => exact lowerHullPhase_spares inst
      | _ => exact .bind .get fun _ => .ite (.emission _) (.bind (.emission _) fun _ => .emission _)
    rw [Instruction.control?, if_neg family]
    exact (spares env s _ t failed).trans (ite_self s.constructs).symm

end Lower

/-- The instruction that closes a construct. -/
def Construct.closing : Construct → Opcode
  | .branch .. => .endIf
  | .loop .. => .endLoop
  | .switch _ => .endSwitch

theorem Construct.reads_closing (c : Construct) (stack : List Bracket) :
    Bracket.step? (c.bracket :: stack) c.closing = some stack := by
  cases c with
  | branch _ _ hadElse => cases hadElse <;> rfl
  | loop => rfl
  | switch s =>
    obtain ⟨top, _⟩ | ⟨top, _⟩ := Construct.bracket_switch s <;> rw [top] <;> rfl

/-- Where the machine of the grammar is stuck, only an instruction that closes another construct
than the innermost costs one. -/
theorem Opcode.forfeits_of_stuck {op : Opcode} {constructs : List Construct}
    (stuck : op.closes = true ∨ op = .elseOp →
      Bracket.step? (constructs.map Construct.bracket) op = none)
    (own : ∀ c rest, constructs = c :: rest → op.closes = true → op = c.closing) :
    op.forfeits constructs = constructs := by
  cases closes : op.closes with
  | true =>
    rw [forfeits_of_closes closes]
    cases constructs with
    | nil => rfl
    | cons c rest =>
      have reads := c.reads_closing (rest.map Construct.bracket)
      rw [← own c rest rfl closes] at reads
      cases (stuck (.inl closes)).symm.trans reads
  | false =>
    by_cases isElse : op = .elseOp
    · subst isElse
      cases constructs with
      | nil => rfl
      | cons c rest =>
        cases c with
        | branch elseLabel endLabel hadElse =>
          cases hadElse with
          | false => cases stuck (.inr rfl)
          | true => rfl
        | loop | switch => rfl
    · cases op <;> first | exact absurd rfl isElse | rfl | cases closes

/-- An instruction inside of a body closes a construct, but not the innermost one. -/
def Instruction.Misses (inst : Instruction) (s : State) : Prop :=
  s.inFunction = true ∧ ∃ op, inst.control? = some op ∧ op.closes = true ∧
    ∃ c rest, s.constructs = c :: rest ∧ op ≠ c.closing

/-- A state between two instructions: outside of bodies or inside of a regular one. -/
inductive State.Poised (s : State) : Prop
  | outside (rest : s.AtRest) (inFunction : s.inFunction = false)
  | inside {d : Draft} (describes : d.Describes s) (inFunction : s.inFunction = true)
    (regular : d.Regular)

namespace State.Poised

variable {s t : State}

theorem emits (h : s.Poised) (added : Emits s t) : t.Poised := by
  cases h with
  | outside rest inFunction =>
    exact .outside (added.atRest rest).1 (added.inFunction.trans inFunction)
  | inside describes inFunction regular =>
    obtain ⟨e, writes, he⟩ := added.describes describes
    exact .inside he (added.inFunction.trans inFunction) (writes.regular regular)

end State.Poised

/-- A function with nothing but an open block is regular. -/
theorem Draft.Opens.regular {functions : Array Spirv.Function} {id : Id} {d : Draft}
    (h : d.Opens functions id) : d.Regular := by
  obtain ⟨n, ho⟩ := h.open?
  apply Draft.Regular.of_open
  · rw [ho]
    rfl
  · rw [Draft.brackets_nil h.plain.constructs]
    exact List.not_mem_nil
  · intro s hs
    rw [h.plain.constructs] at hs
    exact absurd hs List.not_mem_nil

theorem Draft.Mirrors.regular {e : Draft} {stack? : Option (List Bracket)}
    (h : Mirrors (some e) stack?) : e.Regular := by
  cases h with
  | there regular => exact regular

theorem Draft.Lowers.regular {d e : Draft} {inst : Instruction} (h : d.Lowers inst e)
    (regular : d.Regular) : e.Regular := by
  cases h with
  | ordinary _ writes =>
    have written := writes.regular regular
    exact ⟨written.open?, written.inner, written.placed⟩
  | @control e f id _ writes _ directed =>
    have written := writes.regular regular
    obtain ⟨op, known⟩ : ∃ op, inst.op? = some op := by
      cases known : inst.op? with
      | some op => exact ⟨op, rfl⟩
      | none =>
        rw [Draft.control?, known] at directed
        cases directed
    have mirrors := Draft.control_mirrors written known id
    rw [directed] at mirrors
    exact ⟨mirrors.regular.open?, mirrors.regular.inner, mirrors.regular.placed⟩

namespace Lower

variable {env : Environment} {s t : State} {inst : Instruction} {e : CompileError}

theorem beginBody_poised {text : String} {id : Id} (rest : s.AtRest)
    (ran : result (beginBody text) env s = (.ok id, t)) : t.Poised := by
  obtain ⟨d, hd, opens, inFunction, _⟩ := of_beginBody rest ran
  exact .inside hd inFunction opens.regular

theorem lowerHullPhase_poised (h : s.Poised)
    (ran : result (lowerHullPhase inst) env s = (.ok (), t)) : t.Poised := by
  obtain ⟨_, s₁, first, ran₁⟩ := result_bind_eq_ok.1 ran
  obtain ⟨_, s₂, closed, ran₂⟩ := result_bind_eq_ok.1 ran₁
  have ⟨rest, outside⟩ : s₂.AtRest ∧ s₂.inFunction = false := by
    cases h.emits (emits_of_result first) with
    | outside rest inFunction =>
      cases of_closeBody_outside inFunction closed
      exact ⟨rest, inFunction⟩
    | inside describes inFunction _ =>
      obtain ⟨_, rest, _, outside, _⟩ := of_closeBody describes inFunction closed
      exact ⟨rest, outside⟩
  have patch {isJoin : Bool} (ran : result (beginPatchPhase isJoin) env s₂ = (.ok (), t)) :
      t.Poised := by
    obtain ⟨_, s₃, h₁, ran₃⟩ := result_bind_eq_ok.1 ran
    obtain ⟨_, s₄, h₂, ran₄⟩ := result_bind_eq_ok.1 ran₃
    obtain ⟨_, s₅, h₃, ran₅⟩ := result_bind_eq_ok.1 ran₄
    obtain ⟨_, s₆, h₄, ran₆⟩ := result_bind_eq_ok.1 ran₅
    obtain ⟨_, s₇, opened, ran₇⟩ := result_bind_eq_ok.1 ran₆
    obtain ⟨_, s₈, h₆, ran₈⟩ := result_bind_eq_ok.1 ran₇
    have added := (((emits_of_result h₁).trans (emits_of_result h₂)).trans
      (emits_of_result h₃)).trans (emits_of_result h₄)
    have poised := beginBody_poised (added.atRest rest).1 opened
    exact (poised.emits (emits_of_result h₆)).emits (emits_of_interface ran₈)
  split at ran₂
  · obtain ⟨_, s₃, second, ran₃⟩ := result_bind_eq_ok.1 ran₂
    have poised := (State.Poised.outside rest outside).emits (emits_of_result second)
    exact poised.emits (emits_of_interface ran₃)
  · obtain ⟨_, s₃, first, ran₃⟩ := result_bind_eq_ok.1 ran₂
    obtain ⟨_, ran₄⟩ := result_check.1 ran₃
    obtain ⟨_, s₄, opened, ran₅⟩ := result_bind_eq_ok.1 ran₄
    obtain ⟨_, s₅, second, ran₆⟩ := result_bind_eq_ok.1 ran₅
    have poised := beginBody_poised ((emits_of_result first).atRest rest).1 opened
    exact (poised.emits (emits_of_result second)).emits (emits_of_interface ran₆)
  · exact patch ran₂
  · exact patch ran₂
  · exact (State.Poised.outside rest outside).emits (emits_of_result ran₂)

theorem lowerInstruction_poised (h : s.Poised)
    (ran : result (lowerInstruction inst) env s = (.ok (), t)) : t.Poised := by
  by_cases phase : inst.family = .hullShaderPhase
  · obtain ⟨_, u, lowered, noted⟩ := result_bind_eq_ok.1 ran
    unfold lowerByFamily at lowered
    rw [phase] at lowered
    cases noted
    cases lowerHullPhase_poised h lowered with
    | outside rest inFunction =>
      exact .outside ⟨rest.function?, rest.block?, rest.constructs⟩ inFunction
    | @inside d describes inFunction regular =>
      refine .inside (d := { d with last? := inst.op? }) ?_ inFunction
        ⟨regular.open?, regular.inner, regular.placed⟩
      exact ⟨describes.builder.withLast _, describes.constructs, rfl⟩
  · cases h with
    | outside rest inFunction =>
      obtain ⟨_, u, lowered, noted⟩ := result_bind_eq_ok.1 ran
      cases noted
      have notControl : inst.family ≠ .controlFlow := by
        intro control
        have inside := ((lowerByFamily_controlFlow control).1 lowered).1
        rw [inFunction] at inside
        cases inside
      have added := lowerByFamily_emits notControl phase lowered
      have after := (added.atRest rest).1
      exact .outside ⟨after.function?, after.block?, after.constructs⟩
        (added.inFunction.trans inFunction)
    | inside describes inFunction regular =>
      obtain ⟨e, lowers, he, setting⟩ := lowerInstruction_describes describes phase ran
      exact .inside he (setting.inFunction.trans inFunction) (lowers.regular regular)

/-- Nothing is computed for a division or the end of a construct, and where it is due it is
lowered. -/
theorem lowerInstruction_accepted {d : Draft} {op : Opcode} {next : List Bracket}
    (hd : d.Describes s) (inFunction : s.inFunction = true) (regular : d.Regular)
    (control : inst.control? = some op) (idle : op.closes = true ∨ op = .elseOp)
    (reads : Bracket.step? d.brackets op = some next) :
    ∃ t, result (lowerInstruction inst) env s = (.ok (), t) := by
  obtain ⟨family, known⟩ : inst.family = .controlFlow ∧ inst.op? = some op := by
    unfold Instruction.control? at control
    split at control
    · next family => exact ⟨family, control⟩
    · cases control
  have tests : (tested inst).run env s = (.ok 0, s) := by
    rw [tested, known]
    rcases idle with closes | rfl
    · cases op <;> first | rfl | cases closes
    · rfl
  have mirrors := Draft.control_mirrors regular known 0
  have follows := directed_follows inst 0 env s d hd
  rw [reads] at mirrors
  cases directed : d.control? inst 0 with
  | none =>
    rw [directed] at mirrors
    cases mirrors
  | some f =>
    rw [directed] at follows
    obtain ⟨b, reached, _⟩ := follows
    have lowered := lowerControlFlow_eq_ok.2 ⟨0, s, tests, reached⟩
    have byFamily := (lowerByFamily_controlFlow family).2 ⟨inFunction, lowered⟩
    exact ⟨_, result_bind_eq_ok.2 ⟨(), _, byFamily, rfl⟩⟩

/-- Between instructions, a refusal costs the innermost construct or nothing. -/
theorem lowerInstruction_refused (h : s.Poised)
    (failed : result (lowerInstruction inst) env s = (.error e, t)) :
    (inst.Misses s → t.constructs = s.constructs.tail) ∧
      (¬inst.Misses s → t.constructs = s.constructs) := by
  have left := lowerInstruction_forfeits failed
  constructor
  · rintro ⟨inFunction, op, control, closes, _⟩
    rw [left, if_pos inFunction, control]
    exact Opcode.forfeits_of_closes closes s.constructs
  · intro hits
    cases h with
    | outside rest inFunction =>
      rw [left, inFunction]
      rfl
    | @inside d hd inFunction regular =>
      rw [left, if_pos inFunction]
      cases control : inst.control? with
      | none => rfl
      | some op =>
        rw [hd.constructs]
        refine Opcode.forfeits_of_stuck (fun idle => ?_) fun c rest hc closes => ?_
        · cases reads : Bracket.step? d.brackets op with
          | none => exact reads
          | some next =>
            obtain ⟨u, accepted⟩ : ∃ u, result (lowerInstruction inst) env s = (.ok (), u) :=
              lowerInstruction_accepted hd inFunction regular control idle reads
            rw [failed] at accepted
            cases accepted
        · by_contra other
          exact hits ⟨inFunction, op, control, closes, c, rest, hd.constructs.trans hc, other⟩

theorem begin_poised {version : SpirvVersion} {stage : StageState}
    (ran : result begin env (.initial version stage) = (.ok (), t)) : t.Poised := by
  have idle {s t : State} (added : Emits s t) (rest : s.AtRest ∧ s.inFunction = false) :
      t.AtRest ∧ t.inFunction = false :=
    ⟨(added.atRest rest.1).1, added.inFunction.trans rest.2⟩
  unfold begin at ran
  rw [result_read_bind] at ran
  obtain ⟨_, s₁, taken, ran₁⟩ := result_bind_eq_ok.1 ran
  have ⟨rest₁, outside₁⟩ := idle (emits_of_result taken) ⟨⟨rfl, rfl, rfl⟩, rfl⟩
  rw [result_modify_bind] at ran₁
  obtain ⟨_, s₂, required, ran₂⟩ := result_bind_eq_ok.1 ran₁
  have idle₂ := idle (emits_of_result required)
    ⟨⟨rest₁.function?, rest₁.block?, rest₁.constructs⟩, outside₁⟩
  obtain ⟨_, s₃, taken, ran₃⟩ := result_bind_eq_ok.1 ran₂
  have ⟨rest₃, outside₃⟩ := idle (emits_of_result taken) idle₂
  rw [result_modify_bind] at ran₃
  obtain ⟨_, s₄, named, ran₄⟩ := result_bind_eq_ok.1 ran₃
  have ⟨rest₄, outside₄⟩ := idle (emits_of_result named)
    ⟨⟨rest₃.function?, rest₃.block?, rest₃.constructs⟩, outside₃⟩
  split at ran₄
  · obtain ⟨id, s₅, opened, ran₅⟩ := result_bind_eq_ok.1 ran₄
    obtain ⟨d, hd, opens, inFunction, _⟩ := of_beginBody rest₄ opened
    cases ran₅
    exact .inside (d := d) ⟨hd.builder, hd.constructs, hd.last?⟩ inFunction opens.regular
  · cases ran₄
    exact .outside rest₄ outside₄

end Lower

namespace Lowering

variable {env : Environment} {insts : List Instruction} {inst : Instruction} {e : CompileError}
  {first l m : Lowering}

theorem steps_poised (h : l.state.Poised) (ran : l.steps insts = .ok m) : m.state.Poised := by
  induction insts generalizing l with
  | nil =>
    cases ran
    exact h
  | cons inst rest ih =>
    obtain ⟨k, stepped, ran⟩ := steps_cons.1 ran
    exact ih (Lower.lowerInstruction_poised h (step_eq_ok.1 stepped).1) ran

theorem start_poised (started : start env = .ok l) : l.state.Poised := by
  obtain ⟨stage, _, begun, _⟩ := start_eq_ok.1 started
  exact Lower.begin_poised begun

/-- What is open is reported when the shader is finished. -/
theorem finish_of_depth (left : l.depth ≠ 0) :
    l.finish = .error (.fault (.constructsLeftOpen l.depth "the shader")) := by
  have stops : l.run Lower.finish =
      (.error (.fault (.constructsLeftOpen l.depth "the shader")), l) := by
    have failed : Lower.result Lower.finish l.environment l.state =
        (.error (.fault (.constructsLeftOpen l.depth "the shader")), l.state) := by
      unfold Lower.finish
      rw [Lower.result_get_bind]
      dsimp only
      rw [if_pos (show l.state.constructs.length ≠ 0 from left)]
      rfl
    exact congrArg (fun r => (r.1, { l with state := r.2 })) failed
  rw [finish, close, stops]
  rfl

/-- In any state, an instruction that is refused leaves of the constructs what its opcode says.
Where nothing has been refused before, these are all constructs that were open, unless the
instruction should have closed another one than the innermost; that one is lost then, and is not
reported when the shader is finished. -/
theorem step_refusal (failed : l.step inst = (.error e, m)) :
    (m.state.constructs = if l.state.inFunction
      then inst.control?.elim l.state.constructs (·.forfeits l.state.constructs)
      else l.state.constructs) ∧
    (∀ env first insts, start env = .ok first → first.steps insts = .ok l →
      (inst.Misses l.state → m.state.constructs = l.state.constructs.tail) ∧
      (¬inst.Misses l.state → m.state.constructs = l.state.constructs)) ∧
    (m.depth ≠ 0 → m.finish = .error (.fault (.constructsLeftOpen m.depth "the shader"))) := by
  have refused : Lower.result (Lower.lowerInstruction inst) l.environment l.state =
      (.error e, m.state) := by
    have error := congrArg Prod.fst failed
    have state := congrArg (fun p => p.2.state) failed
    exact Prod.ext error state
  refine ⟨Lower.lowerInstruction_forfeits refused, ?_, finish_of_depth⟩
  intro env first insts started accepted
  exact Lower.lowerInstruction_refused (steps_poised (start_poised started) accepted) refused

/-- An instruction is refused behind others if that can be evaluated, with any property of the
lowering before and after it that can be. -/
theorem exists_refused (env : Environment) (insts : List Instruction) (inst : Instruction)
    (property : Lowering → Lowering → Bool)
    (evaluates : ((start env).toOption.bind fun first => (first.steps insts).toOption.map fun l =>
      match l.step inst with
      | (.error _, m) => property l m
      | (.ok _, _) => false) = some true) :
    ∃ first l e m, start env = .ok first ∧ first.steps insts = .ok l ∧
      l.step inst = (.error e, m) ∧ property l m = true := by
  cases started : start env with
  | error e =>
    rw [started] at evaluates
    cases evaluates
  | ok first =>
    rw [started] at evaluates
    change ((first.steps insts).toOption.map _) = some true at evaluates
    cases accepted : first.steps insts with
    | error e =>
      rw [accepted] at evaluates
      cases evaluates
    | ok l =>
      rw [accepted] at evaluates
      have holds := Option.some.inj evaluates
      dsimp only at holds
      split at holds
      · next e m failed => exact ⟨first, l, e, m, rfl, accepted, failed, holds⟩
      · cases holds

theorem step_refusal_loop :
    ∃ first l e m, start barePixel = .ok first ∧ first.steps [directive .loop 0] = .ok l ∧
      l.step (directive .endIf 0) = (.error e, m) ∧ l.depth = 1 ∧
      (m.state.constructs = if l.state.inFunction
        then (directive .endIf 0).control?.elim l.state.constructs (·.forfeits l.state.constructs)
        else l.state.constructs) ∧
      ((directive .endIf 0).Misses l.state → m.state.constructs = l.state.constructs.tail) ∧
      (¬(directive .endIf 0).Misses l.state → m.state.constructs = l.state.constructs) ∧
      (m.depth ≠ 0 → m.finish = .error (.fault (.constructsLeftOpen m.depth "the shader"))) := by
  obtain ⟨first, l, e, m, started, accepted, failed, deep⟩ :=
    exists_refused barePixel [directive .loop 0] (directive .endIf 0) (fun l _ => l.depth = 1)
      (by decide +kernel)
  obtain ⟨left, costs, reported⟩ := step_refusal failed
  obtain ⟨missed, kept⟩ := costs barePixel first [directive .loop 0] started accepted
  exact ⟨first, l, e, m, started, accepted, failed, of_decide_eq_true deep, left, missed, kept,
    reported⟩

end Lowering

/-- A loop of a function announces a block behind it that is not there. -/
def Spirv.Function.Dangles (f : Spirv.Function) : Prop :=
  ∃ b ∈ f.blocks.toList, ∃ i ∈ b.body.toList, i.op = .control .loopMerge ∧
    ∀ c ∈ f.blocks.toList, i.args.head? ≠ some (.id c.label)

instance (f : Spirv.Function) : Decidable f.Dangles :=
  inferInstanceAs (Decidable (∃ b ∈ f.blocks.toList, ∃ i ∈ b.body.toList,
    i.op = .control .loopMerge ∧ ∀ c ∈ f.blocks.toList, i.args.head? ≠ some (.id c.label)))

/-- The end of a branch is refused in a loop, the loop is lost, and the shader is finished with a
loop that goes nowhere. -/
theorem exists_lost_loop :
    ∃ first l e m last, Lowering.start barePixel = .ok first ∧
      first.steps [directive .loop 0] = .ok l ∧ l.step (directive .endIf 0) = (.error e, m) ∧
      l.depth = 1 ∧ m.depth = 0 ∧ m.close = .ok last ∧ m.finish = .ok last.artifact ∧
      ∃ f ∈ last.state.builder.module.functions.toList, f.Dangles := by
  obtain ⟨first, l, e, m, started, accepted, failed, evaluates⟩ :=
    Lowering.exists_refused barePixel [directive .loop 0] (directive .endIf 0)
      (fun l m => l.depth = 1 && m.depth = 0 && match m.close with
        | .ok last => decide (∃ f ∈ last.state.builder.module.functions.toList, f.Dangles)
        | .error _ => false) (by decide +kernel)
  obtain ⟨deep, dangles⟩ := Bool.and_eq_true_iff.1 evaluates
  obtain ⟨one, none_⟩ := Bool.and_eq_true_iff.1 deep
  split at dangles
  · next last closed =>
    refine ⟨first, l, e, m, last, started, accepted, failed, of_decide_eq_true one,
      of_decide_eq_true none_, closed, ?_, of_decide_eq_true dangles⟩
    rw [Lowering.finish, closed]
    rfl
  · cases dangles

end ShaderLowering
