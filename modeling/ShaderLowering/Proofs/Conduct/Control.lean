import ShaderLowering.Lowering
import ShaderLowering.Proofs.Conduct.Arithmetic
import ShaderLowering.Proofs.Conduct.Interface

/-!
Steps that direct control, and steps that open and close functions: control flow, the phases of a
hull shader, and the entry function with what announces it. The builder changes blocks and functions
only, so that what is marked and named is up to the ordinary steps among them.
-/

namespace ShaderLowering

open Spirv (Id Op Instr Builder)

namespace Spirv.Builder

variable {b c : Builder}

theorem around_push {i : Instr} (placed : b.push i = .ok c) : b.Around c := by
  obtain ⟨_, _, _, _, rfl⟩ := push_eq_ok.1 placed
  exact ⟨Nat.le_refl _, rfl, rfl⟩

theorem around_beginBlock {label? : Option Id}
    (begun : (b.beginBlock label?).map (·.2) = .ok c) : b.Around c := by
  unfold beginBlock at begun
  split at begun
  · cases begun
  · cases begun
  · cases label? <;> cases begun
    · exact ⟨Nat.le_succ _, rfl, rfl⟩
    · exact ⟨Nat.le_refl _, rfl, rfl⟩

theorem around_terminate {i : Instr} (ended : b.terminate i = .ok c) : b.Around c := by
  unfold terminate at ended
  split at ended
  · cases ended
  · split at ended
    · next d placed =>
      obtain ⟨nextId, annotations, globals⟩ := around_push placed
      cases ended
      exact ⟨nextId, annotations, globals⟩
    · cases ended

theorem around_endFunction (ended : b.endFunction = .ok c) : b.Around c := by
  unfold endFunction at ended
  split at ended <;> cases ended
  exact ⟨Nat.le_refl _, rfl, rfl⟩

theorem around_reopenBlock {block : Nat} (opened : b.reopenBlock block = .ok c) : b.Around c := by
  unfold reopenBlock at opened
  split at opened
  · cases opened
  · dsimp only at opened
    split at opened <;> cases opened
    exact ⟨Nat.le_refl _, rfl, rfl⟩

theorem around_beginFunction {returnType functionType : Id} {id? : Option Id} {id : Id}
    (begun : b.beginFunction returnType functionType id? = .ok (id, c)) : b.Around c := by
  unfold beginFunction at begun
  split at begun
  · cases begun
  · cases id? <;> cases begun
    · exact ⟨Nat.le_succ _, rfl, rfl⟩
    · exact ⟨Nat.le_refl _, rfl, rfl⟩

end Spirv.Builder

namespace Lower

variable {ok : CompileError → Prop} {inst : Instruction}

@[grind ←]
theorem openBlock_neat : Neat ok [] openBlock? :=
  .get_bind (fun _ => .pure _) fun _ => rfl

@[grind ←]
theorem lastOp_neat : Neat ok [] lastOp? :=
  .get_bind (fun _ => .pure _) fun _ => rfl

@[grind ←]
theorem setConstructs_neat (constructs : List Construct) : Neat ok [] (setConstructs constructs) :=
  .modify (fun _ _ => rfl) fun _ => rfl

@[grind ←]
theorem pushConstruct_neat (c : Construct) : Neat ok [] (pushConstruct c) :=
  .modify (fun _ _ => rfl) fun _ => rfl

@[grind ←]
theorem modifySwitch_neat (f : Switch → Switch) : Neat ok [] (modifySwitch f) := by
  refine .modify (fun s b => ?_) fun s => ?_
  · dsimp only
    split <;> rfl
  · split <;> rfl

@[grind ←]
theorem popConstruct_neat : Neat ok [] popConstruct where
  reports := .of_ok fun env s => by
    change ∃ a, (result popConstruct env s).1 = .ok a
    rw [popConstruct, result_modifyGet]
    exact ⟨_, rfl⟩
  blind.same env s := by
    change result popConstruct _ _ =
      ((result popConstruct _ _).1, (result popConstruct _ _).2.unnamed)
    rw [popConstruct, result_modifyGet, result_modifyGet]
    dsimp only
    rw [show s.unnamed.constructs = s.constructs from rfl]
    cases s.constructs <;> rfl
  blind.apart env s h := by
    change (result popConstruct env s).2.NamesApart
    rw [popConstruct, result_modifyGet]
    dsimp only
    split <;> exact h
  decorates env := by
    refine .of_run fun s c t ran => ?_
    have ran : result popConstruct env s = (.ok c, t) := ran
    rw [popConstruct, result_modifyGet] at ran
    split at ran <;> cases ran <;>
      exact ⟨⟨Nat.le_refl _, rfl, rfl⟩, fun _ h => h, fun _ => .inl⟩

section

variable [Refusing ok]

@[grind ←]
theorem terminate_neat (op : Spirv.ControlOp) (args : List Spirv.Arg) :
    Neat ok [] (terminate op args) :=
  .tryBuild (Builder.blind_terminate rfl) fun _ _ => Builder.around_terminate

@[grind ←]
theorem branch_neat (label : Id) : Neat ok [] (branch label) :=
  terminate_neat _ _

@[grind ←]
theorem branchConditional_neat (condition ifTrue ifFalse : Id) :
    Neat ok [] (branchConditional condition ifTrue ifFalse) :=
  terminate_neat _ _

@[grind ←]
theorem ret_neat : Neat ok [] ret :=
  terminate_neat _ _

@[grind ←]
theorem selectionMerge_neat (label : Id) : Neat ok [] (selectionMerge label) :=
  .tryBuild (Builder.blind_push rfl) fun _ _ => Builder.around_push

@[grind ←]
theorem loopMerge_neat (breakLabel continueLabel : Id) :
    Neat ok [] (loopMerge breakLabel continueLabel) :=
  .tryBuild (Builder.blind_push rfl) fun _ _ => Builder.around_push

@[grind ←]
theorem beginBlock_neat (label : Id) : Neat ok [] (beginBlock label) :=
  .tryBuild (Builder.blind_beginBlock _) fun _ _ => Builder.around_beginBlock

@[grind ←]
theorem beginFreshBlock_neat : Neat ok [] beginFreshBlock :=
  .tryBuild (Builder.blind_beginBlock _) fun _ _ => Builder.around_beginBlock

@[grind ←]
theorem endFunction_neat : Neat ok [] endFunction :=
  .tryBuild Builder.blind_endFunction fun _ _ => Builder.around_endFunction

theorem beginFunction_result (returnType functionType : Id) (id? : Option Id)
    (env : Environment) (s : State) :
    result (beginFunction returnType functionType id?) env s =
      (s.builder.beginFunction returnType functionType id?).casesOn
        (fun e => (.error (.builder e), s)) fun r => (.ok r.1, { s with builder := r.2 }) := by
  unfold beginFunction
  rw [result_get_bind]
  cases s.builder.beginFunction returnType functionType id? <;> rfl

@[grind ←]
theorem beginFunction_neat (returnType functionType : Id) (id? : Option Id) :
    Neat ok [] (beginFunction returnType functionType id?) where
  reports env s e failed := by
    have failed : (result (beginFunction returnType functionType id?) env s).1 = .error e := failed
    rw [beginFunction_result] at failed
    cases opened : s.builder.beginFunction returnType functionType id? <;> rw [opened] at failed <;>
      cases failed
    exact Refusing.builder _
  blind.same env s := by
    change result (beginFunction returnType functionType id?) _ _ =
      ((result (beginFunction returnType functionType id?) _ _).1,
        (result (beginFunction returnType functionType id?) _ _).2.unnamed)
    rw [beginFunction_result, beginFunction_result]
    dsimp only [State.unnamed]
    rw [s.builder.beginFunction_unnamed]
    cases s.builder.beginFunction returnType functionType id? <;> rfl
  blind.apart env s h := by
    change (result (beginFunction returnType functionType id?) env s).2.NamesApart
    rw [beginFunction_result]
    cases opened : s.builder.beginFunction returnType functionType id? with
    | error e => exact h
    | ok r => exact Builder.namesApart_beginFunction h opened
  decorates env := by
    refine .of_run fun s id t ran => ?_
    have ran : result (beginFunction returnType functionType id?) env s = (.ok id, t) := ran
    rw [beginFunction_result] at ran
    cases opened : s.builder.beginFunction returnType functionType id? with
    | error e =>
      rw [opened] at ran
      cases ran
    | ok r =>
      rw [opened] at ran
      cases ran
      obtain ⟨nextId, annotations, globals⟩ := Builder.around_beginFunction opened
      dsimp only
      rw [globals]
      exact ⟨⟨nextId, annotations, rfl⟩, fun _ h => h, fun _ => .inl⟩

theorem condition_neat (given : Neat ok [] (source inst 0)) : Neat ok [] (condition inst) :=
  .bind given fun _ => .bind (readOperand_neat _ _) fun _ =>
  .bind (zeroTest_routine .anything _).neat fun _ =>
    .pure _

@[grind ←]
theorem jumpOn_neat (condition : Id) {jump : Lower Unit} (h : Neat ok [] jump) :
    Neat ok [] (jumpOn condition jump) := by
  refine .bind (.lift .fresh) fun taken => .bind (.lift .fresh) fun next => ?_
  refine .bind (selectionMerge_neat _) fun _ => .bind (branchConditional_neat _ _ _) fun _ => ?_
  exact .bind (beginBlock_neat _) fun _ => .bind h fun _ => beginBlock_neat _

theorem jumpIf_neat (given : Neat ok [] (source inst 0)) {jump : Lower Unit}
    (h : Neat ok [] jump) : Neat ok [] (jumpIf inst jump) :=
  .bind (.lift (condition_neat given)) fun _ => jumpOn_neat _ h

@[grind ←]
theorem jumpTo_neat (label : Id) : Neat ok [] (jumpTo label) :=
  .bind (branch_neat _) fun _ => beginFreshBlock_neat

@[grind ←]
theorem breakTarget_neat : Neat ok [] breakTarget :=
  .get_bind (fun _ => .lift (.orFault rfl)) fun _ => rfl

@[grind ←]
theorem continueTarget_neat : Neat ok [] continueTarget :=
  .get_bind (fun _ => .lift (.orFault rfl)) fun _ => rfl

theorem lowerIf_neat (given : Neat ok [] (source inst 0)) : Neat ok [] (lowerIf inst) := by
  refine .bind (.lift (condition_neat given)) fun condition => .bind (.lift .fresh) fun _ => ?_
  refine .bind (.lift .fresh) fun _ => .bind (.lift .fresh) fun _ => ?_
  refine .bind (selectionMerge_neat _) fun _ => .bind (branchConditional_neat _ _ _) fun _ => ?_
  exact .bind (beginBlock_neat _) fun _ => pushConstruct_neat _

theorem lowerElse_neat : Neat ok [] lowerElse := by
  unfold lowerElse
  grind -linarith

theorem lowerEndIf_neat : Neat ok [] lowerEndIf := by
  unfold lowerEndIf
  grind -linarith

theorem lowerLoop_neat : Neat ok [] lowerLoop := by
  refine .bind (.lift .fresh) fun _ => .bind (.lift .fresh) fun _ => ?_
  refine .bind (.lift .fresh) fun _ => .bind (.lift .fresh) fun _ => ?_
  refine .bind (branch_neat _) fun _ => .bind (beginBlock_neat _) fun _ => ?_
  grind -linarith

theorem lowerEndLoop_neat : Neat ok [] lowerEndLoop := by
  unfold lowerEndLoop
  grind -linarith

theorem lowerSwitch_neat (given : Neat ok [] (source inst 0)) : Neat ok [] (lowerSwitch inst) := by
  refine .bind (.lift (.bind given fun _ => readScalar_neat _ _)) fun selector => ?_
  refine .bind (.lift .fresh) fun _ => .bind (.lift .fresh) fun _ => ?_
  refine .bind (branch_neat _) fun _ => .bind (beginBlock_neat _) fun _ => ?_
  refine .bind openBlock_neat fun block? => .bind (.lift (.orFault rfl)) fun block => ?_
  refine .bind (.of_build (fun _ _ => rfl) (fun _ => rfl) (fun _ h => h)
    (fun _ => ⟨Nat.le_refl _, rfl, rfl⟩) fun _ => rfl) fun _ => ?_
  exact pushConstruct_neat _

@[grind ←]
theorem closeCase_neat (next : Id) : Neat ok [] (closeCase next) := by
  unfold closeCase
  grind -linarith

@[grind ←]
theorem caseLabel_neat : Neat ok [] caseLabel := by
  refine .bind lastOp_neat fun last? => .get_bind (fun s => ?_) fun _ => rfl
  split
  · split
    · exact .pure _
    · refine .bind (.lift .fresh) fun label => .bind (closeCase_neat _) fun _ => ?_
      exact .bind (beginBlock_neat _) fun _ => .bind (setConstructs_neat _) fun _ => .pure _
  · exact .lift (.failWith rfl)

theorem lowerCase_neat (given : Neat ok [] (source inst 0)) : Neat ok [] (lowerCase inst) := by
  refine .bind (.lift given) fun value => ?_
  grind -linarith

theorem lowerDefault_neat : Neat ok [] lowerDefault :=
  .bind caseLabel_neat fun _ => modifySwitch_neat _

@[grind ←]
theorem closeHeader_neat (s : Switch) : Neat ok [] (closeHeader s) :=
  .bind (.tryBuild (Builder.blind_reopenBlock _) fun _ _ => Builder.around_reopenBlock) fun _ =>
    .bind (selectionMerge_neat _) fun _ => terminate_neat _ _

theorem lowerEndSwitch_neat : Neat ok [] lowerEndSwitch := by
  unfold lowerEndSwitch
  grind -linarith

/-- Every instruction that depends on a value has a source for it. -/
theorem lowerControlFlow_neat (given : Provided ok inst) : Neat ok [] (lowerControlFlow inst) := by
  unfold lowerControlFlow
  split
  case h_17 => exact .lift (.unsupported _)
  all_goals
    rename_i known
    have given := given.equips known
  · exact lowerIf_neat (given.src 0 (by decide))
  · exact lowerElse_neat
  · exact lowerEndIf_neat
  · exact lowerLoop_neat
  · exact lowerEndLoop_neat
  · exact lowerSwitch_neat (given.src 0 (by decide))
  · exact lowerCase_neat (given.src 0 (by decide))
  · exact lowerDefault_neat
  · exact lowerEndSwitch_neat
  · exact .bind breakTarget_neat jumpTo_neat
  · exact .bind continueTarget_neat jumpTo_neat
  · exact .bind breakTarget_neat fun _ => jumpIf_neat (given.src 0 (by decide)) (branch_neat _)
  · exact .bind continueTarget_neat fun _ => jumpIf_neat (given.src 0 (by decide)) (branch_neat _)
  · exact .bind ret_neat fun _ => beginFreshBlock_neat
  · exact jumpIf_neat (given.src 0 (by decide)) ret_neat
  · have jump : Neat ok [] (jumpIf inst (terminate .kill [])) :=
      jumpIf_neat (given.src 0 (by decide)) (terminate_neat .kill [])
    grind -linarith

@[grind ←]
theorem openFunction_neat (id? : Option Id) : Neat ok [] (openFunction id?) := by
  unfold openFunction
  grind -linarith

@[grind ←]
theorem beginBody_neat (text : String) : Neat ok [] (beginBody text) := by
  refine .bind (openFunction_neat _) fun id => .bind (.lift (name_neat _ _)) fun _ => ?_
  exact .bind beginFreshBlock_neat fun _ => .bind (.modify (fun _ _ => rfl) fun _ => rfl) fun _ =>
    .pure id

@[grind ←]
theorem closeBody_neat : Neat ok [] closeBody := by
  have ends : Neat ok [] (do
      endFunction
      modify fun s => { s with inFunction := false } : Lower Unit) :=
    .bind endFunction_neat fun _ => .modify (fun _ _ => rfl) fun _ => rfl
  refine .get_bind (fun s => .ite ?_ (.pure ())) fun _ => rfl
  refine .get_bind (fun s => .optional (.lift (.failWith rfl)) ?_) fun _ => rfl
  exact .bind openBlock_neat fun _ => .ite (.bind ret_neat fun _ => ends) ends

@[grind ←]
theorem beginControlPointPhase_neat : Neat ok [] beginControlPointPhase := by
  unfold beginControlPointPhase
  grind -linarith

@[grind ←]
theorem beginPatchPhase_neat (isJoin : Bool) : Neat ok [] (beginPatchPhase isJoin) := by
  refine .bind (.lift hullState_neat) fun h => .bind (.lift (scalarType_neat _)) fun word => ?_
  refine .bind (.lift (newVariable_neat _ _ _)) fun id => .bind (.lift (name_neat _ _)) fun _ => ?_
  grind -linarith

theorem lowerHullPhase_neat (inst : Instruction) : Neat ok [] (lowerHullPhase inst) := by
  unfold lowerHullPhase
  grind -linarith

@[grind ←]
theorem entryFunction_neat {contents : Lower Unit} (h : Neat ok [] contents) :
    Neat ok [] (entryFunction contents) := by
  refine .get_bind (fun s => .bind (openFunction_neat _) fun _ => ?_) fun _ => rfl
  exact .bind beginFreshBlock_neat fun _ => .bind h fun _ => .bind ret_neat fun _ =>
    endFunction_neat

@[grind ←]
theorem runInstances_neat (phase : PatchPhase) : Neat ok [] (runInstances phase) := by
  refine .bind (.lift (scalarType_neat _)) fun word => ?_
  refine .bind (.lift (scalarType_neat _)) fun bool => ?_
  refine .bind (.lift .fresh) fun head => .bind (.lift .fresh) fun check => ?_
  refine .bind (.lift .fresh) fun body => .bind (.lift .fresh) fun next => ?_
  refine .bind (.lift .fresh) fun done => ?_
  refine .bind (branch_neat _) fun _ => .bind (beginBlock_neat _) fun _ => ?_
  refine .bind (loopMerge_neat _ _) fun _ => ?_
  refine .bind (branch_neat _) fun _ => .bind (beginBlock_neat _) fun _ => ?_
  refine .bind (.lift (instanceLeft_neat _ _ _)) fun left => ?_
  refine .bind (branchConditional_neat _ _ _) fun _ => .bind (beginBlock_neat _) fun _ => ?_
  refine .bind (.lift (call_neat _)) fun _ => ?_
  refine .bind (branch_neat _) fun _ => .bind (beginBlock_neat _) fun _ => ?_
  refine .bind (.lift (nextInstance_neat _ _)) fun _ => ?_
  exact .bind (branch_neat _) fun _ => beginBlock_neat _

@[grind ←]
theorem runPatchPhase_neat (phase : PatchPhase) : Neat ok [] (runPatchPhase phase) := by
  unfold runPatchPhase
  grind -linarith

theorem runPatchPhases_neat (h : HullState) : Neat ok [] (runPatchPhases h) := by
  unfold runPatchPhases
  grind -linarith

theorem inFirstInvocation_neat {step : Lower Unit} (h : Neat ok [] step) :
    Neat ok [] (inFirstInvocation step) := by
  refine .bind (.lift isFirstInvocation_neat) fun first => .bind (.lift .fresh) fun _ => ?_
  refine .bind (.lift .fresh) fun _ => .bind (selectionMerge_neat _) fun _ => ?_
  refine .bind (branchConditional_neat _ _ _) fun _ => .bind (beginBlock_neat _) fun _ => ?_
  exact .bind h fun _ => .bind (branch_neat _) fun _ => beginBlock_neat _

theorem runPhases_neat (h : HullState) : Neat ok [] (runPhases h) :=
  .bind (.liftDeclaring (runControlPoints_neat h)) fun _ =>
    inFirstInvocation_neat (runPatchPhases_neat h)

theorem lowerEntryPoint_neat : Neat ok [] lowerEntryPoint := by
  refine .get_bind (fun s => ?_) fun _ => rfl
  split
  · exact .bind (entryFunction_neat (runPhases_neat _)) fun _ => .lift announceEntryPoint_neat
  · refine .get_bind (fun s => .bind (.lift (.orFault rfl)) fun body => ?_) fun _ => rfl
    exact .bind (entryFunction_neat (.lift (runBody_neat _))) fun _ =>
      .lift announceEntryPoint_neat

theorem begin_neat : Neat ok [] begin := by
  have single {i : Instr} (other : i.isName = false) : ∀ j ∈ #[i], j.isName = false := by
    intro j mem
    rw [Array.mem_singleton.1 mem]
    exact other
  refine .read_bind (fun env => .bind (.lift .fresh) fun extendedSet => ?_) fun _ => rfl
  refine .bind (.of_build (fun _ _ => rfl) (fun _ => rfl) (fun s h => ?_)
    (fun _ => ⟨Nat.le_refl _, rfl, rfl⟩) fun _ => rfl) fun _ => ?_
  · exact { h with memoryModel := single rfl, imports := single rfl }
  refine .bind (.lift (requireCapability_neat _)) fun _ => .bind (.lift .fresh) fun entry => ?_
  refine .bind (.modify (fun _ _ => rfl) fun _ => rfl) fun _ => ?_
  refine .bind (.lift (name_neat _ _)) fun _ => .ite ?_ (.pure ())
  exact .bind (beginBody_neat _) fun _ => .modify (fun _ _ => rfl) fun _ => rfl

theorem finish_neat : Neat ok [] finish :=
  .get_bind (fun _ => .optional (.lift (.failWith rfl)) <| .bind closeBody_neat fun _ =>
    lowerEntryPoint_neat) fun _ => rfl

end

end Lower

end ShaderLowering
