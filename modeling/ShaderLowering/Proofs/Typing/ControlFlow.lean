import ShaderLowering.Lowering.ControlFlow
import ShaderLowering.Proofs.Typing.Arithmetic

/-!
Directing control is safe. Opening and ending blocks and functions steers the builder and leaves
all definitions alone, and the stack of constructs is no table.
-/

namespace ShaderLowering

open Spirv (Id Module Builder BuildError ControlOp Arg)

variable {α β : Type} {x : Shader} {v : VertexCounts} {m : Module}

/-- What the state holds is known, in the module as it is. -/
theorem Yields.getLower {f : State → Lower β} {post : β → Module → Prop}
    (h : ∀ s, x.Invariant v s → m.Grows s.builder.module →
      Yields x v s.builder.module (Lower.result (f s)) post) :
    Yields x v m (Lower.result (get >>= f)) post :=
  fun s b t hs outgrown ran => h s hs outgrown s b t hs (.refl _) ran

namespace Safe

@[grind ←]
theorem bindLower {e : Lower α} {f : α → Lower β} (first : Safe x v m (Lower.result e))
    (later : ∀ a, Safe x v m (Lower.result (f a))) : Safe x v m (Lower.result (e >>= f)) :=
  Yields.bindLower first fun a _ grows _ => (later a).grow grows

@[grind ←]
theorem lift {e : Emission α} (h : Safe x v m e.run) :
    Safe x v m (Lower.result (liftM e : Lower α)) :=
  h

@[grind ←]
theorem getLower {f : State → Lower β} (h : ∀ s, Safe x v m (Lower.result (f s))) :
    Safe x v m (Lower.result (get >>= f)) :=
  Yields.getLower fun s _ grows => (h s).grow grows

@[grind ←]
theorem readLower {f : Environment → Lower β} (h : Safe x v m (Lower.result (f x.env))) :
    Safe x v m (Lower.result (read >>= f)) :=
  fun s b t hs outgrown ran => h s b t hs outgrown ran

@[grind ←]
theorem pureLower (a : α) : Safe x v m (Lower.result (pure a)) := by
  intro s b t hs outgrown ran
  cases ran
  exact ⟨hs, .refl _, trivial⟩

theorem forInLower {f : α → β → Lower (ForInStep β)} {list : List α} {c : β}
    (each : ∀ a c n, Safe x v n (Lower.result (f a c))) :
    Safe x v m (Lower.result (ForIn.forIn list c f)) := by
  induction list generalizing m c with
  | nil => exact .pureLower c
  | cons a rest ih =>
    rw [List.forIn_cons]
    refine .bindLower (each a c m) fun step => ?_
    cases step with
    | done c => exact .pureLower c
    | yield c => exact ih

/-- What is noted beside the tables. -/
theorem modifyLower {g : State → State} (builder : ∀ s, (g s).builder = s.builder)
    (stage : ∀ s, (g s).stage = s.stage)
    (tables : ∀ s n, x.Tables n s → x.Tables n (g s)) : Safe x v m (Lower.result (modify g)) :=
  Yields.noteTables (fun _ => rfl) builder stage fun s ht _ => tables s _ ht

end Safe

namespace Lower

/-- A step that steers the builder. -/
theorem tryBuild_safe {f : Builder → Except BuildError Builder}
    (steers : ∀ b c, b.Sound → f b = .ok c → b.Steers c) : Safe x v m (result (tryBuild f)) := by
  intro s _ t hs outgrown ran
  rw [result_tryBuild] at ran
  split at ran
  · next c built =>
    cases ran
    have steers := steers _ _ hs.builder built
    exact ⟨hs.steer steers, steers.grows, trivial⟩
  · cases ran

@[grind ←]
theorem terminate_safe (op : ControlOp) (args : List Arg) :
    Safe x v m (result (terminate op args)) :=
  tryBuild_safe fun _ _ sound ended => (sound.steers_terminate ended).1

@[grind ←]
theorem branch_safe (label : Id) : Safe x v m (result (branch label)) :=
  terminate_safe _ _

@[grind ←]
theorem branchConditional_safe (condition ifTrue ifFalse : Id) :
    Safe x v m (result (branchConditional condition ifTrue ifFalse)) :=
  terminate_safe _ _

@[grind ←]
theorem ret_safe : Safe x v m (result ret) :=
  terminate_safe _ _

@[grind ←]
theorem selectionMerge_safe (label : Id) : Safe x v m (result (selectionMerge label)) :=
  tryBuild_safe fun _ _ sound placed => sound.steers_push placed

@[grind ←]
theorem loopMerge_safe (breakLabel continueLabel : Id) :
    Safe x v m (result (loopMerge breakLabel continueLabel)) :=
  tryBuild_safe fun _ _ sound placed => sound.steers_push placed

theorem beginLabelled_safe (label? : Option Id) :
    Safe x v m (result (tryBuild fun b => (b.beginBlock label?).map (·.2))) := by
  refine tryBuild_safe fun b c sound begun => ?_
  cases h : b.beginBlock label? with
  | error e =>
    rw [h] at begun
    cases begun
  | ok r =>
    rw [h] at begun
    cases begun
    exact sound.steers_beginBlock h

@[grind ←]
theorem beginBlock_safe (label : Id) : Safe x v m (result (beginBlock label)) :=
  beginLabelled_safe (some label)

@[grind ←]
theorem beginFreshBlock_safe : Safe x v m (result beginFreshBlock) :=
  beginLabelled_safe none

@[grind ←]
theorem beginFunction_safe (returnType functionType : Id) (id? : Option Id) :
    Safe x v m (result (beginFunction returnType functionType id?)) := by
  intro s id t hs outgrown ran
  rw [beginFunction, result_get_bind] at ran
  split at ran
  · next begun =>
    cases ran
    have steers := hs.builder.steers_beginFunction begun
    exact ⟨hs.steer steers, steers.grows, trivial⟩
  · cases ran

/-- A function may end where its last block has. -/
theorem endFunction_safe {s t : State} (hs : x.Invariant v s) (closed : s.builder.block? = none)
    (ran : result endFunction x.env s = (.ok (), t)) :
    x.Invariant v t ∧ s.builder.module.Grows t.builder.module := by
  rw [endFunction, result_tryBuild] at ran
  split at ran
  · next c ended =>
    cases ran
    have steers := hs.builder.steers_endFunction closed ended
    exact ⟨hs.steer steers, steers.grows⟩
  · cases ran

/-- What follows a return starts without an open block. -/
theorem ret_bind_safe {f : Unit → Lower α}
    (later : ∀ s a t, x.Invariant v s → s.builder.block? = none →
      result (f ()) x.env s = (.ok a, t) →
        x.Invariant v t ∧ s.builder.module.Grows t.builder.module) :
    Safe x v m (result (ret >>= f)) := by
  intro s a u hs outgrown ran
  obtain ⟨_, t, returned, ran⟩ := result_bind_eq_ok.1 ran
  obtain ⟨ht, grows, _⟩ := ret_safe s () t hs outgrown returned
  have closed : t.builder.block? = none := by
    rw [ret, terminate, result_tryBuild] at returned
    split at returned
    · next c built =>
      cases returned
      exact (hs.builder.steers_terminate built).2
    · cases returned
  obtain ⟨hu, grows'⟩ := later t a u ht closed ran
  exact ⟨hu, grows.trans grows', trivial⟩

@[grind ←]
theorem setConstructs_safe (constructs : List Construct) :
    Safe x v m (result (setConstructs constructs)) :=
  .modifyLower (fun _ => rfl) (fun _ => rfl) fun _ _ tables => { tables with }

@[grind ←]
theorem pushConstruct_safe (c : Construct) : Safe x v m (result (pushConstruct c)) :=
  .modifyLower (fun _ => rfl) (fun _ => rfl) fun _ _ tables => { tables with }

@[grind ←]
theorem popConstruct_safe : Safe x v m (result popConstruct) := by
  intro s c? t hs outgrown ran
  rw [popConstruct, result_modifyGet] at ran
  split at ran
  · cases ran
    exact ⟨hs, .refl _, trivial⟩
  · cases ran
    exact ⟨hs.retable rfl rfl { hs.tables with }, .refl _, trivial⟩

@[grind ←]
theorem modifySwitch_safe (f : Switch → Switch) : Safe x v m (result (modifySwitch f)) := by
  refine .modifyLower (fun s => ?_) (fun s => ?_) fun s n tables => ?_
  · split <;> rfl
  · split <;> rfl
  · split
    · exact { tables with }
    · exact tables

@[grind ←]
theorem openBlock?_safe : Safe x v m (result openBlock?) :=
  .getLower fun _ => .pureLower _

@[grind ←]
theorem lastOp?_safe : Safe x v m (result lastOp?) :=
  .getLower fun _ => .pureLower _

@[grind ←]
theorem breakTarget_safe : Safe x v m (result breakTarget) :=
  .getLower fun _ => .lift (.orFault _ _)

@[grind ←]
theorem continueTarget_safe : Safe x v m (result continueTarget) :=
  .getLower fun _ => .lift (.orFault _ _)

@[grind ←]
theorem jumpTo_safe (label : Id) : Safe x v m (result (jumpTo label)) :=
  .bindLower (branch_safe label) fun _ => beginFreshBlock_safe

@[grind ←]
theorem jumpOn_safe (condition : Id) {jump : Lower Unit} (safe : ∀ n, Safe x v n (result jump)) :
    Safe x v m (result (jumpOn condition jump)) := by
  unfold jumpOn
  grind

variable {inst : Instruction}

@[grind ←]
theorem condition_safe (runs : x.Runs v inst) : Safe x v m (condition inst).run := by
  unfold condition
  grind

@[grind ←]
theorem selector_safe (runs : x.Runs v inst) : Safe x v m (selector inst).run := by
  unfold selector
  grind

@[grind ←]
theorem jumpIf_safe (runs : x.Runs v inst) {jump : Lower Unit}
    (safe : ∀ n, Safe x v n (result jump)) : Safe x v m (result (jumpIf inst jump)) :=
  .bindLower (.lift (condition_safe runs)) fun condition => jumpOn_safe condition safe

@[grind ←]
theorem openIf_safe (condition : Id) : Safe x v m (result (openIf condition)) := by
  unfold openIf
  grind

theorem lowerElse_safe : Safe x v m (result lowerElse) := by
  refine .getLower fun s => ?_
  split <;> grind

theorem lowerEndIf_safe : Safe x v m (result lowerEndIf) := by
  refine .bindLower popConstruct_safe fun c? => ?_
  split <;> grind

theorem lowerLoop_safe : Safe x v m (result lowerLoop) := by
  refine .bindLower (.lift fresh_safe) fun header => .bindLower (.lift fresh_safe) fun body => ?_
  refine .bindLower (.lift fresh_safe) fun next => .bindLower (.lift fresh_safe) fun behind => ?_
  refine .bindLower (branch_safe header) fun _ => ?_
  grind

theorem lowerEndLoop_safe : Safe x v m (result lowerEndLoop) := by
  refine .bindLower popConstruct_safe fun c? => ?_
  split <;> grind

theorem openSwitch_safe (selector : Id) : Safe x v m (result (openSwitch selector)) := by
  have leave : Safe x v m
      (result (modify fun s => { s with builder := s.builder.leaveBlock })) := by
    intro s _ t hs outgrown ran
    cases ran
    have steers := hs.builder.steers_leaveBlock
    exact ⟨hs.steer steers, steers.grows, trivial⟩
  unfold openSwitch
  grind

@[grind ←]
theorem closeCase_safe (next : Id) : Safe x v m (result (closeCase next)) := by
  unfold closeCase
  grind

@[grind ←]
theorem caseLabel_safe : Safe x v m (result caseLabel) := by
  refine .bindLower lastOp?_safe fun last? => .getLower fun s => ?_
  split
  · split
    · exact .pureLower _
    · grind
  · exact .lift (.failWith _)

theorem lowerCase_safe (inst : Instruction) : Safe x v m (result (lowerCase inst)) := by
  refine .bindLower (.lift (.orFault _ _)) fun op => ?_
  grind

theorem lowerDefault_safe : Safe x v m (result lowerDefault) :=
  .bindLower caseLabel_safe fun _ => modifySwitch_safe _

@[grind ←]
theorem closeHeader_safe (s : Switch) : Safe x v m (result (closeHeader s)) := by
  have reopen : Safe x v m (result (tryBuild (·.reopenBlock s.header))) :=
    tryBuild_safe fun _ _ sound opened => sound.steers_reopenBlock opened
  unfold closeHeader
  grind

theorem lowerEndSwitch_safe : Safe x v m (result lowerEndSwitch) := by
  refine .bindLower popConstruct_safe fun c? => ?_
  split <;> grind

theorem lowerControlFlow_safe (runs : x.Runs v inst) :
    Safe x v m (result (lowerControlFlow inst)) := by
  unfold lowerControlFlow
  split
  · exact .bindLower (.lift (condition_safe runs)) openIf_safe
  · exact lowerElse_safe
  · exact lowerEndIf_safe
  · exact lowerLoop_safe
  · exact lowerEndLoop_safe
  · exact .bindLower (.lift (selector_safe runs)) openSwitch_safe
  · exact lowerCase_safe inst
  · exact lowerDefault_safe
  · exact lowerEndSwitch_safe
  · exact .bindLower breakTarget_safe jumpTo_safe
  · exact .bindLower continueTarget_safe jumpTo_safe
  · exact .bindLower breakTarget_safe fun label => jumpIf_safe runs fun _ => branch_safe label
  · exact .bindLower continueTarget_safe fun label => jumpIf_safe runs fun _ => branch_safe label
  · exact .bindLower ret_safe fun _ => beginFreshBlock_safe
  · exact jumpIf_safe runs fun _ => ret_safe
  · have kill := jumpIf_safe (m := m) runs fun n => terminate_safe (x := x) (v := v) .kill []
    grind
  · exact .lift (unsupported_safe inst)

end Lower

end ShaderLowering
