import ShaderLowering.Proofs.Scope.Arithmetic
import ShaderLowering.Proofs.Scope.Buffers
import ShaderLowering.Proofs.Scope.Interface
import ShaderLowering.Proofs.Typing.Instructions

/-!
Instructions that do not direct control. Inside of bodies they consist of acts. Among declarations,
those for the stage as a whole change what the stage knows of itself, and nothing else; those of
resources bind registers; the others consist of acts as well.
-/

namespace ShaderLowering

open Spirv (Id Instr Arg Op Builder)

variable {H : Limits} {T : Allowance} {env : Environment} {b : Builder} {s t u : State}
  {inst : Instruction}

/-- The register whose counter an instruction uses. -/
def Instruction.counted? (inst : Instruction) : Option UInt32 :=
  if inst.family = .atomicCounter then inst.src[0]?.bind (·.index? 0) else none

/-- What an instruction binds: what it declares, or the counter that it uses. -/
def Instruction.bound? (inst : Instruction) : Option Descriptor :=
  if inst.family = .declaration then inst.descriptor? else inst.counted?.map .counter

def Instruction.binds (inst : Instruction) (d : Descriptor) : Prop :=
  inst.bound? = some d

/-- What an instruction declares or counts has been bound. -/
def Instruction.Covered (inst : Instruction) (s : State) : Prop :=
  ∀ d, inst.bound? = some d → (s.bound d.slotClass d.slot).isSome = true

theorem Instruction.bound?_of_counted {slot : UInt32} (counted : inst.counted? = some slot) :
    inst.bound? = some (.counter slot) := by
  have family : inst.family = .atomicCounter := by
    unfold counted? at counted
    split at counted
    · assumption
    · cases counted
  rw [bound?, if_neg (by rw [family]; nofun), counted]
  rfl

/-- What a hull shader knows of itself after a declaration in one of its phases. -/
def HullState.after (inst : Instruction) (h : HullState) : HullState :=
  match inst.op? with
  | some .dclHsForkPhaseInstanceCount | some .dclHsJoinPhaseInstanceCount =>
    (h.modifyPhase? fun phase => { phase with instanceCount := max (inst.imm.headD 0) 1 }).getD h
  | _ => h.declare inst

/-- Two states of a hull shader with the same functions and variables of phases. -/
structure HullState.SamePhases (h h' : HullState) : Prop where
  controlPoint? : h'.controlPoint? = h.controlPoint?
  fork : h'.fork.map (fun p => (p.function, p.instanceId)) =
    h.fork.map fun p => (p.function, p.instanceId)
  join : h'.join.map (fun p => (p.function, p.instanceId)) =
    h.join.map fun p => (p.function, p.instanceId)

namespace HullState

theorem SamePhases.refl (h : HullState) : h.SamePhases h :=
  ⟨rfl, rfl, rfl⟩

theorem samePhases_declare (h : HullState) (inst : Instruction) :
    h.SamePhases (h.declare inst) := by
  unfold declare
  split
  case h_5 =>
    unfold declareOutputPrimitive
    split <;> exact ⟨rfl, rfl, rfl⟩
  all_goals exact ⟨rfl, rfl, rfl⟩

theorem map_modify {α β : Type} {f : α → α} {g : α → β} (same : ∀ a, g (f a) = g a) (l : List α)
    (n : Nat) : (l.modify n f).map g = l.map g := by
  induction l generalizing n with
  | nil => rw [List.modify_nil]
  | cons a rest ih =>
    cases n with
    | zero => rw [List.modify_zero_cons, List.map_cons, same, List.map_cons]
    | succ n => rw [List.modify_succ_cons, List.map_cons, ih, List.map_cons]

theorem samePhases_modify {h h' : HullState} {count : UInt32}
    (is : h.modifyPhase? (fun phase => { phase with instanceCount := count }) = some h') :
    h.SamePhases h' := by
  have same (l : List PatchPhase) (n : Nat) :=
    map_modify (f := fun phase : PatchPhase => { phase with instanceCount := count })
      (g := fun p => (p.function, p.instanceId)) (fun _ => rfl) l n
  unfold modifyPhase? at is
  split at is
  · split at is
    · cases is
      exact ⟨rfl, same _ _, rfl⟩
    · cases is
  · split at is
    · cases is
      exact ⟨rfl, rfl, same _ _⟩
    · cases is
  · cases is

theorem phase_modifyPhase? {h h' : HullState} {f : PatchPhase → PatchPhase}
    (is : h.modifyPhase? f = some h') : h'.phase = h.phase := by
  unfold modifyPhase? at is
  split at is
  · split at is <;> cases is
    rfl
  · split at is <;> cases is
    rfl
  · cases is

theorem phase_declare (h : HullState) (inst : Instruction) :
    (h.declare inst).phase = h.phase := by
  unfold declare
  split
  case h_5 =>
    unfold declareOutputPrimitive
    split <;> rfl
  all_goals rfl

/-- Only declarations for the stage as a whole change what a hull shader knows of itself. -/
theorem after_of_other {op : Opcode} (h : HullState) (is : inst.op? = some op)
    (other : op.isStageDeclaration = false) : h.after inst = h := by
  unfold after declare
  rw [is]
  split
  case h_1 known => cases known; cases other
  case h_2 known => cases known; cases other
  case h_3 =>
    split
    all_goals first
      | rfl
      | (next known => cases known; cases other)

theorem samePhases_after (h : HullState) (inst : Instruction) : h.SamePhases (h.after inst) := by
  have modified {count : UInt32} : h.SamePhases
      ((h.modifyPhase? fun phase => { phase with instanceCount := count }).getD h) := by
    cases is : h.modifyPhase? fun phase => { phase with instanceCount := count } with
    | none => exact .refl h
    | some h' => exact samePhases_modify is
  unfold after
  split
  · exact modified
  · exact modified
  · exact h.samePhases_declare inst

end HullState

/-- What is kept of a stage does not depend on anything but the functions and variables of
phases. -/
theorem State.Kept.withStage (kept : s.Kept H b) {stage : StageState}
    (same : ∀ h', stage.hull? = some h' → ∃ h, s.stage.hull? = some h ∧ h.SamePhases h') :
    { s with stage }.Kept H b := by
  refine { kept with hull := fun h' is => ?_ }
  obtain ⟨h, was, same⟩ := same h' is
  obtain ⟨controlPoint, phases⟩ := kept.hull h was
  refine ⟨fun id is => controlPoint id (same.controlPoint? ▸ is), fun phase mem => ?_⟩
  have among : (phase.function, phase.instanceId) ∈
      (h.fork ++ h.join).map fun p => (p.function, p.instanceId) := by
    rw [List.map_append, ← same.fork, ← same.join, ← List.map_append]
    exact List.mem_map_of_mem mem
  obtain ⟨p, hp, is⟩ := List.mem_map.1 among
  have function : p.function = phase.function := congrArg Prod.fst is
  have instanceId : p.instanceId = phase.instanceId := congrArg Prod.snd is
  exact ⟨function ▸ (phases p hp).1, instanceId ▸ (phases p hp).2⟩

namespace Lower

theorem requireFirstStream_supplies (stream? : Option UInt32) :
    Supplies H env b (requireFirstStream inst stream?).run :=
  .ite (unsupported_supplies inst) (.pure trivial)

theorem lowerVertexOutput_supplies : Supplies H env b (lowerVertexOutput inst).run := by
  refine .read_bind (.ite (.failWith _) ?_)
  have ends (emits cuts : Bool) (c : Builder) : Supplies H env c (do
      if emits then
        copyOutputs
        emit .emitVertex []
      if cuts then emit .endPrimitive [] : Emission Unit).run := by
    have last (d : Builder) : Supplies H env d (do
        if cuts then emit .endPrimitive [] : Emission Unit).run :=
      .ite (emit_supplies rfl (Given.nil_iff.2 trivial)) (.pure trivial)
    exact .ite (.bind copyOutputs_supplies fun _ d _ _ => .bind
      (emit_supplies rfl (Given.nil_iff.2 trivial)) fun _ e _ _ => last e) (last c)
  dsimp only
  split
  · exact .bind (requireFirstStream_supplies _) fun _ c _ _ => ends _ _ c
  · exact ends _ _ b

theorem lowerOperation_supplies
    (may : ∀ slot, inst.counted? = some slot → T.binds (.counter slot)) :
    Supplies (.tables T) env b (lowerOperation inst).run := by
  unfold lowerOperation
  split
  case h_4 family =>
    refine lowerCounter_supplies inst fun slot is => may slot ?_
    rw [Instruction.counted?, if_pos family, is]
  · exact .pure trivial
  · exact lowerVertexOutput_supplies
  · exact lowerAtomic_supplies inst
  · exact lowerBarrier_supplies inst
  · exact lowerBufferQuery_supplies inst
  · exact lowerBufferLoad_supplies inst
  · exact lowerBufferStore_supplies inst
  · exact lowerInterpolation_supplies inst
  · exact lowerSizeQuery_supplies inst
  · exact lowerLodQuery_supplies inst
  · exact lowerSampleCountQuery_supplies inst
  · exact lowerFetch_supplies inst
  · exact lowerGather_supplies inst
  · exact lowerSample_supplies inst
  · exact lowerTypedLoad_supplies inst
  · exact lowerTypedStore_supplies inst
  all_goals first
    | exact lowerArithmetic_supplies inst
    | exact unsupported_supplies (α := Unit) inst

theorem groupMemoryRegister_does :
    Does H env b (groupMemoryRegister inst).run fun _ _ => True :=
  .demand fun _ _ => .pure fun _ _ => trivial

theorem lowerStructuredGroupMemory_supplies (stride count : UInt32) :
    Supplies H env b (lowerStructuredGroupMemory inst stride count).run :=
  .after groupMemoryRegister_does fun _ _ _ _ =>
    .ite (.failWith _) (declareGroupMemory_supplies _ _ _)

end Lower

namespace Settles

variable {d? : Option Descriptor}

theorem acts (h : Settles H env s u d?) (may : ∀ d, d? = some d → H.binds d) :
    Acts H env s u := by
  rcases h with ⟨rfl, _⟩ | ⟨d, t, is, acts, _, binds⟩
  · exact .refl
  · exact acts.tail (.bind (may d is) binds)

theorem bound (h : Settles H env s u d?) {d : Descriptor} (is : d? = some d) :
    (u.bound d.slotClass d.slot).isSome = true := by
  rcases h with ⟨rfl, bound⟩ | ⟨d', t, is', _, _, binds⟩
  · exact bound d is
  · cases is.symm.trans is'
    obtain ⟨_, _, _, _, _, _, _, accounts⟩ := binds.made
    rw [show u.bound = _ from congrArg Accounts.bound accounts]
    simp only [Function.updateAt, and_self, if_true, Option.isSome_some]

end Settles

namespace Lower

/-- An instruction has changed what the stage knows of itself, and nothing else. -/
def ChangesStage (inst : Instruction) (s t : State) : Prop :=
  ∃ stage, t = { s with stage } ∧ stage.hull? = s.stage.hull?.map (HullState.after inst)

theorem ChangesStage.of_set {stage : StageState} {notHull : stage.hull? = none}
    (none_ : s.stage.hull? = none)
    (ran : (Emission.setStage stage notHull).run env s = (.ok (), t)) : ChangesStage inst s t := by
  cases ran
  refine ⟨_, rfl, ?_⟩
  rw [none_]
  exact StageState.hull?_become notHull none_

theorem ChangesStage.of_refl (same : ∀ h, s.stage.hull? = some h → h.after inst = h) :
    ChangesStage inst s s := by
  refine ⟨s.stage, rfl, ?_⟩
  cases is : s.stage.hull? with
  | none => rfl
  | some h => exact congrArg some (same h is).symm

theorem lowerHullDeclaration_changes (ran : (lowerHullDeclaration inst).run env s = (.ok (), t)) :
    ChangesStage inst s t := by
  have updates {h h' : HullState} (is : s.stage.hull? = some h) (phase : h'.phase = h.phase)
      (after : h.after inst = h') (ran : (updateHullState h').run env s = (.ok (), t)) :
      ChangesStage inst s t := by
    cases ran
    refine ⟨_, rfl, ?_⟩
    rw [is, Option.map_some, after]
    cases stage : s.stage with
    | hull old =>
      rw [stage] at is
      cases is
      change some { h' with phase := _ } = _
      rw [← phase]
    | _ =>
      rw [stage] at is
      cases is
  have counts (after : ∀ h : HullState, h.after inst = (h.modifyPhase? fun phase =>
      { phase with instanceCount := max (inst.imm.headD 0) 1 }).getD h)
      (ran : (declareInstanceCount inst).run env s = (.ok (), t)) : ChangesStage inst s t := by
    obtain ⟨h, s₁, found, ran₁⟩ := Emission.run_bind_eq_ok.1 ran
    obtain ⟨is, rfl⟩ := orFault_run_eq_ok.1 found
    obtain ⟨h', s₂, modified, ran₂⟩ := Emission.run_bind_eq_ok.1 ran₁
    obtain ⟨changed, rfl⟩ := orFault_run_eq_ok.1 modified
    exact updates is (HullState.phase_modifyPhase? changed) (by rw [after, changed]; rfl) ran₂
  unfold lowerHullDeclaration at ran
  split at ran
  · next op => exact counts (fun h => by rw [HullState.after, op]) ran
  · next op => exact counts (fun h => by rw [HullState.after, op]) ran
  · next fork join =>
    obtain ⟨h, s₁, found, ran₁⟩ := Emission.run_bind_eq_ok.1 ran
    obtain ⟨is, rfl⟩ := orFault_run_eq_ok.1 found
    refine updates is (h.phase_declare inst) ?_ ran₁
    unfold HullState.after
    split
    · next op => exact absurd op fork
    · next op => exact absurd op join
    · rfl

theorem lowerStageDeclaration_changes {op : Opcode} (is : inst.op? = some op)
    (ran : (lowerStageDeclaration inst op).run env s = (.ok (), t)) : ChangesStage inst s t := by
  replace ran := Emission.run_bind_eq_ok.1 ran
  obtain ⟨_, _, got, ran⟩ := ran
  cases got
  split at ran
  · next stage => exact .of_set (by rw [stage]; rfl) ran
  · cases ran
    refine .of_refl fun h _ => ?_
    rw [HullState.after, is]
    dsimp only
    rw [HullState.declare, is]
  · exact lowerHullDeclaration_changes ran
  · next stage _ =>
    have none_ : s.stage.hull? = none := by rw [stage]; rfl
    have refl (ran : t = s) : ChangesStage inst s t := by
      subst ran
      exact .of_refl fun h is => absurd (none_.symm.trans is) nofun
    unfold lowerGeometryDeclaration at ran
    split at ran
    · unfold requireFirstStream at ran
      split at ran <;> cases ran
      exact refl rfl
    · obtain ⟨_, _, looked, set⟩ := Emission.run_bind_eq_ok.1 ran
      obtain ⟨_, rfl⟩ := orFault_run_eq_ok.1 looked
      exact .of_set none_ set
    · obtain ⟨_, _, looked, set⟩ := Emission.run_bind_eq_ok.1 ran
      obtain ⟨_, rfl⟩ := orFault_run_eq_ok.1 looked
      exact .of_set none_ set
    · exact .of_set none_ ran
    · exact .of_set none_ ran
    · cases ran
      exact refl rfl
  · next stage =>
    have none_ : s.stage.hull? = none := by rw [stage]; rfl
    split at ran
    · exact .of_set none_ ran
    · cases ran
      exact .of_refl fun h is => absurd (none_.symm.trans is) nofun
  · next stage => exact .of_set (by rw [stage]; rfl) ran
  · next stage => exact .of_set (by rw [stage]; rfl) ran
  · next notHull _ _ _ _ _ =>
    cases ran
    refine .of_refl fun h is => ?_
    cases stage : s.stage with
    | hull h => exact (notHull h stage).elim
    | _ =>
      rw [stage] at is
      cases is

theorem lowerInputDeclaration_acts (ready : Ready H s)
    (ran : (lowerInputDeclaration inst).run env s = (.ok (), t)) : Acts H env s t := by
  have atRegister {reg? : Option UInt32} {fault : Fault} {side : Side} {mask : WriteMask}
      {mode : Interpolation} (ran : InterfaceStep.run (do
        let reg ← orFault reg? fault
        declareRegister side reg mask (declaredValue? inst) mode) env s = (.ok (), t)) :
      Acts H env s t := by
    obtain ⟨reg, u, found, declared⟩ := InterfaceStep.run_bind_eq_ok.1 ran
    obtain ⟨_, rfl⟩ := orFault_interface_eq_ok.1 found
    exact declareRegister_acts ready declared
  unfold lowerInputDeclaration at ran
  split at ran
  · split at ran
    · exact atRegister ran
    · exact atRegister ran
    · change (if env.stage = .domain then _ else _ : InterfaceStep Unit).run env s = _ at ran
      split at ran
      · exact atRegister ran
      · cases ran
        exact .refl
    · cases ran
      exact .refl
  · cases ran

theorem lowerOutputDeclaration_steps (ready : Ready H s)
    (ran : (lowerOutputDeclaration inst).run env s = (.ok (), t)) :
    Acts H env s t ∨ ∃ stage, t = { s with stage } ∧ stage.hull? = s.stage.hull? := by
  have depth {mode : Spirv.ExecutionMode} (ran : (setDepthMode mode).run env s = (.ok (), t)) :
      Acts H env s t ∨ ∃ stage, t = { s with stage } ∧ stage.hull? = s.stage.hull? := by
    replace ran := Emission.run_bind_eq_ok.1 ran
    obtain ⟨_, _, got, ran⟩ := ran
    cases got
    split at ran
    · next stage =>
      cases ran
      refine .inr ⟨_, rfl, ?_⟩
      rw [stage]
      rfl
    · cases ran
      exact .inl .refl
  unfold lowerOutputDeclaration at ran
  split at ran
  · split at ran
    · obtain ⟨reg, u, found, ran₁⟩ := InterfaceStep.run_bind_eq_ok.1 ran
      obtain ⟨_, rfl⟩ := orFault_interface_eq_ok.1 found
      obtain ⟨_, v, asked, ran₂⟩ := InterfaceStep.run_bind_eq_ok.1 ran₁
      cases asked
      obtain ⟨_, w, asked, declared⟩ := InterfaceStep.run_bind_eq_ok.1 ran₂
      cases asked
      exact .inl (declareRegister_acts ready declared)
    · exact depth ran
    · exact depth ran
    · exact depth ran
    · cases ran
      exact .inl .refl
  · cases ran

/-- A declaration of registers or resources. -/
theorem lowerRegisterDeclaration_steps {op : Opcode} (is : inst.op? = some op)
    (ready : Ready H s) (may : ∀ d, inst.descriptor? = some d → H.binds d)
    (ran : (lowerRegisterDeclaration inst op).run env s = (.ok (), t)) :
    (Acts H env s t ∨ ∃ stage, t = { s with stage } ∧ stage.hull? = s.stage.hull?) ∧
      ∀ d, inst.descriptor? = some d → (t.bound d.slotClass d.slot).isSome = true := by
  have acts (steps : Acts H env s t) (none_ : inst.descriptor? = none) :
      (Acts H env s t ∨ ∃ stage, t = { s with stage } ∧ stage.hull? = s.stage.hull?) ∧
        ∀ d, inst.descriptor? = some d → (t.bound d.slotClass d.slot).isSome = true :=
    ⟨.inl steps, fun d is => absurd (none_.symm.trans is) nofun⟩
  have supplies {m : Emission Unit} (does : Supplies H env s.builder m.run)
      (ran : m.run env s = (.ok (), t)) : Acts H env s t :=
    (does s () t ready (.refl _) ran).1
  have settles (h : Settles H env s t inst.descriptor?) :
      (Acts H env s t ∨ ∃ stage, t = { s with stage } ∧ stage.hull? = s.stage.hull?) ∧
        ∀ d, inst.descriptor? = some d → (t.bound d.slotClass d.slot).isSome = true :=
    ⟨.inl (h.acts may), fun d is => h.bound is⟩
  unfold lowerRegisterDeclaration at ran
  dsimp only at ran
  split at ran
  case h_1 =>
    exact acts (supplies (declareTemps_supplies _) ran) (by rw [Instruction.descriptor?, is])
  case h_2 =>
    exact acts (supplies (declareIndexableTemp_supplies _ _) ran)
      (by rw [Instruction.descriptor?, is])
  case h_3 =>
    have does : Supplies H env s.builder (groupMemoryRegister inst >>= fun reg =>
        declareGroupMemory reg 0 ((inst.imm.getD 0 0).toNat / 4)).run :=
      .after groupMemoryRegister_does fun _ _ _ _ => declareGroupMemory_supplies _ _ _
    exact acts (supplies does ran) (by rw [Instruction.descriptor?, is])
  case h_4 =>
    exact acts (supplies (lowerStructuredGroupMemory_supplies _ _) ran)
      (by rw [Instruction.descriptor?, is])
  case h_5 | h_6 | h_7 | h_8 | h_9 | h_10 =>
    exact acts (lowerInputDeclaration_acts ready ran) (by rw [Instruction.descriptor?, is])
  case h_11 | h_12 | h_13 =>
    have none_ : inst.descriptor? = none := by rw [Instruction.descriptor?, is]
    exact ⟨lowerOutputDeclaration_steps ready ran, fun d is => absurd (none_.symm.trans is) nofun⟩
  case h_14 => exact settles (lowerConstantBufferDeclaration_settles is ready ran)
  case h_15 => exact settles (lowerSamplerDeclaration_settles is ready ran)
  case h_16 | h_17 | h_18 => exact settles (lowerResourceDeclaration_settles is rfl ready ran)
  case h_19 | h_20 | h_21 => exact settles (lowerUavDeclaration_settles is rfl ready ran)
  case h_22 | h_23 | h_24 => cases ran
  case h_25 =>
    cases ran
    refine acts .refl ?_
    unfold Instruction.descriptor?
    rw [is]
    split <;> next known => first | rfl | (cases known; contradiction)

/-- Lowering a declaration. -/
theorem lowerDeclaration_steps (ready : Ready H s)
    (may : ∀ d, inst.descriptor? = some d → H.binds d)
    (ran : (lowerDeclaration inst).run env s = (.ok (), t)) :
    (Acts H env s t ∨ ChangesStage inst s t) ∧
      ∀ d, inst.descriptor? = some d → (t.bound d.slotClass d.slot).isSome = true := by
  unfold lowerDeclaration at ran
  split at ran
  · next op is =>
    split at ran
    · next stage =>
      refine ⟨.inr (lowerStageDeclaration_changes is ran), fun d declared => ?_⟩
      rw [Instruction.descriptor?, is] at declared
      split at declared
      all_goals first
        | (next known => cases known; cases stage)
        | cases declared
    · next other =>
      obtain ⟨steps, bound⟩ := lowerRegisterDeclaration_steps is ready may ran
      refine ⟨steps.imp_right fun changes => ?_, bound⟩
      obtain ⟨stage, same, hull?⟩ := changes
      refine ⟨stage, same, ?_⟩
      rw [hull?]
      cases h : s.stage.hull? with
      | none => rfl
      | some h => exact congrArg some (HullState.after_of_other _ is (by simpa using other)).symm
  · next none_ =>
    cases ran
    refine ⟨.inl .refl, fun d declared => ?_⟩
    rw [Instruction.descriptor?, none_] at declared
    cases declared

/-- Lowering an instruction that neither directs control nor begins a phase. -/
theorem lowerByFamily_steps (notControl : inst.family ≠ .controlFlow)
    (notPhase : inst.family ≠ .hullShaderPhase) (ready : Ready (.tables T) s)
    (may : ∀ d, inst.binds d → T.binds d)
    (ran : result (lowerByFamily inst) env s = (.ok (), t)) :
    (Acts (.tables T) env s t ∨ inst.family = .declaration ∧ ChangesStage inst s t) ∧
      inst.Covered t := by
  have none_ (declaration : inst.family ≠ .declaration) (counter : inst.family ≠ .atomicCounter) :
      inst.Covered t := fun d is => by
    rw [Instruction.bound?, if_neg declaration, Instruction.counted?, if_neg counter] at is
    cases is
  have ordinary {m : Emission Unit} (does : Supplies (.tables T) env s.builder m.run)
      (ran : result (liftM m) env s = (.ok (), t)) : Acts (.tables T) env s t :=
    (does s () t ready (.refl _) ran).1
  have operation (ran : result (do
      unless (← get).inFunction do failWith (.outsideBody inst.name)
      liftM (lowerOperation inst)) env s = (.ok (), t)) : Acts (.tables T) env s t :=
    ordinary (lowerOperation_supplies fun slot is => may _ (Instruction.bound?_of_counted is))
      ((result_inFunction (m := liftM (lowerOperation inst))).1 ran).2
  cases family : inst.family with
  | hullShaderPhase => exact absurd family notPhase
  | controlFlow => exact absurd family notControl
  | declaration =>
    have bound : inst.bound? = inst.descriptor? := if_pos family
    rw [lowerByFamily_declaration family] at ran
    obtain ⟨steps, declared⟩ := lowerDeclaration_steps ready
      (fun d is => may d (bound.trans is)) ran
    exact ⟨steps.imp_right fun changes => ⟨rfl, changes⟩, fun d is => declared d (bound ▸ is)⟩
  | atomicCounter =>
    unfold lowerByFamily lowerExecutable at ran
    rw [family] at ran
    have counted : inst.counted? = inst.src[0]?.bind (Operand.index? · 0) := if_pos family
    have lowered := ((result_inFunction (m := liftM (lowerOperation inst))).1 ran).2
    unfold lowerOperation at lowered
    rw [family] at lowered
    refine ⟨.inl (operation ran), fun d is => ?_⟩
    rw [Instruction.bound?, if_neg (by rw [family]; nofun)] at is
    obtain ⟨slot, counts, rfl⟩ := Option.map_eq_some_iff.1 is
    exact lowerCounter_counts ready (fun slot is => may _ (Instruction.bound?_of_counted
      (counted.trans is))) lowered slot (counted.symm.trans counts)
  | customData =>
    unfold lowerByFamily at ran
    rw [family] at ran
    refine ⟨.inl (ordinary (m := lowerCustomData inst) ?_ ran),
      none_ (by rw [family]; nofun) (by rw [family]; nofun)⟩
    unfold lowerCustomData
    split
    · exact lowerImmediateConstants_supplies _
    · exact .pure trivial
  | float64 | textureQueryMsPos =>
    unfold lowerByFamily at ran
    rw [family] at ran
    cases ran
  | _ =>
    unfold lowerByFamily lowerExecutable at ran
    rw [family] at ran
    exact ⟨.inl (operation ran), none_ (by rw [family]; nofun) (by rw [family]; nofun)⟩

end Lower

end ShaderLowering
