import ShaderLowering.Proofs.Lowering.Conditions

/-!
Steps that cannot fail. The builder takes an instruction wherever a block is open, so an ordinary
step that gives up nowhere by itself succeeds there. What a stage knows of itself stays as it was.
-/

namespace ShaderLowering

open Spirv (Id)

namespace Emission

variable {α β : Type} {place : Prop}

/-- A step succeeds and tells the stage nothing new. If it appends instructions it needs a place
for them; `place` says whether there has to be one. -/
def Succeeds (place : Prop) (m : Emission α) : Prop :=
  ∀ env s, (place → s.HasPlace) → ∃ a t, m.run env s = (.ok a, t) ∧ t.stage = s.stage

namespace Succeeds

protected theorem pure (a : α) : Succeeds place (pure a) := by
  intro env s _
  exact ⟨a, s, rfl, rfl⟩

protected theorem bind {m : Emission α} {f : α → Emission β} (first : Succeeds place m)
    (later : ∀ a, Succeeds place (f a)) : Succeeds place (m >>= f) := by
  intro env s hs
  obtain ⟨a, t, run, stage⟩ := first env s hs
  have ht : place → t.HasPlace := fun h => (emits_of_run run).hasPlace_iff.2 (hs h)
  obtain ⟨b, u, run', stage'⟩ := later a env t ht
  exact ⟨b, u, run_bind_eq_ok.2 ⟨a, t, run, run'⟩, stage'.trans stage⟩

theorem pure_bind {a : α} {f : α → Emission β} (h : Succeeds place (f a)) :
    Succeeds place (Pure.pure a >>= f) := h

theorem ite {p : Prop} [Decidable p] {m n : Emission α} (yes : Succeeds place m)
    (no : Succeeds place n) : Succeeds place (if p then m else n) := by
  split
  · exact yes
  · exact no

theorem state : Succeeds place state := by
  intro env s _
  exact ⟨s, s, rfl, rfl⟩

theorem read : Succeeds place (read : Emission Environment) := by
  intro env s _
  exact ⟨env, s, rfl, rfl⟩

theorem fresh : Succeeds place fresh := by
  intro env s _
  exact ⟨_, _, rfl, rfl⟩

theorem declare (key : Spirv.Key) : Succeeds place (declare key) := by
  intro env s _
  exact ⟨_, _, rfl, rfl⟩

theorem note {f : State → State} {same : ∀ s : State, s.SameOutline (f s)}
    {keeps : ∀ s : State, s.SameInterface (f s)} (stage : ∀ s, (f s).stage = s.stage) :
    Succeeds place (note f same keeps) := by
  intro env s _
  exact ⟨(), f s, rfl, stage s⟩

/-- An instruction finds its place. -/
theorem push (op : Spirv.Op) (type? result? : Option Id) (args : List Spirv.Arg) :
    Succeeds True (push op type? result? args) := by
  intro env s hs
  obtain ⟨hf, hb⟩ := hs trivial
  obtain ⟨function, hf⟩ := Option.isSome_iff_exists.1 hf
  obtain ⟨block, hb⟩ := Option.isSome_iff_exists.1 hb
  let i : Spirv.Instr := ⟨.ordinary op, type?, result?, args⟩
  have placed : s.builder.push i = .ok (s.builder.pushTo function block i) :=
    Spirv.Builder.push_eq_ok.2 ⟨function, block, hf, hb, rfl⟩
  exact ⟨(), _, run_push_eq_ok.2 ⟨_, placed, rfl⟩, rfl⟩

theorem mapM {f : α → Emission β} (each : ∀ a, Succeeds place (f a)) (list : List α) :
    Succeeds place (list.mapM f) := by
  induction list with
  | nil =>
    rw [List.mapM_nil]
    exact .pure []
  | cons a rest ih =>
    rw [List.mapM_cons]
    exact .bind (each a) fun _ => .bind ih fun _ => .pure _

end Succeeds

end Emission

namespace Lower

open Emission (Succeeds)

variable {place : Prop}

theorem scalarType_succeeds (scalar : ScalarType) : Succeeds place (scalarType scalar) :=
  .declare _

theorem vectorType_succeeds (type : VectorType) : Succeeds place (vectorType type) :=
  .bind (scalarType_succeeds _) fun _ => .ite (.pure _) (.declare _)

theorem voidType_succeeds : Succeeds place voidType :=
  .declare _

theorem voidFunctionType_succeeds : Succeeds place voidFunctionType :=
  .bind voidType_succeeds fun _ => .declare _

theorem constant_succeeds (scalar : ScalarType) (bits : UInt32) :
    Succeeds place (constant scalar bits) := by
  apply Succeeds.bind (scalarType_succeeds _)
  intro type
  exact .declare _

theorem constantVector_succeeds (scalar : ScalarType) (bits : List UInt32) :
    Succeeds place (constantVector scalar bits) := by
  apply Succeeds.bind (.mapM (constant_succeeds scalar) bits)
  intro parts
  split
  · exact .pure _
  · exact .bind (vectorType_succeeds _) fun _ => .declare _

theorem constantValue_succeeds (scalar : ScalarType) (bits : List UInt32) :
    Succeeds place (constantValue scalar bits) :=
  .bind (constantVector_succeeds _ _) fun _ => .pure _

theorem splat_succeeds (scalar : ScalarType) (bits : UInt32) (count : Nat) :
    Succeeds place (splat scalar bits count) :=
  constantValue_succeeds _ _

theorem name_succeeds (id : Id) (text : String) : Succeeds place (name id text) :=
  .bind .read fun _ => .ite (.pure _) (.note fun _ => rfl)

theorem requireCapability_succeeds (c : Spirv.Capability) :
    Succeeds place (requireCapability c) :=
  .bind .state fun _ => .ite (.pure _) (.note fun _ => rfl)

theorem interfaceVariables_succeeds : Succeeds place interfaceVariables :=
  .bind .read fun _ => .bind .state fun _ => .pure _

theorem emitValue_succeeds (op : Spirv.Op) (type : Id) (args : List Spirv.Arg) :
    Succeeds True (emitValue op type args) :=
  .bind .fresh fun _ => .bind (.push _ _ _ _) fun _ => .pure _

theorem operate_succeeds (op : Spirv.Op) (type : VectorType) (args : List Id) :
    Succeeds True (operate op type args) :=
  .bind (vectorType_succeeds _) fun _ => .bind (emitValue_succeeds _ _ _) fun _ => .pure _

theorem extended_succeeds (op : Spirv.ExtOp) (type : VectorType) (args : List Id) :
    Succeeds True (extended op type args) :=
  .bind (vectorType_succeeds _) fun _ => .bind .state fun _ =>
    .bind (emitValue_succeeds _ _ _) fun _ => .pure _

theorem call_succeeds (function : Id) : Succeeds True (call function) :=
  .bind voidType_succeeds fun _ => .bind (emitValue_succeeds _ _ _) fun _ => .pure _

theorem boolToMask_succeeds (value : Value) : Succeeds True (boolToMask value) :=
  .bind (splat_succeeds _ _ _) fun _ => .bind (splat_succeeds _ _ _) fun _ =>
    operate_succeeds _ _ _

theorem recast_succeeds (value : Value) (scalar : ScalarType) :
    Succeeds True (recast value scalar) :=
  .ite (.pure _) (operate_succeeds _ _ _)

theorem bitcast_succeeds (value : Value) (scalar : ScalarType) :
    Succeeds True (bitcast value scalar) := by
  apply Succeeds.ite (.pure _)
  apply Succeeds.ite
  · exact .bind (boolToMask_succeeds _) fun mask => recast_succeeds mask scalar
  · exact .pure_bind (recast_succeeds value scalar)

theorem applyModifier_succeeds (value : Value) (modifier : Modifier) :
    Succeeds True (applyModifier value modifier) :=
  .bind (.ite (extended_succeeds _ _ _) (.pure _)) fun _ => .ite (operate_succeeds _ _ _) (.pure _)

theorem zeroTest_succeeds (value : Value) (test : ZeroTest) : Succeeds True (zeroTest value test) :=
  .bind (bitcast_succeeds _ _) fun _ => .bind (splat_succeeds _ _ _) fun _ =>
    operate_succeeds _ _ _

theorem extract_succeeds (value : Value) (component : Nat) :
    Succeeds True (extract value component) :=
  .ite (.pure _) (.bind (vectorType_succeeds _) fun _ => .bind (emitValue_succeeds _ _ _) fun _ =>
    .pure _)

theorem extend_succeeds (value : Value) (count : Nat) : Succeeds True (extend value count) :=
  .ite (.pure _) (.bind (extract_succeeds _ _) fun _ => operate_succeeds _ _ _)

theorem chain_succeeds (type : VectorType) (storage : Spirv.StorageClass) (base : Id)
    (indices : List Id) : Succeeds True (chain type storage base indices) :=
  .ite (.pure _) (.bind (vectorType_succeeds _) fun _ => .bind (.declare _) fun _ =>
    .bind (emitValue_succeeds _ _ _) fun _ => .pure _)

theorem load_succeeds (p : Pointer) : Succeeds True (load p) :=
  .bind (vectorType_succeeds _) fun _ => .bind (emitValue_succeeds _ _ _) fun _ => .pure _

theorem storeMasked_succeeds (p : Pointer) (value : Value) (mask : WriteMask) :
    Succeeds True (storeMasked p value mask) := by
  unfold storeMasked
  refine .ite (.pure _) (.bind (bitcast_succeeds _ _) fun cast => ?_)
  -- However the value was made wide enough, the same ways lead into the place.
  refine .ite (.bind (extend_succeeds _ _) fun wide => ?_) (.pure_bind ?_)
  all_goals
    refine .ite (.bind (extract_succeeds _ _) fun _ => .push _ _ _ _) (.ite ?_ (.ite ?_ ?_))
    · exact .bind (constant_succeeds _ _) fun _ => .bind (extract_succeeds _ _) fun _ =>
        .bind (chain_succeeds _ _ _ _) fun _ => .push _ _ _ _
    · exact .push _ _ _ _
    · exact .bind (load_succeeds _) fun _ => .bind (vectorType_succeeds _) fun _ =>
        .bind (emitValue_succeeds _ _ _) fun _ => .push _ _ _ _

variable {op : Operand} {inst : Instruction}

theorem readOperand_succeeds (immediate : op.type = .imm32) (mask : WriteMask) :
    Succeeds True (readOperand op mask) := by
  rw [readOperand_eq]
  refine .bind ?_ fun _ => applyModifier_succeeds _ _
  unfold readLanes
  rw [immediate]
  exact constantValue_succeeds _ _

theorem readScalar_succeeds (immediate : op.type = .imm32) (scalar : ScalarType) :
    Succeeds True (readScalar op scalar) :=
  .bind (readOperand_succeeds immediate _) fun _ => .bind (bitcast_succeeds _ _) fun _ => .pure _

/-- The first source of an instruction is an immediate. -/
def HasImmediate (inst : Instruction) : Prop :=
  ∃ op, inst.src[0]? = some op ∧ op.type = .imm32

theorem condition_succeeds (h : HasImmediate inst) : Succeeds True (condition inst) := by
  obtain ⟨op, first, immediate⟩ := h
  unfold condition source
  rw [first]
  exact .pure_bind <| .bind (readOperand_succeeds immediate _) fun _ =>
    .bind (zeroTest_succeeds _ _) fun _ => .pure _

theorem selector_succeeds (h : HasImmediate inst) : Succeeds True (selector inst) := by
  obtain ⟨op, first, immediate⟩ := h
  unfold selector source
  rw [first]
  exact .pure_bind (readScalar_succeeds immediate _)

end Lower

end ShaderLowering
