import ShaderLowering.Proofs.Typing.Operands

/-!
Registers and operands. What leads into registers is computed where it is used, and reading an
operand is reading the operands in its indices first.
-/

namespace ShaderLowering.Lower

open Spirv

variable {ok : CompileError → Prop} [Refusing ok]

@[grind ←]
theorem call_neat (function : Id) : Neat ok [] (call function) :=
  .bind voidType_neat fun _ => .bind (emitValue_neat _ _ rfl) fun _ => .pure ()

@[grind ←]
theorem chain_neat (type : VectorType) (storage : StorageClass) (base : Id) (indices : List Id) :
    Neat ok [] (chain type storage base indices) :=
  .ite (.pure _) (.bind (vectorType_neat _) fun _ => .bind (pointerType_neat _ _) fun _ =>
    .bind (emitValue_neat _ _ rfl) fun _ => .pure _)

@[grind ←]
theorem inputPointer_neat (vertex? : Option Id) (reg : Id) :
    Neat ok [] (inputPointer vertex? reg) :=
  .bind inputArray_neat fun _ => chain_neat _ _ _ _

@[grind ←]
theorem outputPointer_neat (reg : Id) : Neat ok [] (outputPointer reg) :=
  .bind outputArray_neat fun _ => chain_neat _ _ _ _

@[grind ←]
theorem patchPointer_neat (reg : Id) : Neat ok [] (patchPointer reg) :=
  .bind patchArray_neat fun _ => chain_neat _ _ _ _

@[grind ←]
theorem storeMasked_neat (p : Pointer) (value : Value) (mask : WriteMask) :
    Neat ok [] (storeMasked p value mask) := by
  refine .ite (.pure _) <| .bind (bitcast_routine .anything _).neat fun value => ?_
  refine .choose (extend_routine .anything _).neat (.pure _) fun value =>
    .ite ?_ <| .ite ?_ <| .ite ?_ ?_
  · exact .bind (extract_routine .anything _).neat fun _ =>
      (storeTo_routine .anything .anything).neat
  · refine .bind (constantU32_neat _) fun index =>
      .bind (extract_routine .anything _).neat fun part => ?_
    exact .bind (chain_neat _ _ _ _) fun place => (storeTo_routine .anything .anything).neat
  · exact (storeTo_routine .anything .anything).neat
  · refine .bind (load_routine .anything).neat fun old => .bind (vectorType_neat _) fun type => ?_
    exact .bind (emitValue_neat _ _ rfl) fun merged => (storeTo_routine .anything .anything).neat

@[grind ←]
theorem builtinPointer_neat (builtin : BuiltIn) (storage : StorageClass)
    (vertex? element? : Option Id) : Neat ok [] (builtinPointer builtin storage vertex? element?) :=
  .bind (builtinVariable_neat _ _) fun _ => chain_neat _ _ _ _

@[grind ←]
theorem loadBuiltin_neat (builtin : BuiltIn) (vertex? element? : Option Id) :
    Neat ok [] (loadBuiltin builtin vertex? element?) :=
  .bind (builtinPointer_neat _ _ _ _) fun _ => (load_routine .anything).neat

@[grind ←]
theorem invocationId_neat : Neat ok [] invocationId :=
  .bind (loadBuiltin_neat _ _ _) fun _ => .bind (bitcast_routine .anything _).neat fun _ => .pure _

@[grind ←]
theorem controlPointOutput_neat (reg : UInt32) (vertex : Id) :
    Neat ok [] (controlPointOutput reg vertex) :=
  .state_bind (fun _ => .bind (.orFault rfl) fun _ => chain_neat _ _ _ _) fun _ => rfl

@[grind ←]
theorem constantBufferPointer_neat (slot : UInt32) (element : Id) :
    Neat ok [] (constantBufferPointer slot element) := by
  refine .state_bind (fun s => .bind (.orFault rfl) fun buffer => ?_) fun _ => rfl
  exact .bind (constantU32_neat _) fun member => chain_neat _ _ _ _

@[grind ←]
theorem immediateIndex_neat (op : Operand) (dim : Nat) : Neat ok [] (immediateIndex op dim) :=
  .orFault rfl

section

variable {op : Operand} {steps : List (Emission Id)} (given : ∀ step ∈ steps, Neat ok [] step)
include given

theorem runIndex_neat (type : OperandType) (dim : Nat) :
    Neat ok [] (runIndex type steps dim) := by
  unfold runIndex
  split
  · next step found => exact given step (List.mem_of_getElem? found)
  · exact .failWith rfl

theorem outputOperand_neat :
    Neat ok [] (outputOperand op steps) := by
  refine .read_bind (fun env => .ite ?_ ?_) fun _ => rfl
  · refine .state_bind (fun s => .ite ?_ ?_) fun _ => rfl
    · exact .bind (immediateIndex_neat _ _) fun reg => .bind invocationId_neat fun vertex =>
        controlPointOutput_neat _ _
    · exact .bind (runIndex_neat given _ _) fun _ => patchPointer_neat _
  · exact .bind (runIndex_neat given _ _) fun _ => outputPointer_neat _

theorem pointerWith_neat : Neat ok [] (pointerWith op steps) := by
  have index (dim : Nat) : Neat ok [] (runIndex op.type steps dim) := runIndex_neat given _ dim
  have builtin (b : BuiltIn) (storage : StorageClass) :
      Neat ok [] (builtinPointer b storage none none) := builtinPointer_neat _ _ _ _
  have coverage (storage : StorageClass) : Neat ok [] (do
      let element ← constantU32 0
      builtinPointer .sampleMask storage none (some element)) :=
    .bind (constantU32_neat _) fun _ => builtinPointer_neat _ _ _ _
  have inputs : Neat ok [] (do
      if 2 ≤ op.indices.length then
        let vertex ← runIndex op.type steps 0
        let reg ← runIndex op.type steps 1
        inputPointer (some vertex) reg
      else
        let reg ← runIndex op.type steps 0
        inputPointer none reg) :=
    .ite (.bind (index _) fun _ => .bind (index _) fun _ => inputPointer_neat _ _)
      (.bind (index _) fun _ => inputPointer_neat _ _)
  have instance_ : Neat ok [] (do
      let phase ← orFault (← .state).stage.currentPhase? .instanceIdOutsidePhase
      chain (.single .u32) .priv phase.instanceId [] : Emission Pointer) :=
    .state_bind (fun _ => .bind (.orFault rfl) fun _ => chain_neat _ _ _ _) fun _ => rfl
  unfold pointerWith
  dsimp only
  split
  · exact .bind (immediateIndex_neat _ _) fun _ => .bind (temp_neat _) fun _ =>
      chain_neat _ _ _ _
  · refine .bind (immediateIndex_neat _ _) fun reg => .state_bind (fun s =>
      .bind (.orFault rfl) fun array => ?_) fun _ => rfl
    have place : Neat ok [] (do
        let element ← runIndex op.type steps 1
        chain float4 .priv array.variable_ [element]) :=
      .bind (index _) fun _ => chain_neat _ _ _ _
    split
    · exact .optional (.failWith rfl) place
    · exact place
  · exact inputs
  · exact inputs
  · exact .bind (index _) fun _ => patchPointer_neat _
  · exact .bind (index _) fun _ => .bind (immediateIndex_neat _ _) fun _ =>
      controlPointOutput_neat _ _
  · exact outputOperand_neat given
  · exact .bind (immediateIndex_neat _ _) fun _ => .bind (index _) fun _ =>
      constantBufferPointer_neat _ _
  · exact .state_bind (fun _ => .bind (.orFault rfl) fun _ => .bind (index _) fun _ =>
      chain_neat _ _ _ _) fun _ => rfl
  · exact instance_
  · exact instance_
  all_goals first
    | exact builtin _ _
    | exact coverage _
    | exact .failWith rfl

theorem readPlace_neat (lanes : List Nat) (scalar : ScalarType) :
    Neat ok [] (readPlace op steps lanes scalar) := by
  refine .bind (pointerWith_neat given) fun place =>
    .bind (load_routine .anything).neat fun value => ?_
  exact .bind (completed_routine .anything).neat fun value =>
    .bind (swizzle_routine .anything _).neat fun value =>
    (bitcast_routine .anything _).neat

theorem readLanes_neat (lanes : List Nat) :
    Neat ok [] (readLanes op steps lanes) := by
  unfold readLanes
  dsimp only
  split
  · exact (constantValue_routine _ _).neat
  · exact .failWith rfl
  · exact readPlace_neat given _ _

theorem readWith_neat (mask : WriteMask) :
    Neat ok [] (readWith op steps mask) :=
  .bind (readLanes_neat given _) fun _ => (applyModifier_routine .anything _).neat

end

theorem indexFrom_neat (offset : UInt32) {relative? : Option (Emission Value)}
    (given : ∀ relative, relative? = some relative → Neat ok [] relative) :
    Neat ok [] (indexFrom offset relative?) := by
  cases relative? with
  | none => exact constant_neat _ _
  | some relative =>
    refine .bind (given relative rfl) fun value =>
      .bind (bitcast_routine .anything _).neat fun value => ?_
    exact .ite (.pure _) <| .bind (scalarType_neat _) fun word => .bind (constant_neat _ _) fun _ =>
      emitValue_neat _ _ rfl

/-- The steps for the indices of an operand; by induction on the operands in them. -/
theorem indexSteps_neat (op : Operand) :
    ∀ step ∈ indexSteps op.indices, Neat ok [] step := by
  intro step mem
  obtain ⟨d, found⟩ := List.mem_iff_getElem?.1 mem
  obtain ⟨index, is, rfl⟩ := getElem?_indexSteps found
  refine indexFrom_neat _ fun read added => ?_
  obtain ⟨r, relative, rfl⟩ := Option.map_eq_some_iff.1 added
  have smaller := sizeOf_relative (List.mem_of_getElem? is) relative
  rw [readOperand_eq]
  exact readWith_neat (indexSteps_neat r) .x
termination_by sizeOf op

@[grind ←]
theorem readOperand_neat (op : Operand) (mask : WriteMask) : Neat ok [] (readOperand op mask) := by
  rw [readOperand_eq]
  exact readWith_neat (indexSteps_neat op) mask

@[grind ←]
theorem operandPointer_neat (op : Operand) : Neat ok [] (operandPointer op) :=
  pointerWith_neat (indexSteps_neat _)

@[grind ←]
theorem writeOperand_neat (op : Operand) (value : Value) (isSaturated : Bool) :
    Neat ok [] (writeOperand op value isSaturated) :=
  .ite (.pure _) <| .choose (saturate_routine .anything).neat (.pure _) fun _ =>
    .bind (operandPointer_neat _) fun _ => storeMasked_neat _ _ _

@[grind ←]
theorem readScalar_neat (op : Operand) (scalar : ScalarType) : Neat ok [] (readScalar op scalar) :=
  .bind (readOperand_neat _ _) fun _ => .bind (bitcast_routine .anything _).neat fun _ => .pure _

@[grind ←]
theorem readVector_neat (op : Operand) (count : Nat) (scalar : ScalarType) :
    Neat ok [] (readVector op count scalar) :=
  .bind (readOperand_neat _ _) fun _ => (bitcast_routine .anything _).neat

end ShaderLowering.Lower
