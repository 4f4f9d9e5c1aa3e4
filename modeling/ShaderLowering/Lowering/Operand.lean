import ShaderLowering.Lowering.Builtin

/-!
Operands as places and values. An index may add the value of another operand, so reading operands
is a recursion over them: `indexSteps` turns the indices of an operand into steps that compute
them, and everything else is stated over those steps.
-/

namespace ShaderLowering.Lower

open Spirv

/-- A control point output, of the control point `vertex`. -/
def controlPointOutput (reg : UInt32) (vertex : Id) : Emission Pointer := do
  let location? := ((← .state).outputs.find? reg).bind (·.location?)
  let location ← orFault location? (.controlPointOutput reg)
  chain location.type .output location.id [vertex]

def constantBufferPointer (slot : UInt32) (element : Id) : Emission Pointer := do
  let buffer ← orFault ((← .state).constantBuffers.find? slot) (.undeclared "cb" slot)
  let member ← constantU32 0
  chain float4 .uniform buffer.variable_ [member, element]

/-- An index that has to be a plain number. -/
def immediateIndex (op : Operand) (dim : Nat) : Emission UInt32 :=
  orFault (op.index? dim) (.relativeIndex op.type dim)

/-- Runs the step for one index of an operand. -/
def runIndex (type : OperandType) (steps : List (Emission Id)) (dim : Nat) : Emission Id :=
  match steps[dim]? with
  | some step => step
  | none => failWith (.missingIndex type dim)

/-- An output register: of the control point in a control-point phase, a patch constant in the
other phases of a hull shader, an element of the output array elsewhere. -/
def outputOperand (op : Operand) (steps : List (Emission Id)) : Emission Pointer := do
  if (← read).stage = .hull then
    if (← .state).stage.inControlPointPhase then
      let reg ← immediateIndex op 0
      let invocation ← invocationId
      controlPointOutput reg invocation
    else
      let reg ← runIndex op.type steps 0
      patchPointer reg
  else
    let reg ← runIndex op.type steps 0
    outputPointer reg

/-- The place an operand names, given the steps that compute its indices. -/
def pointerWith (op : Operand) (steps : List (Emission Id)) : Emission Pointer := do
  let index := runIndex op.type steps
  match op.type with
  | .temp =>
    let reg ← immediateIndex op 0
    let id ← temp reg
    chain float4 .priv id []
  | .indexableTemp =>
    let reg ← immediateIndex op 0
    let array ← orFault ((← .state).indexableTemps.find? reg) (.undeclared "x" reg)
    if let some element := op.index? 1 then
      if array.length ≤ element.toNat then
        failWith (.indexableTempElement reg element array.length)
    let element ← index 1
    chain float4 .priv array.variable_ [element]
  | .input | .inputControlPoint =>
    if 2 ≤ op.indices.length then
      let vertex ← index 0
      let reg ← index 1
      inputPointer (some vertex) reg
    else
      let reg ← index 0
      inputPointer none reg
  | .inputPatchConstant =>
    let reg ← index 0
    patchPointer reg
  | .outputControlPoint =>
    let vertex ← index 0
    let reg ← immediateIndex op 1
    controlPointOutput reg vertex
  | .output => outputOperand op steps
  | .constantBuffer =>
    let slot ← immediateIndex op 0
    let element ← index 1
    constantBufferPointer slot element
  | .immediateConstantBuffer =>
    let array ← orFault (← .state).immediateConstants? .noImmediateConstants
    let element ← index 0
    chain (.four .u32) .priv array [element]
  | .inputForkInstanceId | .inputJoinInstanceId =>
    let phase ← orFault (← .state).stage.currentPhase? .instanceIdOutsidePhase
    chain (.single .u32) .priv phase.instanceId []
  | .inputPrimitiveId => builtinPointer .primitiveId .input none none
  | .outputControlPointId | .inputGsInstanceId => builtinPointer .invocationId .input none none
  | .inputDomainPoint => builtinPointer .tessCoord .input none none
  | .inputThreadId => builtinPointer .globalInvocationId .input none none
  | .inputThreadGroupId => builtinPointer .workgroupId .input none none
  | .inputThreadIdInGroup => builtinPointer .localInvocationId .input none none
  | .inputThreadIdInGroupFlattened => builtinPointer .localInvocationIndex .input none none
  | .inputCoverageMask =>
    let element ← constantU32 0
    builtinPointer .sampleMask .input none (some element)
  | .outputCoverageMask =>
    let element ← constantU32 0
    builtinPointer .sampleMask .output none (some element)
  | .outputDepth | .outputDepthGreaterEqual | .outputDepthLessEqual =>
    builtinPointer .fragDepth .output none none
  | type => failWith (.notARegister type)

/-- The components that an operand supplies to a destination written under `mask`. -/
def sourceLanes (op : Operand) (mask : WriteMask) : List Nat :=
  match op.selection with
  | .mask => mask.components
  | .swizzle | .select1 => op.swizzle.picked mask

/-- Components of the place an operand names, read as `scalar`. -/
def readPlace (op : Operand) (steps : List (Emission Id)) (lanes : List Nat)
    (scalar : ScalarType) : Emission Value := do
  let p ← pointerWith op steps
  let loaded ← completed (← load p)
  let picked ← swizzle loaded lanes
  bitcast picked scalar

/-- Components of an operand, read as its data type. -/
def readLanes (op : Operand) (steps : List (Emission Id)) (lanes : List Nat) : Emission Value :=
  let scalar := ScalarType.ofData op.data
  match op.type with
  | .imm32 => constantValue scalar (lanes.map op.imm.get)
  | .imm64 => failWith .wideImmediate
  | _ => readPlace op steps lanes scalar

/-- The value of a source operand for a destination written under `mask`, given the steps that
compute its indices: its components picked, read as its data type, and modified in sign. -/
def readWith (op : Operand) (steps : List (Emission Id)) (mask : WriteMask) : Emission Value := do
  let value ← readLanes op steps (sourceLanes op mask)
  applyModifier value op.modifier

/-- An index from the value of its relative part, if it has one: the sum with the offset. -/
def indexFrom (offset : UInt32) (relative? : Option (Emission Value)) : Emission Id := do
  match relative? with
  | none => constant .u32 offset
  | some relative =>
    let value ← relative
    let value ← bitcast value .u32
    if offset = 0 then return value.id
    let word ← scalarType .u32
    let constantOffset ← constant .u32 offset
    emitValue .iAdd word [.id value.id, .id constantOffset]

mutual

/-- The value of a source operand for a destination written under `mask`. -/
def readOperand : Operand → WriteMask → Emission Value
  | ⟨type, data, components, selection, opMask, swizzle, modifier, indices, imm⟩, mask =>
    readWith ⟨type, data, components, selection, opMask, swizzle, modifier, indices, imm⟩
      (indexSteps indices) mask

/-- A step for each index that computes it. -/
def indexSteps : List (Index Operand) → List (Emission Id)
  | [] => []
  | index :: rest => indexStep index :: indexSteps rest

def indexStep : Index Operand → Emission Id
  | ⟨offset, relative⟩ => indexFrom offset (relativeStep relative)

/-- Reads the first selected component of the register that an index adds. -/
def relativeStep : Option Operand → Option (Emission Value)
  | none => none
  | some op => some (readOperand op .x)

end

/-- The place an operand names. -/
def operandPointer (op : Operand) : Emission Pointer :=
  pointerWith op (indexSteps op.indices)

/-- Writes a value to a destination operand under its mask. Null destinations take nothing. -/
def writeOperand (op : Operand) (value : Value) (isSaturated : Bool) : Emission Unit := do
  if op.isNull || op.mask.isEmpty then return
  let value ← if isSaturated then saturate value else pure value
  let p ← operandPointer op
  storeMasked p value op.mask

/-- The first component of a source operand, read as a given type. -/
def readScalar (op : Operand) (scalar : ScalarType) : Emission Id := do
  let value ← readOperand op .x
  return (← bitcast value scalar).id

/-- The first `count` components of a source operand, read as a given type. -/
def readVector (op : Operand) (count : Nat) (scalar : ScalarType) : Emission Value := do
  let value ← readOperand op (.firstN count)
  bitcast value scalar

end ShaderLowering.Lower
