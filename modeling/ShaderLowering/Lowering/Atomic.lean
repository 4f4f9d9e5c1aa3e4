import ShaderLowering.Lowering.Buffer

/-!
Atomic operations on buffers, images and thread group memory, the counters behind append and
consume buffers, and barriers.
-/

namespace ShaderLowering.Lower

open Spirv

/-- What an atomic operation works on. -/
structure AtomicTarget where
  pointer : Id
  scalar : ScalarType
  /-- Who else may work on it. -/
  scope : Scope

/-- The dword that an address operand names in a buffer. In a structured buffer it holds the
number of the structure and an offset. -/
def atomicDword (array : DwordArray) (address : Operand) : Emission Id := do
  if array.stride = 0 then firstDword 0 none address
  else
    let address ← readVector address 2 .u32
    let element ← extract address 0
    let offset ← extract address 1
    let bytes ← structureByte array.stride element.id offset.id
    dwordAt bytes

/-- The texel that an address operand names in an image. -/
def atomicTexel (resource : Resource) (image : ImageType) (address : Operand) : Emission Id := do
  let coord ← readVector address resource.dimension.coordinates .i32
  let texel ← scalarType image.sampled
  let pointer ← pointerType texel .image
  let sample ← constantU32 0
  emitValue .imageTexelPointer pointer [.id resource.variable_, .id coord.id, .id sample]

/-- The typed view that an operand names, if it names one. -/
def typedView? (op : Operand) : Emission (Option (Resource × ImageType)) := do
  if op.type = .uav then
    let resource ← resource op
    return resource.image?.map fun image => (resource, image)
  else return none

def atomicTarget (op address : Operand) : Emission AtomicTarget := do
  match ← typedView? op with
  | some (resource, image) =>
    let pointer ← atomicTexel resource image address
    return ⟨pointer, image.sampled, .device⟩
  | none =>
    let array ← dwordArray op
    let index ← atomicDword array address
    let pointer ← dwordPointer array index
    return ⟨pointer, .u32, if array.storage = .workgroup then .workgroup else .device⟩

/-- The operation of an atomic with one value. -/
def atomicOp? : Opcode → Option Op
  | .atomicAnd | .immAtomicAnd => some .atomicAnd
  | .atomicOr | .immAtomicOr => some .atomicOr
  | .atomicXor | .immAtomicXor => some .atomicXor
  | .atomicIadd | .immAtomicIadd => some .atomicIAdd
  | .atomicImax | .immAtomicImax => some .atomicSMax
  | .atomicImin | .immAtomicImin => some .atomicSMin
  | .atomicUmax | .immAtomicUmax => some .atomicUMax
  | .atomicUmin | .immAtomicUmin => some .atomicUMin
  | .immAtomicExch => some .atomicExchange
  | _ => none

/-- An atomic with two destinations puts the value from before into the first. -/
def lowerAtomic (inst : Instruction) : Emission Unit := do
  let (out?, op) ←
    if inst.dst.length = 2 then
      let out ← destination inst 0
      pure (some out, ← destination inst 1)
    else pure (none, ← destination inst 0)
  let target ← atomicTarget op (← source inst 0)
  let type ← scalarType target.scalar
  let scope ← constant .u32 target.scope.code
  let semantics ← constant .u32 MemorySemantics.relaxed.bits
  let compares := inst.op? = some .atomicCmpStore ∨ inst.op? = some .immAtomicCmpExch
  let first ← readScalar (← source inst 1) target.scalar
  let id ←
    if compares then
      let value ← readScalar (← source inst 2) target.scalar
      emitValue .atomicCompareExchange type
        [.id target.pointer, .id scope, .id semantics, .id semantics, .id value, .id first]
    else
      match inst.op?.bind atomicOp? with
      | some op => emitValue op type [.id target.pointer, .id scope, .id semantics, .id first]
      | none => unsupported inst
  if let some out := out? then
    writeOperand out ⟨.single target.scalar, id⟩ false

/-- The counter of an unordered access view, declared if need be. -/
def uavCounter (slot : UInt32) : Emission Id := do
  let resource ← orFault ((← .state).uavs.find? slot) (.undeclared "u" slot)
  match resource.counter? with
  | some counter => return counter
  | none =>
    requireStorageBuffers
    let block ← counterBlock
    let id ← newVariable block .storageBuffer none
    name id s!"u{slot}_counter"
    let binding ← defineSlot .uavCounter slot .uavCounter .buffer 0
    decorateBinding id binding
    .note fun s =>
      { s with uavs := s.uavs.insert slot { resource with counter? := some id } }
    return id

/-- Appending takes the counter from before an increment, consuming that from after a
decrement. -/
def lowerCounter (inst : Instruction) : Emission Unit := do
  let op ← destination inst 0
  let uav ← source inst 0
  let slot ← orFault (uav.index? 0) .counterWithoutSlot
  let counter ← uavCounter slot
  let word ← scalarType .u32
  let member ← constantU32 0
  let one ← constantU32 1
  let pointerTypeId ← pointerType word .storageBuffer
  let pointer ← emitValue .accessChain pointerTypeId [.id counter, .id member]
  let scope ← constant .u32 Scope.device.code
  let semantics ← constant .u32 MemorySemantics.relaxed.bits
  let args : List Arg := [.id pointer, .id scope, .id semantics, .id one]
  let id ←
    if inst.op? = some .immAtomicAlloc then emitValue .atomicIAdd word args
    else
      let before ← emitValue .atomicISub word args
      emitValue .iSub word [.id before, .id one]
  writeOperand op ⟨.single .u32, id⟩ false

/-- What a barrier asks for. -/
structure BarrierFlags where
  /-- All invocations of the group wait for one another. -/
  waits : Bool
  groupMemory : Bool
  /-- Order accesses to views within the group. -/
  uavInGroup : Bool
  /-- Order accesses to views on the whole device. -/
  uavOnDevice : Bool
deriving DecidableEq, Repr

namespace BarrierFlags

def ofBits (flags : UInt32) : BarrierFlags :=
  { waits := flags &&& 1 ≠ 0, groupMemory := flags &&& 2 ≠ 0, uavInGroup := flags &&& 4 ≠ 0
    uavOnDevice := flags &&& 8 ≠ 0 }

def ordersViews (f : BarrierFlags) : Bool :=
  f.uavInGroup || f.uavOnDevice

def ordersMemory (f : BarrierFlags) : Bool :=
  f.groupMemory || f.ordersViews

def semantics (f : BarrierFlags) : MemorySemantics :=
  let group := if f.groupMemory then .workgroupMemory else .relaxed
  let views : MemorySemantics :=
    if f.ordersViews then .uniformMemory ||| .imageMemory else .relaxed
  let order := if f.ordersMemory then .acquireRelease else .relaxed
  group ||| views ||| order

def scope (f : BarrierFlags) : Scope :=
  if f.uavOnDevice then .device else .workgroup

end BarrierFlags

def lowerBarrier (inst : Instruction) : Emission Unit := do
  let flags := BarrierFlags.ofBits inst.syncFlags
  let memory ← constant .u32 flags.scope.code
  let semantics ← constant .u32 flags.semantics.bits
  if flags.waits then
    let execution ← constant .u32 Scope.workgroup.code
    emit .controlBarrier [.id execution, .id memory, .id semantics]
  else if flags.ordersMemory then
    emit .memoryBarrier [.id memory, .id semantics]

end ShaderLowering.Lower
