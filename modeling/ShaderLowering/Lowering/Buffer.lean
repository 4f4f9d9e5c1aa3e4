import ShaderLowering.Lowering.Resource

/-!
Buffer access. Raw and structured buffers and thread group memory are arrays of dwords: an access
computes the number of a dword from byte offsets and reads or writes one dword for each component.
Typed unordered access views are images and take whole texels.
-/

namespace ShaderLowering

open Spirv (Id StorageClass)

/-- An array of dwords that a buffer instruction works on. -/
structure DwordArray where
  variable_ : Id
  storage : StorageClass
  /-- Bytes per structure; zero for raw buffers. -/
  stride : UInt32
deriving DecidableEq, Repr

namespace Lower

open Spirv

/-- The dwords behind a raw or structured buffer operand. -/
def dwordArray (op : Operand) : Emission DwordArray := do
  if op.type = .threadGroupSharedMemory then
    let reg ← orFault (op.index? 0) .groupMemoryWithoutRegister
    let memory ← orFault ((← .state).groupMemory.find? reg) (.undeclared "g" reg)
    return ⟨memory.variable_, .workgroup, memory.stride⟩
  else
    let resource ← resource op
    if resource.image?.isSome then failWith .bufferAccessToTyped
    return ⟨resource.variable_, .storageBuffer, resource.stride⟩

/-- The place of a dword. Storage buffers hold their array as the member of a block. -/
def dwordPointer (array : DwordArray) (index : Id) : Emission Id := do
  let word ← scalarType .u32
  let pointer ← pointerType word array.storage
  if array.storage = .workgroup then
    emitValue .accessChain pointer [.id array.variable_, .id index]
  else
    let member ← constantU32 0
    emitValue .accessChain pointer [.id array.variable_, .id member, .id index]

/-- The number of the dword at a byte offset. -/
def dwordAt (bytes : Id) : Emission Id := do
  let word ← scalarType .u32
  let two ← constantU32 2
  emitValue .shiftRightLogical word [.id bytes, .id two]

/-- The byte at an offset in a structure. -/
def structureByte (stride : UInt32) (element offset : Id) : Emission Id := do
  let word ← scalarType .u32
  let stride ← constant .u32 stride
  let start ← emitValue .iMul word [.id element, .id stride]
  emitValue .iAdd word [.id start, .id offset]

/-- The first dword of an access: at a byte offset, in the structure `element?` if one is given. -/
def firstDword (stride : UInt32) (element? : Option Operand) (offset : Operand) : Emission Id := do
  let offset ← readScalar offset .u32
  let bytes ← match element? with
    | some element =>
      let element ← readScalar element .u32
      structureByte stride element offset
    | none => pure offset
  dwordAt bytes

/-- The dword that lies `count` behind another. -/
def dwordAfter (first : Id) (count : Nat) : Emission Id := do
  if count = 0 then return first
  let word ← scalarType .u32
  let count ← constantU32 count
  emitValue .iAdd word [.id first, .id count]

/-- The structure, offset and last source of a buffer access. -/
def bufferSources (inst : Instruction) (isStructured : Bool) :
    Emission (Option Operand × Operand × Operand) := do
  if isStructured then
    let element ← source inst 0
    return (some element, ← source inst 1, ← source inst 2)
  else return (none, ← source inst 0, ← source inst 1)

def lowerBufferLoad (inst : Instruction) : Emission Unit := do
  let op ← destination inst 0
  let (element?, offset, resourceOp) ← bufferSources inst (inst.op? = some .ldStructured)
  let array ← dwordArray resourceOp
  let first ← firstDword array.stride element? offset
  let word ← scalarType .u32
  let parts ← (resourceOp.swizzle.picked op.mask).mapM fun lane => do
    let index ← dwordAfter first lane
    let pointer ← dwordPointer array index
    loadFrom word pointer
  unless parts.isEmpty do
    let value ← compose .u32 parts
    writeOperand op value false

def lowerBufferStore (inst : Instruction) : Emission Unit := do
  let op ← destination inst 0
  let (element?, offset, valueOp) ← bufferSources inst (inst.op? = some .storeStructured)
  if op.mask.isEmpty then return
  let array ← dwordArray op
  let first ← firstDword array.stride element? offset
  let value ← readOperand valueOp op.mask
  let value ← bitcast value .u32
  for (component, i) in op.mask.components.zipIdx do
    let index ← dwordAfter first component
    let pointer ← dwordPointer array index
    let part ← extract value i
    storeTo pointer part.id

def lowerTypedLoad (inst : Instruction) : Emission Unit := do
  let op ← destination inst 0
  let resourceOp ← source inst 1
  let (resource, image) ← typedImage resourceOp
  let coord ← readVector (← source inst 0) resource.dimension.coordinates .i32
  let loaded ← loadImage resource image
  let value ← operate .imageRead (.four image.sampled) [loaded, coord.id]
  writeResourceResult op resourceOp value false

/-- Writes a whole texel. -/
def lowerTypedStore (inst : Instruction) : Emission Unit := do
  let (resource, image) ← typedImage (← destination inst 0)
  let coord ← readVector (← source inst 0) resource.dimension.coordinates .i32
  let value ← readOperand (← source inst 1) .xyzw
  let value ← bitcast value image.sampled
  let loaded ← loadImage resource image
  emit .imageWrite [.id loaded, .id coord.id, .id value.id]

/-- The number of elements of a typed buffer, of bytes of a raw one, or of structures. -/
def lowerBufferQuery (inst : Instruction) : Emission Unit := do
  let op ← destination inst 0
  let resource ← resource (← source inst 0)
  let word ← scalarType .u32
  let id ← match resource.image? with
    | some image =>
      requireCapability .imageQuery
      let loaded ← loadImage resource image
      let int ← scalarType .i32
      let size ← emitValue .imageQuerySize int [.id loaded]
      emitValue .bitcast word [.id size]
    | none =>
      let dwords ← emitValue .arrayLength word [.id resource.variable_, .word 0]
      let four ← constantU32 4
      let bytes ← emitValue .iMul word [.id dwords, .id four]
      if resource.stride = 0 then pure bytes
      else
        let stride ← constant .u32 resource.stride
        emitValue .uDiv word [.id bytes, .id stride]
  writeOperand op ⟨.single .u32, id⟩ false

end Lower

end ShaderLowering
