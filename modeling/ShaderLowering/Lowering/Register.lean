import ShaderLowering.Lowering.Value

/-!
The register file. Temporaries are private variables of four floats; inputs, outputs and patch
constants live in private arrays of such variables, so that they can be indexed at run time. The
entry point copies the interface in and out of these arrays. Everything here is made when it is
first needed.
-/

namespace ShaderLowering.Lower

open Spirv

/-- Declares temporaries until there are `count`. -/
def declareTemps (count : Nat) : Emission Unit := do
  if maxTemps < count then failWith (.tempCount count)
  let size := (← .state).temps.size
  for reg in List.range' size (count - size) do
    let type ← vectorType float4
    let pointer ← pointerType type .priv
    let id ← .newTemp pointer
    listVariable id .priv
    name id s!"r{reg}"

/-- The variable of a temporary, declared if need be. -/
def temp (reg : UInt32) : Emission Id := do
  if maxTemps ≤ reg.toNat then failWith (.tempRegister reg)
  declareTemps (reg.toNat + 1)
  orFault (← .state).temps[reg.toNat]? (.tempRegister reg)

/-- Declares an indexable temporary. A repeated declaration has to agree with the first. -/
def declareIndexableTemp (reg length : UInt32) : Emission Unit := do
  if maxTemps < length.toNat then failWith (.indexableTempSize reg length)
  let length := max length.toNat 1
  match (← .state).indexableTemps.find? reg with
  | some existing =>
    if existing.length ≠ length then
      failWith (.indexableTempRedeclared reg length existing.length)
  | none =>
    let element ← vectorType float4
    let type ← arrayOf element length
    let id ← newVariable type .priv none
    name id s!"x{reg}"
    .note fun s => { s with indexableTemps := s.indexableTemps.insert reg ⟨id, length⟩ }

/-- Declares thread group memory as an array of dwords. A repeated declaration has to agree with
the first. -/
def declareGroupMemory (reg stride : UInt32) (length : Nat) : Emission Unit := do
  if maxGroupDwords < length then failWith (.groupMemorySize reg length)
  let length := max length 1
  match (← .state).groupMemory.find? reg with
  | some existing =>
    if existing.stride ≠ stride ∨ existing.length ≠ length then
      failWith (.groupMemoryRedeclared reg stride length existing.stride existing.length)
  | none =>
    let word ← scalarType .u32
    let type ← arrayOf word length
    let id ← newVariable type .workgroup none
    name id s!"g{reg}"
    .note fun s => { s with groupMemory := s.groupMemory.insert reg ⟨id, stride, length⟩ }

/-- How many vertices the input registers are arrayed over: the declared number, or the most
there can be while none is declared. Zero in stages whose inputs are not arrayed. -/
def inputVertexCount : Emission Nat := do
  match (← read).stage with
  | .geometry | .hull | .domain =>
    let n := (← .state).stage.inputVertices
    return if n = 0 then maxInterfaceRegisters else n
  | _ => return 0

/-- A private array of all interface registers, over vertices if there are any. -/
def registerArray (text : String) (vertices : Nat) : Emission Id := do
  let element ← vectorType float4
  let registers ← arrayOf element maxInterfaceRegisters
  let type ← arrayOf registers vertices
  let id ← newVariable type .priv none
  name id text
  return id

def inputArray : Emission Id := do
  match (← .state).inputArray? with
  | some id => return id
  | none =>
    let vertices ← inputVertexCount
    let id ← registerArray "v" vertices
    .note fun s => { s with inputArray? := some id }
    return id

def outputArray : Emission Id := do
  match (← .state).outputArray? with
  | some id => return id
  | none =>
    let id ← registerArray "o" 0
    .note fun s => { s with outputArray? := some id }
    return id

def patchArray : Emission Id := do
  match (← .state).patchArray? with
  | some id => return id
  | none =>
    let id ← registerArray "vpc" 0
    .note fun s => { s with patchArray? := some id }
    return id

/-- The place that `indices` lead to from `base`. -/
def chain (type : VectorType) (storage : StorageClass) (base : Id) (indices : List Id) :
    Emission Pointer := do
  if indices.isEmpty then return ⟨type, storage, base⟩
  let pointee ← vectorType type
  let pointer ← pointerType pointee storage
  let id ← emitValue .accessChain pointer (.id base :: indices.map .id)
  return ⟨type, storage, id⟩

/-- An input register, of one vertex where inputs are arrayed. -/
def inputPointer (vertex? : Option Id) (reg : Id) : Emission Pointer := do
  let array ← inputArray
  chain float4 .priv array (vertex?.toList ++ [reg])

def outputPointer (reg : Id) : Emission Pointer := do
  let array ← outputArray
  chain float4 .priv array [reg]

def patchPointer (reg : Id) : Emission Pointer := do
  let array ← patchArray
  chain float4 .priv array [reg]

def loadFrom (type pointer : Id) : Emission Id :=
  emitValue .load type [.id pointer]

def storeTo (pointer value : Id) : Emission Unit :=
  emit .store [.id pointer, .id value]

/-- All that a place holds. -/
def load (p : Pointer) : Emission Value := do
  let type ← vectorType p.type
  let id ← loadFrom type p.id
  return ⟨p.type, id⟩

/-- Where the components of a place of `count` come from when a packed value is merged in under
`mask`: from the old contents, numbered from zero, or from the value, numbered from `count`. -/
def mergeLanes (count : Nat) (mask : WriteMask) : List Nat :=
  (List.range count).map fun c => if mask.contains c then count + mask.rank c else c

/-- Writes a packed value into the components of a mask and leaves the others as they are. A
single component is written to all of the mask. -/
def storeMasked (p : Pointer) (value : Value) (mask : WriteMask) : Emission Unit := do
  if mask.isEmpty then return
  let value ← bitcast value p.type.scalar
  let value ← if value.type.count < mask.count then extend value mask.count else pure value
  if p.type.count = 1 then
    let part ← extract value 0
    storeTo p.id part.id
  else if mask.count = 1 then
    let index ← constantU32 (mask.first?.getD 0)
    let part ← extract value 0
    let target ← chain (.single p.type.scalar) p.storage p.id [index]
    storeTo target.id part.id
  else if mask = .firstN p.type.count ∧ value.type.count = p.type.count then
    storeTo p.id value.id
  else
    let current ← load p
    let type ← vectorType p.type
    let merged ← emitValue .vectorShuffle type
      (.id current.id :: .id value.id ::
        (mergeLanes p.type.count mask).map fun lane => .word (.ofNat lane))
    storeTo p.id merged

end ShaderLowering.Lower
