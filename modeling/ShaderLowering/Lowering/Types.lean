import ShaderLowering.Lowering.Emit

/-!
Types, constants and variables of the module. Each type and each constant is declared at its
first use. Blocks with a memory layout are forced declarations, each made and decorated once: a
layout must not leak into a plain type that happens to look the same.
-/

namespace ShaderLowering.Lower

open Spirv

/-- The id of a type. -/
def declareType (key : TypeKey) : Emission Id :=
  .declare (.type key)

/-- The id of a constant. -/
def declareConstant (key : ConstantKey) : Emission Id :=
  .declare (.constant key)

/-- A type that is declared anew even if there is one that looks the same. -/
def declareNewType (op : Op) (args : List Arg) : Emission Id :=
  .declareNew op none args

def voidType : Emission Id :=
  declareType .void

def scalarType (scalar : ScalarType) : Emission Id :=
  declareType (.scalar scalar)

/-- One component gives the scalar type. -/
def vectorType (type : VectorType) : Emission Id := do
  let scalar ← scalarType type.scalar
  if type.count ≤ 1 then return scalar
  else declareType (.vector type.scalar (.ofNat type.count) scalar)

/-- A scalar constant by its bit pattern. -/
def constant (scalar : ScalarType) (bits : UInt32) : Emission Id := do
  let type ← scalarType scalar
  declareConstant (.scalar scalar type bits)

def constantU32 (n : Nat) : Emission Id :=
  constant .u32 (.ofNat n)

/-- An array of `length` elements, or the element type itself when the length is zero. -/
def arrayOf (element : Id) (length : Nat) : Emission Id := do
  if length = 0 then return element
  else
    let count ← constantU32 length
    declareType (.array element (.ofNat length) count)

def pointerType (pointee : Id) (storage : StorageClass) : Emission Id :=
  declareType (.pointer storage pointee)

def functionType (returns : Id) (parameters : List Id) : Emission Id :=
  declareType (.function returns parameters)

/-- The type of functions without parameters or result. -/
def voidFunctionType : Emission Id := do
  let void ← voidType
  functionType void []

def structType (members : List Id) : Emission Id :=
  declareType (.struct members)

def imageType (image : ImageType) : Emission Id := do
  let sampled ← scalarType image.sampled
  declareType (.image image sampled)

def samplerType : Emission Id :=
  declareType .sampler

def sampledImageType (image : Id) : Emission Id :=
  declareType (.sampledImage image)

/-- A struct of one member at offset zero that may back a buffer. -/
def layoutBlock (member : Id) : Emission Id := do
  let block ← declareNewType .typeStruct [.id member]
  decorate block .block []
  decorateMember block 0 .offset [.word 0]
  return block

/-- The block of a constant buffer with `length` elements. -/
def uniformBlock (length : Nat) : Emission Id := do
  match (← .state).uniformBlocks.lookup length with
  | some block => return block
  | none =>
    let element ← vectorType float4
    let count ← constantU32 (max length 1)
    let array ← declareNewType .typeArray [.id element, .id count]
    decorate array .arrayStride [.word 16]
    let block ← layoutBlock array
    .note fun s => { s with uniformBlocks := (length, block) :: s.uniformBlocks }
    return block

/-- The block of dwords that all raw and structured buffers share. -/
def storageBlock : Emission Id := do
  match (← .state).storageBlock? with
  | some block => return block
  | none =>
    let word ← scalarType .u32
    let array ← declareType (.runtimeArray word)
    decorate array .arrayStride [.word 4]
    let block ← layoutBlock array
    .note fun s => { s with storageBlock? := some block }
    return block

/-- The block of one dword that backs an append and consume counter. -/
def counterBlock : Emission Id := do
  match (← .state).counterBlock? with
  | some block => return block
  | none =>
    let word ← scalarType .u32
    let block ← layoutBlock word
    .note fun s => { s with counterBlock? := some block }
    return block

def constantComposite (type : Id) (parts : List Id) : Emission Id :=
  declareConstant (.composite type parts)

/-- A constant with one component for each bit pattern. -/
def constantVector (scalar : ScalarType) (bits : List UInt32) : Emission Id := do
  let parts ← bits.mapM (constant scalar)
  match parts with
  | [part] => return part
  | _ =>
    let type ← vectorType ⟨scalar, parts.length⟩
    constantComposite type parts

/-- The constant of all zero bits. -/
def constantNull (type : Id) : Emission Id :=
  declareConstant (.null type)

/-- Lists a module-scope variable with those that the entry point may name. -/
def listVariable (id : Id) (storage : StorageClass) : Emission Unit :=
  .note fun s => { s with globals := (id, storage) :: s.globals }

/-- Declares a module-scope variable. -/
def newVariable (pointee : Id) (storage : StorageClass) (initial? : Option Id) : Emission Id := do
  let pointer ← pointerType pointee storage
  let id ← .newVariable pointer storage initial?
  listVariable id storage
  return id

/-- The variables that the entry point lists: inputs and outputs, and from version 1.4 on all of
module scope. -/
def interfaceVariables : Emission (List Id) := do
  let all := (← read).options.version.atLeast 1 4
  let listed := (← .state).globals.reverse.filter fun (_, storage) =>
    all || storage = .input || storage = .output
  return listed.map (·.1)

def decorateBuiltin (id : Id) (builtin : BuiltIn) : Emission Unit :=
  decorate id .builtIn [.word builtin.code]

/-- Puts a variable at a binding of the one descriptor set. -/
def decorateBinding (id : Id) (binding : Nat) : Emission Unit := do
  decorate id .descriptorSet [.word 0]
  decorate id .binding [.word (.ofNat binding)]

end ShaderLowering.Lower
