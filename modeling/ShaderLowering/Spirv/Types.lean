import ShaderLowering.Spirv.Instruction

/-!
Types and constants, and the keys that they are asked for by. A key says what a declaration is made
of. Where that takes the id of another type or of a constant, such as the component type of a
vector, the id stands in the key as well.
-/

namespace ShaderLowering

open Spirv (Id Op Arg Instr)

inductive ScalarType
  | bool
  | u32
  | i32
  | f32
deriving DecidableEq, Repr, Inhabited

def ScalarType.isInteger : ScalarType → Bool
  | u32 | i32 => true
  | _ => false

/-- A vector of `count` components; one component is a scalar. -/
structure VectorType where
  scalar : ScalarType
  count : Nat
deriving DecidableEq, Repr, Inhabited

namespace VectorType

def single (scalar : ScalarType) : VectorType := ⟨scalar, 1⟩
def four (scalar : ScalarType) : VectorType := ⟨scalar, 4⟩

end VectorType

/-- The contents of one register: four floats. -/
def float4 : VectorType := .four .f32

structure ImageType where
  sampled : ScalarType
  dim : Spirv.Dim
  isArrayed : Bool
  isMultisampled : Bool
  /-- Written through image stores rather than read through samplers. -/
  isStorage : Bool
  format : Spirv.ImageFormat
deriving DecidableEq, Repr

/-- The arguments of an image type, given its component type. -/
def ImageType.args (image : ImageType) (component : Id) : List Arg :=
  [.id component, .word image.dim.code, .word 0, .word (if image.isArrayed then 1 else 0),
    .word (if image.isMultisampled then 1 else 0), .word (if image.isStorage then 2 else 1),
    .word image.format.code]

namespace Spirv

/-- What a type is asked for by. -/
inductive TypeKey
  | void
  | scalar (type : ScalarType)
  | vector (scalar : ScalarType) (count : UInt32) (component : Id)
  /-- Elements of a type, and how many, as a number and as a constant. -/
  | array (element : Id) (length : UInt32) (count : Id)
  | runtimeArray (element : Id)
  | pointer (storage : StorageClass) (pointee : Id)
  | function (returns : Id) (parameters : List Id)
  | struct (members : List Id)
  | image (type : ImageType) (component : Id)
  | sampler
  | sampledImage (type : Id)
deriving DecidableEq, Repr

namespace TypeKey

@[grind =]
def op : TypeKey → Op
  | void => .typeVoid
  | scalar .bool => .typeBool
  | scalar .u32 | scalar .i32 => .typeInt
  | scalar .f32 => .typeFloat
  | vector .. => .typeVector
  | array .. => .typeArray
  | runtimeArray _ => .typeRuntimeArray
  | pointer .. => .typePointer
  | function .. => .typeFunction
  | struct _ => .typeStruct
  | image .. => .typeImage
  | sampler => .typeSampler
  | sampledImage _ => .typeSampledImage

def args : TypeKey → List Arg
  | void | scalar .bool | sampler => []
  | scalar .u32 => [.word 32, .word 0]
  | scalar .i32 => [.word 32, .word 1]
  | scalar .f32 => [.word 32]
  | vector _ count component => [.id component, .word count]
  | array element _ count => [.id element, .id count]
  | runtimeArray element => [.id element]
  | pointer storage pointee => [.word storage.code, .id pointee]
  | function returns parameters => .id returns :: parameters.map .id
  | struct members => members.map .id
  | image type component => type.args component
  | sampledImage type => [.id type]

end TypeKey

/-- What a constant is asked for by. -/
inductive ConstantKey
  /-- A bit pattern of a scalar type. -/
  | scalar (component : ScalarType) (type : Id) (bits : UInt32)
  | composite (type : Id) (parts : List Id)
  /-- All zero bits. -/
  | null (type : Id)
deriving DecidableEq, Repr

namespace ConstantKey

def op : ConstantKey → Op
  | scalar .bool _ bits => if bits = 0 then .constantFalse else .constantTrue
  | scalar .. => .constant
  | composite .. => .constantComposite
  | null _ => .constantNull

def type : ConstantKey → Id
  | scalar _ type _ | composite type _ | null type => type

/-- Truth values have opcodes of their own, so their bits do not matter otherwise. -/
def args : ConstantKey → List Arg
  | scalar .bool _ _ | null _ => []
  | scalar _ _ bits => [.word bits]
  | composite _ parts => parts.map .id

end ConstantKey

/-- What a type or a constant is asked for by. -/
inductive Key
  | type (key : TypeKey)
  | constant (key : ConstantKey)
deriving DecidableEq, Repr

namespace Key

def op : Key → Op
  | type key => key.op
  | constant key => key.op

def type? : Key → Option Id
  | type _ => none
  | constant key => some key.type

def args : Key → List Arg
  | type key => key.args
  | constant key => key.args

/-- The declaration that a key asks for, under a given id. -/
def declaration (key : Key) (id : Id) : Instr :=
  ⟨.ordinary key.op, key.type?, some id, key.args⟩

end Key

end Spirv

end ShaderLowering
