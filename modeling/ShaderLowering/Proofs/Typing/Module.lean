import ShaderLowering.Spirv.Module

/-!
What the types of a module say. An id stands for the instruction that defines it, so the type of a
place, the length of an array and the value of a constant can be looked up. An access chain steps
from the type of its base through one part for each index; `chainFits` says that it arrives at the
type it claims, `chainInBounds` that no constant index lies past the end of an array.
-/

namespace ShaderLowering.Spirv

/-- The storage classes of variables that no memory layout applies to. -/
def StorageClass.isPlain : StorageClass → Bool
  | priv | workgroup | input | output => true
  | _ => false

/-- The type that a decoration gives a memory layout to. -/
def Instr.laysOut? (a : Instr) : Option Id :=
  match a.op, a.args with
  | .ordinary .decorate, .id type :: .word decoration :: _ =>
    if decoration = Decoration.arrayStride.code ∨ decoration = Decoration.block.code then some type
    else none
  | .ordinary .memberDecorate, .id type :: .word _ :: .word decoration :: _ =>
    if decoration = Decoration.offset.code then some type else none
  | _, _ => none

/-- The instructions of all blocks of a function. -/
def Function.body (f : Function) : List Instr :=
  f.blocks.toList.flatMap fun k => k.body.toList

namespace Module

/-- The instructions of all functions. -/
def bodies (m : Module) : List Instr :=
  m.functions.toList.flatMap Function.body

/-- The instructions that may define a type, a constant, a variable or a value. -/
def definitions (m : Module) : List Instr :=
  m.globals.toList ++ m.bodies

/-- The instruction that defines an id. -/
def definition? (m : Module) (id : Id) : Option Instr :=
  m.definitions.find? (·.result? = some id)

def type? (m : Module) (id : Id) : Option Id :=
  (m.definition? id).bind (·.resultType?)

/-- Storage class and pointee of a pointer type. -/
def pointer? (m : Module) (type : Id) : Option (UInt32 × Id) :=
  match m.definition? type with
  | some ⟨.ordinary .typePointer, _, _, [.word storage, .id pointee]⟩ => some (storage, pointee)
  | _ => none

/-- Storage class and type of the place that a pointer leads to. -/
def place? (m : Module) (pointer : Id) : Option (UInt32 × Id) :=
  (m.type? pointer).bind m.pointer?

/-- The word of a constant. -/
def constant? (m : Module) (id : Id) : Option UInt32 :=
  match m.definition? id with
  | some ⟨.ordinary .constant, _, _, [.word w]⟩ => some w
  | _ => none

/-- The declared length of an array type. -/
def length? (m : Module) (type : Id) : Option UInt32 :=
  match m.definition? type with
  | some ⟨.ordinary .typeArray, _, _, [.id _, .id count]⟩ => m.constant? count
  | _ => none

/-- The types that a composite type consists of. -/
def parts (m : Module) (type : Id) : List Id :=
  match m.definition? type with
  | some ⟨.ordinary .typeArray, _, _, .id element :: _⟩
  | some ⟨.ordinary .typeRuntimeArray, _, _, .id element :: _⟩
  | some ⟨.ordinary .typeVector, _, _, .id element :: _⟩ => [element]
  | some ⟨.ordinary .typeStruct, _, _, members⟩ =>
    members.filterMap fun
      | .id member => some member
      | _ => none
  | _ => []

/-- The type that an index of an access chain steps to: the member of a constant number in a
struct, the element or component elsewhere. -/
def part? (m : Module) (type index : Id) : Option Id :=
  match m.definition? type with
  | some ⟨.ordinary .typeStruct, _, _, _⟩ =>
    (m.constant? index).bind fun k => (m.parts type)[k.toNat]?
  | _ => (m.parts type).head?

/-- The type that a list of indices leads to. -/
def walk? (m : Module) : Id → List Arg → Option Id
  | type, [] => some type
  | type, .id index :: rest => (m.part? type index).bind fun part => m.walk? part rest
  | _, _ => none

/-- Whether an access chain leads from the type of its base to the pointee of its own type, within
one storage class. -/
def chainFits (m : Module) (i : Instr) : Bool :=
  match i.args with
  | .id base :: indices =>
    match m.place? base, i.resultType?.bind m.pointer? with
    | some (storage, root), some (storage', pointee) =>
      storage = storage' && m.walk? root indices = some pointee
    | _, _ => false
  | _ => false

/-- Whether the constants among the indices are below the lengths of the arrays they step into. -/
def inBounds (m : Module) : Id → List Arg → Bool
  | type, .id index :: rest =>
    (m.length? type).all (fun n => (m.constant? index).all (· < n)) &&
      (m.part? type index).all fun part => m.inBounds part rest
  | _, _ => true

def chainInBounds (m : Module) (i : Instr) : Bool :=
  match i.args with
  | .id base :: indices => (m.place? base).any fun (_, root) => m.inBounds root indices
  | _ => false

/-- What an image type says of its texels: their component type, how they are accessed, and their
format. -/
def image? (m : Module) (type : Id) : Option (Id × UInt32 × UInt32) :=
  match m.definition? type with
  | some ⟨.ordinary .typeImage, _, _, [.id component, _, _, _, _, .word access, .word format]⟩ =>
    some (component, access, format)
  | _ => none

/-- Whether a type is that of words of 32 bits with a given signedness. -/
def isWord (m : Module) (type : Id) (sign : UInt32) : Bool :=
  match m.definition? type with
  | some ⟨.ordinary .typeInt, _, _, [.word 32, .word s]⟩ => s = sign
  | _ => false

/-- Whether the texels of an image type are single integers whose format agrees with their
component type. -/
def hasAtomicTexels (m : Module) (type : Id) : Bool :=
  (m.image? type).any fun (component, _, format) =>
    format = ImageFormat.r32ui.code && m.isWord component 0 ||
      format = ImageFormat.r32i.code && m.isWord component 1

/-- Whether a texel pointer leads into an image with such texels. -/
def texelFits (m : Module) (i : Instr) : Bool :=
  match i.args with
  | .id variable_ :: _ => (m.place? variable_).any fun (_, type) => m.hasAtomicTexels type
  | _ => false

/-- Whether an image instruction works on a storage image of no known format. -/
def lacksFormat (m : Module) (i : Instr) : Bool :=
  match i.args with
  | .id image :: _ =>
    ((m.type? image).bind m.image?).any fun (_, access, format) =>
      access = 2 && format = ImageFormat.unknown.code
  | _ => false

def HasCapability (m : Module) (c : Capability) : Prop :=
  .plain .capability [.word c.code] ∈ m.capabilities.toList

instance (m : Module) (c : Capability) : Decidable (m.HasCapability c) :=
  inferInstanceAs (Decidable (_ ∈ _))

/-- A type occurs in another. -/
inductive Contains (m : Module) : Id → Id → Prop
  | self (type : Id) : Contains m type type
  | part {type part inner : Id} (h : part ∈ m.parts type) : Contains m part inner →
    Contains m type inner

def LaidOut (m : Module) (type : Id) : Prop :=
  ∃ a ∈ m.annotations.toList, a.laysOut? = some type

end Module

end ShaderLowering.Spirv
