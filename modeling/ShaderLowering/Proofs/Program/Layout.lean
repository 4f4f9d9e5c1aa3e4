import Mathlib.Algebra.Ring.Nat
import Mathlib.Data.List.FinRange
import ShaderLowering.Program.Decode

/-!
The layout of programs in tokens, as the format has it: bit fields, chains of extended tokens,
operands with their indices and immediates, instructions, and blocks of raw data. A layout holds
what it stands for together with the choices that leave no trace in it: how wide an index is
written, and which extended tokens there are.
-/

namespace ShaderLowering

namespace Layout

/-- The fields of a token, the lowest first, each with its width in bits. -/
abbrev Fields := List (Nat × Nat)

namespace Fields

def width (fs : Fields) : Nat := (fs.map (·.1)).sum

def value : Fields → Nat
  | [] => 0
  | (width, v) :: rest => v + 2 ^ width * value rest

def token (fs : Fields) : UInt32 := .ofNat (value fs)

end Fields

/-- A field of one bit. -/
def bit (b : Bool) : Nat × Nat := (1, b.toNat)

/-- A chain of extended tokens. The last bit of each one says whether another one follows. -/
def chainTokens {ε : Type} (fields : ε → Fields) : List ε → List UInt32
  | [] => []
  | e :: rest => Fields.token (fields e ++ [bit !rest.isEmpty]) :: chainTokens fields rest

/-- Which of four components an operand selects. -/
inductive Selection4
  | mask (components : Fin 16)
  | swizzle (lanes : Swizzle)
  | select (component : Fin 4)

namespace Selection4

def fields : Selection4 → Fields
  | mask components => [(2, 0), (4, components), (4, 0)]
  | swizzle s => [(2, 1), (8, s.x + 4 * s.y + 16 * s.z + 64 * s.w)]
  | select component => [(2, 2), (2, component), (6, 0)]

def components : Selection4 → Decode.Components
  | mask components => ⟨.four, .mask, ⟨.ofNat components⟩, .identity⟩
  | swizzle s => ⟨.four, .swizzle, .xyzw, s⟩
  | select component => ⟨.four, .select1, .component component, .replicate component⟩

end Selection4

/-- How many components an operand has, and which of them it selects. -/
inductive Selected
  | zero
  | one
  | four (selection : Selection4)

namespace Selected

def fields : Selected → Fields
  | zero => [(2, 0), (10, 0)]
  | one => [(2, 1), (10, 0)]
  | four selection => (2, 2) :: selection.fields

def components : Selected → Decode.Components
  | zero => ⟨.zero, .mask, .none, .identity⟩
  | one => ⟨.one, .select1, .x, .replicate 0⟩
  | four selection => selection.components

end Selected

/-- What an operand is: a register, or an immediate with its words. -/
inductive Content
  | register (type : OperandType) (named : type ≠ .imm32 ∧ type ≠ .imm64) (selected : Selected)
  | imm32 (word : UInt32)
  | imm32x4 (selection : Selection4) (words : Words4)
  | imm64 (first second : UInt32)
  /-- Only the first two of the four immediates are kept. -/
  | imm64x4 (selection : Selection4) (kept dropped : Words4)

namespace Content

def type : Content → OperandType
  | register type _ _ => type
  | imm32 _ | imm32x4 _ _ => .imm32
  | imm64 _ _ | imm64x4 _ _ _ => .imm64

def selected : Content → Selected
  | register _ _ selected => selected
  | imm32 _ | imm64 _ _ => .one
  | imm32x4 selection _ | imm64x4 selection _ _ => .four selection

/-- The words behind an immediate. -/
def payload : Content → List UInt32
  | register _ _ _ => []
  | imm32 word => [word]
  | imm32x4 _ words => words.toList
  | imm64 first second => [first, second]
  | imm64x4 _ kept dropped => kept.toList ++ dropped.toList

/-- The words that are kept of an immediate. -/
def kept : Content → Words4
  | register _ _ _ => .zero
  | imm32 word => .replicate word
  | imm32x4 _ words => words
  | imm64 first second => ⟨first, second, 0, 0⟩
  | imm64x4 _ kept _ => kept

end Content

/-- An extended token of an operand. -/
inductive OperandExtension
  | empty
  | modifier (m : Modifier)

namespace OperandExtension

def fields : OperandExtension → Fields
  | empty => [(6, 0), (25, 0)]
  | modifier .none => [(6, 1), (8, 0), (17, 0)]
  | modifier .neg => [(6, 1), (8, 1), (17, 0)]
  | modifier .abs => [(6, 1), (8, 2), (17, 0)]
  | modifier .absNeg => [(6, 1), (8, 3), (17, 0)]

/-- What is left of the modifier in front of an extended token. -/
def apply (m : Modifier) : OperandExtension → Modifier
  | empty => m
  | modifier m => m

end OperandExtension

/-- An offset, in one dword or in two with the high half first. -/
def offsetTokens (wide : Bool) (offset : UInt32) : List UInt32 :=
  if wide then [0, offset] else [offset]

mutual

inductive Operand
  | mk (content : Content) (extensions : List OperandExtension) (dims : Fin 4)
    (index : Fin dims → Index)

inductive Index
  | immediate (wide : Bool) (offset : UInt32)
  | relative (operand : Operand)
  | sum (wide : Bool) (offset : UInt32) (operand : Operand)

end

/-- The number of a way to write an index. -/
def Index.representation : Index → Nat
  | immediate wide _ => if wide then 1 else 0
  | relative _ => 2
  | sum wide _ _ => if wide then 4 else 3

namespace Operand

/-- The representation of an index. Fields without an index are left zero. -/
def representation {dims : Nat} (index : Fin dims → Index) (dim : Nat) : Nat :=
  if there : dim < dims then (index ⟨dim, there⟩).representation else 0

def head (content : Content) (extensions : List OperandExtension) (dims : Fin 4)
    (index : Fin dims → Index) : Fields :=
  content.selected.fields ++
    [(8, content.type.code), (2, dims), (3, representation index 0), (3, representation index 1),
      (3, representation index 2), bit !extensions.isEmpty]

end Operand

mutual

def Operand.tokens : Operand → List UInt32
  | .mk content extensions dims index =>
    (Operand.head content extensions dims index).token ::
      (chainTokens OperandExtension.fields extensions ++
        ((List.finRange dims).flatMap (fun i => (index i).tokens) ++ content.payload))

def Index.tokens : Index → List UInt32
  | .immediate wide offset => offsetTokens wide offset
  | .relative operand => operand.tokens
  | .sum wide offset operand => offsetTokens wide offset ++ operand.tokens

end

mutual

/-- The operand that is laid out, for a slot that reads a type of data. -/
def Operand.record : Operand → DataType → ShaderLowering.Operand
  | .mk content extensions dims index, data =>
    { type := content.type, data
      components := content.selected.components.count
      selection := content.selected.components.selection
      mask := content.selected.components.mask
      swizzle := content.selected.components.swizzle
      modifier := extensions.foldl OperandExtension.apply .none
      indices := (List.finRange dims).map fun i => (index i).record
      imm := content.kept }

/-- The index that is laid out. Registers that are added hold integers. -/
def Index.record : Index → ShaderLowering.Index ShaderLowering.Operand
  | .immediate _ offset => .immediate offset
  | .relative operand => ⟨0, some (operand.record .sint32)⟩
  | .sum _ offset operand => ⟨offset, some (operand.record .sint32)⟩

end

/-- The operands and immediates that a format asks for. -/
inductive Arguments : List OperandSlot → Type
  | nil : Arguments []
  | dst {data : DataType} {slots : List OperandSlot} (operand : Operand)
    (later : Arguments slots) : Arguments (.dst data :: slots)
  | src {data : DataType} {slots : List OperandSlot} (operand : Operand)
    (later : Arguments slots) : Arguments (.src data :: slots)
  | imm32 {slots : List OperandSlot} (word : UInt32) (later : Arguments slots) :
    Arguments (.imm32 :: slots)
  | rest (words : List UInt32) : Arguments [.rest]

namespace Arguments

def tokens : {slots : List OperandSlot} → Arguments slots → List UInt32
  | _, nil => []
  | _, dst operand later | _, src operand later => operand.tokens ++ later.tokens
  | _, imm32 word later => word :: later.tokens
  | _, rest words => words

/-- The operands that are written. -/
def dsts : {slots : List OperandSlot} → Arguments slots → List ShaderLowering.Operand
  | _, nil | _, rest _ => []
  | .dst data :: _, dst operand later => operand.record data :: later.dsts
  | _, src _ later | _, imm32 _ later => later.dsts

/-- The operands that are read. -/
def srcs : {slots : List OperandSlot} → Arguments slots → List ShaderLowering.Operand
  | _, nil | _, rest _ => []
  | .src data :: _, src operand later => operand.record data :: later.srcs
  | _, dst _ later | _, imm32 _ later => later.srcs

def imms : {slots : List OperandSlot} → Arguments slots → List UInt32
  | _, nil => []
  | _, dst _ later | _, src _ later => later.imms
  | _, imm32 word later => word :: later.imms
  | _, rest words => words

end Arguments

/-- Texel offsets from -8 to 7. -/
structure Offsets where
  texel : TexelOffset
  u : -8 ≤ texel.u ∧ texel.u < 8
  v : -8 ≤ texel.v ∧ texel.v < 8
  w : -8 ≤ texel.w ∧ texel.w < 8

/-- Two's complement on four bits. -/
def nibble (i : Int) : Nat := (i % 16).toNat

/-- An extended token of an opcode. -/
inductive OpcodeExtension
  | empty
  | sampleOffsets (offsets : Offsets)
  | resourceDim (dim : Fin 32)
  | returnType (x y z w : Fin 16)

namespace OpcodeExtension

def fields : OpcodeExtension → Fields
  | empty => [(6, 0), (25, 0)]
  | sampleOffsets o =>
    [(6, 1), (3, 0), (4, nibble o.texel.u), (4, nibble o.texel.v), (4, nibble o.texel.w), (10, 0)]
  | resourceDim dim => [(6, 2), (5, dim), (20, 0)]
  | returnType x y z w => [(6, 3), (4, x), (4, y), (4, z), (4, w), (9, 0)]

/-- What an extended token adds to an instruction. -/
def apply (inst : ShaderLowering.Instruction) : OpcodeExtension → ShaderLowering.Instruction
  | empty => inst
  | sampleOffsets o => { inst with sampleOffsets := o.texel }
  | resourceDim dim => { inst with resourceDim? := some (.ofNat dim) }
  | returnType x y z w =>
    { inst with returnType? := some ⟨.ofNat x, .ofNat y, .ofNat z, .ofNat w⟩ }

end OpcodeExtension

structure Instruction where
  op : Opcode
  ordinary : op ≠ .customData
  /-- The bits between the opcode and the length. -/
  controls : Fin 8192
  extensions : List OpcodeExtension
  arguments : Arguments op.format.operands
  short : extensions.length + arguments.tokens.length < 127

namespace Instruction

variable (l : Instruction)

def length : Nat := 1 + (l.extensions.length + l.arguments.tokens.length)

def head : Fields :=
  [(11, l.op.code.toNat), (13, l.controls), (7, l.length), bit !l.extensions.isEmpty]

def tokens : List UInt32 :=
  l.head.token :: (chainTokens OpcodeExtension.fields l.extensions ++ l.arguments.tokens)

/-- The instruction that is laid out at a position. -/
def record (position : Nat) : ShaderLowering.Instruction :=
  { l.extensions.foldl OpcodeExtension.apply
      (Decode.blank l.op.code l.op.family position l.head.token) with
    dst := l.arguments.dsts
    src := l.arguments.srcs
    imm := l.arguments.imms }

end Instruction

/-- A block of raw data. -/
structure Block where
  family : Fin (2 ^ 21)
  payload : List UInt32
  short : payload.length + 2 < UInt32.size

namespace Block

variable (b : Block)

def head : Fields := [(11, Opcode.customData.code.toNat), (21, b.family)]

def tokens : List UInt32 :=
  b.head.token :: .ofNat (b.payload.length + 2) :: b.payload

/-- What is kept of a block: the immediate constant buffer, and of any other block its class. -/
def content : CustomData :=
  if b.family = 3 then .immediateConstantBuffer b.payload else .other (.ofNat b.family)

def record (position : Nat) : ShaderLowering.Instruction :=
  { Decode.blank Opcode.customData.code .customData position b.head.token with
    customData? := some b.content }

end Block

/-- One part of a program. -/
inductive Part
  | instruction (l : Instruction)
  | block (b : Block)

namespace Part

def tokens : Part → List UInt32
  | instruction l => l.tokens
  | block b => b.tokens

def record : Part → Nat → ShaderLowering.Instruction
  | instruction l => l.record
  | block b => b.record

end Part

/-- The tokens of a program. -/
def programTokens (version : UInt32) (parts : List Part) : List UInt32 :=
  version :: .ofNat ((parts.flatMap Part.tokens).length + 2) :: parts.flatMap Part.tokens

/-- The instructions that are laid out one after the other. -/
def records : List Part → Nat → List ShaderLowering.Instruction
  | [], _ => []
  | part :: later, position => part.record position :: records later (position + part.tokens.length)

end Layout

end ShaderLowering
