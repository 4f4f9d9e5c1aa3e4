import ShaderLowering.Program.Opcode

/-!
Decoded instructions. An instruction keeps its raw opcode token; the controls that an opcode
packs into that token are read by the functions here.
-/

namespace ShaderLowering

/-- What a conditional jump tests its operand for. -/
inductive ZeroTest
  | ifZero
  | ifNonZero
deriving DecidableEq, Repr, Inhabited

/-- Blocks of raw data between instructions. -/
inductive CustomData
  | immediateConstantBuffer (words : List UInt32)
  /-- Comments, debug information and the like; only the class is kept. -/
  | other (family : UInt32)
deriving DecidableEq, Repr, Inhabited

/-- Immediate texel offsets of a sampling instruction. -/
structure TexelOffset where
  u : Int
  v : Int
  w : Int
deriving DecidableEq, Repr, Inhabited

namespace TexelOffset

def zero : TexelOffset := ⟨0, 0, 0⟩

def toList (o : TexelOffset) : List Int := [o.u, o.v, o.w]

end TexelOffset

structure Instruction where
  opcode : UInt32
  family : Opcode.Family
  /-- Where the opcode token stands in the program, in dwords. -/
  position : Nat
  token : UInt32
  sampleOffsets : TexelOffset
  /-- Resource dimension from an extended opcode token. -/
  resourceDim? : Option UInt32
  /-- Resource return types from an extended opcode token. -/
  returnType? : Option Words4
  dst : List Operand
  src : List Operand
  imm : List UInt32
  customData? : Option CustomData
deriving Repr, Inhabited

namespace Instruction

def name (inst : Instruction) : String :=
  Opcode.nameOf inst.opcode

def op? (inst : Instruction) : Option Opcode :=
  Opcode.ofCode? inst.opcode

/-- Bits `lo` to `hi` of the opcode token. -/
def bits (inst : Instruction) (lo hi : Nat) : UInt32 :=
  .ofNat (inst.token.toNat / Nat.pow 2 lo % Nat.pow 2 (hi + 1 - lo))

def flag (inst : Instruction) (bit : Nat) : Bool :=
  inst.token.toNat.testBit bit

/-- All thirteen control bits between the opcode and the length. -/
def controls (inst : Instruction) : UInt32 := inst.bits 11 23

/-- Whether results are clamped to the unit interval. -/
def saturate (inst : Instruction) : Bool := inst.flag 13

/-- The result components that must not be reassociated or contracted. -/
def preciseMask (inst : Instruction) : WriteMask := ⟨(inst.bits 19 22).toUInt8⟩

def zeroTest (inst : Instruction) : ZeroTest :=
  if inst.flag 18 then .ifNonZero else .ifZero

/-- What a resource query returns: 0 floats, 1 floats with reciprocal sizes, 2 integers. -/
def queryReturnType (inst : Instruction) : UInt32 := inst.bits 11 12

/-- Which memory a barrier orders and whether it waits for the group. -/
def syncFlags (inst : Instruction) : UInt32 := inst.bits 11 14

def interpolation (inst : Instruction) : UInt32 := inst.bits 11 14

def resourceDim (inst : Instruction) : UInt32 := inst.bits 11 15

def sampleCount (inst : Instruction) : UInt32 := inst.bits 16 22

def constantBufferIsIndexed (inst : Instruction) : Bool := inst.flag 11

/-- Sampler mode: 0 default, 1 comparison, 2 mono. -/
def samplerMode (inst : Instruction) : UInt32 := inst.bits 11 14

def globalFlags (inst : Instruction) : UInt32 := inst.bits 11 18

def inputPrimitive (inst : Instruction) : UInt32 := inst.bits 11 16

def outputTopology (inst : Instruction) : UInt32 := inst.bits 11 17

def controlPointCount (inst : Instruction) : UInt32 := inst.bits 11 16

def tessDomain (inst : Instruction) : UInt32 := inst.bits 11 12

def tessPartitioning (inst : Instruction) : UInt32 := inst.bits 11 13

def tessOutputPrimitive (inst : Instruction) : UInt32 := inst.bits 11 13

def isGloballyCoherent (inst : Instruction) : Bool := inst.flag 16

def hasCounter (inst : Instruction) : Bool := inst.flag 23

end Instruction

end ShaderLowering
