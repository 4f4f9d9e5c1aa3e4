import ShaderLowering.Program.Mask

/-!
Operands. An operand names a register file, up to three indices into it, the components it
writes or reads, and a sign modifier; immediates carry their words instead. An index may add the
value of another operand, so operands nest.
-/

namespace ShaderLowering

/-- How the components of an operand are interpreted; it comes from the opcode, not the token. -/
inductive DataType
  | float32
  | uint32
  | sint32
deriving DecidableEq, Repr, Inhabited

/-- The register files, in the order of their numbers in operand tokens. -/
inductive OperandType
  | temp
  | input
  | output
  | indexableTemp
  | imm32
  | imm64
  | sampler
  | resource
  | constantBuffer
  | immediateConstantBuffer
  | label
  | inputPrimitiveId
  | outputDepth
  | null
  | rasterizer
  | outputCoverageMask
  | stream
  | functionBody
  | functionTable
  | interface
  | functionInput
  | functionOutput
  | outputControlPointId
  | inputForkInstanceId
  | inputJoinInstanceId
  | inputControlPoint
  | outputControlPoint
  | inputPatchConstant
  | inputDomainPoint
  | thisPointer
  | uav
  | threadGroupSharedMemory
  | inputThreadId
  | inputThreadGroupId
  | inputThreadIdInGroup
  | inputCoverageMask
  | inputThreadIdInGroupFlattened
  | inputGsInstanceId
  | outputDepthGreaterEqual
  | outputDepthLessEqual
  | cycleCounter
deriving DecidableEq, Repr, Inhabited

namespace OperandType

/-- Every register file with its name in diagnostics, by increasing number. -/
def table : List (OperandType × String) :=
  [(.temp, "Temp"),
   (.input, "Input"),
   (.output, "Output"),
   (.indexableTemp, "IndexableTemp"),
   (.imm32, "Imm32"),
   (.imm64, "Imm64"),
   (.sampler, "Sampler"),
   (.resource, "Resource"),
   (.constantBuffer, "ConstantBuffer"),
   (.immediateConstantBuffer, "ImmediateConstantBuffer"),
   (.label, "Label"),
   (.inputPrimitiveId, "InputPrimitiveId"),
   (.outputDepth, "OutputDepth"),
   (.null, "Null"),
   (.rasterizer, "Rasterizer"),
   (.outputCoverageMask, "OutputCoverageMask"),
   (.stream, "Stream"),
   (.functionBody, "FunctionBody"),
   (.functionTable, "FunctionTable"),
   (.interface, "Interface"),
   (.functionInput, "FunctionInput"),
   (.functionOutput, "FunctionOutput"),
   (.outputControlPointId, "OutputControlPointId"),
   (.inputForkInstanceId, "InputForkInstanceId"),
   (.inputJoinInstanceId, "InputJoinInstanceId"),
   (.inputControlPoint, "InputControlPoint"),
   (.outputControlPoint, "OutputControlPoint"),
   (.inputPatchConstant, "InputPatchConstant"),
   (.inputDomainPoint, "InputDomainPoint"),
   (.thisPointer, "ThisPointer"),
   (.uav, "Uav"),
   (.threadGroupSharedMemory, "ThreadGroupSharedMemory"),
   (.inputThreadId, "InputThreadId"),
   (.inputThreadGroupId, "InputThreadGroupId"),
   (.inputThreadIdInGroup, "InputThreadIdInGroup"),
   (.inputCoverageMask, "InputCoverageMask"),
   (.inputThreadIdInGroupFlattened, "InputThreadIdInGroupFlattened"),
   (.inputGsInstanceId, "InputGsInstanceId"),
   (.outputDepthGreaterEqual, "OutputDepthGreaterEqual"),
   (.outputDepthLessEqual, "OutputDepthLessEqual"),
   (.cycleCounter, "CycleCounter")]

def ofCode? (code : Nat) : Option OperandType :=
  (table[code]?).map (·.1)

/-- The number of a register file in an operand token. -/
def code (type : OperandType) : Nat :=
  table.findIdx (·.1 = type)

def name (type : OperandType) : String :=
  ((table.find? (·.1 = type)).map (·.2)).getD ""

end OperandType

inductive ComponentCount
  | zero
  | one
  | four
deriving DecidableEq, Repr, Inhabited

/-- How the components of an operand are chosen. -/
inductive Selection
  | mask
  | swizzle
  | select1
deriving DecidableEq, Repr, Inhabited

inductive Modifier
  | none
  | neg
  | abs
  | absNeg
deriving DecidableEq, Repr, Inhabited

/-- Four words, such as the value of a four-component immediate. -/
structure Words4 where
  x : UInt32
  y : UInt32
  z : UInt32
  w : UInt32
deriving DecidableEq, Repr, Inhabited

namespace Words4

def zero : Words4 := ⟨0, 0, 0, 0⟩

def replicate (a : UInt32) : Words4 := ⟨a, a, a, a⟩

def toList (v : Words4) : List UInt32 := [v.x, v.y, v.z, v.w]

/-- The word in a component, the component taken modulo four. -/
def get (v : Words4) (c : Nat) : UInt32 :=
  match c % 4 with
  | 0 => v.x
  | 1 => v.y
  | 2 => v.z
  | _ => v.w

end Words4

/-- A register index: `offset`, plus the value of `relative` where there is one, as in
`x0[r1.x + 2]`. -/
structure Index (α : Type) where
  offset : UInt32
  relative : Option α
deriving Repr, Inhabited

namespace Index

def immediate {α : Type} (offset : UInt32) : Index α := ⟨offset, none⟩

def immediate? {α : Type} (index : Index α) : Option UInt32 :=
  match index.relative with
  | none => some index.offset
  | some _ => none

end Index

structure Operand where
  type : OperandType
  data : DataType
  components : ComponentCount
  selection : Selection
  /-- The components written. Sources with a swizzle have the full mask. -/
  mask : WriteMask
  /-- The components read. Masked destinations have the identity. -/
  swizzle : Swizzle
  modifier : Modifier
  indices : List (Index Operand)
  /-- The words of an immediate. -/
  imm : Words4
deriving Repr, Inhabited

namespace Operand

/-- Index number `dim`, if there is one and it adds no register. -/
def index? (op : Operand) (dim : Nat) : Option UInt32 :=
  (op.indices[dim]?).bind Index.immediate?

def isNull (op : Operand) : Bool :=
  op.type = .null

end Operand

end ShaderLowering
