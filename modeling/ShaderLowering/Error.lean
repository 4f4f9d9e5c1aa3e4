import ShaderLowering.Program.Decode
import ShaderLowering.Binding
import ShaderLowering.Spirv.Module

/-!
Why a shader is not lowered. A fault is a program that decodes but makes no sense at the point
reached; each has its text here and nowhere else.
-/

namespace ShaderLowering

/-- The most registers that a stage has for its inputs, and for its outputs. -/
def maxInterfaceRegisters : Nat := 32

/-- The most temporary registers, and the most elements of one indexable temporary. -/
def maxTemps : Nat := 4096

/-- The most dwords of one array of thread group memory, 32 KiB in all. -/
def maxGroupDwords : Nat := 8192

inductive Fault
  /-- An arithmetic instruction reads more operands than it has. -/
  | missingSource (name : String) (n : Nat)
  | missingSourceOperand (name : String) (n : Nat)
  | missingDestinationOperand (name : String) (n : Nat)
  | needsSources (name count : String)
  | outsideStage (what : String) (stage : ShaderStage)
  | outsideBody (name : String)
  | breakOutside
  | continueOutside
  | elseWithoutIf
  | secondElse
  | endIfWithoutIf
  | endLoopWithoutLoop
  | caseOutsideSwitch
  | caseLabel (type : OperandType)
  | endSwitchWithoutSwitch
  | switchHeaderNotOpen
  /-- Constructs are still open where a function or the shader ends. -/
  | constructsLeftOpen (count : Nat) (endOf : String)
  | notInHull
  | notInForkOrJoin (name : String)
  | secondControlPointPhase
  | instanceIdOutsidePhase
  | declarationWithoutRegister (name : String)
  | interfaceRegister (register : UInt32)
  | controlPointOutput (register : UInt32)
  | groupMemoryOverflow (register stride count : UInt32)
  | groupMemorySize (register : UInt32) (length : Nat)
  | groupMemoryRedeclared (register stride : UInt32) (length : Nat) (firstStride : UInt32)
      (firstLength : Nat)
  | tempCount (count : Nat)
  | tempRegister (register : UInt32)
  | indexableTempSize (register length : UInt32)
  | indexableTempRedeclared (register : UInt32) (length firstLength : Nat)
  | indexableTempElement (register element : UInt32) (length : Nat)
  /-- A register that needs a declaration and has none. -/
  | undeclared (letter : String) (register : UInt32)
  | noImmediateConstants
  | missingIndex (type : OperandType) (dim : Nat)
  | relativeIndex (type : OperandType) (dim : Nat)
  | notARegister (type : OperandType)
  | wideImmediate
  | slotRedeclared (slotClass : BindingClass) (slot : UInt32) (kind : ResourceKind)
      (dimension : ViewDimension)
  | declarationWithoutSlot (type : OperandType)
  | resourceRedeclared (letter : String) (slot : UInt32) (name : String)
      (dimension : Option ViewDimension) (first : ViewDimension)
  | constantBufferRedeclared (slot : UInt32) (size firstSize : Nat)
  | resourceDimension (letter : String) (slot dimension : UInt32)
  | operandWithoutSlot (type : OperandType)
  | notAResource (type : OperandType)
  | typedAccessToBuffer
  | bufferAccessToTyped
  | samplerWithoutSlot
  | groupMemoryWithoutRegister
  | counterWithoutSlot
  | sizeOfBuffer
  | interpolationSource
  | noInterpolatedVariable (register : UInt32)
  | notAFloatInput (register : UInt32)
  | inputPrimitive (raw : UInt32)
  | outputTopology (raw : UInt32)
  | noInputPrimitive
  | noOutputTopology
  | noBody
deriving DecidableEq, Repr

namespace Fault

def dimensionText : Option ViewDimension → String
  | some dimension => s!"Some({dimension.name})"
  | none => "None"

def message : Fault → String
  | missingSource name n => s!"{name} is missing source {n}"
  | missingSourceOperand name n => s!"{name} is missing source operand {n}"
  | missingDestinationOperand name n => s!"{name} is missing destination operand {n}"
  | needsSources name count => s!"{name} needs {count} sources"
  | outsideStage what stage => s!"{what} outside a {stage.name} shader"
  | outsideBody name => s!"{name} outside of a shader body"
  | breakOutside => "break outside a loop or switch"
  | continueOutside => "continue outside a loop"
  | elseWithoutIf => "else without a matching if"
  | secondElse => "second else for the same if"
  | endIfWithoutIf => "endif without a matching if"
  | endLoopWithoutLoop => "endloop without a matching loop"
  | caseOutsideSwitch => "case outside a switch"
  | caseLabel type => s!"case label must be a 32-bit immediate, got {type.name}"
  | endSwitchWithoutSwitch => "endswitch without a matching switch"
  | switchHeaderNotOpen => "switch header block was not opened"
  | constructsLeftOpen count endOf =>
    s!"{count} control-flow blocks left open at the end of {endOf}"
  | notInHull => "hull shader state requested outside a hull shader"
  | notInForkOrJoin name => s!"{name} outside a fork or join phase"
  | secondControlPointPhase => "hull shader has more than one control point phase"
  | instanceIdOutsidePhase => "phase instance id read outside a fork or join phase"
  | declarationWithoutRegister name => s!"{name} without a register"
  | interfaceRegister register => s!"interface register {register} exceeds {maxInterfaceRegisters}"
  | controlPointOutput register => s!"control point output o{register} is not declared"
  | groupMemoryOverflow register stride count =>
    s!"g{register} size overflows: stride {stride} x {count}"
  | groupMemorySize register length =>
    s!"g{register} is {length} dwords (limit {maxGroupDwords})"
  | groupMemoryRedeclared register stride length firstStride firstLength =>
    s!"g{register} redeclared as stride {stride} x {length} dwords, " ++
    s!"first declared as stride {firstStride} x {firstLength} dwords"
  | tempCount count => s!"{count} temp registers requested (limit {maxTemps})"
  | tempRegister register => s!"r{register} is out of range (limit {maxTemps})"
  | indexableTempSize register length => s!"x{register}[{length}] exceeds {maxTemps} registers"
  | indexableTempRedeclared register length firstLength =>
    s!"x{register} redeclared with {length} registers, first declared with {firstLength}"
  | indexableTempElement register element length =>
    s!"x{register}[{element}] is past the declared length {length}"
  | undeclared letter register => s!"{letter}{register} used without a declaration"
  | noImmediateConstants => "icb used without customdata"
  | missingIndex type dim => s!"{type.name} operand lacks index {dim}"
  | relativeIndex type dim => s!"{type.name} operand needs an immediate index {dim}"
  | notARegister type => s!"operand type {type.name} cannot be used as a register"
  | wideImmediate => "64-bit immediates are not supported"
  | slotRedeclared slotClass slot kind dimension =>
    s!"{slotClass.registerLetter}{slot} redeclared as {kind.name} {dimension.name}"
  | declarationWithoutSlot type => s!"{type.name} declaration without a slot"
  | resourceRedeclared letter slot name dimension first =>
    s!"{letter}{slot} redeclared as {name} {dimensionText dimension}, " ++
    s!"first declared as {first.name}"
  | constantBufferRedeclared slot size firstSize =>
    s!"cb{slot} redeclared with {size} elements, first declared with {firstSize}"
  | resourceDimension letter slot dimension =>
    s!"{letter}{slot} has invalid resource dimension {dimension}"
  | operandWithoutSlot type => s!"{type.name} operand without a slot"
  | notAResource type => s!"{type.name} operand used as a resource"
  | typedAccessToBuffer => "typed access to a raw or structured buffer"
  | bufferAccessToTyped => "raw or structured access to a typed resource"
  | samplerWithoutSlot => "sampler operand without a slot"
  | groupMemoryWithoutRegister => "g# operand without a register"
  | counterWithoutSlot => "counter operand without a slot"
  | sizeOfBuffer => "resinfo on a buffer"
  | interpolationSource => "interpolation source must be an input register"
  | noInterpolatedVariable register => s!"v{register} has no interpolated variable"
  | notAFloatInput register => s!"v{register} is not a float input"
  | inputPrimitive raw => s!"unsupported geometry input primitive {raw}"
  | outputTopology raw => s!"unsupported geometry output topology {raw}"
  | noInputPrimitive => "geometry shader without dcl_inputprimitive"
  | noOutputTopology => "geometry shader without dcl_outputtopology"
  | noBody => "missing body function"

end Fault

inductive CompileError
  | container (error : ContainerError)
  | program (error : ProgramError)
  | malformed (error : DecodeError)
  | unsupportedStage (stage : ShaderStage)
  | unsupportedInstruction (opcode : UInt32) (position : Nat) (stage : ShaderStage)
  | fault (fault : Fault)
  | slotOutOfRange (slotClass : BindingClass) (slot : UInt32)
  | builder (error : Spirv.BuildError)
deriving Repr

namespace CompileError

def ofBinding : BindingError → CompileError
  | .slotOutOfRange slotClass slot => slotOutOfRange slotClass slot
  | .unsupportedStage stage => unsupportedStage stage

theorem ofBinding_ne_builder (e : BindingError) (b : Spirv.BuildError) :
    ofBinding e ≠ builder b := by
  cases e <;> intro h <;> cases h

def message : CompileError → String
  | container error => s!"DXBC container: {error.message}"
  | program error => s!"shader program: {error.message}"
  | malformed error => s!"malformed bytecode: {error.message}"
  | unsupportedStage stage => s!"unsupported shader stage {stage.name}"
  | unsupportedInstruction opcode position stage =>
    s!"unsupported instruction {Opcode.nameOf opcode} (opcode {opcode}) at dword {position} " ++
    s!"in {stage.name} shader"
  | fault f => s!"invalid translation state: {f.message}"
  | slotOutOfRange slotClass slot =>
    s!"{slotClass.registerLetter}{slot} is out of range (max {slotClass.maxSlots} slots)"
  | builder error => s!"SPIR-V module builder: {error.name}"

end CompileError

end ShaderLowering
