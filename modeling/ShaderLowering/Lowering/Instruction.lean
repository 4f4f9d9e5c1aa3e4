import ShaderLowering.Lowering.Arithmetic
import ShaderLowering.Lowering.Atomic
import ShaderLowering.Lowering.ControlFlow
import ShaderLowering.Lowering.Interpolation
import ShaderLowering.Lowering.Stage
import ShaderLowering.Lowering.Texture

/-!
Lowering one instruction: its family says which lowering applies. Declarations, data blocks and
the beginnings of hull shader phases stand outside of function bodies, all else inside.
-/

namespace ShaderLowering.Lower

open Spirv

/-- The register of a thread group memory declaration. -/
def groupMemoryRegister (inst : Instruction) : Emission UInt32 :=
  return ((← destination inst 0).index? 0).getD 0

/-- Structured thread group memory: stride times count, which has to fit into a word. -/
def lowerStructuredGroupMemory (inst : Instruction) (stride count : UInt32) : Emission Unit := do
  let reg ← groupMemoryRegister inst
  let length := stride.toNat / 4 * count.toNat
  if UInt32.size ≤ length then failWith (.groupMemoryOverflow reg stride count)
  declareGroupMemory reg stride length

/-- A declaration of registers or resources. Those without effect on the module are ignored. -/
def lowerRegisterDeclaration (inst : Instruction) (op : Opcode) : InterfaceStep Unit := do
  let imm (n : Nat) : UInt32 := inst.imm.getD n 0
  match op with
  | .dclTemps => declareTemps (imm 0).toNat
  | .dclIndexableTemp => declareIndexableTemp (imm 0) (imm 1)
  | .dclTgsmRaw =>
    let reg ← groupMemoryRegister inst
    declareGroupMemory reg 0 ((imm 0).toNat / 4)
  | .dclTgsmStructured => lowerStructuredGroupMemory inst (imm 0) (imm 1)
  | .dclInput | .dclInputSgv | .dclInputSiv | .dclInputPs | .dclInputPsSgv | .dclInputPsSiv =>
    lowerInputDeclaration inst
  | .dclOutput | .dclOutputSgv | .dclOutputSiv => lowerOutputDeclaration inst
  | .dclConstantBuffer => lowerConstantBufferDeclaration inst
  | .dclSampler => lowerSamplerDeclaration inst
  | .dclResource | .dclResourceRaw | .dclResourceStructured => lowerResourceDeclaration inst
  | .dclUavTyped | .dclUavRaw | .dclUavStructured => lowerUavDeclaration inst
  | .dclFunctionBody | .dclFunctionTable | .dclInterface => unsupported inst
  | _ => pure ()

def lowerDeclaration (inst : Instruction) : InterfaceStep Unit :=
  match inst.op? with
  | some op =>
    if op.isStageDeclaration then lowerStageDeclaration inst op
    else lowerRegisterDeclaration inst op
  | none => pure ()

/-- A block of data. Only immediate constants reach the module. -/
def lowerCustomData (inst : Instruction) : Emission Unit :=
  match inst.customData? with
  | some (.immediateConstantBuffer words) => lowerImmediateConstants words
  | _ => pure ()

/-- An instruction inside of a function body that does not direct control. -/
def lowerOperation (inst : Instruction) : Emission Unit :=
  match inst.family with
  | .noOperation => pure ()
  | .geometryEmit => lowerVertexOutput inst
  | .atomic => lowerAtomic inst
  | .atomicCounter => lowerCounter inst
  | .barrier => lowerBarrier inst
  | .bufferQuery => lowerBufferQuery inst
  | .bufferLoad => lowerBufferLoad inst
  | .bufferStore => lowerBufferStore inst
  | .interpolate => lowerInterpolation inst
  | .textureQuery => lowerSizeQuery inst
  | .textureQueryLod => lowerLodQuery inst
  | .textureQueryMs => lowerSampleCountQuery inst
  | .textureFetch => lowerFetch inst
  | .textureGather => lowerGather inst
  | .textureSample => lowerSample inst
  | .typedUavLoad => lowerTypedLoad inst
  | .typedUavStore => lowerTypedStore inst
  | .bitExtract | .bitInsert | .convertFloat16 | .vectorAlu | .vectorCmov | .vectorCmp
  | .vectorDeriv | .vectorDot | .vectorIdiv | .vectorImul | .vectorShift | .vectorSinCos =>
    lowerArithmetic inst
  | .declaration | .customData | .controlFlow | .hullShaderPhase | .float64
  | .textureQueryMsPos =>
    unsupported inst

/-- An instruction inside of a function body. -/
def lowerExecutable (inst : Instruction) : Lower Unit :=
  match inst.family with
  | .controlFlow => lowerControlFlow inst
  | _ => lowerOperation inst

/-- Lowers one instruction as its family says. -/
def lowerByFamily (inst : Instruction) : Lower Unit := do
  match inst.family with
  | .declaration => lowerDeclaration inst
  | .customData => lowerCustomData inst
  | .hullShaderPhase => lowerHullPhase inst
  | .float64 | .textureQueryMsPos => unsupported inst
  | _ =>
    unless (← get).inFunction do failWith (.outsideBody inst.name)
    lowerExecutable inst

/-- Lowers one instruction and remembers it as the last. -/
def lowerInstruction (inst : Instruction) : Lower Unit := do
  lowerByFamily inst
  modify fun s => { s with lastOpcode? := some inst.opcode }

end ShaderLowering.Lower
