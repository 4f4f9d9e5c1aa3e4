import ShaderLowering.Lowering.Hull
import ShaderLowering.Lowering.Interface

/-!
What is particular to a stage: the declarations for the stage as a whole, and the instructions by
which a geometry shader puts out vertices.
-/

namespace ShaderLowering

open Spirv (ExecutionMode)

/-- Input primitives of geometry shaders with the number of their vertices. -/
def inputPrimitive? : UInt32 → Option (ExecutionMode × Nat)
  | 1 => some (.inputPoints, 1)
  | 2 => some (.inputLines, 2)
  | 3 => some (.triangles, 3)
  | 6 => some (.inputLinesAdjacency, 4)
  | 7 => some (.inputTrianglesAdjacency, 6)
  | _ => none

def outputTopology? : UInt32 → Option ExecutionMode
  | 1 => some .outputPoints
  | 3 => some .outputLineStrip
  | 5 => some .outputTriangleStrip
  | _ => none

/-- The global flag that asks for depth and stencil tests before the pixel shader runs. -/
def earlyTestsFlag : UInt32 := 4

/-- The declarations for a stage as a whole. In stages they do not belong to they are ignored. -/
def Opcode.isStageDeclaration : Opcode → Bool
  | dclGlobalFlags | dclThreadGroup | dclGsInputPrimitive | dclGsOutputPrimitiveTopology
  | dclMaxOutputVertexCount | dclGsInstanceCount | dclStream | dclInputControlPointCount
  | dclOutputControlPointCount | dclTessDomain | dclTessPartitioning | dclTessOutputPrimitive
  | dclHsMaxTessfactor | dclHsForkPhaseInstanceCount | dclHsJoinPhaseInstanceCount => true
  | _ => false

/-- The extents of a thread group: those that are declared, at least one each, and the others as
they were. -/
def StageState.threadGroup (old : List UInt32) (declared : List UInt32) : List UInt32 :=
  (declared.take old.length).map (max · 1) ++ old.drop declared.length

namespace Lower

/-- A stream that is not the first is not supported. -/
def requireFirstStream (inst : Instruction) (stream? : Option UInt32) : Emission Unit := do
  if stream? ≠ some 0 then unsupported inst

/-- Declarations of geometry shaders. -/
def lowerGeometryDeclaration (inst : Instruction) (op : Opcode) (primitive? : Option ExecutionMode)
    (vertices : Nat) (topology? : Option ExecutionMode) (maxVertices instances : UInt32) :
    Emission Unit := do
  match op with
  | .dclStream => requireFirstStream inst (some ((inst.dst.head?.bind (·.index? 0)).getD 0))
  | .dclGsInputPrimitive =>
    let (primitive, vertices) ← orFault (inputPrimitive? inst.inputPrimitive)
      (.inputPrimitive inst.inputPrimitive)
    .setStage (.geometry (some primitive) vertices topology? maxVertices instances)
  | .dclGsOutputPrimitiveTopology =>
    let topology ← orFault (outputTopology? inst.outputTopology)
      (.outputTopology inst.outputTopology)
    .setStage (.geometry primitive? vertices (some topology) maxVertices instances)
  | .dclMaxOutputVertexCount =>
    .setStage (.geometry primitive? vertices topology? (inst.imm.headD 0) instances)
  | .dclGsInstanceCount =>
    .setStage (.geometry primitive? vertices topology? maxVertices (max (inst.imm.headD 0) 1))
  | _ => pure ()

/-- A declaration for the stage as a whole. -/
def lowerStageDeclaration (inst : Instruction) (op : Opcode) : Emission Unit := do
  match (← .state).stage, op with
  | .pixel depthMode? _, .dclGlobalFlags =>
    .setStage (.pixel depthMode? (inst.globalFlags &&& earlyTestsFlag ≠ 0))
  | _, .dclGlobalFlags => pure ()
  | .hull _, _ => lowerHullDeclaration inst
  | .geometry primitive? vertices topology? maxVertices instances, _ =>
    lowerGeometryDeclaration inst op primitive? vertices topology? maxVertices instances
  | .compute x y z, .dclThreadGroup =>
    match StageState.threadGroup [x, y, z] inst.imm with
    | [x, y, z] => .setStage (.compute x y z)
    | _ => pure ()
  | .domain _ domain?, .dclInputControlPointCount =>
    .setStage (.domain inst.controlPointCount.toNat domain?)
  | .domain points _, .dclTessDomain => .setStage (.domain points (tessDomain? inst.tessDomain))
  | _, _ => pure ()

/-- Which of the two things an opcode of a geometry shader does: put out a vertex, and end the
primitive. -/
def vertexOutput (op? : Option Opcode) : Bool × Bool :=
  match op? with
  | some .emit | some .emitStream => (true, false)
  | some .cut | some .cutStream => (false, true)
  | _ => (true, true)

def lowerVertexOutput (inst : Instruction) : Emission Unit := do
  if (← read).stage ≠ .geometry then failWith (.outsideStage inst.name .geometry)
  if let some stream := inst.dst.head? then requireFirstStream inst (stream.index? 0)
  let (emits, cuts) := vertexOutput inst.op?
  if emits then
    copyOutputs
    emit .emitVertex []
  if cuts then emit .endPrimitive []

end Lower

end ShaderLowering
