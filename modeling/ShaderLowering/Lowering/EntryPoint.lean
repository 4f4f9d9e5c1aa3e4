import ShaderLowering.Lowering.Stage

/-!
The entry point. It copies the interface in, runs the body, and copies the interface out; in a
hull shader it runs the control-point phase in every invocation, waits, and lets the first
invocation run the patch-constant phases. With it go the execution modes and the list of interface
variables.
-/

namespace ShaderLowering

open Spirv (ExecutionMode ExecutionModel)

def ShaderStage.executionModel : ShaderStage → ExecutionModel
  | vertex => .vertex
  | pixel => .fragment
  | geometry => .geometry
  | hull => .tessellationControl
  | domain => .tessellationEvaluation
  | compute | unknown _ => .gLCompute

namespace Lower

open Spirv

/-- Writes the entry function around its contents. -/
def entryFunction (contents : Lower Unit) : Lower Unit := do
  let entry := (← get).entryPoint
  let _ ← openFunction (some entry)
  beginFreshBlock
  contents
  ret
  endFunction

/-- Sets all thread group memory to zero and waits for the group. -/
def clearGroupMemory : Emission Unit := do
  let arrays := (← .state).groupMemory.values
  if arrays.isEmpty then return
  let word ← scalarType .u32
  for memory in arrays do
    let type ← arrayOf word memory.length
    let cleared ← constantNull type
    storeTo memory.variable_ cleared
  let workgroup ← constant .u32 Scope.workgroup.code
  let semantics ← constant .u32
    (MemorySemantics.acquireRelease ||| MemorySemantics.workgroupMemory).bits
  emit .controlBarrier [.id workgroup, .id workgroup, .id semantics]

/-- What the entry function of a stage with one body does. A geometry shader copies its outputs
with each vertex instead. -/
def runBody (body : Id) : Emission Unit := do
  let env ← read
  if env.stage = .compute ∧ env.options.zeroGroupMemory then clearGroupMemory
  copyInputs
  call body
  if env.stage ≠ .geometry then copyOutputs

/-- Whether the number of the running instance is below the number of instances. -/
def instanceLeft (phase : PatchPhase) (word bool : Id) : Emission Id := do
  let index ← loadFrom word phase.instanceId
  let count ← constant .u32 phase.instanceCount
  emitValue .uLessThan bool [.id index, .id count]

def nextInstance (phase : PatchPhase) (word : Id) : Emission Unit := do
  let index ← loadFrom word phase.instanceId
  let one ← constantU32 1
  let next ← emitValue .iAdd word [.id index, .id one]
  storeTo phase.instanceId next

/-- Runs a patch-constant phase in a loop over its instances. -/
def runInstances (phase : PatchPhase) : Lower Unit := do
  let word ← scalarType .u32
  let bool ← scalarType .bool
  let header ← fresh
  let check ← fresh
  let body ← fresh
  let continueLabel ← fresh
  let merge ← fresh
  branch header
  beginBlock header
  loopMerge merge continueLabel
  branch check
  beginBlock check
  let inRange ← instanceLeft phase word bool
  branchConditional inRange body merge
  beginBlock body
  call phase.function
  branch continueLabel
  beginBlock continueLabel
  nextInstance phase word
  branch header
  beginBlock merge

/-- Runs a patch-constant phase for each of its instances, in a loop if there are several. -/
def runPatchPhase (phase : PatchPhase) : Lower Unit := do
  let first ← constantU32 0
  storeTo phase.instanceId first
  if phase.instanceCount ≤ 1 then call phase.function else runInstances phase

/-- Makes the control points of all invocations visible to one another. -/
def waitForControlPoints : Emission Unit := do
  let workgroup ← constant .u32 Scope.workgroup.code
  let invocation ← constant .u32 Scope.invocation.code
  let semantics ← constant .u32 MemorySemantics.relaxed.bits
  emit .controlBarrier [.id workgroup, .id invocation, .id semantics]

def isFirstInvocation : Emission Id := do
  let bool ← scalarType .bool
  let invocation ← invocationId
  let first ← constantU32 0
  emitValue .iEqual bool [.id invocation, .id first]

/-- Runs a step in the first invocation only. -/
def inFirstInvocation (step : Lower Unit) : Lower Unit := do
  let isFirst ← isFirstInvocation
  let thenLabel ← fresh
  let endLabel ← fresh
  selectionMerge endLabel
  branchConditional isFirst thenLabel endLabel
  beginBlock thenLabel
  step
  branch endLabel
  beginBlock endLabel

def runControlPoints (h : HullState) : InterfaceStep Unit := do
  copyInputs
  match h.controlPoint? with
  | some function => call function
  | none => passControlPoints
  waitForControlPoints

def runPatchPhases (h : HullState) : Lower Unit := do
  for phase in h.fork ++ h.join do
    runPatchPhase phase
  copyPatchOutputs h.maxTessFactor

/-- What the entry function of a hull shader does. -/
def runPhases (h : HullState) : Lower Unit := do
  runControlPoints h
  inFirstInvocation (runPatchPhases h)

/-- The execution modes of the shader with their literals. -/
def executionModes : Emission (List (ExecutionMode × List UInt32)) := do
  match (← .state).stage with
  | .vertex => return []
  | .pixel depthMode? early =>
    let depth := match depthMode? with
      | none => []
      | some .depthReplacing => [(ExecutionMode.depthReplacing, [])]
      | some mode => [(.depthReplacing, []), (mode, [])]
    return (.originUpperLeft, []) :: depth ++ if early then [(.earlyFragmentTests, [])] else []
  | .compute x y z => return [(.localSize, [x, y, z])]
  | .geometry primitive? _ topology? maxVertices instances =>
    let primitive ← orFault primitive? .noInputPrimitive
    let topology ← orFault topology? .noOutputTopology
    return [(.invocations, [instances]), (primitive, []), (topology, []),
      (.outputVertices, [maxVertices])]
  | .domain _ domain? => return domain?.toList.map fun domain => (domain, [])
  | .hull h => return h.executionModes

def requireStage : Emission Unit := do
  match (← read).stage with
  | .geometry => requireCapability .geometry
  | .hull | .domain => requireCapability .tessellation
  | _ => pure ()

/-- Adds the entry point and its execution modes to the module. -/
def declareEntryPoint (modes : List (ExecutionMode × List UInt32)) : Emission Unit := do
  let env ← read
  let entry := (← .state).entryPoint
  let interface ← interfaceVariables
  let entryPoint : Instr := .plain .entryPoint
    (.word env.stage.executionModel.code :: .id entry :: .text env.options.entryPoint ::
      interface.map .id)
  let executionModes := modes.map fun (mode, literals) =>
    Instr.plain .executionMode (.id entry :: .word mode.code :: literals.map .word)
  .note fun s =>
    { s with
      builder.module.entryPoints := s.builder.module.entryPoints.push entryPoint
      builder.module.executionModes := s.builder.module.executionModes ++ executionModes }

/-- Adds what the stage and its entry point need outside of functions. -/
def announceEntryPoint : Emission Unit := do
  requireStage
  let modes ← executionModes
  declareEntryPoint modes

/-- Writes the entry function and declares it. -/
def lowerEntryPoint : Lower Unit := do
  match (← get).stage with
  | .hull h => entryFunction (runPhases h)
  | _ =>
    let body ← orFault (← get).body? .noBody
    entryFunction (runBody body)
  announceEntryPoint

end Lower

end ShaderLowering
