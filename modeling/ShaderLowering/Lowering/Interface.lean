import ShaderLowering.Artifact
import ShaderLowering.Lowering.Operand

/-!
The stage interface. A declared register travels in a location variable, in built-ins, or split
between them: a component goes through a built-in if the stage routes its system value there, and
through the location variable otherwise. This module declares registers, and at the ends of the
program copies between the interface and the private register arrays.
-/

namespace ShaderLowering

/-- The four interfaces of a stage. -/
inductive Side
  | input
  | output
  | patchInput
  | patchOutput
deriving DecidableEq, Repr

namespace Side

def storage : Side → Spirv.StorageClass
  | input | patchInput => .input
  | output | patchOutput => .output

def isPatch : Side → Bool
  | patchInput | patchOutput => true
  | _ => false

/-- What the debug names of its variables start with. -/
def label : Side → String
  | input => "in"
  | output => "out"
  | patchInput => "patch_in"
  | patchOutput => "patch_out"

end Side

/-- The first location of per-patch variables. -/
def patchLocationBase : UInt32 := 32

def ScalarType.ofComponent : ComponentType → ScalarType
  | .uint32 => u32
  | .sint32 => i32
  | .float32 | .unknown => f32

/-- Whether a stage carries a system value of one of its interfaces in a built-in. -/
def routesToBuiltin (stage : ShaderStage) (side : Side) (value : SystemValue) : Bool :=
  if side.isPatch then value.tessLevel?.isSome
  else
    match stage, side with
    | .vertex, .input =>
      match value with
      | .vertexId | .instanceId => true
      | _ => false
    | .pixel, .input =>
      match value with
      | .position | .isFrontFace | .sampleIndex | .primitiveId | .renderTargetArrayIndex
      | .viewportArrayIndex | .clipDistance | .cullDistance => true
      | _ => false
    | .geometry, .input | .hull, .input =>
      match value with
      | .position | .clipDistance | .cullDistance | .primitiveId => true
      | _ => false
    | .vertex, .output | .domain, .output | .geometry, .output =>
      match value with
      | .position | .clipDistance | .cullDistance | .renderTargetArrayIndex
      | .viewportArrayIndex => true
      | _ => false
    | _, _ => false

/-- Adds what a declaration says of a register. -/
def InterfaceRegister.declare (r : InterfaceRegister) (mask : WriteMask)
    (values : List (WriteMask × SystemValue)) : InterfaceRegister :=
  { r with
    mask := r.mask ||| mask
    systemValues := values.foldl (fun acc p => if acc.contains p then acc else acc ++ [p])
      r.systemValues }

namespace Lower

open Spirv

def signatureOf (side : Side) : Emission Signature := do
  let env ← read
  return match side with
    | .input => env.inputs
    | .output => env.outputs
    | .patchInput | .patchOutput => env.patch

def registersOf (side : Side) : Emission (Table InterfaceRegister) := do
  let s ← .state
  return match side with
    | .input => s.inputs
    | .output => s.outputs
    | .patchInput => s.patchInputs
    | .patchOutput => s.patchOutputs

def register (side : Side) (reg : UInt32) : Emission InterfaceRegister :=
  return ((← registersOf side).find? reg).getD .empty

def setRegister (side : Side) (reg : UInt32) (r : InterfaceRegister) : InterfaceStep Unit :=
  match side with
  | .input => .note fun s => { s with inputs := s.inputs.insert reg r }
  | .output => .note fun s => { s with outputs := s.outputs.insert reg r }
  | .patchInput => .note fun s => { s with patchInputs := s.patchInputs.insert reg r }
  | .patchOutput => .note fun s => { s with patchOutputs := s.patchOutputs.insert reg r }

/-- Decorates a pixel input with the way it is interpolated. Integers are never interpolated. -/
def decorateInterpolation (id : Id) (component : ComponentType) (mode : Interpolation) :
    Emission Unit := do
  if mode.isFlat ∨ component = .uint32 ∨ component = .sint32 then
    decorate id .flat []
  else
    if mode.isNoPerspective then decorate id .noPerspective []
    if mode.isCentroid then decorate id .centroid []
    if mode.isSample then
      decorate id .sample []
      requireCapability .sampleRateShading

/-- Declares the location variable of a register. The signature's interpolation comes before the
declaration's. -/
def newLocation (side : Side) (reg : UInt32) (declared : Interpolation) :
    Emission LocationVariable := do
  let stage := (← read).stage
  let signature ← signatureOf side
  let component := signature.componentType reg
  let element? := signature.lookup? reg
  let scalar : ScalarType := match stage, side with
    | .vertex, .input | .pixel, .output => .ofComponent component
    | _, _ => .f32
  let vertices ← match stage, side with
    | .geometry, .input | .hull, .input | .domain, .input => inputVertexCount
    | .hull, .output => pure (← .state).stage.outputVertices
    | _, _ => pure 0
  let type := VectorType.four scalar
  let element ← vectorType type
  let pointee ← arrayOf element vertices
  let id ← newVariable pointee side.storage none
  if side.isPatch then
    decorate id .patch []
    decorate id .location [.word (patchLocationBase + reg)]
  else
    decorate id .location [.word reg]
  if stage = .pixel ∧ side = .input then
    let inSignature := (element?.map (·.interpolation)).getD .undefined
    decorateInterpolation id component
      (if inSignature = .undefined then declared else inSignature)
  name id <| match element? with
    | some e => s!"{side.label}_{e.name}{e.index}"
    | none => s!"{side.label}_{reg}"
  return { id, type, vertices }

/-- The components of a declared register that travel through built-ins. A system value given
with the declaration covers its whole mask; otherwise the signature says. -/
def routedValues (side : Side) (reg : UInt32) (mask : WriteMask) (value? : Option SystemValue) :
    Emission (List (WriteMask × SystemValue)) := do
  let stage := (← read).stage
  let fromSignature : Emission (List (WriteMask × SystemValue)) := do
    let elements := (← signatureOf side).elementsOn reg
    return elements.filterMap fun e =>
      let overlap : WriteMask := ⟨e.mask.bits &&& mask.bits⟩
      if !overlap.isEmpty && routesToBuiltin stage side e.systemValue then
        some (overlap, e.systemValue)
      else none
  match value? with
  | some value =>
    if value.isBuiltin then
      return if routesToBuiltin stage side value then [(mask, value)] else []
    else fromSignature
  | none => fromSignature

/-- Declares components of an interface register. The location variable is made as soon as there
is a component for it. -/
def declareRegister (side : Side) (reg : UInt32) (mask : WriteMask) (value? : Option SystemValue)
    (mode : Interpolation) : InterfaceStep Unit := do
  if maxInterfaceRegisters ≤ reg.toNat then failWith (.interfaceRegister reg)
  let values ← routedValues side reg mask value?
  let r := (← register side reg).declare mask values
  setRegister side reg r
  if r.location?.isNone ∧ ¬r.userMask.isEmpty then
    let location ← newLocation side reg mode
    setRegister side reg { r with location? := some location }

/-- The system value that a declaration of its kind names in its immediate. -/
def declaredValue? (inst : Instruction) : Option SystemValue :=
  if inst.op?.any (·.namesValue) then inst.imm.head?.map .ofCode else none

/-- How an input is interpolated by its declaration; only those of pixel shaders say so. -/
def declaredMode (inst : Instruction) : Interpolation :=
  match inst.op? with
  | some .dclInputPs | some .dclInputPsSgv | some .dclInputPsSiv => .ofCode inst.interpolation
  | _ => .undefined

def lowerInputDeclaration (inst : Instruction) : InterfaceStep Unit := do
  let some op := inst.dst.head? | failWith (.declarationWithoutRegister inst.name)
  match op.type with
  | .input | .inputControlPoint =>
    let reg ← orFault (op.indices.getLast?.bind Index.immediate?)
      (.declarationWithoutRegister "input declaration")
    declareRegister .input reg op.mask (declaredValue? inst) (declaredMode inst)
  | .inputPatchConstant =>
    if (← read).stage = .domain then
      let reg ← orFault (op.index? 0) (.declarationWithoutRegister "patch constant declaration")
      declareRegister .patchInput reg op.mask (declaredValue? inst) (declaredMode inst)
  | _ => pure ()

/-- The depth mode that writing a depth output asks for. -/
def depthMode (type : OperandType) : ExecutionMode :=
  match type with
  | .outputDepthGreaterEqual => .depthGreater
  | .outputDepthLessEqual => .depthLess
  | _ => .depthReplacing

/-- Lets a pixel shader write depth in a mode. -/
def setDepthMode (mode : ExecutionMode) : Emission Unit := do
  if let .pixel _ early := (← .state).stage then
    .setStage (.pixel (some mode) early)

def lowerOutputDeclaration (inst : Instruction) : InterfaceStep Unit := do
  let some op := inst.dst.head? | failWith (.declarationWithoutRegister inst.name)
  match op.type with
  | .output =>
    let reg ← orFault (op.index? 0) (.declarationWithoutRegister "output declaration")
    let side : Side :=
      if (← read).stage = .hull ∧ ¬(← Emission.state).stage.inControlPointPhase then .patchOutput
      else .output
    declareRegister side reg op.mask (declaredValue? inst) .undefined
  | .outputDepth | .outputDepthGreaterEqual | .outputDepthLessEqual =>
    setDepthMode (depthMode op.type)
  | _ => pure ()

/-- The vertices an arrayed variable is copied for; `none` stands for a variable without them. -/
def verticesOf (count : Nat) : List (Option Nat) :=
  if count = 0 then [none] else (List.range count).map some

/-- Writes a value to an input register of the private array, for one vertex or for all. -/
def writeInput (vertex? : Option Nat) (reg : UInt32) (mask : WriteMask) (value : Value) :
    Emission Unit := do
  let regId ← constant .u32 reg
  let value ← bitcast value .f32
  let vertices ← match vertex? with
    | some v => pure [some v]
    | none =>
      let count ← inputVertexCount
      pure (verticesOf count)
  for vertex? in vertices do
    let vertexId? ← vertex?.mapM constantU32
    let p ← inputPointer vertexId? regId
    storeMasked p value mask

/-- The value of a location variable for one vertex. -/
def loadLocation (location : LocationVariable) (vertex? : Option Nat) : Emission Value := do
  let vertexId? ← vertex?.mapM constantU32
  load (← chain location.type .input location.id vertexId?.toList)

/-- A draw parameter, which older versions have in an extension. -/
def loadDrawParameter (builtin : BuiltIn) : Emission Value := do
  requireCapability .drawParameters
  requireExtensionBefore 1 3 "SPV_KHR_shader_draw_parameters"
  loadBuiltin builtin none none

/-- Copies a built-in that has one value into an input register. -/
def copyBuiltin (builtin : BuiltIn) (reg : UInt32) (mask : WriteMask) : Emission Unit := do
  let value ← loadBuiltin builtin none none
  writeInput none reg mask value

/-- The position of a pixel. Its last component is the reciprocal of what shaders expect. -/
def copyFragCoord (reg : UInt32) (mask : WriteMask) : Emission Unit := do
  let coord ← loadBuiltin .fragCoord none none
  let float ← scalarType .f32
  let w ← extract coord 3
  let one ← constant .f32 floatOne
  let inverse ← emitValue .fDiv float [.id one, .id w.id]
  let vector ← vectorType float4
  let fixed ← emitValue .compositeInsert vector [.id inverse, .id coord.id, .word 3]
  let value ← selectMask ⟨float4, fixed⟩ mask
  writeInput none reg mask value

/-- The position of every vertex. -/
def copyPosition (reg : UInt32) (mask : WriteMask) : Emission Unit := do
  for vertex in List.range (max (← inputVertexCount) 1) do
    let index ← constantU32 vertex
    let position ← loadBuiltin .position (some index) none
    let value ← selectMask position mask
    let isArrayed := 0 < (← inputVertexCount)
    writeInput (if isArrayed then some vertex else none) reg mask value

/-- Copies an input system value into its register. Values without a built-in stay zero. -/
def copyInputValue (reg : UInt32) (mask : WriteMask) (value : SystemValue) : Emission Unit := do
  match value with
  | .position =>
    if (← read).stage = .pixel then copyFragCoord reg mask else copyPosition reg mask
  | .vertexId =>
    let index ← loadBuiltin .vertexIndex none none
    let value ←
      if (← read).options.subtractBaseVertex then
        let base ← loadDrawParameter .baseVertex
        let int ← scalarType .i32
        let id ← emitValue .iSub int [.id index.id, .id base.id]
        pure ⟨index.type, id⟩
      else pure index
    writeInput none reg mask value
  | .instanceId =>
    let index ← loadBuiltin .instanceIndex none none
    let base ← loadDrawParameter .baseInstance
    let int ← scalarType .i32
    let id ← emitValue .iSub int [.id index.id, .id base.id]
    writeInput none reg mask ⟨index.type, id⟩
  | .isFrontFace =>
    let facing ← loadBuiltin .frontFacing none none
    let value ← boolToMask facing
    writeInput none reg mask value
  | .sampleIndex => copyBuiltin .sampleId reg mask
  | .primitiveId =>
    if (← read).stage = .pixel then requireCapability .geometry
    copyBuiltin .primitiveId reg mask
  | .renderTargetArrayIndex =>
    requireCapability .geometry
    copyBuiltin .layer reg mask
  | .viewportArrayIndex =>
    requireCapability .multiViewport
    copyBuiltin .viewportIndex reg mask
  | _ => pure ()

/-- The clip or cull distance built-in with the number of its components on one side. -/
def distance (value : SystemValue) (counts : ClipCullCounts) : BuiltIn × Nat :=
  if value = .clipDistance then (.clipDistance, counts.clip) else (.cullDistance, counts.cull)

/-- The components of a layout with their numbers, counted through all registers, as far as the
numbers are below `count`. -/
def numbered (layout : List (UInt32 × WriteMask)) (count : Nat) :
    List (UInt32 × Nat × Nat) :=
  (layout.flatMap fun (reg, mask) => mask.components.map fun c => (reg, c)).zipIdx.filterMap
    fun ((reg, c), i) => if i < count then some (reg, c, i) else none

/-- Copies the clip or cull distances of declared registers into them. -/
def copyInputDistances (value : SystemValue) : Emission Unit := do
  let env ← read
  let (builtin, count) := distance value env.analysis.inputs
  if count = 0 ∨ ¬routesToBuiltin env.stage .input value then return
  for (reg, component, i) in numbered (env.inputs.layoutOf value) count do
    if (← .state).inputs.contains reg then
      let element ← constantU32 i
      for vertex? in verticesOf (← inputVertexCount) do
        let vertexId? ← vertex?.mapM constantU32
        let v ← loadBuiltin builtin vertexId? (some element)
        writeInput vertex? reg (.component component) v

/-- The built-in array that a tessellation level is an element of. -/
def levelBuiltin : TessLevel → BuiltIn
  | .outer => .tessLevelOuter
  | .inner => .tessLevelInner

/-- Copies one patch constant of a domain shader into the private array. -/
def copyPatchInput (reg : UInt32) (r : InterfaceRegister) : Emission Unit := do
  let regId ← constant .u32 reg
  if let some location := r.location? then
    let user := r.userMask
    let value ← loadLocation location none
    let value ← selectMask value user
    let p ← patchPointer regId
    storeMasked p value user
  for (mask, value) in r.systemValues do
    if let some (level, i) := value.tessLevel? then
      let element ← constantU32 i
      let v ← loadBuiltin (levelBuiltin level) none (some element)
      let p ← patchPointer regId
      storeMasked p v (.component (mask.first?.getD 0))

/-- Copies one input register into the private array. -/
def copyInput (reg : UInt32) (r : InterfaceRegister) : Emission Unit := do
  if let some location := r.location? then
    let user := r.userMask
    for vertex? in verticesOf location.vertices do
      let value ← loadLocation location vertex?
      let value ← selectMask value user
      writeInput vertex? reg user value
  for (mask, value) in r.systemValues do
    unless value.isClipCull do
      copyInputValue reg mask value

/-- Copies the interface inputs into the private arrays. -/
def copyInputs : Emission Unit := do
  for (reg, r) in (← .state).inputs.entries do
    copyInput reg r
  copyInputDistances .clipDistance
  copyInputDistances .cullDistance
  for (reg, r) in (← .state).patchInputs.entries do
    copyPatchInput reg r

/-- Declares what a layer or viewport output needs. -/
def requireLayerOutput (builtin : BuiltIn) : Emission Unit := do
  if (← read).stage = .geometry then
    requireCapability (if builtin = .layer then .geometry else .multiViewport)
  else
    requireCapability .shaderViewportIndexLayerEXT
    requireExtension "SPV_EXT_shader_viewport_index_layer"

/-- Writes a layer or viewport number. -/
def writeLayer (builtin : BuiltIn) (value : Value) (mask : WriteMask) : Emission Unit := do
  requireLayerOutput builtin
  let component ← extract value (mask.first?.getD 0)
  let p ← builtinPointer builtin .output none none
  storeMasked p component .x

/-- Writes a packed value to a location variable. -/
def writeLocation (location : LocationVariable) (value : Value) (mask : WriteMask) :
    Emission Unit := do
  let picked ← selectMask value mask
  let p ← chain location.type .output location.id []
  storeMasked p picked mask

/-- Copies one output register to the interface. -/
def copyOutput (reg : UInt32) (r : InterfaceRegister) : Emission Unit := do
  let regId ← constant .u32 reg
  let value ← load (← outputPointer regId)
  if let some location := r.location? then
    let typed ← bitcast value location.type.scalar
    writeLocation location typed r.userMask
  for (mask, systemValue) in r.systemValues do
    match systemValue with
    | .position =>
      let picked ← selectMask value mask
      let p ← builtinPointer .position .output none none
      storeMasked p picked mask
    | .renderTargetArrayIndex => writeLayer .layer value mask
    | .viewportArrayIndex => writeLayer .viewportIndex value mask
    | _ => pure ()

/-- Copies the clip or cull distances to their built-in. -/
def copyOutputDistances (value : SystemValue) : Emission Unit := do
  let env ← read
  let (builtin, count) := distance value env.analysis.outputs
  if count = 0 ∨ ¬routesToBuiltin env.stage .output value then return
  let layout := env.outputs.layoutOf value
  let components := numbered layout count
  let mut first := 0
  for (reg, mask) in layout do
    let regId ← constant .u32 reg
    let v ← load (← outputPointer regId)
    for (_, component, i) in (components.drop first).take mask.count do
      let part ← extract v component
      let element ← constantU32 i
      let p ← builtinPointer builtin .output none (some element)
      storeMasked p part .x
    first := first + mask.count

/-- Copies the private output array to the interface. -/
def copyOutputs : Emission Unit := do
  for (reg, r) in (← .state).outputs.entries do
    copyOutput reg r
  copyOutputDistances .clipDistance
  copyOutputDistances .cullDistance

/-- Copies one patch constant of a hull shader to the interface; tessellation factors are clamped
from above. -/
def copyPatchOutput (maxTessFactor : UInt32) (reg : UInt32) (r : InterfaceRegister) :
    Emission Unit := do
  let regId ← constant .u32 reg
  let value ← load (← patchPointer regId)
  if let some location := r.location? then
    writeLocation location value r.userMask
  for (mask, systemValue) in r.systemValues do
    if let some (level, i) := systemValue.tessLevel? then
      let factor ← extract value (mask.first?.getD 0)
      let greatest ← constant .f32 maxTessFactor
      let clamped ← extended .nMin factor.type [factor.id, greatest]
      let element ← constantU32 i
      let p ← builtinPointer (levelBuiltin level) .output none (some element)
      storeMasked p clamped .x

def copyPatchOutputs (maxTessFactor : UInt32) : Emission Unit := do
  for (reg, r) in (← .state).patchOutputs.entries do
    copyPatchOutput maxTessFactor reg r

/-- The registers of a signature, each once with the components of all its elements, in the order
of first mention. -/
def signatureRegisters (s : Signature) : List (UInt32 × WriteMask) :=
  s.elements.foldl
    (fun acc e =>
      if acc.any (·.1 = e.register) then
        acc.map fun (reg, mask) => (reg, if reg = e.register then mask ||| e.mask else mask)
      else acc ++ [(e.register, e.mask)]) []

/-- The location variable of a register, declared if need be for the components of `mask`. -/
def locationFor (side : Side) (reg : UInt32) (mask : WriteMask) :
    InterfaceStep LocationVariable := do
  match (← register side reg).location? with
  | some location => return location
  | none =>
    let location ← newLocation side reg .undefined
    let r ← register side reg
    setRegister side reg { r with mask := r.mask ||| mask, location? := some location }
    return location

/-- What a hull shader without a control-point phase does: every invocation copies its control
point from the inputs to the outputs, register by register. -/
def passControlPoints : InterfaceStep Unit := do
  let registers := signatureRegisters (← read).inputs
  let invocation ← invocationId
  for (reg, mask) in registers do
    if reg.toNat < maxInterfaceRegisters then
      let input ← locationFor .input reg mask
      let output ← locationFor .output reg mask
      let value ← load (← chain input.type .input input.id [invocation])
      let p ← chain output.type .output output.id [invocation]
      storeMasked p value .xyzw

/-- The bits of the registers that have a location variable. -/
def locationBits (t : Table InterfaceRegister) : UInt32 :=
  t.entries.foldl (fun acc (reg, r) => if r.location?.isSome then acc ||| 1 <<< reg else acc) 0

/-- What a signature says of the declared registers. -/
def describe (t : Table InterfaceRegister) (s : Signature) : List InterfaceEntry :=
  t.keys.flatMap fun reg =>
    (s.elementsOn reg).map fun e => ⟨e.register, e.mask, e.name, e.index, e.systemValue⟩

def interfaceSlots (env : Environment) (s : State) : InterfaceSlots :=
  { inputSlots := locationBits s.inputs
    outputSlots := locationBits s.outputs
    patchSlots := locationBits s.patchInputs ||| locationBits s.patchOutputs
    inputs := describe s.inputs env.inputs
    outputs := describe s.outputs env.outputs }

end Lower

end ShaderLowering
