import ShaderLowering.Lowering.Operand

/-!
Resources: their declarations, and the operands that name them. Typed views become images or texel
buffers, raw and structured ones storage buffers of dwords; each gets the binding of its register.
A repeated declaration of the same shape is ignored, and one of another shape is a fault.
-/

namespace ShaderLowering

open Spirv (Id)

/-- What a dimension number in a declaration stands for. -/
structure ViewShape where
  dimension : ViewDimension
  dim : Spirv.Dim
  isArrayed : Bool
  isMultisampled : Bool
deriving DecidableEq, Repr

def ViewShape.ofCode? : UInt32 → Option ViewShape
  | 1 => some ⟨.buffer, .buffer, false, false⟩
  | 2 => some ⟨.texture1D, .dim1D, false, false⟩
  | 3 => some ⟨.texture2D, .dim2D, false, false⟩
  | 4 => some ⟨.texture2DMs, .dim2D, false, true⟩
  | 5 => some ⟨.texture3D, .dim3D, false, false⟩
  | 6 => some ⟨.textureCube, .cube, false, false⟩
  | 7 => some ⟨.texture1DArray, .dim1D, true, false⟩
  | 8 => some ⟨.texture2DArray, .dim2D, true, false⟩
  | 9 => some ⟨.texture2DMsArray, .dim2D, true, true⟩
  | 10 => some ⟨.textureCubeArray, .cube, true, false⟩
  | _ => none

namespace ViewDimension

/-- Components of a texture coordinate, the array layer included. -/
def coordinates : ViewDimension → Nat
  | none | buffer | texture1D => 1
  | texture1DArray | texture2D | texture2DMs => 2
  | texture2DArray | texture2DMsArray | texture3D | textureCube => 3
  | textureCubeArray => 4

/-- Components of a texel offset. Buffers and cubes take none. -/
def offsets : ViewDimension → Nat
  | texture1D | texture1DArray => 1
  | texture2D | texture2DArray | texture2DMs | texture2DMsArray => 2
  | texture3D => 3
  | none | buffer | textureCube | textureCubeArray => 0

/-- Components of a coordinate without the array layer. -/
def gradients : ViewDimension → Nat
  | texture1D | texture1DArray => 1
  | texture3D | textureCube | textureCubeArray => 3
  | _ => 2

/-- Components of a size, the number of array layers included. -/
def sizes : ViewDimension → Nat
  | none | buffer | texture1D => 1
  | texture1DArray | texture2D | texture2DMs | textureCube => 2
  | _ => 3

end ViewDimension

/-- What a typed view returns, by the first of the return types in a declaration. -/
def ScalarType.ofReturnType (token : UInt32) : ScalarType :=
  match token &&& 0xf with
  | 3 => i32
  | 4 => u32
  | _ => f32

/-- The return types of a declaration that names none: floats. -/
def floatReturnType : UInt32 := 5

/-- The most four-component elements of a constant buffer. -/
def maxConstantBufferElements : Nat := 4096

/-- Words by fours, the last ones filled up with zeros. -/
def Words4.chunks : List UInt32 → List Words4
  | [] => []
  | [x] => [⟨x, 0, 0, 0⟩]
  | [x, y] => [⟨x, y, 0, 0⟩]
  | [x, y, z] => [⟨x, y, z, 0⟩]
  | x :: y :: z :: w :: rest => ⟨x, y, z, w⟩ :: chunks rest

namespace Lower

open Spirv

/-- Enters a register in the table of descriptors and gives its binding. A binding that is taken
has to agree in kind and dimension. -/
def defineSlot (slotClass : BindingClass) (slot : UInt32) (kind : ResourceKind)
    (dimension : ViewDimension) (stride : UInt32) : Emission Nat := do
  let stage := (← read).stage
  match bindingOf stage slotClass slot with
  | .error e => .fail (.ofBinding e) (CompileError.ofBinding_ne_builder e)
  | .ok binding =>
    let key := UInt32.ofNat binding
    let stages := StageMask.ofStage stage
    match (← .state).slots.find? key with
    | some existing =>
      if existing.kind ≠ kind ∨ existing.dimension ≠ dimension then
        failWith (.slotRedeclared slotClass slot kind dimension)
      let merged := { existing with stages := existing.stages.union stages }
      .note fun s => { s with slots := s.slots.insert key merged }
    | none =>
      .note fun s =>
        { s with
          slots := s.slots.insert key { slot, kind, dimension, stride, stages, binding } }
    return binding

/-- Storage buffers have their own storage class, which older versions have in an extension. -/
def requireStorageBuffers : Emission Unit :=
  requireExtensionBefore 1 3 "SPV_KHR_storage_buffer_storage_class"

/-- The register that a declaration names. -/
def declaredSlot (op : Operand) (slotClass : BindingClass) : Emission UInt32 := do
  let slot ← orFault (op.index? 0) (.declarationWithoutSlot op.type)
  if slotClass.maxSlots ≤ slot.toNat then .fail (.slotOutOfRange slotClass slot)
  return slot

/-- Whether a declaration is of a typed view. -/
def declaresTyped (inst : Instruction) : Bool :=
  inst.op? = some .dclResource || inst.op? = some .dclUavTyped

/-- Bytes per structure in a declaration of a structured buffer, else zero. -/
def declaredStride (inst : Instruction) : UInt32 :=
  if inst.op? = some .dclResourceStructured ∨ inst.op? = some .dclUavStructured then
    inst.imm.headD 0
  else 0

/-- Accepts a repeated declaration of a view if it agrees with the first. -/
def checkRedeclared (letter : String) (slot : UInt32) (first : Resource) (inst : Instruction) :
    Emission Unit := do
  let isTyped := declaresTyped inst
  let dimension :=
    if isTyped then (ViewShape.ofCode? inst.resourceDim).map (·.dimension) else some .buffer
  if isTyped ≠ first.image?.isSome ∨ dimension ≠ some first.dimension then
    failWith (.resourceRedeclared letter slot inst.name dimension first.dimension)

def lowerConstantBufferDeclaration (inst : Instruction) : Emission Unit := do
  let op ← source inst 0
  let slot ← declaredSlot op .constantBuffer
  let declared := (op.index? 1).elim maxConstantBufferElements (·.toNat)
  let size := max 1 (min declared maxConstantBufferElements)
  match (← .state).constantBuffers.find? slot with
  | some first =>
    if first.size ≠ size then failWith (.constantBufferRedeclared slot size first.size)
  | none =>
    let block ← uniformBlock size
    let id ← newVariable block .uniform none
    name id s!"cb{slot}"
    let binding ← defineSlot .constantBuffer slot .constantBuffer .none 0
    decorateBinding id binding
    .note fun s => { s with constantBuffers := s.constantBuffers.insert slot ⟨id, size⟩ }

def lowerSamplerDeclaration (inst : Instruction) : Emission Unit := do
  let slot ← declaredSlot (← destination inst 0) .sampler
  unless (← .state).samplers.contains slot do
    let type ← samplerType
    let id ← newVariable type .uniformConstant none
    name id s!"s{slot}"
    let binding ← defineSlot .sampler slot .sampler .none 0
    decorateBinding id binding
    .note fun s => { s with samplers := s.samplers.insert slot id }

/-- Declares the capability that an image needs for its dimension, if any. -/
def requireDimension (shape : ViewShape) (oneDimensional buffer cubeArray : Capability) :
    Emission Unit :=
  match shape.dim, shape.isArrayed with
  | .dim1D, _ => requireCapability oneDimensional
  | .buffer, _ => requireCapability buffer
  | .cube, true => requireCapability cubeArray
  | _, _ => pure ()

/-- Declares the variable of a typed view, with its binding. -/
def newTypedView (slotClass : BindingClass) (slot : UInt32) (kind : ResourceKind)
    (dimension : ViewDimension) (image : ImageType) : Emission (Resource × Nat) := do
  let type ← imageType image
  let id ← newVariable type .uniformConstant none
  let binding ← defineSlot slotClass slot kind dimension 0
  return (⟨id, dimension, some image, 0, none⟩, binding)

/-- Declares the variable of a raw or structured buffer, with its binding. -/
def newBuffer (slotClass : BindingClass) (slot stride : UInt32) (isWritable : Bool) :
    Emission (Resource × Nat) := do
  requireStorageBuffers
  let block ← storageBlock
  let id ← newVariable block .storageBuffer none
  unless isWritable do
    decorate id .nonWritable []
  let binding ← defineSlot slotClass slot .storageBuffer .buffer stride
  return (⟨id, .buffer, none, stride, none⟩, binding)

/-- The view that a shader resource declaration asks for. -/
def newTexture (inst : Instruction) (slot : UInt32) : Emission (Resource × Nat) := do
  if inst.op? = some .dclResource then
    let shape ← orFault (ViewShape.ofCode? inst.resourceDim)
      (.resourceDimension "t" slot inst.resourceDim)
    let image : ImageType :=
      { sampled := .ofReturnType (inst.imm.headD floatReturnType), dim := shape.dim
        isArrayed := shape.isArrayed, isMultisampled := shape.isMultisampled
        isStorage := false, format := .unknown }
    requireDimension shape .sampled1D .sampledBuffer .sampledCubeArray
    let kind : ResourceKind := if shape.dim = .buffer then .uniformTexelBuffer else .sampledImage
    newTypedView .shaderResource slot kind shape.dimension image
  else newBuffer .shaderResource slot (declaredStride inst) false

def lowerResourceDeclaration (inst : Instruction) : Emission Unit := do
  let slot ← declaredSlot (← destination inst 0) .shaderResource
  match (← .state).textures.find? slot with
  | some first => checkRedeclared "t" slot first inst
  | none =>
    let (resource, binding) ← newTexture inst slot
    name resource.variable_ s!"t{slot}"
    decorateBinding resource.variable_ binding
    .note fun s => { s with textures := s.textures.insert slot resource }

/-- The component type and format of a writable image. Atomics need a format, and it has to be one
of integers; any other access goes without. -/
def storageFormat (access : UavAccess) (declared : ScalarType) :
    Emission (ScalarType × ImageFormat) := do
  if access.atomic then
    return if declared = .i32 then (.i32, .r32i) else (.u32, .r32ui)
  else
    requireCapability .storageImageWriteWithoutFormat
    if access.typedLoad then requireCapability .storageImageReadWithoutFormat
    return (declared, .unknown)

/-- The view that an unordered access declaration asks for. It cannot be multisampled. -/
def newUav (inst : Instruction) (slot : UInt32) : Emission (Resource × Nat) := do
  if inst.op? = some .dclUavTyped then
    let shape ← orFault ((ViewShape.ofCode? inst.resourceDim).filter (!·.isMultisampled))
      (.resourceDimension "u" slot inst.resourceDim)
    let access := (← read).analysis.uav slot
    let (sampled, format) ← storageFormat access
      (.ofReturnType (inst.imm.headD floatReturnType))
    requireDimension shape .image1D .imageBuffer .imageCubeArray
    let image : ImageType :=
      { sampled, dim := shape.dim, isArrayed := shape.isArrayed
        isMultisampled := shape.isMultisampled, isStorage := true, format }
    let kind : ResourceKind := if shape.dim = .buffer then .storageTexelBuffer else .storageImage
    newTypedView .unorderedAccess slot kind shape.dimension image
  else newBuffer .unorderedAccess slot (declaredStride inst) true

def lowerUavDeclaration (inst : Instruction) : Emission Unit := do
  let slot ← declaredSlot (← destination inst 0) .unorderedAccess
  match (← .state).uavs.find? slot with
  | some first => checkRedeclared "u" slot first inst
  | none =>
    let (resource, binding) ← newUav inst slot
    if inst.isGloballyCoherent then decorate resource.variable_ .coherent []
    name resource.variable_ s!"u{slot}"
    decorateBinding resource.variable_ binding
    .note fun s => { s with uavs := s.uavs.insert slot resource }

/-- Makes the immediate constants a private array. A second block of them is ignored. -/
def lowerImmediateConstants (words : List UInt32) : Emission Unit := do
  if (← .state).immediateConstants?.isSome then return
  let chunks := Words4.chunks words
  let chunks := if chunks.isEmpty then [Words4.zero] else chunks
  let elements ← chunks.mapM fun chunk => constantVector .u32 chunk.toList
  let element ← vectorType (.four .u32)
  let type ← arrayOf element elements.length
  let initial ← constantComposite type elements
  let id ← newVariable type .priv (some initial)
  name id "icb"
  .note fun s => { s with immediateConstants? := some id }

/-- The view that an operand names. -/
def resource (op : Operand) : Emission Resource := do
  let slot ← orFault (op.index? 0) (.operandWithoutSlot op.type)
  match op.type with
  | .resource => orFault ((← .state).textures.find? slot) (.undeclared "t" slot)
  | .uav => orFault ((← .state).uavs.find? slot) (.undeclared "u" slot)
  | type => failWith (.notAResource type)

/-- The typed view that an operand names, with its image type. -/
def typedImage (op : Operand) : Emission (Resource × ImageType) := do
  let resource ← resource op
  let image ← orFault resource.image? .typedAccessToBuffer
  return (resource, image)

def loadImage (resource : Resource) (image : ImageType) : Emission Id := do
  let type ← imageType image
  loadFrom type resource.variable_

/-- An image joined with the sampler that an operand names. -/
def sampledImage (resource : Resource) (image : ImageType) (sampler : Operand) : Emission Id := do
  let slot ← orFault (sampler.index? 0) .samplerWithoutSlot
  let variable_ ← orFault ((← .state).samplers.find? slot) (.undeclared "s" slot)
  let imageTypeId ← imageType image
  let loaded ← loadFrom imageTypeId resource.variable_
  let samplerTypeId ← samplerType
  let loadedSampler ← loadFrom samplerTypeId variable_
  let type ← sampledImageType imageTypeId
  emitValue .sampledImage type [.id loaded, .id loadedSampler]

/-- Writes what was read from a resource: the swizzle of the resource operand says which component
goes to which of the destination. -/
def writeResourceResult (op resource : Operand) (value : Value) (isSaturated : Bool) :
    Emission Unit := do
  let value ← if value.type.count = 1 then extend value 4 else pure value
  let picked ← swizzle value (resource.swizzle.picked op.mask)
  writeOperand op picked isSaturated

end Lower

end ShaderLowering
