import ShaderLowering.Lowering.Resource

/-!
Reading and querying textures: sampling, gathering, fetching single texels, and asking for sizes,
sample counts and levels of detail. What a read takes besides the coordinate goes into a list of
optional image operands, in the order of their mask bits.
-/

namespace ShaderLowering

open Spirv (Id Arg)

/-- The optional operands of an image instruction. -/
structure ImageOperands where
  bias? : Option Id
  lod? : Option Id
  /-- Derivatives along x and along y. -/
  gradient? : Option (Id × Id)
  constOffset? : Option Id
  offset? : Option Id
  sample? : Option Id
deriving DecidableEq, Repr

namespace ImageOperands

def none : ImageOperands :=
  ⟨Option.none, Option.none, Option.none, Option.none, Option.none, Option.none⟩

/-- Each operand's mask bit and ids, by increasing bit. -/
def parts (a : ImageOperands) : List (UInt32 × List Id) :=
  [(1, a.bias?.toList), (2, a.lod?.toList),
    (4, a.gradient?.elim [] fun (dx, dy) => [dx, dy]), (8, a.constOffset?.toList),
    (16, a.offset?.toList), (64, a.sample?.toList)]

/-- The mask of the operands that are present, and their ids; nothing if there are none. -/
def args (a : ImageOperands) : List Arg :=
  let present := a.parts.filter fun (_, ids) => !ids.isEmpty
  if present.isEmpty then []
  else
    .word (present.foldl (fun mask (bit, _) => mask ||| bit) 0) ::
      present.flatMap fun (_, ids) => ids.map .id

/-- Whether the level is given rather than derived from neighbouring pixels. -/
def isExplicit (a : ImageOperands) : Bool :=
  a.lod?.isSome || a.gradient?.isSome

end ImageOperands

namespace Lower

open Spirv

/-- The texel offset in the instruction token, if it is not zero. -/
def immediateOffset? (inst : Instruction) (dimension : ViewDimension) : Emission (Option Id) := do
  let offsets := inst.sampleOffsets.toList.take dimension.offsets
  if offsets.all (· = 0) then return none
  let id ← constantVector .i32 (offsets.map .ofInt)
  return some id

/-- A level of detail clamped to the levels that the view has, where that is asked for. -/
def clampLevel (image lod : Id) : Emission Id := do
  unless (← read).options.clampLod do return lod
  requireCapability .imageQuery
  let int ← scalarType .i32
  let levels ← emitValue .imageQueryLevels int [.id image]
  let one ← constant .i32 1
  let last ← emitValue .iSub int [.id levels, .id one]
  let first ← constant .i32 0
  let clamped ← extended .sClamp (.single .i32) [lod, first, last]
  return clamped.id

/-- The operands that a sampling instruction adds, and the reference value that it compares with.
Where no derivatives exist, the level is zero unless the instruction gives one. -/
def samplingOperands (inst : Instruction) (dimension : ViewDimension) :
    Emission (ImageOperands × Option Id) := do
  let hasDerivatives := (← read).stage = .pixel
  let constOffset? ← immediateOffset? inst dimension
  let plain := { ImageOperands.none with constOffset? }
  let levelZero : Emission ImageOperands := do
    if hasDerivatives then return plain
    let lod ← constant .f32 0
    return { plain with lod? := some lod }
  match inst.op? with
  | some .sampleL =>
    let lod ← readScalar (← source inst 3) .f32
    return ({ plain with lod? := some lod }, none)
  | some .sampleB =>
    if ¬hasDerivatives then failWith (.outsideStage "sample_b" .pixel)
    let bias ← readScalar (← source inst 3) .f32
    return ({ plain with bias? := some bias }, none)
  | some .sampleD =>
    let dx ← readVector (← source inst 3) dimension.gradients .f32
    let dy ← readVector (← source inst 4) dimension.gradients .f32
    return ({ plain with gradient? := some (dx.id, dy.id) }, none)
  | some .sampleC =>
    let reference ← readScalar (← source inst 3) .f32
    return (← levelZero, some reference)
  | some .sampleCLz =>
    let reference ← readScalar (← source inst 3) .f32
    let lod ← constant .f32 0
    return ({ plain with lod? := some lod }, some reference)
  | _ => return (← levelZero, none)

def lowerSample (inst : Instruction) : Emission Unit := do
  let op ← destination inst 0
  let resourceOp ← source inst 1
  let (resource, image) ← typedImage resourceOp
  let coord ← readVector (← source inst 0) resource.dimension.coordinates .f32
  let sampled ← sampledImage resource image (← source inst 2)
  let (operands, reference?) ← samplingOperands inst resource.dimension
  let type : VectorType := if reference?.isSome then .single .f32 else .four image.sampled
  let typeId ← vectorType type
  let opcode : Op := match reference?.isSome, operands.isExplicit with
    | false, false => .imageSampleImplicitLod
    | false, true => .imageSampleExplicitLod
    | true, false => .imageSampleDrefImplicitLod
    | true, true => .imageSampleDrefExplicitLod
  let id ← emitValue opcode typeId
    (.id sampled :: .id coord.id :: reference?.toList.map .id ++ operands.args)
  writeResourceResult op resourceOp ⟨type, id⟩ inst.saturate

/-- The offset of a gather: a source operand where the opcode has one and the view takes offsets,
else the one in the token. -/
def gatherOperands (inst : Instruction) (hasOffset : Bool) (dimension : ViewDimension) :
    Emission ImageOperands := do
  if hasOffset ∧ 0 < dimension.offsets then
    let offset ← readVector (← source inst 1) dimension.offsets .i32
    requireCapability .imageGatherExtended
    return { ImageOperands.none with offset? := some offset.id }
  else
    let constOffset? ← immediateOffset? inst dimension
    return { ImageOperands.none with constOffset? }

/-- Gathers one component of the four texels around a coordinate. The sampler operand's swizzle
says which. -/
def lowerGather (inst : Instruction) : Emission Unit := do
  let hasOffset := inst.op? = some .gather4Po ∨ inst.op? = some .gather4PoC
  let compares := inst.op? = some .gather4C ∨ inst.op? = some .gather4PoC
  let base := if hasOffset then 1 else 0
  let op ← destination inst 0
  let resourceOp ← source inst (base + 1)
  let samplerOp ← source inst (base + 2)
  let (resource, image) ← typedImage resourceOp
  let coord ← readVector (← source inst 0) resource.dimension.coordinates .f32
  let sampled ← sampledImage resource image samplerOp
  let operands ← gatherOperands inst hasOffset resource.dimension
  let (opcode, selector, scalar) ←
    if compares then
      let reference ← readScalar (← source inst (base + 3)) .f32
      pure (Op.imageDrefGather, reference, ScalarType.f32)
    else
      let component ← constantU32 (samplerOp.swizzle.lane 0)
      pure (Op.imageGather, component, image.sampled)
  let typeId ← vectorType (.four scalar)
  let id ← emitValue opcode typeId
    (.id sampled :: .id coord.id :: .id selector :: operands.args)
  writeResourceResult op resourceOp ⟨.four scalar, id⟩ false

/-- The operands of a fetch: the sample or the level, and an offset. -/
def fetchOperands (inst : Instruction) (resource : Resource) (image : ImageType)
    (address : Value) (loaded : Id) : Emission ImageOperands := do
  let isBuffer := resource.dimension = .buffer
  let operands ←
    if inst.op? = some .ldMs then
      let sample ← readScalar (← source inst 2) .i32
      pure { ImageOperands.none with sample? := some sample }
    else if ¬isBuffer ∧ ¬image.isMultisampled then
      let lod ← extract address 3
      let lod ← clampLevel loaded lod.id
      pure { ImageOperands.none with lod? := some lod }
    else pure .none
  if isBuffer then return operands
  let constOffset? ← immediateOffset? inst resource.dimension
  return { operands with constOffset? }

/-- Fetches a texel by its integer coordinate; the level stands in the last component. -/
def lowerFetch (inst : Instruction) : Emission Unit := do
  let op ← destination inst 0
  let resourceOp ← source inst 1
  let (resource, image) ← typedImage resourceOp
  let address ← readOperand (← source inst 0) .xyzw
  let address ← bitcast address .i32
  let coord ← swizzle address (List.range resource.dimension.coordinates)
  let loaded ← loadImage resource image
  let type := VectorType.four image.sampled
  let typeId ← vectorType type
  let id ←
    if image.isStorage then emitValue .imageRead typeId [.id loaded, .id coord.id]
    else
      let operands ← fetchOperands inst resource image address loaded
      emitValue .imageFetch typeId (.id loaded :: .id coord.id :: operands.args)
  writeResourceResult op resourceOp ⟨type, id⟩ false

/-- One over each of the first `count` components; the others are left as they are. -/
def reciprocalSize (value : Value) (count : Nat) : Emission Value := do
  let float ← scalarType .f32
  let one ← constant .f32 floatOne
  let parts ← (List.range 4).mapM fun c => do
    let part ← extract value c
    if c < count then emitValue .fDiv float [.id one, .id part.id] else return part.id
  compose .f32 parts

/-- Four integers as floats. -/
def integersToFloats (value : Value) : Emission Value :=
  operate .convertSToF (.four .f32) [value.id]

/-- The size of an image and its number of levels; an image without levels has one. -/
def imageSize (image : ImageType) (loaded mip : Id) (type : VectorType) :
    Emission (Value × Id) := do
  let typeId ← vectorType type
  let int ← scalarType .i32
  if ¬image.isStorage ∧ ¬image.isMultisampled then
    let lod ← clampLevel loaded mip
    let size ← emitValue .imageQuerySizeLod typeId [.id loaded, .id lod]
    let levels ← emitValue .imageQueryLevels int [.id loaded]
    return (⟨type, size⟩, levels)
  else
    let size ← emitValue .imageQuerySize typeId [.id loaded]
    let levels ← constant .i32 1
    return (⟨type, size⟩, levels)

/-- The size of a texture in its first three components and the number of levels in the last. -/
def lowerSizeQuery (inst : Instruction) : Emission Unit := do
  let op ← destination inst 0
  let resourceOp ← source inst 1
  let (resource, image) ← typedImage resourceOp
  if resource.dimension = .buffer then failWith .sizeOfBuffer
  requireCapability .imageQuery
  let mip ← readScalar (← source inst 0) .i32
  let loaded ← loadImage resource image
  let count := resource.dimension.sizes
  let (size, levels) ← imageSize image loaded mip ⟨.i32, count⟩
  let filler ← constant .i32 0
  let parts ← (List.range count).mapM fun c => return (← extract size c).id
  let value ← compose .i32 (parts ++ List.replicate (3 - count) filler ++ [levels])
  let value ←
    if inst.queryReturnType = 2 then bitcast value .u32
    else
      let floats ← integersToFloats value
      if inst.queryReturnType = 1 then reciprocalSize floats count else pure floats
  writeResourceResult op resourceOp value inst.saturate

/-- The number of samples of a texture, in the first component. -/
def lowerSampleCountQuery (inst : Instruction) : Emission Unit := do
  let op ← destination inst 0
  let resourceOp ← source inst 0
  if resourceOp.type = .rasterizer then unsupported inst
  let (resource, image) ← typedImage resourceOp
  let samples ←
    if image.isMultisampled then
      requireCapability .imageQuery
      let loaded ← loadImage resource image
      let int ← scalarType .i32
      emitValue .imageQuerySamples int [.id loaded]
    else constant .i32 1
  let filler ← constant .i32 0
  let value ← compose .i32 [samples, filler, filler, filler]
  let value ←
    if inst.queryReturnType &&& 1 = 0 then integersToFloats value else bitcast value .u32
  writeResourceResult op resourceOp value inst.saturate

/-- The level of detail that sampling would use, clamped and unclamped. -/
def lowerLodQuery (inst : Instruction) : Emission Unit := do
  if (← read).stage ≠ .pixel then failWith (.outsideStage "lod" .pixel)
  let op ← destination inst 0
  let resourceOp ← source inst 1
  let (resource, image) ← typedImage resourceOp
  let coord ← readVector (← source inst 0) resource.dimension.gradients .f32
  let sampled ← sampledImage resource image (← source inst 2)
  requireCapability .imageQuery
  let pair ← operate .imageQueryLod ⟨.f32, 2⟩ [sampled, coord.id]
  let value ← padToFour pair
  writeResourceResult op resourceOp value false

end Lower

end ShaderLowering
