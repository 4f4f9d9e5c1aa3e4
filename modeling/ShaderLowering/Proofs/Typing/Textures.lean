import ShaderLowering.Lowering.Texture
import ShaderLowering.Lowering.Interpolation
import ShaderLowering.Proofs.Typing.Arithmetic
import ShaderLowering.Proofs.Typing.Resources

/-!
Sampling, fetching and querying textures is safe. A fetch reads the texels of a storage image only
where its operand is a writable view; all other accesses are of sampled images.
-/

namespace ShaderLowering

namespace Lower

variable {x : Shader} {v : VertexCounts} {m : Spirv.Module} {inst : Instruction}

@[grind ←]
theorem samplingOperands_safe (runs : x.Runs v inst) (dimension : ViewDimension) :
    Safe x v m (samplingOperands inst dimension).run := by
  refine .read_bind ?_
  extract_lets hasDerivatives
  refine .bind (immediateOffset?_routine _ _).safe fun constOffset? => ?_
  extract_lets plain levelZero
  have zero : Safe x v m levelZero.run := by grind -linarith
  split <;> grind -linarith

@[grind ←]
theorem gatherOperands_safe (runs : x.Runs v inst) (hasOffset : Bool) (dimension : ViewDimension) :
    Safe x v m (gatherOperands inst hasOffset dimension).run := by
  unfold gatherOperands
  grind -linarith

theorem lowerSample_safe (runs : x.Runs v inst) : Safe x v m (lowerSample inst).run := by
  refine .destination runs fun op out => .source runs fun resourceOp _ => ?_
  refine .bind (typedImage_safe _) fun (resource, image) => .source runs fun address at_ => ?_
  refine .bind (readVector_safe at_ _ _) fun coord => .source runs fun sampler _ => ?_
  refine .bind (sampledImage_safe _ _ _) fun sampled => ?_
  refine .bind (samplingOperands_safe runs _) fun (operands, reference?) => ?_
  refine .bind (vectorType_safe _) fun typeId => .bind (emitValue_safe ?_ _ _) fun id =>
    writeResourceResult_safe out _ _ _
  split <;> rfl

theorem lowerGather_safe (runs : x.Runs v inst) : Safe x v m (lowerGather inst).run := by
  refine .destination runs fun op out => .source runs fun resourceOp _ => ?_
  refine .source runs fun samplerOp _ => .bind (typedImage_safe _) fun (resource, image) => ?_
  refine .source runs fun address at_ => .bind (readVector_safe at_ _ _) fun coord => ?_
  refine .bind (sampledImage_safe _ _ _) fun sampled => ?_
  refine .bind (gatherOperands_safe runs _ _) fun operands => ?_
  have rest {opcode : Spirv.Op} (free : opcode.isFree = true) (selector : Spirv.Id)
      (scalar : ScalarType) : Safe x v m (do
        let typeId ← vectorType (.four scalar)
        let id ← emitValue opcode typeId
          (.id sampled :: .id coord.id :: .id selector :: operands.args)
        writeResourceResult op resourceOp ⟨.four scalar, id⟩ false : Emission Unit).run :=
    .bind (vectorType_safe _) fun _ => .bind (emitValue_safe free _ _) fun _ =>
      writeResourceResult_safe out _ _ _
  refine .ite ?_ ?_
  · exact .source runs fun reference at_ => .bind (readScalar_safe at_ _) fun _ =>
      Yields.pureBind (rest rfl _ _)
  · exact .bind (constantU32_safe _) fun _ => Yields.pureBind (rest rfl _ _)

@[grind ←]
theorem fetchOperands_safe (runs : x.Runs v inst) (resource : Resource) (image : ImageType)
    (address : Value) (loaded : Spirv.Id) :
    Safe x v m (fetchOperands inst resource image address loaded).run := by
  unfold fetchOperands
  grind -linarith

theorem lowerFetch_safe (runs : x.Runs v inst) (family : inst.family = .textureFetch) :
    Safe x v m (lowerFetch inst).run := by
  refine Yields.destination runs fun op _ out => .source runs fun resourceOp view _ => ?_
  have view : inst.view? = some resourceOp := by rw [Instruction.view?, family, view]
  refine .bind (typedImage_yields resourceOp) fun (resource, image) n₁ _ viewed => ?_
  refine .source runs fun addressOp _ at_ => .after (readOperand_safe at_ _)
    fun address n₂ grows₂ => ?_
  refine .after (bitcast_routine .anything _).safe fun address n₃ grows₃ => ?_
  refine .after (swizzle_routine .anything _).safe fun coord n₄ grows₄ => ?_
  refine .bind (loadImage_yields resource image) fun loaded n₅ grows₅ is => ?_
  refine .after (vectorType_safe _) fun typeId n₆ grows₆ => ?_
  have before := ((grows₂.trans grows₃).trans grows₄).trans grows₅
  refine .ite (fun storage => ?_) fun _ => ?_
  · have known := viewed.mono (before.trans grows₆)
    have views (storage : image.isStorage = true) :
        x.Views n₆ [.textureFetch, .typedUavLoad] image :=
      known.views runs.1.mem (by simp [family]) view (known.isWritable storage)
    refine .after (imageRead_safe ?_ views typeId _)
      fun id _ _ => writeResourceResult_safe out _ _ _
    obtain ⟨type, typed, image⟩ := is
    exact ⟨type, typed.mono grows₆, image.mono grows₆⟩
  · refine .after (fetchOperands_safe runs _ _ _ _) fun operands n₇ _ => ?_
    exact .after (emitValue_safe rfl _ _) fun id _ _ => writeResourceResult_safe out _ _ _

theorem lowerSizeQuery_safe (runs : x.Runs v inst) : Safe x v m (lowerSizeQuery inst).run := by
  refine .destination runs fun op out => .source runs fun resourceOp _ => ?_
  refine .bind (typedImage_safe _) fun (resource, image) => ?_
  refine .ite Yields.failBind (.bind (requireCapability_safe _) fun _ => ?_)
  refine .source runs fun level at_ => .bind (readScalar_safe at_ _) fun mip => ?_
  refine .bind (loadImage_safe _ _) fun loaded =>
    .bind (imageSize_routine _ .anything .anything _).safe fun _ => ?_
  refine .bind (constant_safe _ _) fun filler => ?_
  refine .bind (.mapM (fun c => .bind (extract_routine .anything _).safe fun _ => .pure _) _)
    fun parts => ?_
  refine .bind (compose_routine _ .anything).safe fun value => ?_
  grind -linarith

theorem lowerSampleCountQuery_safe (runs : x.Runs v inst) :
    Safe x v m (lowerSampleCountQuery inst).run := by
  refine .destination runs fun op out => .source runs fun resourceOp _ => ?_
  extract_lets write count query
  have write_safe (value : Value) : Safe x v m (write value).run :=
    writeResourceResult_safe out _ _ _
  have count_safe (samples : Spirv.Id) : Safe x v m (count samples).run := by
    refine .bind (constant_safe _ _) fun filler => .bind (compose_routine _ .anything).safe
      fun value => ?_
    exact .choose (integersToFloats_routine .anything).safe (bitcast_routine .anything _).safe
      write_safe
  have query_safe : Safe x v m (query ()).run := by
    refine .bind (typedImage_safe _) fun (resource, image) => ?_
    refine .ite ?_ (.bind (constant_safe _ _) count_safe)
    refine .bind (requireCapability_safe _) fun _ => .bind (loadImage_safe _ _) fun loaded => ?_
    exact .bind (scalarType_safe _) fun int => .bind (emitValue_safe rfl _ _) count_safe
  exact Yields.optional (unsupported_safe _) fun n grows => query_safe.grow grows

theorem lowerLodQuery_safe (runs : x.Runs v inst) : Safe x v m (lowerLodQuery inst).run := by
  refine .read_bind (.ite Yields.failBind (.destination runs fun op out => ?_))
  refine .source runs fun resourceOp _ => ?_
  refine .bind (typedImage_safe _) fun (resource, image) => .source runs fun address at_ => ?_
  refine .bind (readVector_safe at_ _ _) fun coord => .source runs fun sampler _ => ?_
  refine .bind (sampledImage_safe _ _ _) fun sampled => .bind (requireCapability_safe _) fun _ => ?_
  refine .bind (operate_routine rfl _ .anything).safe fun pair => ?_
  exact .bind (padToFour_routine .anything).safe fun value => writeResourceResult_safe out _ _ _

@[grind ←]
theorem interpolatedInput_safe (op : Operand) : Safe x v m (interpolatedInput op).run := by
  unfold interpolatedInput
  grind -linarith

@[grind ←]
theorem interpolator_safe (runs : x.Runs v inst) : Safe x v m (interpolator inst).run := by
  unfold interpolator
  split
  · exact .pure _
  · exact .source runs fun op names => .bind (readScalar_safe names _) fun sample => .pure _
  · refine .source runs fun op names => .bind (readVector_safe names _ _) fun offset => ?_
    refine .bind (operate_routine rfl _ .anything).safe fun offset => ?_
    refine .bind (splat_routine _ _ _).safe fun unit => ?_
    exact .bind (operate_routine rfl _ .anything).safe fun offset => .pure _

theorem lowerInterpolation_safe (runs : x.Runs v inst) :
    Safe x v m (lowerInterpolation inst).run := by
  refine .read_bind (.ite Yields.failBind (.destination runs fun op out => ?_))
  refine .source runs fun input _ => .bind (interpolatedInput_safe _) fun location => ?_
  refine .bind (requireCapability_safe _) fun _ => ?_
  refine .bind (interpolator_safe runs) fun (function, args) => ?_
  grind -linarith

end Lower

end ShaderLowering
