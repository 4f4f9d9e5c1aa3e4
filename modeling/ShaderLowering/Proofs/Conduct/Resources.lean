import ShaderLowering.Lowering.Atomic
import ShaderLowering.Lowering.Interpolation
import ShaderLowering.Lowering.Texture
import ShaderLowering.Proofs.Conduct.Computing
import ShaderLowering.Proofs.Conduct.Operands
import ShaderLowering.Proofs.Conduct.Values

/-!
Resources and the access to them. The variable of a resource is decorated where it is declared, and
access to resources marks nothing.
-/

namespace ShaderLowering.Lower

open Spirv

variable {ok : CompileError → Prop} {inst : Instruction}

theorem bufferSources_neat {isStructured : Bool}
    (given : Equipped ok inst 1 (if isStructured then 3 else 2)) :
    Neat ok [] (bufferSources inst isStructured) := by
  have src := given.src
  unfold bufferSources
  cases isStructured <;> grind -linarith

@[grind ←]
theorem requireStorageBuffers_neat : Neat ok [] requireStorageBuffers :=
  requireExtensionBefore_neat _ _ _

@[grind ←]
theorem requireDimension_neat (shape : ViewShape)
    (oneDimensional buffer cubeArray : Capability) :
    Neat ok [] (requireDimension shape oneDimensional buffer cubeArray) := by
  unfold requireDimension
  split
  case h_4 => exact .pure ()
  all_goals exact requireCapability_neat _

@[grind ←]
theorem storageFormat_neat (access : UavAccess) (declared : ScalarType) :
    Neat ok [] (storageFormat access declared) := by
  unfold storageFormat
  grind -linarith

theorem lowerImmediateConstants_neat (words : List UInt32) :
    Neat ok [] (lowerImmediateConstants words) := by
  refine .state_bind (fun s => .ite (.pure _) ?_) fun _ => rfl
  dsimp only
  refine .bind (.mapM (fun _ => constantVector_neat _ _) _) fun elements => ?_
  refine .bind (vectorType_neat _) fun element => .bind (arrayOf_neat _ _) fun type => ?_
  refine .bind (constantComposite_neat _ _) fun initial => ?_
  refine .bind (newVariable_neat _ _ _) fun id => .bind (name_neat _ _) fun _ => ?_
  exact .note (fun _ _ => rfl) fun _ => rfl

@[grind ←]
theorem immediateOffset_neat (inst : Instruction) (dimension : ViewDimension) :
    Neat ok [] (immediateOffset? inst dimension) := by
  unfold immediateOffset?
  grind -linarith

section Declared

variable [Reporting ok]

@[grind ←]
theorem defineSlot_neat (slotClass : BindingClass) (slot : UInt32) (kind : ResourceKind)
    (dimension : ViewDimension) (stride : UInt32) :
    Neat ok [] (defineSlot slotClass slot kind dimension stride) := by
  refine .read_bind (fun env => ?_) fun _ => rfl
  dsimp only
  split
  · next e _ =>
    cases e with
    | slotOutOfRange => exact .fail (Reporting.slot _ _)
    | unsupportedStage => exact .fail (Reporting.stage _)
  · refine .state_bind (fun s => ?_) fun _ => rfl
    split
    · exact .optional (.failWith rfl) <|
        .bind (.note (fun _ _ => rfl) fun _ => rfl) fun _ => .pure _
    · exact .bind (.note (fun _ _ => rfl) fun _ => rfl) fun _ => .pure _

@[grind ←]
theorem declaredSlot_neat (op : Operand) (slotClass : BindingClass) :
    Neat ok [] (declaredSlot op slotClass) :=
  .bind (.orFault rfl) fun _ => .optional (.fail (Reporting.slot _ _)) (.pure _)

@[grind ←]
theorem checkRedeclared_neat (letter : String) (slot : UInt32) (first : Resource)
    (inst : Instruction) : Neat ok [] (checkRedeclared letter slot first inst) :=
  .ite (.failWith rfl) (.pure ())

theorem lowerConstantBufferDeclaration_neat (given : Equipped ok inst 0 1) :
    Neat ok [] (lowerConstantBufferDeclaration inst) := by
  refine .bind (given.src 0 (by decide)) fun op => .bind (declaredSlot_neat _ _) fun slot => ?_
  refine .state_bind (fun s => ?_) fun _ => rfl
  split
  · exact .ite (.failWith rfl) (.pure _)
  · refine .bind (uniformBlock_neat _) fun block => ?_
    refine (newVariable_makes _ _ _).bind [.descriptorSet, .binding] (by decide) (by decide)
      fun id => ?_
    refine .bind (name_neat _ _) fun _ => .bind (defineSlot_neat _ _ _ _ _) fun binding => ?_
    exact .bind_marks (decorateBinding_neat id binding) fun _ => .note (fun _ _ => rfl) fun _ => rfl

theorem lowerSamplerDeclaration_neat (given : Equipped ok inst 1 0) :
    Neat ok [] (lowerSamplerDeclaration inst) := by
  refine .bind (given.dst 0 (by decide)) fun op => .bind (declaredSlot_neat _ _) fun slot => ?_
  refine .state_bind (fun s => .ite (.pure _) ?_) fun _ => rfl
  refine .bind samplerType_neat fun type => ?_
  refine (newVariable_makes _ _ _).bind [.descriptorSet, .binding] (by decide) (by decide)
    fun id => ?_
  refine .bind (name_neat _ _) fun _ => .bind (defineSlot_neat _ _ _ _ _) fun binding => ?_
  exact .bind_marks (decorateBinding_neat id binding) fun _ => .note (fun _ _ => rfl) fun _ => rfl

theorem newTypedView_makes (slotClass : BindingClass) (slot : UInt32) (kind : ResourceKind)
    (dimension : ViewDimension) (image : ImageType) :
    Makes ok [] (·.1.variable_) (newTypedView slotClass slot kind dimension image) := by
  refine .after (imageType_neat _) fun type => ?_
  refine (newVariable_makes _ _ _).onward [] (by decide) (by decide) (fun id => ?_)
    fun id env s b t ran => ?_
  · exact .bind (defineSlot_neat _ _ _ _ _) fun _ => .pure _
  · obtain ⟨_, _, _, ran⟩ := Emission.run_bind_eq_ok.1 ran
    cases ran
    rfl

theorem newBuffer_makes (slotClass : BindingClass) (slot stride : UInt32) (isWritable : Bool) :
    Makes ok [.nonWritable] (·.1.variable_) (newBuffer slotClass slot stride isWritable) := by
  refine .after requireStorageBuffers_neat fun _ => .after storageBlock_neat fun block => ?_
  refine (newVariable_makes _ _ _).onward [.nonWritable] (by decide) (by decide) (fun id => ?_)
    fun id env s b t ran => ?_
  · exact .skip_marks (decorate_neat id .nonWritable _) <|
      .bind (defineSlot_neat _ _ _ _ _) fun _ => .pure _
  · have ends {s t : State} {b : Resource × Nat} {e : Emission Nat}
        (ran : (e >>= fun n => pure (⟨id, .buffer, none, stride, none⟩, n)).run env s =
          (.ok b, t)) : b.1.variable_ = id := by
      obtain ⟨_, _, _, ran⟩ := Emission.run_bind_eq_ok.1 ran
      cases ran
      rfl
    dsimp only at ran
    split at ran
    · exact ends ran
    · obtain ⟨_, _, _, ran⟩ := Emission.run_bind_eq_ok.1 ran
      exact ends ran

theorem newTexture_makes (inst : Instruction) (slot : UInt32) :
    Makes ok [.nonWritable] (·.1.variable_) (newTexture inst slot) := by
  unfold newTexture
  split
  · refine .after (.orFault rfl) fun shape => .after (requireDimension_neat _ _ _ _) fun _ => ?_
    exact (newTypedView_makes _ _ _ _ _).mono (List.nil_sublist _)
  · exact newBuffer_makes _ _ _ _

theorem lowerResourceDeclaration_neat (given : Equipped ok inst 1 0) :
    Neat ok [] (lowerResourceDeclaration inst) := by
  refine .bind (given.dst 0 (by decide)) fun op => .bind (declaredSlot_neat _ _) fun slot => ?_
  refine .state_bind (fun s => ?_) fun _ => rfl
  split
  · exact checkRedeclared_neat _ _ _ _
  · refine (newTexture_makes inst slot).bind [.descriptorSet, .binding] (by decide) (by decide)
      fun (resource, binding) => ?_
    refine .bind (name_neat _ _) fun _ => ?_
    exact .bind_marks (decorateBinding_neat _ binding) fun _ => .note (fun _ _ => rfl) fun _ => rfl

theorem newUav_makes (inst : Instruction) (slot : UInt32) :
    Makes ok [.nonWritable] (·.1.variable_) (newUav inst slot) := by
  unfold newUav
  split
  · refine .after (.orFault rfl) fun shape => .read_bind (fun env => ?_) fun _ => rfl
    refine .after (storageFormat_neat _ _) fun format => ?_
    refine .after (requireDimension_neat _ _ _ _) fun _ => ?_
    exact (newTypedView_makes _ _ _ _ _).mono (List.nil_sublist _)
  · exact newBuffer_makes _ _ _ _

theorem lowerUavDeclaration_neat (given : Equipped ok inst 1 0) :
    Neat ok [] (lowerUavDeclaration inst) := by
  refine .bind (given.dst 0 (by decide)) fun op => .bind (declaredSlot_neat _ _) fun slot => ?_
  refine .state_bind (fun s => ?_) fun _ => rfl
  split
  · exact checkRedeclared_neat _ _ _ _
  · refine (newUav_makes inst slot).bind [.coherent, .descriptorSet, .binding] (by decide)
      (by decide) fun (resource, binding) => ?_
    refine .optional_marks (decorate_neat _ .coherent _) ?_
    refine .bind (name_neat _ _) fun _ => ?_
    exact .bind_marks (decorateBinding_neat _ binding) fun _ => .note (fun _ _ => rfl) fun _ => rfl

@[grind ←]
theorem resource_neat (op : Operand) : Neat ok [] (resource op) := by
  unfold resource
  grind -linarith

@[grind ←]
theorem typedImage_neat (op : Operand) : Neat ok [] (typedImage op) := by
  unfold typedImage
  grind -linarith

@[grind ←]
theorem typedView_neat (op : Operand) : Neat ok [] (typedView? op) := by
  unfold typedView?
  grind -linarith

@[grind ←]
theorem dwordArray_neat (op : Operand) : Neat ok [] (dwordArray op) := by
  unfold dwordArray
  grind -linarith

@[grind ←]
theorem interpolatedInput_neat (op : Operand) : Neat ok [] (interpolatedInput op) := by
  unfold interpolatedInput
  grind -linarith

@[grind ←]
theorem uavCounter_neat (slot : UInt32) : Neat ok [] (uavCounter slot) := by
  refine .state_bind (fun s => .bind (.orFault rfl) fun resource => ?_) fun _ => rfl
  split
  · exact .pure _
  · refine .bind requireStorageBuffers_neat fun _ => .bind counterBlock_neat fun block => ?_
    refine (newVariable_makes _ _ _).bind [.descriptorSet, .binding] (by decide) (by decide)
      fun id => ?_
    refine .bind (name_neat _ _) fun _ => .bind (defineSlot_neat _ _ _ _ _) fun binding => ?_
    refine .bind_marks (decorateBinding_neat id binding) fun _ => ?_
    exact .bind (.note (fun _ _ => rfl) fun _ => rfl) fun _ => .pure id

end Declared

section Computed

variable [Refusing ok]

@[grind ←]
theorem loadImage_neat (resource : Resource) (image : ImageType) :
    Neat ok [] (loadImage resource image) := by
  unfold loadImage
  grind -linarith

@[grind ←]
theorem sampledImage_neat (resource : Resource) (image : ImageType) (sampler : Operand) :
    Neat ok [] (sampledImage resource image sampler) := by
  refine .bind (.orFault rfl) fun _ => .state_bind (fun _ => .bind (.orFault rfl) fun _ => ?_)
    fun _ => rfl
  grind -linarith

@[grind ←]
theorem writeResourceResult_neat (op resource : Operand) (value : Value)
    (isSaturated : Bool) : Neat ok [] (writeResourceResult op resource value isSaturated) := by
  unfold writeResourceResult
  grind -linarith

@[grind ←]
theorem dwordPointer_neat (array : DwordArray) (index : Id) :
    Neat ok [] (dwordPointer array index) := by
  unfold dwordPointer
  grind -linarith

@[grind ←]
theorem firstDword_neat (stride : UInt32) (element? : Option Operand) (offset : Operand) :
    Neat ok [] (firstDword stride element? offset) := by
  unfold firstDword
  grind -linarith

theorem lowerBufferLoad_neat
    (given : Equipped ok inst 1 (if inst.op? = some .ldStructured then 3 else 2)) :
    Neat ok [] (lowerBufferLoad inst) := by
  refine .bind (given.dst 0 (by decide)) fun _ => .bind (bufferSources_neat ?_) fun _ =>
    .bind (dwordArray_neat _) fun _ => .bind (firstDword_neat _ _ _) fun _ =>
    .bind (scalarType_neat _) fun _ => ?_
  · simpa using given
  · grind -linarith

theorem lowerBufferStore_neat
    (given : Equipped ok inst 1 (if inst.op? = some .storeStructured then 3 else 2)) :
    Neat ok [] (lowerBufferStore inst) := by
  refine .bind (given.dst 0 (by decide)) fun _ => .bind (bufferSources_neat ?_) fun _ =>
    .ite (.pure _) <| .bind (dwordArray_neat _) fun _ => .bind (firstDword_neat _ _ _) fun _ => ?_
  · simpa using given
  · refine .bind (readOperand_neat _ _) fun _ =>
      .bind (bitcast_routine .anything _).neat fun _ => ?_
    refine .bind (.forIn (fun part _ => ?_) _ _) fun _ => .pure _
    refine .bind (dwordAfter_routine .anything _).neat fun _ => ?_
    refine .bind (dwordPointer_neat _ _) fun _ =>
      .bind (extract_routine .anything _).neat fun _ => ?_
    exact .bind (storeTo_routine .anything .anything).neat fun _ => .pure _

theorem lowerTypedLoad_neat (given : Equipped ok inst 1 2) :
    Neat ok [] (lowerTypedLoad inst) := by
  refine .bind (given.dst 0 (by decide)) fun _ => .bind (given.src 1 (by decide)) fun _ => ?_
  refine .bind (typedImage_neat _) fun _ => .bind (given.src 0 (by decide)) fun _ => ?_
  refine .bind (readVector_neat _ _ _) fun _ => .bind (loadImage_neat _ _) fun _ => ?_
  have texel (image coord : Id) (type : VectorType) :
      Neat ok [] (operate .imageRead type [image, coord]) :=
    .bind (vectorType_neat _) fun _ => .bind (emitValue_neat _ _ rfl) fun _ => .pure _
  exact .bind (texel _ _ _) fun _ => writeResourceResult_neat _ _ _ _

theorem lowerTypedStore_neat (given : Equipped ok inst 1 2) :
    Neat ok [] (lowerTypedStore inst) := by
  refine .bind (given.dst 0 (by decide)) fun _ => .bind (typedImage_neat _) fun _ => ?_
  refine .bind (given.src 0 (by decide)) fun _ => .bind (readVector_neat _ _ _) fun _ => ?_
  refine .bind (given.src 1 (by decide)) fun _ => .bind (readOperand_neat _ _) fun _ => ?_
  grind -linarith

theorem lowerBufferQuery_neat (given : Equipped ok inst 1 1) :
    Neat ok [] (lowerBufferQuery inst) := by
  refine .bind (given.dst 0 (by decide)) fun _ => .bind (given.src 0 (by decide)) fun _ => ?_
  refine .bind (resource_neat _) fun resource => .bind (scalarType_neat _) fun word => ?_
  split
  · refine .bind (requireCapability_neat _) fun _ => .bind (loadImage_neat _ _) fun loaded => ?_
    grind -linarith
  · refine .bind (emitValue_neat _ _ rfl) fun dwords => .bind (constantU32_neat _) fun four => ?_
    grind -linarith

@[grind ←]
theorem atomicDword_neat (array : DwordArray) (address : Operand) :
    Neat ok [] (atomicDword array address) := by
  unfold atomicDword
  grind -linarith

@[grind ←]
theorem atomicTexel_neat (resource : Resource) (image : ImageType) (address : Operand) :
    Neat ok [] (atomicTexel resource image address) := by
  unfold atomicTexel
  grind -linarith

@[grind ←]
theorem atomicTarget_neat (op address : Operand) : Neat ok [] (atomicTarget op address) := by
  unfold atomicTarget
  grind -linarith

theorem lowerAtomic_neat
    (given : Equipped ok inst 1
      (if inst.op? = some .atomicCmpStore ∨ inst.op? = some .immAtomicCmpExch then 3 else 2)) :
    Neat ok [] (lowerAtomic inst) := by
  have third (compares : inst.op? = some .atomicCmpStore ∨ inst.op? = some .immAtomicCmpExch) :
      Neat ok [] (source inst 2) := by
    rw [if_pos compares] at given
    exact given.src 2 (by decide)
  unfold lowerAtomic
  extract_lets compares perform
  have perform_neat (out? : Option Operand) (op : Operand) : Neat ok [] (perform (out?, op)) := by
    refine .bind (given.src 0 (by split <;> decide)) fun _ => ?_
    refine .bind (atomicTarget_neat _ _) fun target => .bind (scalarType_neat _) fun type => ?_
    refine .bind (constant_neat _ _) fun scope => .bind (constant_neat _ _) fun semantics => ?_
    refine .bind (given.src 1 (by split <;> decide)) fun _ => ?_
    refine .bind (readScalar_neat _ _) fun first => ?_
    extract_lets finish
    have finish_neat (id : Id) : Neat ok [] (finish id) := by
      unfold finish
      split
      · exact writeOperand_neat _ _ _
      · exact .pure _
    split
    · next compares =>
      refine .bind (third compares) fun _ => .bind (readScalar_neat _ _) fun _ => ?_
      exact .bind (emitValue_neat _ _ rfl) finish_neat
    · split
      · next is =>
        obtain ⟨op, _, is⟩ := Option.bind_eq_some_iff.1 is
        have computes := atomicOp?_isRoutine is
        exact .bind (emitValue_neat _ _ (Op.isName_of_isRoutine computes)) finish_neat
      · exact .bind (.unsupported _) finish_neat
  -- With two destinations the value from before is written at the end, with one nothing is.
  by_cases two : inst.dst.length = 2
  · have both : Equipped ok inst 2 0 := .of_length (Nat.le_of_eq two.symm) (Nat.zero_le _)
    rw [if_pos two]
    exact .bind (both.dst 0 (by decide)) fun out => .bind (both.dst 1 (by decide)) fun op =>
      .bind (.pure _) fun _ => perform_neat _ _
  · rw [if_neg two]
    exact .bind (given.dst 0 (by decide)) fun op => .bind (.pure _) fun _ => perform_neat _ _

theorem lowerCounter_neat (given : Equipped ok inst 1 1) : Neat ok [] (lowerCounter inst) := by
  refine .bind (given.dst 0 (by decide)) fun _ => .bind (given.src 0 (by decide)) fun _ => ?_
  refine .bind (.orFault rfl) fun _ => .bind (uavCounter_neat _) fun _ => ?_
  refine .bind (scalarType_neat _) fun word => .bind (constantU32_neat _) fun member => ?_
  refine .bind (constantU32_neat _) fun one => .bind (pointerType_neat _ _) fun pointer => ?_
  refine .bind (emitValue_neat _ _ rfl) fun place => .bind (constant_neat _ _) fun scope => ?_
  grind -linarith

theorem lowerBarrier_neat (inst : Instruction) : Neat ok [] (lowerBarrier inst) := by
  unfold lowerBarrier
  grind -linarith

/-- Each way of sampling takes sources of its own, behind the three that all take. -/
theorem samplingOperands_neat (given : Provided ok inst)
    (dimension : ViewDimension) : Neat ok [] (samplingOperands inst dimension) := by
  refine .read_bind (fun _ => .bind (immediateOffset_neat _ _) fun _ => ?_) fun _ => rfl
  dsimp only
  split
  case h_6 => grind -linarith
  all_goals
    next found =>
    have given := given.equips found
    first
    | refine .optional (.failWith rfl) ?_
    | skip
    refine .bind (given.src 3 (by decide)) fun _ => ?_
    first
    | refine .bind (readVector_neat _ _ _) fun _ => .bind (given.src 4 (by decide)) fun _ => ?_
    | skip
    grind -linarith

theorem lowerSample_neat (given : Provided ok inst) (three : Equipped ok inst 1 3) :
    Neat ok [] (lowerSample inst) := by
  refine .bind (three.dst 0 (by decide)) fun _ => .bind (three.src 1 (by decide)) fun _ => ?_
  refine .bind (typedImage_neat _) fun _ => .bind (three.src 0 (by decide)) fun _ => ?_
  refine .bind (readVector_neat _ _ _) fun _ => .bind (three.src 2 (by decide)) fun _ => ?_
  refine .bind (sampledImage_neat _ _ _) fun _ => .bind (samplingOperands_neat given _) fun _ => ?_
  grind -linarith

theorem gatherOperands_neat (given : Equipped ok inst 1 2) (hasOffset : Bool)
    (dimension : ViewDimension) : Neat ok [] (gatherOperands inst hasOffset dimension) := by
  have src := given.src
  unfold gatherOperands
  grind -linarith

/-- An offset, then what is gathered from, then a value to compare with. -/
theorem lowerGather_neat
    (given : Equipped ok inst 1
      ((if inst.op? = some .gather4Po ∨ inst.op? = some .gather4PoC then 4 else 3) +
        if inst.op? = some .gather4C ∨ inst.op? = some .gather4PoC then 1 else 0)) :
    Neat ok [] (lowerGather inst) := by
  have two : Equipped ok inst 1 2 :=
    ⟨given.dst, fun n below => given.src n (by split_ifs <;> omega)⟩
  have src := given.src
  refine .bind (given.dst 0 (by decide)) fun _ => .bind (src _ (by grind)) fun _ => ?_
  refine .bind (src _ (by grind)) fun _ => .bind (typedImage_neat _) fun _ => ?_
  refine .bind (two.src 0 (by decide)) fun _ => .bind (readVector_neat _ _ _) fun _ => ?_
  refine .bind (sampledImage_neat _ _ _) fun _ => .bind (gatherOperands_neat two _ _) fun _ => ?_
  grind -linarith

theorem fetchOperands_neat (given : inst.op? = some .ldMs → Neat ok [] (source inst 2))
    (resource : Resource) (image : ImageType) (address : Value) (loaded : Id) :
    Neat ok [] (fetchOperands inst resource image address loaded) := by
  unfold fetchOperands
  grind -linarith

theorem lowerFetch_neat
    (given : Equipped ok inst 1 (if inst.op? = some .ldMs then 3 else 2)) :
    Neat ok [] (lowerFetch inst) := by
  have operands (resource : Resource) (image : ImageType) (address : Value) (loaded : Id) :
      Neat ok [] (fetchOperands inst resource image address loaded) :=
    fetchOperands_neat (fun multi => given.src 2 (by rw [if_pos multi]; decide)) _ _ _ _
  refine .bind (given.dst 0 (by decide)) fun op => ?_
  refine .bind (given.src 1 (by split <;> decide)) fun _ => ?_
  refine .bind (typedImage_neat _) fun _ => .bind (given.src 0 (by split <;> decide)) fun _ => ?_
  refine .bind (readOperand_neat _ _) fun _ => .bind (bitcast_routine .anything _).neat fun _ => ?_
  refine .bind (swizzle_routine .anything _).neat fun _ => .bind (loadImage_neat _ _) fun _ => ?_
  grind -linarith

theorem lowerSizeQuery_neat (given : Equipped ok inst 1 2) :
    Neat ok [] (lowerSizeQuery inst) := by
  refine .bind (given.dst 0 (by decide)) fun _ => .bind (given.src 1 (by decide)) fun _ => ?_
  refine .bind (typedImage_neat _) fun (resource, image) => .optional (.failWith rfl) ?_
  refine .bind (requireCapability_neat _) fun _ => .bind (given.src 0 (by decide)) fun _ => ?_
  refine .bind (readScalar_neat _ _) fun _ => .bind (loadImage_neat _ _) fun _ => ?_
  refine .bind (imageSize_routine _ .anything .anything _).neat fun _ => ?_
  refine .bind (constant_neat _ _) fun filler => ?_
  refine .bind (.mapM (fun _ => (extract_routine .anything _).neat.bind fun _ => .pure _) _)
    fun parts => .bind (compose_routine _ .anything).neat fun value => ?_
  grind -linarith

theorem lowerSampleCountQuery_neat (given : Equipped ok inst 1 1) :
    Neat ok [] (lowerSampleCountQuery inst) := by
  refine .bind (given.dst 0 (by decide)) fun _ => .bind (given.src 0 (by decide)) fun _ => ?_
  refine .optional (.unsupported _) <| .bind (typedImage_neat _) fun (resource, image) => ?_
  refine .ite (.bind (requireCapability_neat _) fun _ => .bind (loadImage_neat _ _) fun _ =>
    .bind (scalarType_neat _) fun _ => .bind (emitValue_neat _ _ rfl) fun _ => ?_)
    (.bind (constant_neat _ _) fun _ => ?_)
  all_goals
    refine .bind (constant_neat _ _) fun _ => .bind (compose_routine _ .anything).neat fun _ => ?_
    grind -linarith

theorem lowerLodQuery_neat (given : Equipped ok inst 1 3) : Neat ok [] (lowerLodQuery inst) := by
  refine .read_bind (fun _ => .optional (.failWith rfl) ?_) fun _ => rfl
  refine .bind (given.dst 0 (by decide)) fun _ => .bind (given.src 1 (by decide)) fun _ => ?_
  refine .bind (typedImage_neat _) fun _ => .bind (given.src 0 (by decide)) fun _ => ?_
  refine .bind (readVector_neat _ _ _) fun _ => .bind (given.src 2 (by decide)) fun _ => ?_
  refine .bind (sampledImage_neat _ _ _) fun _ => .bind (requireCapability_neat _) fun _ => ?_
  refine .bind (operate_routine rfl _ .anything).neat fun _ => ?_
  exact .bind (padToFour_routine .anything).neat fun _ => writeResourceResult_neat _ _ _ _

theorem interpolator_neat
    (given : inst.op? ≠ some .evalCentroid → Neat ok [] (source inst 1)) :
    Neat ok [] (interpolator inst) := by
  unfold interpolator
  split
  · exact .pure _
  · next is =>
    refine .bind (given (by simp [is])) fun _ => .bind (readScalar_neat _ _) fun _ => .pure _
  · next other _ =>
    refine .bind (given other) fun _ => .bind (readVector_neat _ _ _) fun _ => ?_
    refine .bind (operate_routine rfl _ .anything).neat fun _ => ?_
    refine .bind (splat_routine _ _ _).neat fun _ => ?_
    exact .bind (operate_routine rfl _ .anything).neat fun _ => .pure _

theorem lowerInterpolation_neat
    (given : Equipped ok inst 1 (if inst.op? = some .evalCentroid then 1 else 2)) :
    Neat ok [] (lowerInterpolation inst) := by
  refine .read_bind (fun _ => .optional (.failWith rfl) ?_) fun _ => rfl
  refine .bind (given.dst 0 (by decide)) fun op => ?_
  refine .bind (given.src 0 (by split <;> decide)) fun _ => ?_
  refine .bind (interpolatedInput_neat _) fun _ => .bind (requireCapability_neat _) fun _ => ?_
  refine .bind (interpolator_neat fun more => given.src 1 (by rw [if_neg more]; decide)) fun _ => ?_
  grind -linarith

end Computed

end ShaderLowering.Lower
