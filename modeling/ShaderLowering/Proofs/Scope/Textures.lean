import ShaderLowering.Proofs.Scope.Resources
import ShaderLowering.Proofs.Typing.Textures

/-!
Sampling, fetching, querying textures and interpolation refer to declared variables and to what
operands supply.
-/

namespace ShaderLowering

open Spirv (Id Instr Arg Op Builder)

instance : Refers ImageOperands where
  refers p a := Refers.refers p a.bias? ∧ Refers.refers p a.lod? ∧ Refers.refers p a.gradient? ∧
    Refers.refers p a.constOffset? ∧ Refers.refers p a.offset? ∧ Refers.refers p a.sample?
  mono h := .imp (Refers.mono h) <| .imp (Refers.mono h) <| .imp (Refers.mono h) <|
    .imp (Refers.mono h) <| .imp (Refers.mono h) (Refers.mono h)
  anything a := ⟨Refers.anything a.bias?, Refers.anything a.lod?, Refers.anything a.gradient?,
    Refers.anything a.constOffset?, Refers.anything a.offset?, Refers.anything a.sample?⟩

variable {H : Limits} {T : Allowance} {env : Environment} {b : Builder} {inst : Instruction}

@[simp, grind =]
theorem Known.imageOperands_iff {a : ImageOperands} :
    Known H b a ↔ Known H b a.bias? ∧ Known H b a.lod? ∧ Known H b a.gradient? ∧
      Known H b a.constOffset? ∧ Known H b a.offset? ∧ Known H b a.sample? := Iff.rfl

/-- The arguments that optional operands become. -/
@[grind ←]
theorem Known.imageArgs {a : ImageOperands} (known : Known H b a) : Known H b a.args := by
  have parts : ∀ part ∈ a.parts, Known H b part.2 := by
    obtain ⟨bias, lod, gradient, constOffset, offset, sample⟩ := known
    simp only [ImageOperands.parts, List.forall_mem_cons]
    refine ⟨Given.toList_iff.2 bias, Given.toList_iff.2 lod, ?_, Given.toList_iff.2 constOffset,
      Given.toList_iff.2 offset, Given.toList_iff.2 sample, nofun⟩
    cases is : a.gradient? with
    | none => exact Given.nil_iff.2 trivial
    | some pair =>
      obtain ⟨dx, dy⟩ := gradient pair is
      exact Given.cons_iff.2 ⟨dx, Given.cons_iff.2 ⟨dy, Given.nil_iff.2 trivial⟩⟩
  unfold ImageOperands.args
  dsimp only
  split
  · exact Given.nil_iff.2 trivial
  · refine Given.cons_iff.2 ⟨trivial, fun arg mem => ?_⟩
    obtain ⟨part, present, mem⟩ := List.mem_flatMap.1 mem
    exact Given.map_id_iff.2 (parts part (List.mem_of_mem_filter present)) arg mem

namespace Lower

/-- The level zero that stands in where there are no derivatives. -/
theorem levelZero_supplies {plain : ImageOperands} (known : Known H b plain) (hasDerivatives : Prop)
    [Decidable hasDerivatives] :
    Supplies H env b (do
      if hasDerivatives then return plain
      let lod ← constant .f32 0
      return { plain with lod? := some lod } : Emission ImageOperands).run := by
  refine .ite (.pure known) (.bind (constant_supplies _ _) fun lod c within lod_ => .pure ?_)
  have := known.mono within
  grind

theorem samplingOperands_supplies (inst : Instruction) (dimension : ViewDimension) :
    Supplies (.tables T) env b (samplingOperands inst dimension).run := by
  refine .read_bind (.bind (immediateOffset?_routine _ _).supplies
    fun constOffset? c _ offset => ?_)
  have plain : Known (.tables T) c { ImageOperands.none with constOffset? } := by
    grind [ImageOperands.none]
  have scalar (f : Id → ImageOperands) (d : Builder) (within : c.Within d)
      (with_ : ∀ id e, d.Within e → Known (.tables T) e id → Known (.tables T) e (f id)) :
      Supplies (.tables T) env d (do
        let id ← readScalar (← source inst 3) .f32
        return (f id, none) : Emission (ImageOperands × Option Id)).run :=
    .source fun op => .bind (readScalar_supplies op _) fun id e later known =>
      .pure ⟨with_ id e later known, Given.none_iff.2 trivial⟩
  dsimp only
  split
  · refine scalar (fun lod => { ImageOperands.none with constOffset?, lod? := some lod })
      c (.refl c)
      fun lod d within _ => ?_
    have := plain.mono within
    grind
  · have bias (d : Builder) (within : c.Within d) := scalar
      (fun bias => { ImageOperands.none with constOffset?, bias? := some bias }) d within
      fun bias e later _ => by
        have := (plain.mono within).mono later
        grind
    exact .ite (.bind (.failWith _) fun _ d within _ => bias d within) (bias c (.refl c))
  · refine .source fun op => .bind (readVector_supplies _ _ _) fun dx d within _ =>
      .source fun op => .bind (readVector_supplies _ _ _) fun dy e within' _ => .pure ?_
    have := (plain.mono within).mono within'
    grind
  · refine .source fun op => .bind (readScalar_supplies _ _) fun reference d within _ =>
      .bind (levelZero_supplies (plain.mono within) _) fun operands e _ _ => ?_
    grind
  · refine .source fun op => .bind (readScalar_supplies _ _) fun reference d within _ =>
      .bind (constant_supplies _ _) fun lod e within' _ => .pure ?_
    have := (plain.mono within).mono within'
    grind
  · exact .bind (levelZero_supplies plain _) fun operands d _ known =>
      .pure ⟨known, Given.none_iff.2 trivial⟩

theorem lowerSample_supplies (inst : Instruction) :
    Supplies (.tables T) env b (lowerSample inst).run := by
  refine .destination fun op => .source fun resourceOp => .bind (typedImage_supplies _)
    fun view c _ _ => .source fun address => .bind (readVector_supplies _ _ _) fun coord d _ _ =>
    .source fun samplerOp => .bind (sampledImage_supplies ?_ _ _) fun sampled e _ _ =>
    .bind (samplingOperands_supplies _ _) fun operands f _ _ => ?_
  · grind
  · obtain ⟨operands, reference?⟩ := operands
    refine .bind (vectorType_supplies _) fun type g _ _ =>
      .bind (emitValue_supplies (by split <;> decide) ?_ ?_) fun id h _ known =>
      writeResourceResult_supplies _ _ known _
    · grind
    · grind

theorem gatherOperands_supplies (inst : Instruction) (hasOffset : Bool)
    (dimension : ViewDimension) :
    Supplies (.tables T) env b (gatherOperands inst hasOffset dimension).run := by
  refine .ite (.source fun op => .bind (readVector_supplies _ _ _) fun offset c _ _ =>
    .bind (requireCapability_supplies _) fun _ d _ _ => .pure ?_)
    (.bind (immediateOffset?_routine _ _).supplies fun constOffset? c _ _ => .pure ?_)
  all_goals grind [ImageOperands.none]

theorem lowerGather_supplies (inst : Instruction) :
    Supplies (.tables T) env b (lowerGather inst).run := by
  refine .destination fun op => .source fun resourceOp => .source fun samplerOp =>
    .bind (typedImage_supplies _) fun view c _ _ => .source fun address =>
    .bind (readVector_supplies _ _ _) fun coord d _ _ =>
    .bind (sampledImage_supplies ?_ _ _) fun sampled e _ _ =>
    .bind (gatherOperands_supplies _ _ _) fun operands f _ _ => ?_
  · grind
  · have sample (opcode : Op) (plain : opcode.isPlain = true) (scalar : ScalarType) (selector : Id)
        (g : Builder) (within : f.Within g) (known : Known (.tables T) g selector) :
        Supplies (.tables T) env g (do
          let typeId ← vectorType (.four scalar)
          let id ← emitValue opcode typeId
            (.id sampled :: .id coord.id :: .id selector :: operands.args)
          writeResourceResult op resourceOp ⟨.four scalar, id⟩ false).run := by
      refine .bind (vectorType_supplies _) fun type h _ _ =>
        .bind (emitValue_supplies plain ?_ ?_) fun id i _ known =>
        writeResourceResult_supplies _ _ known _
      all_goals grind
    exact .ite (.source fun op => .bind (readScalar_supplies _ _) fun reference g within known =>
      .pure_bind (sample .imageDrefGather (by decide) .f32 reference g within known))
      (.bind (constantU32_supplies _) fun component g within known =>
      .pure_bind (sample .imageGather (by decide) _ component g within known))

theorem fetchOperands_supplies (inst : Instruction) (r : Resource) (image : ImageType)
    {address : Value} {loaded : Id} (known : Known (.tables T) b address)
    (known' : b.Available (.tables T) loaded) :
    Supplies (.tables T) env b (fetchOperands inst r image address loaded).run := by
  have offset (operands : ImageOperands) (c : Builder) (known : Known (.tables T) c operands) :
      Supplies (.tables T) env c (do
        if r.dimension = .buffer then return operands
        let constOffset? ← immediateOffset? inst r.dimension
        return { operands with constOffset? } : Emission ImageOperands).run := by
    refine .ite (.pure known) (.bind (immediateOffset?_routine _ _).supplies
      fun constOffset? d within _ =>
      .pure ?_)
    have := known.mono within
    grind
  refine .ite (.source fun op => .bind (readScalar_supplies _ _) fun sample c _ _ =>
    .pure_bind (offset _ c ?_)) (.ite (.bind (extract_routine known _).supplies
    fun lod c within _ =>
    .bind (clampLevel_routine ?_ ?_).supplies fun lod d _ _ => .pure_bind (offset _ d ?_))
    (.pure_bind (offset _ b ?_)))
  all_goals grind [ImageOperands.none]

theorem lowerFetch_supplies (inst : Instruction) :
    Supplies (.tables T) env b (lowerFetch inst).run := by
  refine .destination fun op => .source fun resourceOp => .bind (typedImage_supplies _)
    fun view c _ _ => .source fun address => .bind (readOperand_supplies _ _) fun address d _ _ =>
    .bind (bitcast_routine ?_ _).supplies fun address e _ _ => .bind (swizzle_routine ?_ _).supplies
    fun coord f _ _ => .bind (loadImage_supplies ?_ _) fun loaded g _ _ =>
    .bind (vectorType_supplies _) fun type h _ _ => ?_
  · grind
  · grind
  · grind
  have write (id : Id) (i : Builder) (known : Known (.tables T) i id) :
      Supplies (.tables T) env i
        (writeResourceResult op resourceOp ⟨.four view.2.sampled, id⟩ false).run :=
    writeResourceResult_supplies _ _ known _
  have address_ : Known (.tables T) h address := by grind
  refine .ite (.bind (emitValue_supplies (by decide) ?_ ?_) fun id i _ known => write id i known)
    (.bind (fetchOperands_supplies _ _ _ address_ ?_) fun operands i _ _ =>
    .bind (emitValue_supplies (by decide) ?_ ?_) fun id j _ known => write id j known)
  all_goals grind

theorem lowerSizeQuery_supplies (inst : Instruction) :
    Supplies (.tables T) env b (lowerSizeQuery inst).run := by
  refine .destination fun op => .source fun resourceOp => .bind (typedImage_supplies _)
    fun view c _ _ => .ite (.bind (.failWith _) fun _ d within _ => ?_) ?_
  all_goals
    refine .bind (requireCapability_supplies _) fun _ e _ _ => .source fun address =>
      .bind (readScalar_supplies _ _) fun mip f _ _ => .bind (loadImage_supplies ?_ _)
      fun loaded g _ _ => .bind (imageSize_routine _ ?_ ?_ _).supplies fun query h _ _ =>
      .bind (constant_supplies _ _) fun filler i within _ => .bind (.mapM fun n j later => ?_)
      fun parts j _ _ => .bind (compose_routine _ ?_).supplies fun value k _ _ => ?_
    · grind
    · grind
    · grind
    · have size : Known (.tables T) i query.1 := by grind
      exact .bind (extract_routine (size.mono later) n).supplies fun part k _ known => .pure known
    · grind
    · have write (value : Value) (l : Builder) (known : Known (.tables T) l value) :
          Supplies (.tables T) env l
            (writeResourceResult op resourceOp value inst.saturate).run :=
        writeResourceResult_supplies _ _ known _
      refine .ite (.bind (bitcast_routine ?_ _).supplies fun value l _ known => write value l known)
        (.bind (operate_routine (by decide) _ ?_).supplies fun floats l _ floats_ =>
        .ite (.bind (reciprocalSize_routine floats_ _).supplies
        fun value m _ known => write value m known)
        (.bind (.pure floats_) fun value m _ known => write value m known))
      all_goals grind

theorem lowerSampleCountQuery_supplies (inst : Instruction) :
    Supplies (.tables T) env b (lowerSampleCountQuery inst).run := by
  refine .destination fun op => .source fun resourceOp => .ite (.bind (α := Unit)
    (unsupported_supplies _) fun _ c _ _ => ?_) ?_
  all_goals
    refine .bind (typedImage_supplies _) fun view d _ _ => ?_
    have rest (samples : Id) (e : Builder) (known : Known (.tables T) e samples) :
        Supplies (.tables T) env e (do
          let filler ← constant .i32 0
          let value ← compose .i32 [samples, filler, filler, filler]
          let value ←
            if inst.queryReturnType &&& 1 = 0 then integersToFloats value else bitcast value .u32
          writeResourceResult op resourceOp value inst.saturate).run := by
      refine .bind (constant_supplies _ _) fun filler f _ _ => .bind (compose_routine _ ?_).supplies
        fun value g _ value_ => .ite (.bind (operate_routine (by decide) _ ?_).supplies
        fun value h _ known => writeResourceResult_supplies _ _ known _)
        (.bind (bitcast_routine value_ _).supplies fun value h _ known =>
        writeResourceResult_supplies _ _ known _)
      all_goals grind
    refine .ite (.bind (requireCapability_supplies _) fun _ e _ _ =>
      .bind (loadImage_supplies ?_ _) fun loaded f _ _ => .bind (scalarType_supplies _)
      fun int g _ _ => .bind (emitValue_supplies (by decide) ?_ ?_)
      fun samples h _ known => rest samples h known)
      (.bind (constant_supplies _ _) fun samples e _ known => rest samples e known)
    all_goals grind

theorem lowerLodQuery_supplies (inst : Instruction) :
    Supplies (.tables T) env b (lowerLodQuery inst).run := by
  refine .read_bind (.ite (.bind (α := Unit) (.failWith _) fun _ c _ _ => ?_) ?_)
  all_goals
    refine .destination fun op => .source fun resourceOp => .bind (typedImage_supplies _)
      fun view d _ _ => .source fun address => .bind (readVector_supplies _ _ _) fun coord e _ _ =>
      .source fun samplerOp => .bind (sampledImage_supplies ?_ _ _) fun sampled f _ _ =>
      .bind (requireCapability_supplies _) fun _ g _ _ =>
      .bind (operate_routine (by decide) _ ?_).supplies
      fun pair h _ pair_ => .bind (padToFour_routine pair_).supplies fun value i _ known =>
      writeResourceResult_supplies _ _ known _
    all_goals grind

end Lower

instance : Refers LocationVariable := ⟨fun p l => p l.id, fun h => h _, fun _ => trivial⟩

instance : Refers Spirv.ExtOp := ⟨fun _ _ => True, fun _ h => h, fun _ => trivial⟩

@[simp, grind =]
theorem Known.location_iff {l : LocationVariable} : Known H b l ↔ b.Available H l.id := Iff.rfl

@[simp, grind =]
theorem Known.extOp_iff {op : Spirv.ExtOp} : Known H b op ↔ True := Iff.rfl

namespace Lower

theorem interpolatedInput_supplies (op : Operand) :
    Supplies H env b (interpolatedInput op).run := by
  refine .demand fun reg _ => .state_bind fun s ready _ => .demand fun location found => ?_
  obtain ⟨r, at_, location_⟩ := Option.bind_eq_some_iff.1 found
  have known : Known H s.builder location := (ready.kept.inputs.find? at_ _ location_).available
  exact .ite (.bind (.failWith _) fun _ c within _ => .pure (known.mono within)) (.pure known)

theorem interpolator_supplies (inst : Instruction) :
    Supplies (.tables T) env b (interpolator inst).run := by
  unfold interpolator
  split
  · exact .pure (by grind)
  · exact .source fun op => .bind (readScalar_supplies _ _) fun sample c _ _ => .pure (by grind)
  · refine .source fun op => .bind (readVector_supplies _ _ _) fun offset c _ _ =>
      .bind (operate_routine (by decide) _ ?_).supplies fun offset d _ _ =>
      .bind (splat_routine _ _ _).supplies
      fun unit e _ _ => .bind (operate_routine (by decide) _ ?_).supplies
      fun offset f _ _ => .pure ?_
    all_goals grind

theorem lowerInterpolation_supplies (inst : Instruction) :
    Supplies (.tables T) env b (lowerInterpolation inst).run := by
  refine .read_bind (.ite (.bind (α := Unit) (.failWith _) fun _ c _ _ => ?_) ?_)
  all_goals
    refine .destination fun op => .source fun input => .bind (interpolatedInput_supplies _)
      fun location d _ _ => .bind (requireCapability_supplies _) fun _ e _ _ =>
      .bind (interpolator_supplies _) fun function f _ _ => ?_
    obtain ⟨function, args⟩ := function
    refine .bind (extended_routine _ _ ?_).supplies fun value g _ known =>
      .bind (padToFour_routine known).supplies fun value h _ known =>
      .bind (swizzle_routine known _).supplies fun value i _ known =>
      .bind (applyModifier_routine known _).supplies fun value j _ known =>
      writeOperand_supplies _ known _
    grind

end Lower

end ShaderLowering
