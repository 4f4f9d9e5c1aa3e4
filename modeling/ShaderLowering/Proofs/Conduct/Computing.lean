import ShaderLowering.Lowering.Atomic
import ShaderLowering.Lowering.Texture
import ShaderLowering.Proofs.Conduct.Routines
import ShaderLowering.Proofs.Program.Slots

/-!
The operations of the tables compute values, from as many sources as the formats of their opcodes
name. Bit fields and half floats are computed for each component by itself. The dwords of an access
and the size of an image are computed from what operands and loads have given.
-/

namespace ShaderLowering.Lower

open Spirv (Id Op ExtOp)

variable {ok : CompileError → Prop} {p : Id → Prop} {inst : Instruction} {op : Opcode}
  {value : Value}

theorem floatBinary?_shape {f : Op} (is : floatBinary? op = some f) :
    op.sources.length = 2 ∧ f.isRoutine = true := by
  unfold floatBinary? at is
  split at is <;> cases is <;> exact ⟨rfl, rfl⟩

theorem floatFunction?_sources {f : ExtOp} {arity : Nat}
    (is : floatFunction? op = some (f, arity)) : op.sources.length = arity := by
  unfold floatFunction? at is
  split at is <;> cases is <;> rfl

theorem comparison?_shape {f : Op} (is : comparison? op = some f) :
    op.sources.length = 2 ∧ f.isRoutine = true := by
  unfold comparison? at is
  split at is <;> cases is <;> exact ⟨rfl, rfl⟩

theorem derivative?_shape {r : Op × Bool} (is : derivative? op = some r) :
    op.sources.length = 1 ∧ r.1.isRoutine = true := by
  unfold derivative? at is
  split at is <;> cases is <;> exact ⟨rfl, rfl⟩

theorem integerExtremum?_sources {r : ExtOp × ScalarType} (is : integerExtremum? op = some r) :
    op.sources.length = 2 := by
  unfold integerExtremum? at is
  split at is <;> cases is <;> rfl

theorem bitwise?_shape {f : Op} (is : bitwise? op = some f) :
    op.sources.length = 2 ∧ f.isRoutine = true := by
  unfold bitwise? at is
  split at is <;> cases is <;> exact ⟨rfl, rfl⟩

theorem shift?_shape {f : Op} (is : shift? op = some f) :
    op.sources.length = 2 ∧ f.isRoutine = true := by
  unfold shift? at is
  split at is <;> cases is <;> exact ⟨rfl, rfl⟩

theorem atomicOp?_isRoutine {f : Op} (is : atomicOp? op = some f) : f.isRoutine = true := by
  unfold atomicOp? at is
  split at is <;> cases is <;> rfl

theorem wordUnary?_shape {f : Op} (is : wordUnary? op = some f) :
    op.sources.length = 1 ∧ f.isRoutine = true := by
  unfold wordUnary? at is
  split at is <;> cases is <;> exact ⟨rfl, rfl⟩

@[grind ←]
theorem immediateOffset?_routine (inst : Instruction) (dimension : ViewDimension) :
    Routine ok p (immediateOffset? inst dimension) := by
  refine .ite (.pure (Given.none_iff.2 trivial)) ?_
  exact .bind (constantVector_routine _ _) fun _ _ _ given => .pure (Given.some_iff.2 given)

variable [Refusing ok]

@[grind ←]
theorem perComponent_routine (count : Nat) (scalar : ScalarType) {f : Nat → Emission Id}
    (each : ∀ c, Routine ok p (f c)) : Routine ok p (perComponent count scalar f) :=
  .bind (.mapM each _) fun _ _ _ given => compose_routine scalar given

@[grind ←]
theorem fieldRange_routine {width offset : Id} (width_ : Given p width)
    (offset_ : Given p offset) : Routine ok p (fieldRange width offset) := by
  refine .bind (scalarType_routine _) fun word q _ _ =>
    .bind (constantU32_routine _) fun low r _ _ =>
    .bind (constantU32_routine _) fun size s _ _ => .bind ?_ fun width t _ _ =>
    .bind ?_ fun offset u _ _ => .bind ?_ fun room w _ _ => .bind ?_ fun count x _ _ => ?_
  all_goals grind -linarith

@[grind ←]
theorem firstBitFromTop_routine (op : ExtOp) (given : Given p value) (count : Nat) :
    Routine ok p (firstBitFromTop op value count) := by
  refine .bind (extended_routine _ _ ?_) fun msb q _ _ => .bind (bitcast_routine ?_ _)
    fun msb r _ _ => .bind (splat_routine _ _ _) fun missing s _ _ =>
    .bind (splat_routine _ _ _) fun top t _ _ => .bind ?_ fun flipped u _ _ =>
    .bind ?_ fun isMissing w _ _ => ?_
  all_goals grind -linarith

@[grind ←]
theorem extractField_routine (isSigned : Bool) {width offset : Value} (width_ : Given p width)
    (offset_ : Given p offset) (given : Given p value) :
    Routine ok p (extractField isSigned width offset value) := by
  refine .bind (bitcast_routine width_ _) fun width q spans width_ =>
    .bind (bitcast_routine (offset_.mono spans) _) fun offset r spans' offset_ =>
    .bind (bitcast_routine ((given.mono spans).mono spans') _) fun value s spans'' given =>
    perComponent_routine _ _ fun n => ?_
  replace width_ := (width_.mono spans').mono spans''
  replace offset_ := offset_.mono spans''
  refine .bind (extract_routine width_ n) fun width t _ _ => .bind (extract_routine ?_ n)
    fun offset u _ _ => .bind (extract_routine ?_ n) fun value w _ _ =>
    .bind (fieldRange_routine ?_ ?_) fun range x _ _ =>
    .bind (scalarType_routine _) fun type y _ _ => ?_
  all_goals grind -linarith

@[grind ←]
theorem insertField_routine {width offset field base : Value} (width_ : Given p width)
    (offset_ : Given p offset) (field_ : Given p field) (base_ : Given p base) :
    Routine ok p (insertField width offset field base) := by
  refine .bind (bitcast_routine width_ _) fun width q spans width_ =>
    .bind (bitcast_routine (offset_.mono spans) _) fun offset r spans' offset_ =>
    .bind (bitcast_routine ((field_.mono spans).mono spans') _) fun field s spans'' field_ =>
    .bind (bitcast_routine (((base_.mono spans).mono spans').mono spans'') _)
    fun base t later base_ => perComponent_routine _ _ fun n => ?_
  replace width_ := ((width_.mono spans').mono spans'').mono later
  replace offset_ := (offset_.mono spans'').mono later
  replace field_ := field_.mono later
  refine .bind (extract_routine width_ n) fun width u _ _ => .bind (extract_routine ?_ n)
    fun offset w _ _ => .bind (extract_routine ?_ n) fun field x _ _ =>
    .bind (extract_routine ?_ n) fun base y _ _ =>
    .bind (fieldRange_routine ?_ ?_) fun range z _ _ =>
    .bind (scalarType_routine _) fun type k _ _ => ?_
  all_goals grind -linarith

@[grind ←]
theorem packHalf_routine (given : Given p value) : Routine ok p (packHalf value) := by
  refine perComponent_routine _ _ fun n => ?_
  refine .bind (extract_routine given n) fun part q _ _ =>
    .bind (constant_routine _ _) fun empty r _ _ => .bind (compose_routine _ ?_)
    fun pair s _ _ => .bind ?_ fun packed t _ _ => ?_
  all_goals grind -linarith

@[grind ←]
theorem unpackHalf_routine (given : Given p value) : Routine ok p (unpackHalf value) := by
  refine .bind (bitcast_routine given _) fun word q _ given => ?_
  refine perComponent_routine _ _ fun n => ?_
  refine .bind (extract_routine given n) fun part r _ _ =>
    .bind ?_ fun pair s _ _ => .bind (extract_routine ?_ 0) fun low t _ _ => ?_
  all_goals grind -linarith

@[grind ←]
theorem operatePair_routine {op : Op} (computes : op.isRoutine = true) (type : VectorType)
    {a b : Value} (a_ : Given p a) (b_ : Given p b) :
    Routine ok p (operatePair op type a b) where
  conduct := by
    have other := Op.isName_of_isRoutine computes
    unfold operatePair
    grind -linarith
  typing _ _ _ := by
    have free := Op.isFree_of_isRoutine computes
    unfold operatePair
    grind -linarith
  scope {H _ c} known := by
    have plain := Op.isPlain_of_isRoutine computes
    have a_ : Known H c a := a_.mono known
    have b_ : Known H c b := b_.mono known
    refine .after (vectorType_establishes type) fun member d within global => ?_
    refine .after (structType_establishes (by simp [global])) fun pair e within' global => ?_
    grind -linarith

@[grind ←]
theorem pairMember_routine (type : VectorType) {pair : Id} (given : Given p pair) (n : UInt32) :
    Routine ok p (pairMember type pair n) := by
  unfold pairMember
  grind -linarith

/-- Two sources, read as one type. -/
theorem readTwo_routine {a b : Emission Value} {f : Value → Value → Emission Value}
    (first : Routine ok p a) (second : Routine ok p b) (scalar : ScalarType)
    (later : ∀ v w q, Spans p q → Given q v → Given q w → Routine ok q (f v w)) :
    Routine ok p (a >>= fun v => bitcast v scalar >>= fun v => b >>= fun w =>
      bitcast w scalar >>= fun w => f v w) := by
  refine .bind first fun v q spans given => .bind (bitcast_routine given _)
    fun v r spans' given => .bind (second.mono (spans.trans spans')) fun w s spans'' given' =>
    .bind (bitcast_routine given' _) fun w t last given' => ?_
  exact later v w t (((spans.trans spans').trans spans'').trans last)
    ((given.mono spans'').mono last) given'

/-- A value is computed from the sources that the format of the opcode names. -/
theorem computeVector_routine {src : Nat → Emission Value}
    (given : ∀ n < op.sources.length, Routine ok p (src n)) (count : Nat) :
    Routine ok p (computeVector inst op src count) := by
  have source {n : Nat} (below : n < op.sources.length) {q : Id → Prop} (spans : Spans p q) :
      Routine ok q (src n) := (given n below).mono spans
  unfold computeVector
  dsimp only
  split
  · next is =>
    obtain ⟨two, computes⟩ := floatBinary?_shape is
    rw [two] at given source
    refine .bind (given 0 (by decide)) fun a q spans _ => ?_
    refine .bind (source (by decide : 1 < 2) spans) fun b r _ _ => ?_
    grind -linarith
  split
  · next arity is =>
    rw [floatFunction?_sources is] at given
    refine .bind (.mapMMem fun n mem => given n (List.mem_range.1 mem)) fun args q _ given => ?_
    grind -linarith
  split
  · next is =>
    obtain ⟨two, computes⟩ := comparison?_shape is
    rw [two] at given source
    refine .bind (given 0 (by decide)) fun a q spans _ => ?_
    refine .bind (source (by decide : 1 < 2) spans) fun b r _ _ => ?_
    refine .bind (bitcast_routine ?_ _) fun b s _ _ => .bind ?_ fun result t _ _ => ?_
    all_goals grind -linarith
  split
  · next is =>
    obtain ⟨one, computes⟩ := derivative?_shape is
    rw [one] at given source
    grind -linarith
  split
  · next is =>
    rw [integerExtremum?_sources is] at given
    refine readTwo_routine (given 0 (by decide)) (given 1 (by decide)) _ fun a b q _ _ _ => ?_
    grind -linarith
  split
  · next is =>
    obtain ⟨two, computes⟩ := bitwise?_shape is
    rw [two] at given
    refine readTwo_routine (given 0 (by decide)) (given 1 (by decide)) _ fun a b q _ _ _ => ?_
    grind -linarith
  split
  · next is =>
    obtain ⟨two, computes⟩ := shift?_shape is
    rw [two] at given source
    refine .bind (given 0 (by decide)) fun a q spans _ =>
      .bind (splat_routine _ _ _) fun low r spans' _ =>
      .bind (source (by decide : 1 < 2) (spans.trans spans')) fun b s _ _ =>
      .bind (bitcast_routine ?_ _) fun b t _ _ => .bind ?_ fun b u _ _ => ?_
    all_goals grind -linarith
  split
  · next is =>
    obtain ⟨one, computes⟩ := wordUnary?_shape is
    rw [one] at given
    grind -linarith
  split
  next => exact given 0 (by decide)
  next =>
    refine .bind (given 0 (by decide)) fun test q spans _ =>
      .bind (zeroTest_routine ?_ _) fun test r spans' _ =>
      .bind (source (by decide) (spans.trans spans')) fun a s spans'' _ =>
      .bind (source (by decide) ((spans.trans spans').trans spans'')) fun b t _ _ =>
      .bind (bitcast_routine ?_ _) fun b u _ _ => ?_
    all_goals grind -linarith
  next =>
    refine .bind (splat_routine _ _ _) fun one q spans _ =>
      .bind (source (by decide) spans) fun a r _ _ => ?_
    grind -linarith
  iterate 2
    next =>
      refine .bind (splat_routine _ _ _) fun low q spans _ =>
        .bind (splat_routine _ _ _) fun high r spans' _ =>
        .bind (source (by decide) (spans.trans spans')) fun a s _ _ =>
        .bind ?_ fun clamped t _ _ => ?_
      all_goals grind -linarith
  iterate 2
    next => exact .bind (given 0 (by decide)) fun a q _ _ => by grind -linarith
  next =>
    refine .bind (given 0 (by decide)) fun a q spans _ =>
      .bind (source (by decide) spans) fun b r _ _ => .bind (bitcast_routine ?_ _) fun b s _ _ => ?_
    all_goals grind -linarith
  iterate 2
    next =>
      refine .bind (given 0 (by decide)) fun a q spans _ =>
        .bind (source (by decide) spans) fun b r spans' _ =>
        .bind (bitcast_routine ?_ _) fun b s spans'' _ =>
        .bind (source (by decide) ((spans.trans spans').trans spans'')) fun c t _ _ =>
        .bind (bitcast_routine ?_ _) fun c u _ _ => .bind ?_ fun product w _ _ => ?_
      all_goals grind -linarith
  iterate 4
    next => exact .bind (given 0 (by decide)) fun a q _ _ => by grind -linarith
  iterate 2
    next =>
      refine .bind (given 0 (by decide)) fun width q spans _ =>
        .bind (source (by decide) spans) fun offset r spans' _ =>
        .bind (source (by decide) (spans.trans spans')) fun value s _ _ =>
        extractField_routine _ ?_ ?_ ?_
      all_goals grind -linarith
  next =>
    refine .bind (given 0 (by decide)) fun width q spans _ =>
      .bind (source (by decide) spans) fun offset r spans' _ =>
      .bind (source (by decide) (spans.trans spans')) fun field s spans'' _ =>
      .bind (source (by decide) ((spans.trans spans').trans spans'')) fun base t _ _ =>
      insertField_routine ?_ ?_ ?_ ?_
    all_goals grind -linarith
  next => exact .bind (given 0 (by decide)) fun a q _ given => packHalf_routine given
  next => exact .bind (given 0 (by decide)) fun a q _ given => unpackHalf_routine given
  next => exact .unsupported _

@[grind ←]
theorem dwordAt_routine {bytes : Id} (given : Given p bytes) : Routine ok p (dwordAt bytes) := by
  unfold dwordAt
  grind -linarith

@[grind ←]
theorem structureByte_routine (stride : UInt32) {element offset : Id} (element_ : Given p element)
    (offset_ : Given p offset) : Routine ok p (structureByte stride element offset) := by
  refine .bind (scalarType_routine _) fun word q _ _ =>
    .bind (constant_routine _ _) fun stride r _ _ => .bind ?_ fun start s _ _ => ?_
  all_goals grind -linarith

@[grind ←]
theorem dwordAfter_routine {first : Id} (given : Given p first) (count : Nat) :
    Routine ok p (dwordAfter first count) := by
  unfold dwordAfter
  grind -linarith

@[grind ←]
theorem clampLevel_routine {image lod : Id} (image_ : Given p image) (lod_ : Given p lod) :
    Routine ok p (clampLevel image lod) := by
  refine .read_bind (fun _ => .ite ?_ (.pure lod_)) fun _ => rfl
  refine .bind (requireCapability_routine _) fun _ q _ _ =>
    .bind (scalarType_routine _) fun int r _ _ => .bind (emitValue_routine rfl ?_ ?_)
    fun levels s _ _ => .bind (constant_routine _ _) fun one t _ _ =>
    .bind (emitValue_routine rfl ?_ ?_) fun last u _ _ => .bind (constant_routine _ _)
    fun first w _ _ => .bind (extended_routine _ _ ?_) fun clamped x _ given => .pure given
  all_goals grind -linarith

@[grind ←]
theorem reciprocalSize_routine (given : Given p value) (count : Nat) :
    Routine ok p (reciprocalSize value count) := by
  refine .bind (scalarType_routine _) fun float q spans _ => .bind (constant_routine _ _)
    fun one r spans' _ => .bind (.mapM (fun c => ?_) _) fun parts s _ given =>
    compose_routine _ given
  have given : Given r value := (given.mono spans).mono spans'
  grind -linarith

@[grind ←]
theorem integersToFloats_routine (given : Given p value) :
    Routine ok p (integersToFloats value) :=
  operate_routine rfl _ (Given.cons_iff.2 ⟨given, Given.nil_iff.2 trivial⟩)

@[grind ←]
theorem imageSize_routine (image : ImageType) {loaded mip : Id} (loaded_ : Given p loaded)
    (mip_ : Given p mip) (type : VectorType) :
    Routine ok p (imageSize image loaded mip type) := by
  refine .bind (vectorType_routine _) fun typeId q _ _ => .bind (scalarType_routine _)
    fun int r _ _ => .ite (.bind (clampLevel_routine ?_ ?_) fun lod s _ _ =>
    .bind (emitValue_routine rfl ?_ ?_) fun size t _ _ =>
    .bind (emitValue_routine rfl ?_ ?_) fun levels u _ _ => ?_)
    (.bind (emitValue_routine rfl ?_ ?_) fun size s _ _ =>
    .bind (constant_routine _ _) fun levels t _ _ => ?_)
  all_goals grind -linarith

end ShaderLowering.Lower
