import ShaderLowering.Lowering.Resource
import ShaderLowering.Proofs.Typing.Operands

/-!
What resource declarations yield, and the views that operands name. A typed view has an image; that
of a writable view is the one that the analysis asks for, with the capabilities for what it finds.
-/

namespace ShaderLowering

open Spirv (Id Module StorageClass)

variable {x : Shader} {v : VertexCounts} {m n : Module} {inst : Instruction}

namespace Shader

/-- An operand names a view with an image: that of a slot if the view is writable, else one that
is sampled. -/
structure Viewed (x : Shader) (m : Module) (op : Operand) (variable_ : Id) (image : ImageType) :
    Prop where
  places : m.Places variable_ .uniformConstant (.image image)
  writable : op.type = .uav → ∃ slot, op.index? 0 = some slot ∧ x.StorageImage m slot image
  sampled : op.type ≠ .uav → image.isStorage = false

theorem Viewed.mono {op : Operand} {variable_ : Id} {image : ImageType}
    (h : x.Viewed m op variable_ image) (grows : m.Grows n) : x.Viewed n op variable_ image := by
  refine ⟨h.places.mono grows, fun type => ?_, h.sampled⟩
  obtain ⟨slot, index, known⟩ := h.writable type
  exact ⟨slot, index, known.mono grows⟩

/-- The view that an operand names is accessed by the instruction that has the operand. -/
theorem Viewed.views {op : Operand} {variable_ : Id} {image : ImageType}
    (h : x.Viewed m op variable_ image) {families : List Opcode.Family} (mem : inst ∈ x.insts)
    (family : inst.family ∈ families) (view : inst.view? = some op) (type : op.type = .uav) :
    x.Views m families image := by
  obtain ⟨slot, index, known⟩ := h.writable type
  exact ⟨inst, mem, family, op, slot, view, type, index, known⟩

theorem Viewed.isWritable {op : Operand} {variable_ : Id} {image : ImageType}
    (h : x.Viewed m op variable_ image) (storage : image.isStorage = true) : op.type = .uav := by
  by_contra other
  rw [h.sampled other] at storage
  cases storage

end Shader

namespace Lower

@[grind ←]
theorem defineSlot_safe (slotClass : BindingClass) (slot : UInt32) (kind : ResourceKind)
    (dimension : ViewDimension) (stride : UInt32) :
    Safe x v m (defineSlot slotClass slot kind dimension stride).run := by
  refine .read_bind ?_
  extract_lets stage stages
  split
  · exact .fail
  · extract_lets key jp
    refine .state_bind fun s => ?_
    split
    · refine Yields.ite (fun _ => Yields.failBind) fun _ => Safe.bind ?_ fun _ => Safe.pure _
      exact Yields.noteTables (fun _ => rfl) (fun _ => rfl) (fun _ => rfl) fun _ tables _ =>
        { tables with }
    · refine .bind ?_ fun _ => .pure _
      exact Yields.noteTables (fun _ => rfl) (fun _ => rfl) (fun _ => rfl) fun _ tables _ =>
        { tables with }

@[grind ←]
theorem requireStorageBuffers_safe : Safe x v m requireStorageBuffers.run :=
  requireExtensionBefore_safe 1 3 _

theorem declaredSlot_yields (op : Operand) (slotClass : BindingClass) :
    Yields x v m (declaredSlot op slotClass).run fun slot _ =>
      op.index? 0 = some slot ∧ slot.toNat < slotClass.maxSlots := by
  refine .demand fun slot index => .ite (fun _ => ?_) fun bound =>
    .pure fun _ _ => ⟨index, by omega⟩
  intro s b t hs outgrown ran
  cases ran

@[grind ←]
theorem checkRedeclared_safe (letter : String) (slot : UInt32) (first : Resource)
    (inst : Instruction) : Safe x v m (checkRedeclared letter slot first inst).run := by
  unfold checkRedeclared
  grind

@[grind ←]
theorem requireDimension_safe (shape : ViewShape) (one buffer cube : Spirv.Capability) :
    Safe x v m (requireDimension shape one buffer cube).run := by
  unfold requireDimension
  grind

theorem lowerConstantBufferDeclaration_safe (mem : inst ∈ x.insts)
    (declares : inst.declaration? = some .dclConstantBuffer) :
    Safe x v m (lowerConstantBufferDeclaration inst).run := by
  refine Yields.demand fun op first => ?_
  refine .bind (declaredSlot_yields op _) fun slot n₁ _ ⟨index, _⟩ => ?_
  extract_lets declared size
  have known : inst.declaredBuffer? = some (slot, size) := by
    simp [Instruction.declaredBuffer?, declares, first, index, size, declared]
  have positive : max size 1 = size := by
    have : 1 ≤ size := Nat.le_max_left _ _
    omega
  refine .state_bind fun s _ _ => ?_
  split
  · exact .ite (fun _ => .fail) fun _ => .pure fun _ _ => trivial
  · refine .bind (uniformBlock_yields ⟨inst, mem, slot, size, known, by rw [positive]⟩)
      fun block n₂ _ is => ?_
    rw [positive] at is
    refine .bind (newVariable_places is rfl none) fun id n₃ _ houses => ?_
    refine .after (name_safe _ _) fun _ n₄ grows₄ => ?_
    refine .after (defineSlot_safe _ _ _ _ _) fun binding n₅ grows₅ => ?_
    refine .after (decorateBinding_safe _ _) fun _ n₆ grows₆ => ?_
    refine .noteTables (fun _ => rfl) (fun _ => rfl) (fun _ => rfl) fun t tables grows => ?_
    refine { tables with constantBuffers := tables.constantBuffers.insert ⟨?_, inst, mem, known⟩ }
    exact houses.mono (((grows₄.trans grows₅).trans grows₆).trans grows)

theorem lowerSamplerDeclaration_safe : Safe x v m (lowerSamplerDeclaration inst).run := by
  refine Yields.demand fun op _ => .bind (declaredSlot_yields op _) fun slot n₁ _ _ => ?_
  refine .state_bind fun s _ _ => .ite (fun _ => .pure fun _ _ => trivial) fun _ => ?_
  refine .after samplerType_safe fun type n₂ _ => .after (newVariable_safe rfl _ _)
    fun id n₃ _ => ?_
  refine .after (name_safe _ _) fun _ n₄ _ => .after (defineSlot_safe _ _ _ _ _)
    fun binding n₅ _ => ?_
  refine .after (decorateBinding_safe _ _) fun _ n₆ _ => ?_
  exact .noteTables (fun _ => rfl) (fun _ => rfl) (fun _ => rfl) fun _ tables _ => { tables with }

theorem newTypedView_yields (slotClass : BindingClass) (slot : UInt32) (kind : ResourceKind)
    (dimension : ViewDimension) (image : ImageType) :
    Yields x v m (newTypedView slotClass slot kind dimension image).run fun r n =>
      r.1.image? = some image ∧ r.1.counter? = none ∧
        n.Houses r.1.variable_ .uniformConstant (.image image) := by
  refine .bind (imageType_yields image) fun type n₁ _ is => ?_
  refine .bind (newVariable_places is rfl none) fun id n₂ _ houses => ?_
  refine .after (defineSlot_safe _ _ _ _ _) fun binding n₃ grows => .pure fun _ later => ?_
  exact ⟨rfl, rfl, (houses.mono grows).mono later⟩

theorem newBuffer_yields (slotClass : BindingClass) (slot stride : UInt32) (isWritable : Bool) :
    Yields x v m (newBuffer slotClass slot stride isWritable).run fun r n =>
      r.1.image? = none ∧ r.1.counter? = none ∧
        n.Houses r.1.variable_ .storageBuffer Shader.dwords := by
  refine .after requireStorageBuffers_safe fun _ n₁ _ => ?_
  refine .bind storageBlock_yields fun block n₂ _ is => ?_
  refine .bind (newVariable_places is rfl none) fun id n₃ _ houses => ?_
  extract_lets jp
  have bound (o : Module) (grows : n₃.Grows o) : Yields x v o (jp ()).run fun r n =>
      r.1.image? = none ∧ r.1.counter? = none ∧
        n.Houses r.1.variable_ .storageBuffer Shader.dwords := by
    refine .after (defineSlot_safe _ _ _ _ _) fun binding n₅ later => .pure fun _ latest => ?_
    exact ⟨rfl, rfl, houses.mono ((grows.trans later).trans latest)⟩
  refine .ite (fun _ => bound n₃ (.refl _)) fun _ => ?_
  exact .after (decorate_safe rfl _ _) fun _ o grows => bound o grows

theorem newTexture_yields (slot : UInt32) :
    Yields x v m (newTexture inst slot).run fun r n => Shader.View n r.1 ∧
      ∀ image, r.1.image? = some image → image.isStorage = false := by
  refine .ite (fun _ => .demand fun shape _ => ?_) fun _ => ?_
  · extract_lets image kind
    refine .after (requireDimension_safe _ _ _ _) fun _ n _ => ?_
    refine (newTypedView_yields _ slot kind _ image).imp fun r o _ ⟨is, _, houses⟩ => ?_
    refine ⟨by simpa only [Shader.View, is] using houses, fun other same => ?_⟩
    rw [is] at same
    cases same
    rfl
  · refine (newBuffer_yields _ slot _ false).imp fun r o _ ⟨is, _, houses⟩ => ?_
    refine ⟨by simpa only [Shader.View, is] using houses, fun other same => ?_⟩
    rw [is] at same
    cases same

theorem lowerResourceDeclaration_safe : Safe x v m (lowerResourceDeclaration inst).run := by
  refine Yields.demand fun op _ => .bind (declaredSlot_yields op _) fun slot n₁ _ _ => ?_
  refine .state_bind fun s _ _ => ?_
  split
  · exact checkRedeclared_safe _ _ _ _
  · refine .bind (newTexture_yields slot) fun (resource, binding) n₂ _ ⟨view, sampled⟩ => ?_
    refine .after (name_safe _ _) fun _ n₃ grows₃ => ?_
    refine .after (decorateBinding_safe _ _) fun _ n₄ grows₄ => ?_
    refine .noteTables (fun _ => rfl) (fun _ => rfl) (fun _ => rfl) fun t tables grows => ?_
    refine { tables with textures := tables.textures.insert ⟨?_, sampled⟩ }
    exact view.mono ((grows₃.trans grows₄).trans grows)

/-- Views of which atomics are asked get a format, others the capabilities to go without. -/
theorem storageFormat_yields {slot : UInt32}
    (bound : slot.toNat < BindingClass.unorderedAccess.maxSlots) (declared : ScalarType) :
    Yields x v m (storageFormat (x.env.analysis.uav slot) declared).run fun r n =>
      ∀ image : ImageType, image.isStorage = true → image.sampled = r.1 → image.format = r.2 →
        x.StorageImage n slot image := by
  refine .ite (fun atomic => .pure fun n _ image storage sampled format => ?_) fun plain => ?_
  · refine ⟨storage, fun _ => ?_, ?_, ?_, bound⟩
    · split at sampled
      · next signed => exact .inr ⟨format.trans (by rw [if_pos signed]), sampled⟩
      · next unsigned => exact .inl ⟨format.trans (by rw [if_neg unsigned]), sampled⟩
    · exact fun none_ => by rw [atomic] at none_; cases none_
    · exact fun none_ => by rw [atomic] at none_; cases none_
  · refine .bind (requireCapability_yields _) fun _ n _ writes => ?_
    extract_lets jp
    have known (o : Module) (grows : n.Grows o)
        (reads : (x.env.analysis.uav slot).typedLoad = true →
          o.HasCapability .storageImageReadWithoutFormat) :
        Yields x v o (jp ()).run fun r n =>
          ∀ image : ImageType, image.isStorage = true → image.sampled = r.1 → image.format = r.2 →
            x.StorageImage n slot image := by
      refine .pure fun p later image storage _ _ =>
        ⟨storage, fun atomic => absurd atomic plain, ?_, ?_, bound⟩
      · exact fun _ => (writes.mono grows).mono later
      · exact fun _ reading => (reads reading).mono later
    refine .ite (fun _ => ?_) fun unread => known n (.refl _) fun reading => absurd reading unread
    exact .bind (requireCapability_yields _) fun _ o grows reads => known o grows fun _ => reads

theorem newUav_yields {slot : UInt32}
    (bound : slot.toNat < BindingClass.unorderedAccess.maxSlots) :
    Yields x v m (newUav inst slot).run fun r n => x.WritableView n slot r.1 := by
  refine .ite (fun _ => .demand fun shape _ => .read_bind ?_) fun _ => ?_
  · refine .bind (storageFormat_yields bound _) fun (sampled, format) n _ known => ?_
    refine .after (requireDimension_safe _ _ _ _) fun _ o grows => ?_
    refine (newTypedView_yields _ slot _ _ _).imp fun r p later ⟨is, counter, houses⟩ => ?_
    refine ⟨by simpa only [Shader.View, is] using houses, fun other same => ?_, fun c same => ?_⟩
    · rw [is] at same
      cases same
      exact ((known _ rfl rfl rfl).mono grows).mono later
    · rw [counter] at same
      cases same
  · refine (newBuffer_yields _ slot _ true).imp fun r o _ ⟨is, counter, houses⟩ => ?_
    refine ⟨by simpa only [Shader.View, is] using houses, fun other same => ?_, fun c same => ?_⟩
    · rw [is] at same
      cases same
    · rw [counter] at same
      cases same

theorem lowerUavDeclaration_safe : Safe x v m (lowerUavDeclaration inst).run := by
  refine Yields.demand fun op _ => .bind (declaredSlot_yields op _) fun slot n₁ _ ⟨_, bound⟩ => ?_
  refine .state_bind fun s _ _ => ?_
  split
  · exact checkRedeclared_safe _ _ _ _
  · refine .bind (newUav_yields bound) fun (resource, binding) n₂ _ view => ?_
    refine .optional (decorate_safe rfl _ _) fun n₃ grows₃ => ?_
    refine .after (name_safe _ _) fun _ n₄ grows₄ => ?_
    refine .after (decorateBinding_safe _ _) fun _ n₅ grows₅ => ?_
    refine .noteTables (fun _ => rfl) (fun _ => rfl) (fun _ => rfl) fun t tables grows => ?_
    refine { tables with uavs := tables.uavs.insert ?_ }
    exact view.mono (((grows₃.trans grows₄).trans grows₅).trans grows)

theorem lowerImmediateConstants_safe {words : List UInt32} (mem : inst ∈ x.insts)
    (declares : inst.immediates? = some (.ofNat (max (Words4.chunks words).length 1))) :
    Safe x v m (lowerImmediateConstants words).run := by
  refine .state_bind fun s => Yields.ite (fun _ => .pure fun _ _ => trivial) fun _ => ?_
  extract_lets chunks chunks'
  have length : chunks'.length = max (Words4.chunks words).length 1 := by
    unfold chunks' chunks
    split
    · next empty =>
      rw [List.isEmpty_iff.1 empty]
      rfl
    · next some_ =>
      have := List.length_pos_iff.2 fun empty => some_ (List.isEmpty_iff.2 empty)
      omega
  have plain {n : UInt32} : (Shape.array n (.vector (.four .u32))).IsPlain x :=
    ⟨Nat.le_refl 4, nofun⟩
  refine .bind (.mapM fun chunk _ => constantVector_safe _ _) fun elements n₁ _ many => ?_
  refine .bind (vectorType_yields (.four .u32)) fun element n₂ _ is => ?_
  refine .bind (arrayOf_yields is _) fun type n₃ _ is => ?_
  rw [many, length, Shape.arrayOf, if_neg (by omega)] at is
  refine .after (constantComposite_safe _ _) fun initial n₄ grows₄ => ?_
  refine .bind (newVariable_yields (is.mono grows₄) (fun _ => plain) _) fun id n₅ _ houses => ?_
  refine .after (name_safe _ _) fun _ n₆ grows₆ => ?_
  refine .noteTables (fun _ => rfl) (fun _ => rfl) (fun _ => rfl) fun t tables grows => ?_
  refine { tables with immediates := fun id' same => ?_ }
  cases same
  exact ⟨_, houses.mono (grows₆.trans grows), inst, mem, declares⟩

theorem resource_yields (op : Operand) :
    Yields x v m (resource op).run fun r n => Shader.View n r ∧
      ∀ image, r.image? = some image → x.Viewed n op r.variable_ image := by
  refine .demand fun slot index => ?_
  split
  · next type =>
    refine .state_bind fun s hs _ => .orFault fun r found n grows => ?_
    obtain ⟨view, sampled⟩ := hs.tables.textures.find? found
    refine ⟨view.mono grows, fun image is => ⟨?_, ?_, fun _ => sampled image is⟩⟩
    · have known := view.mono grows
      unfold Shader.View at known
      rw [is] at known
      exact known.places
    · intro writable
      rw [type] at writable
      cases writable
  · next type =>
    refine .state_bind fun s hs _ => .orFault fun r found n grows => ?_
    have known := (hs.tables.uavs.find? found).mono grows
    refine ⟨known.view, fun image is => ⟨?_, ?_, fun other => absurd type other⟩⟩
    · have known := known.view
      unfold Shader.View at known
      rw [is] at known
      exact known.places
    · exact fun _ => ⟨slot, index, known.image image is⟩
  · exact .fail

theorem typedImage_yields (op : Operand) :
    Yields x v m (typedImage op).run fun r n => x.Viewed n op r.1.variable_ r.2 := by
  refine .bind (resource_yields op) fun r n _ ⟨_, viewed⟩ => .demand fun image is => ?_
  exact .pure fun o grows => (viewed image is).mono grows

@[grind ←]
theorem typedImage_safe (op : Operand) : Safe x v m (typedImage op).run :=
  (typedImage_yields op).safe

/-- What is loaded is the image. -/
theorem loadImage_yields (r : Resource) (image : ImageType) :
    Yields x v m (loadImage r image).run fun id n =>
      ∃ type, n.HasType id type ∧ n.Is (.image image) type := by
  refine .bind (imageType_yields image) fun type n _ is => ?_
  exact (emitValue_free rfl type _).imp fun id o grows value => ⟨type, value.1, is.mono grows⟩

@[grind ←]
theorem loadImage_safe (r : Resource) (image : ImageType) : Safe x v m (loadImage r image).run :=
  (loadImage_yields r image).safe

/-- Reading a texel of an image that is not storage, or of a writable view. -/
theorem imageRead_safe {loaded : Id} {image : ImageType}
    (is : ∃ type, m.HasType loaded type ∧ m.Is (.image image) type)
    (views : image.isStorage = true → x.Views m [.textureFetch, .typedUavLoad] image) (type : Id)
    (args : List Spirv.Arg) : Safe x v m (emitValue .imageRead type (.id loaded :: args)).run := by
  obtain ⟨loadedType, typed, is⟩ := is
  refine Yields.safe (emitValue_yields nofun fun n id grows => ?_)
  exact ⟨loaded, args, loadedType, image, rfl, typed.mono grows, is.mono grows,
    fun storage => (views storage).mono grows⟩

@[grind ←]
theorem sampledImage_safe (r : Resource) (image : ImageType) (sampler : Operand) :
    Safe x v m (sampledImage r image sampler).run := by
  unfold sampledImage
  refine Yields.demand fun slot _ => .state_bind fun s _ _ => .demand fun variable_ _ => ?_
  refine .after (imageType_yields image).safe fun type n _ => ?_
  refine .after (loadFrom_routine .anything .anything).safe fun loaded o _ => ?_
  refine .after samplerType_safe fun type' p _ =>
    .after (loadFrom_routine .anything .anything).safe fun _ q _ => ?_
  refine .after (.declare _) fun joined r _ => emitValue_safe rfl joined _

@[grind ←]
theorem writeResourceResult_safe {op : Operand} (names : x.Names v op) (resource : Operand)
    (value : Value) (isSaturated : Bool) :
    Safe x v m (writeResourceResult op resource value isSaturated).run := by
  unfold writeResourceResult
  grind

end Lower

end ShaderLowering
