import ShaderLowering.Lowering.Atomic
import ShaderLowering.Proofs.Typing.Arithmetic
import ShaderLowering.Proofs.Typing.Resources

/-!
Buffer access and atomics are safe. The number of a dword is always computed, so every access to an
array of dwords has a path; texel pointers are taken into the images of atomic instructions alone.
-/

namespace ShaderLowering

open Spirv (Id Module)

/-- An array of dwords is thread group memory or a storage buffer. -/
inductive DwordArray.Holds (m : Module) (a : DwordArray) : Prop
  | group (storage : a.storage = .workgroup) (n : UInt32)
    (places : m.Places a.variable_ .workgroup (.array n (.vector (.single .u32))))
  | buffer (storage : a.storage = .storageBuffer)
    (places : m.Places a.variable_ .storageBuffer Shader.dwords)

theorem DwordArray.Holds.mono {m n : Module} {a : DwordArray} (h : a.Holds m) (grows : m.Grows n) :
    a.Holds n := by
  cases h with
  | group storage k places => exact .group storage k (places.mono grows)
  | buffer storage places => exact .buffer storage (places.mono grows)

namespace Lower

variable {x : Shader} {v : VertexCounts} {m : Module} {inst : Instruction} {op : Operand}

theorem dwordArray_yields (op : Operand) :
    Yields x v m (dwordArray op).run fun a n => a.Holds n := by
  refine .ite (fun _ => .demand fun reg _ => .state_bind fun s hs _ => ?_) fun _ => ?_
  · refine .demand fun memory found => .pure fun n grows => .group rfl (.ofNat memory.length) ?_
    exact (hs.tables.groupMemory.find? found).places.mono grows
  · refine .bind (resource_yields op) fun r n _ ⟨view, _⟩ => .ite (fun _ => .failBind)
      fun untyped => ?_
    refine .pure fun o grows => .buffer rfl (Module.Places.mono grows (Module.Houses.places ?_))
    cases is : r.image? with
    | none => simpa only [Shader.View, is] using view
    | some image => exact absurd (by rw [is]; rfl) untyped

@[grind ←]
theorem dwordPointer_safe {a : DwordArray} (holds : a.Holds m) {index : Id}
    (computed : m.Computes index) : Safe x v m (dwordPointer a index).run := by
  refine Yields.bind (scalarType_yields .u32) fun word n₁ grows₁ is => ?_
  have word_ : n₁.Is (.vector (.single .u32)) word := is
  refine .bind (pointerType_yields word_ a.storage) fun pointer n₂ grows₂ isPointer => ?_
  have grows := grows₁.trans grows₂
  cases holds with
  | group storage k places =>
    rw [if_pos storage]
    rw [storage] at isPointer
    have path : x.Path n₂ (.array k (.vector (.single .u32))) [index] (.single .u32) :=
      .element (.computed (computed.mono grows)) (.here _)
    exact (accessChain_yields isPointer (places.mono grows) path).safe
  | buffer storage places =>
    rw [if_neg (by rw [storage]; decide)]
    rw [storage] at isPointer
    refine .bind (constantU32_yields 0) fun member n₃ grows₃ zero => ?_
    have path : x.Path n₃ Shader.dwords [member, index] (.single .u32) :=
      .member zero (.unsized (.here _))
    exact (accessChain_yields (isPointer.mono grows₃) (places.mono (grows.trans grows₃)) path).safe

theorem dwordAt_yields (bytes : Id) :
    Yields x v m (dwordAt bytes).run fun id n => n.Computes id := by
  refine .after (scalarType_safe _) fun word n _ => .after (constantU32_safe _) fun two o _ => ?_
  exact (emitValue_free rfl word _).imp fun _ _ _ value => value.2

theorem firstDword_yields (stride : UInt32) {element? : Option Operand} {offset : Operand}
    (element : ∀ op, element? = some op → x.Names v op) (names : x.Names v offset) :
    Yields x v m (firstDword stride element? offset).run fun id n => n.Computes id := by
  refine .after (readScalar_safe names _) fun offset n _ => ?_
  cases element? with
  | none => exact .pureBind (dwordAt_yields _)
  | some op =>
    refine .after (readScalar_safe (element op rfl) _) fun element o _ => ?_
    exact .after (structureByte_routine _ .anything .anything).safe fun bytes p _ =>
      dwordAt_yields bytes

theorem dwordAfter_yields {first : Id} (computed : m.Computes first) (count : Nat) :
    Yields x v m (dwordAfter first count).run fun id n => n.Computes id := by
  refine .ite (fun _ => .pure fun _ grows => computed.mono grows) fun _ => ?_
  refine .after (scalarType_safe _) fun word n _ => .after (constantU32_safe _) fun two o _ => ?_
  exact (emitValue_free rfl word _).imp fun _ _ _ value => value.2

/-- Pointing to one of the dwords of an access. -/
theorem dwordPointerAfter_safe {α : Type} {a : DwordArray} (holds : a.Holds m) {first : Id}
    (computed : m.Computes first) (count : Nat) {f : Id → Emission α}
    (later : ∀ pointer, Safe x v m (f pointer).run) :
    Safe x v m (dwordAfter first count >>= fun index => dwordPointer a index >>= f).run := by
  refine Yields.bind (dwordAfter_yields computed count) fun index n grows computed => ?_
  exact .after (dwordPointer_safe (holds.mono grows) computed) fun pointer o more =>
    (later pointer).grow (grows.trans more)

theorem bufferSources_yields (runs : x.Runs v inst) (isStructured : Bool) :
    Yields x v m (bufferSources inst isStructured).run fun r _ =>
      (∀ op, r.1 = some op → x.Names v op) ∧ x.Names v r.2.1 ∧ x.Names v r.2.2 := by
  refine .ite (fun _ => ?_) fun _ => ?_
  · refine .source runs fun element _ named => .source runs fun offset _ named' => ?_
    refine .source runs fun last _ named'' => .pure fun _ _ => ⟨fun op is => ?_, named', named''⟩
    cases is
    exact named
  · refine .source runs fun offset _ named => .source runs fun last _ named' => ?_
    exact .pure fun _ _ => ⟨nofun, named, named'⟩

theorem lowerBufferLoad_safe (runs : x.Runs v inst) : Safe x v m (lowerBufferLoad inst).run := by
  refine Yields.destination runs fun op _ out => ?_
  refine .bind (bufferSources_yields runs _) fun (element?, offset, resourceOp) n₁ _ named => ?_
  obtain ⟨element, offset, _⟩ := named
  refine .bind (dwordArray_yields resourceOp) fun array n₂ _ holds => ?_
  refine .bind (firstDword_yields _ element offset) fun first n₃ grows₃ computed => ?_
  refine .after (scalarType_safe _) fun word n₄ grows₄ => ?_
  refine .after (.mapM (fun lane => ?_) _) fun parts n₅ _ => ?_
  · exact dwordPointerAfter_safe (holds.mono (grows₃.trans grows₄)) (computed.mono grows₄) lane
      fun pointer => (loadFrom_routine .anything .anything).safe
  · exact .ite (fun _ => .pure fun _ _ => trivial) fun _ =>
      .after (compose_routine _ .anything).safe fun value n₆ _ => writeOperand_safe out value false

theorem lowerBufferStore_safe (runs : x.Runs v inst) : Safe x v m (lowerBufferStore inst).run := by
  refine Yields.destination runs fun op _ out => ?_
  refine .bind (bufferSources_yields runs _) fun (element?, offset, valueOp) n₁ _ named => ?_
  obtain ⟨element, offset, value⟩ := named
  refine .ite (fun _ => .pure fun _ _ => trivial) fun _ => ?_
  refine .bind (dwordArray_yields op) fun array n₂ _ holds => ?_
  refine .bind (firstDword_yields _ element offset) fun first n₃ grows₃ computed => ?_
  refine .after (readOperand_safe value _) fun value n₄ grows₄ => ?_
  refine .after (bitcast_routine .anything _).safe fun value n₅ grows₅ => ?_
  refine .after (.forIn (fun (component, i) _ => ?_) _ _) fun _ n₆ _ => .pure fun _ _ => trivial
  refine dwordPointerAfter_safe (holds.mono ((grows₃.trans grows₄).trans grows₅))
    (computed.mono (grows₄.trans grows₅)) component fun pointer => ?_
  grind -linarith

theorem lowerTypedLoad_safe (runs : x.Runs v inst) (family : inst.family = .typedUavLoad) :
    Safe x v m (lowerTypedLoad inst).run := by
  refine Yields.destination runs fun op _ out => .source runs fun resourceOp view _ => ?_
  have view : inst.view? = some resourceOp := by rw [Instruction.view?, family, view]
  refine .bind (typedImage_yields resourceOp) fun (resource, image) n₁ _ viewed => ?_
  refine .source runs fun address _ at_ => .after (readVector_safe at_ _ _)
    fun coord n₂ grows₂ => ?_
  refine .bind (loadImage_yields resource image) fun loaded n₃ grows₃ is => ?_
  have views (storage : image.isStorage = true) :
      x.Views n₃ [.textureFetch, .typedUavLoad] image :=
    (viewed.mono (grows₂.trans grows₃)).views runs.1.mem (by simp [family]) view
      (viewed.isWritable storage)
  have read : Safe x v n₃ (operate .imageRead (.four image.sampled) [loaded, coord.id]).run := by
    refine Yields.after (vectorType_safe _) fun typeId n₄ grows₄ => ?_
    refine .after ?_ fun id _ _ => .pure fun _ _ => trivial
    exact (imageRead_safe is views typeId [.id coord.id]).grow grows₄
  exact .after read fun value n₄ _ => writeResourceResult_safe out _ _ _

theorem lowerTypedStore_safe (runs : x.Runs v inst) (family : inst.family = .typedUavStore) :
    Safe x v m (lowerTypedStore inst).run := by
  refine Yields.destination runs fun op view _ => ?_
  have view : inst.view? = some op := by rw [Instruction.view?, family, view]
  refine .bind (typedImage_yields op) fun (resource, image) n₁ _ viewed => ?_
  refine .source runs fun address _ at_ => .after (readVector_safe at_ _ _)
    fun coord n₂ grows₂ => ?_
  refine .source runs fun value _ named => .after (readOperand_safe named _)
    fun value n₃ grows₃ => ?_
  refine .after (bitcast_routine .anything _).safe fun value n₄ grows₄ => ?_
  refine .bind (loadImage_yields resource image) fun loaded n₅ grows₅ ⟨type, typed, is⟩ => ?_
  have before := ((grows₂.trans grows₃).trans grows₄).trans grows₅
  refine .push fun n grows => ⟨loaded, _, type, image, rfl, typed.mono grows, is.mono grows, ?_⟩
  exact fun storage => ((viewed.mono before).views runs.1.mem (by simp [family]) view
    (viewed.isWritable storage)).mono grows

theorem lowerBufferQuery_safe (runs : x.Runs v inst) : Safe x v m (lowerBufferQuery inst).run := by
  refine .destination runs fun op out => .source runs fun resourceOp _ => ?_
  refine .bind (resource_yields resourceOp).safe fun resource => .bind (scalarType_safe _)
    fun word => ?_
  split <;> grind -linarith

theorem atomicDword_yields (array : DwordArray) (names : x.Names v op) :
    Yields x v m (atomicDword array op).run fun id n => n.Computes id := by
  refine .ite (fun _ => firstDword_yields _ nofun names) fun _ => ?_
  refine .after (readVector_safe names _ _) fun address n₁ _ => ?_
  refine .after (extract_routine .anything _).safe fun element n₂ _ =>
    .after (extract_routine .anything _).safe
    fun offset n₃ _ => ?_
  exact .after (structureByte_routine _ .anything .anything).safe fun bytes n₄ _ =>
    dwordAt_yields bytes

theorem atomicTexel_safe {resource : Resource} {image : ImageType}
    (places : m.Places resource.variable_ .uniformConstant (.image image))
    (views : x.Views m [.atomic] image) (names : x.Names v op) :
    Safe x v m (atomicTexel resource image op).run := by
  refine Yields.after (readVector_safe names _ _) fun coord n₁ grows₁ => ?_
  refine .after (scalarType_safe _) fun texel n₂ grows₂ => ?_
  refine .after (pointerType_safe _ _) fun pointer n₃ grows₃ => ?_
  refine .after (constantU32_safe _) fun sample n₄ grows₄ => ?_
  have before := ((grows₁.trans grows₂).trans grows₃).trans grows₄
  refine Yields.safe (emitValue_yields nofun fun n id grows => ?_)
  have grows := before.trans grows
  exact ⟨resource.variable_, _, image, rfl, places.mono grows, views.mono grows⟩

theorem typedView?_yields (op : Operand) :
    Yields x v m (typedView? op).run fun r n => ∀ resource image, r = some (resource, image) →
      op.type = .uav ∧ x.Viewed n op resource.variable_ image := by
  refine .ite (fun type => ?_) fun _ => .pure fun _ _ _ _ none_ => by cases none_
  refine .bind (resource_yields op) fun r n _ ⟨_, viewed⟩ =>
    .pure fun o grows resource image is => ?_
  obtain ⟨found, some_, same⟩ := Option.map_eq_some_iff.1 is
  obtain ⟨rfl, rfl⟩ := Prod.mk.inj same
  exact ⟨type, (viewed found some_).mono grows⟩

theorem atomicTarget_safe {op address : Operand} (mem : inst ∈ x.insts)
    (family : inst.family = .atomic) (view : inst.view? = some op) (names : x.Names v address) :
    Safe x v m (atomicTarget op address).run := by
  refine Yields.bind (typedView?_yields op) fun r n grows typed => ?_
  split
  · next resource image =>
    obtain ⟨type, viewed⟩ := typed resource image rfl
    have atomic : inst.family ∈ [Opcode.Family.atomic] := by simp [family]
    have views := viewed.views mem atomic view type
    refine .after (atomicTexel_safe viewed.places views names) fun pointer o _ => ?_
    exact .pure fun _ _ => trivial
  · refine .bind (dwordArray_yields op) fun array o grows holds => ?_
    refine .bind (atomicDword_yields array names) fun index p later computed => ?_
    refine .after (dwordPointer_safe (holds.mono later) computed) fun pointer q _ => ?_
    exact .pure fun _ _ => trivial

theorem lowerAtomic_safe (runs : x.Runs v inst) (family : inst.family = .atomic) :
    Safe x v m (lowerAtomic inst).run := by
  unfold lowerAtomic
  extract_lets compares perform
  have perform_safe (out? : Option Operand) (op : Operand)
      (named : ∀ out, out? = some out → x.Names v out) (view : inst.view? = some op) :
      Safe x v m (perform (out?, op)).run := by
    refine .source runs fun address at_ => ?_
    refine .bind (atomicTarget_safe runs.1.mem family view at_) fun target => ?_
    refine .bind (scalarType_safe _) fun type => .bind (constant_safe _ _) fun scope => ?_
    refine .bind (constant_safe _ _) fun semantics => .source runs fun first first_ => ?_
    refine .bind (readScalar_safe first_ _) fun first => ?_
    extract_lets finish
    have finish_safe (id : Id) : Safe x v m (finish id).run := by
      unfold finish
      split
      · next out => exact writeOperand_safe (named out rfl) _ _
      · exact .pure _
    refine .ite (.source runs fun value value_ => .bind (readScalar_safe value_ _) fun value =>
      .bind (emitValue_safe rfl _ _) finish_safe) ?_
    split
    · next f is =>
      obtain ⟨op, _, is⟩ := Option.bind_eq_some_iff.1 is
      have computes := atomicOp?_isRoutine is
      exact .bind (emitValue_safe (Spirv.Op.isFree_of_isRoutine computes) _ _) finish_safe
    · exact .bind (unsupported_safe _) finish_safe
  refine Yields.ite (fun two => ?_) fun one => ?_
  · refine .destination runs fun out _ named => .destination runs fun op found _ => .pureBind ?_
    refine perform_safe (some out) op (fun out' is => ?_) ?_
    · cases is
      exact named
    · simp only [Instruction.view?, family, two, if_true, found]
  · refine .destination runs fun op found _ => .pureBind (perform_safe none op nofun ?_)
    simp only [Instruction.view?, family, one, if_false, found]

theorem uavCounter_yields (slot : UInt32) :
    Yields x v m (uavCounter slot).run fun id n =>
      n.Houses id .storageBuffer (.block (.vector (.single .u32))) := by
  refine .state_bind fun s hs _ => .demand fun resource found => ?_
  have known := hs.tables.uavs.find? found
  split
  · next counter is => exact .pure fun n grows => (known.counter counter is).mono grows
  · refine .after requireStorageBuffers_safe fun _ n₁ grows₁ => ?_
    refine .bind counterBlock_yields fun block n₂ grows₂ is => ?_
    refine .bind (newVariable_places is rfl none) fun id n₃ grows₃ houses => ?_
    refine .after (name_safe _ _) fun _ n₄ grows₄ => ?_
    refine .after (defineSlot_safe _ _ _ _ _) fun binding n₅ grows₅ => ?_
    refine .after (decorateBinding_safe _ _) fun _ n₆ grows₆ => ?_
    have later := (grows₄.trans grows₅).trans grows₆
    have before := ((grows₁.trans grows₂).trans grows₃).trans later
    refine .after (Yields.noteTables (fun _ => rfl) (fun _ => rfl) (fun _ => rfl) ?_)
      fun _ n₇ grows₇ => .pure fun n grows => ((houses.mono later).mono grows₇).mono grows
    refine fun t tables grows => { tables with uavs := tables.uavs.insert ?_ }
    have view := known.mono (before.trans grows)
    refine ⟨view.view, view.image, fun c is => ?_⟩
    cases is
    exact houses.mono (later.trans grows)

theorem lowerCounter_safe (runs : x.Runs v inst) : Safe x v m (lowerCounter inst).run := by
  refine Yields.destination runs fun op _ out => .source runs fun uav _ _ =>
    .demand fun slot _ => ?_
  refine .bind (uavCounter_yields slot) fun counter n₁ _ houses => ?_
  refine .bind (scalarType_yields .u32) fun word n₂ grows₂ is => ?_
  have word_ : n₂.Is (.vector (.single .u32)) word := is
  refine .bind (constantU32_yields 0) fun member n₃ grows₃ zero => ?_
  refine .after (constantU32_safe _) fun one n₄ grows₄ => ?_
  refine .bind (pointerType_yields (word_.mono (grows₃.trans grows₄)) .storageBuffer)
    fun pointer n₅ grows₅ isPointer => ?_
  have path : x.Path n₅ (.block (.vector (.single .u32))) [member] (.single .u32) :=
    .member (zero.mono (grows₄.trans grows₅)) (.here _)
  have before := ((grows₂.trans grows₃).trans grows₄).trans grows₅
  refine .after (accessChain_yields isPointer (houses.places.mono before) path).safe
    fun pointer n₆ _ => ?_
  change Safe x v n₆ _
  grind -linarith

theorem lowerBarrier_safe (inst : Instruction) : Safe x v m (lowerBarrier inst).run := by
  unfold lowerBarrier
  grind -linarith

end Lower

end ShaderLowering
