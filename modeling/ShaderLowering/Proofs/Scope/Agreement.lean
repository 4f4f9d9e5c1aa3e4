import ShaderLowering.Proofs.Interface.Redeclaration
import ShaderLowering.Proofs.Scope.Descriptors
import ShaderLowering.Proofs.Typing.Lowered

/-!
Declarations of one register. A register keeps the shape of its first declaration, and another
declaration is only accepted if it agrees with that one. So all accepted declarations of a register
agree, but for what is not compared: the stride of a view is that of the first declaration, whatever
the others say.
-/

namespace ShaderLowering

open Spirv (Id)

/-- The shape of the view that a descriptor stands for. -/
def Descriptor.shape (d : Descriptor) : RegisterShape :=
  .view (d.kind ≠ .storageBuffer) d.dimension d.stride

/-- The size of a constant buffer that an operand names, in elements. -/
def Operand.bufferSize (op : Operand) : Nat :=
  max 1 (min ((op.index? 1).elim maxConstantBufferElements (·.toNat)) maxConstantBufferElements)

namespace Instruction

/-- The register of a thread group memory declaration. -/
def groupRegister? (inst : Instruction) : Option ShapedRegister :=
  inst.dst[0]?.map fun op => .groupMemory ((op.index? 0).getD 0)

/-- The register that an instruction declares, and with which shape. -/
def shaped? (inst : Instruction) : Option (ShapedRegister × RegisterShape) :=
  let imm (n : Nat) : UInt32 := inst.imm.getD n 0
  match inst.op? with
  | some .dclConstantBuffer => do
    let op ← inst.src[0]?
    let slot ← op.index? 0
    some (.constantBuffer slot, .elements op.bufferSize)
  | some .dclIndexableTemp => some (.indexableTemp (imm 0), .elements (max (imm 1).toNat 1))
  | some .dclTgsmRaw =>
    inst.groupRegister?.map (·, .dwords 0 (max ((imm 0).toNat / 4) 1))
  | some .dclTgsmStructured =>
    inst.groupRegister?.map (·, .dwords (imm 0) (max ((imm 0).toNat / 4 * (imm 1).toNat) 1))
  | _ => inst.descriptor?.bind fun d =>
    match d.slotClass with
    | .shaderResource => some (.texture d.slot, d.shape)
    | .unorderedAccess => some (.uav d.slot, d.shape)
    | _ => none

/-- The shape that an instruction declares for a register, if it declares one. -/
def shapeOf? (inst : Instruction) (r : ShapedRegister) : Option RegisterShape :=
  if inst.family = .declaration then
    inst.shaped?.bind fun p => if p.1 = r then some p.2 else none
  else none

theorem shapeOf?_eq_some {inst : Instruction} {r : ShapedRegister} {x : RegisterShape} :
    inst.shapeOf? r = some x ↔ inst.family = .declaration ∧ inst.shaped? = some (r, x) := by
  unfold shapeOf?
  constructor
  · intro h
    split at h
    · next family =>
      obtain ⟨⟨r', x'⟩, is, same⟩ := Option.bind_eq_some_iff.1 h
      split at same
      · next here =>
        cases same
        cases here
        exact ⟨family, is⟩
      · cases same
    · cases h
  · rintro ⟨family, is⟩
    rw [if_pos family, is]
    simp

end Instruction

variable {env : Environment} {s t : State} {inst : Instruction} {op : Opcode}

/-- After a declaration the register has a shape that agrees with the declared one, and that one if
it had none. -/
def State.Adopts (s t : State) (r : ShapedRegister) (x : RegisterShape) : Prop :=
  ∃ y, t.shape? r = some y ∧ y.Agrees x ∧ (s.shape? r = none → y = x)

/-- A register gets the shape that is declared. -/
theorem State.Adopts.of_eq {r : ShapedRegister} {x : RegisterShape} (is : t.shape? r = some x) :
    s.Adopts t r x :=
  ⟨x, is, .refl x, fun _ => rfl⟩

namespace Lower

open Emission

/-- A check that has been passed. -/
theorem of_run_check {p : Prop} [Decidable p] {fault : Fault}
    (ran : (if p then failWith fault else Pure.pure () : Emission Unit).run env s = (.ok (), t)) :
    ¬p ∧ t = s := by
  split at ran
  · cases ran
  · next passed =>
    cases ran
    exact ⟨passed, rfl⟩

/-- A guard that has been passed. -/
theorem of_run_guard {p : Prop} [Decidable p] {fault : Fault} {k : Unit → Emission Unit}
    (ran : (if p then failWith fault >>= k else k ()).run env s = (.ok (), t)) :
    ¬p ∧ (k ()).run env s = (.ok (), t) := by
  split at ran
  · cases ran
  · next passed => exact ⟨passed, ran⟩

theorem declareIndexableTemp_shape {reg length : UInt32}
    (ran : (declareIndexableTemp reg length).run env s = (.ok (), t)) :
    t.shape? (.indexableTemp reg) = some (.elements (max length.toNat 1)) := by
  obtain ⟨_, ran⟩ := of_run_guard ran
  rw [run_state_bind] at ran
  split at ran
  · next first found =>
    obtain ⟨same, rfl⟩ := of_run_check ran
    rw [State.shape?, found, Option.map_some, not_not.1 same]
  · obtain ⟨id, found⟩ := Gives.of_run
      (fun _ t => ∃ id, t.indexableTemps.find? reg = some ⟨id, max length.toNat 1⟩) ran <|
      .bind fun element => .bind fun type => .bind fun id => .bind fun _ => .note fun s =>
        ⟨id, s.indexableTemps.find?_insert_self reg _⟩
    rw [State.shape?, found, Option.map_some]

theorem declareGroupMemory_shape {reg stride : UInt32} {length : Nat}
    (ran : (declareGroupMemory reg stride length).run env s = (.ok (), t)) :
    length ≤ maxGroupDwords ∧
      t.shape? (.groupMemory reg) = some (.dwords stride (max length 1)) := by
  obtain ⟨fits, ran⟩ := of_run_guard ran
  refine ⟨Nat.le_of_not_lt fits, ?_⟩
  rw [run_state_bind] at ran
  split at ran
  · next first found =>
    obtain ⟨same, rfl⟩ := of_run_check ran
    obtain ⟨stride', length'⟩ := not_or.1 same
    rw [State.shape?, found, Option.map_some, not_not.1 stride', not_not.1 length']
  · obtain ⟨id, found⟩ := Gives.of_run
      (fun _ t => ∃ id, t.groupMemory.find? reg = some ⟨id, stride, max length 1⟩) ran <|
      .bind fun word => .bind fun type => .bind fun id => .bind fun _ => .note fun s =>
        ⟨id, s.groupMemory.find?_insert_self reg _⟩
    rw [State.shape?, found, Option.map_some]

theorem groupMemoryRegister_eq_ok {reg : UInt32}
    (ran : (groupMemoryRegister inst).run env s = (.ok reg, t)) :
    inst.groupRegister? = some (.groupMemory reg) ∧ t = s := by
  obtain ⟨op, u, read_, is⟩ := run_bind_eq_ok.1 ran
  obtain ⟨given, rfl⟩ := orFault_run_eq_ok.1 read_
  cases is
  exact ⟨by rw [Instruction.groupRegister?, given, Option.map_some], rfl⟩

theorem lowerStructuredGroupMemory_shape {stride count : UInt32}
    (ran : (lowerStructuredGroupMemory inst stride count).run env s = (.ok (), t)) :
    stride.toNat / 4 * count.toNat ≤ maxGroupDwords ∧ ∃ r, inst.groupRegister? = some r ∧
      t.shape? r = some (.dwords stride (max (stride.toNat / 4 * count.toNat) 1)) := by
  obtain ⟨reg, u, found, ran₁⟩ := run_bind_eq_ok.1 ran
  obtain ⟨register, rfl⟩ := groupMemoryRegister_eq_ok found
  obtain ⟨_, ran₂⟩ := of_run_guard ran₁
  obtain ⟨fits, shape⟩ := declareGroupMemory_shape ran₂
  exact ⟨fits, _, register, shape⟩

theorem lowerConstantBufferDeclaration_shape (is : inst.op? = some .dclConstantBuffer)
    (ran : (lowerConstantBufferDeclaration inst).run env s = (.ok (), t)) :
    ∃ r x, inst.shaped? = some (r, x) ∧ t.shape? r = some x := by
  obtain ⟨op, s₁, read_, ran₁⟩ := run_bind_eq_ok.1 ran
  obtain ⟨operand, rfl⟩ := orFault_run_eq_ok.1 read_
  obtain ⟨slot, s₂, slot_, ran₂⟩ := run_bind_eq_ok.1 ran₁
  obtain ⟨index, rfl⟩ := declaredSlot_eq_ok slot_
  refine ⟨.constantBuffer slot, .elements op.bufferSize, ?_, ?_⟩
  · rw [Instruction.shaped?, is]
    simp only [operand, Option.bind_some, index, Option.bind_eq_bind]
  dsimp only at ran₂
  rw [run_state_bind] at ran₂
  split at ran₂
  · next first found =>
    obtain ⟨same, rfl⟩ := of_run_check ran₂
    rw [State.shape?, found, Option.map_some, not_not.1 same]
    rfl
  · obtain ⟨id, found⟩ := Gives.of_run
      (fun _ t => ∃ id, t.constantBuffers.find? slot = some ⟨id, op.bufferSize⟩) ran₂ <|
      .bind fun block => .bind fun id => .bind fun _ => .bind fun binding => .bind fun _ =>
        .note fun s => ⟨id, s.constantBuffers.find?_insert_self slot _⟩
    rw [State.shape?, found, Option.map_some]

theorem newTypedView_shape (slotClass : BindingClass) (slot : UInt32) (kind : ResourceKind)
    (dimension : ViewDimension) (image : ImageType) :
    Gives (fun made _ => made.1.shape = .view true dimension 0)
      (newTypedView slotClass slot kind dimension image) :=
  .bind fun _ => .bind fun _ => .bind fun _ => .pure fun _ => rfl

theorem newBuffer_shape (slotClass : BindingClass) (slot stride : UInt32) (isWritable : Bool) :
    Gives (fun made _ => made.1.shape = .view false .buffer stride)
      (newBuffer slotClass slot stride isWritable) :=
  .bind fun _ => .bind fun _ => .bind fun _ => .ite (.bind fun _ => .pure fun _ => rfl)
    (.bind fun _ => .bind fun _ => .pure fun _ => rfl)

/-- The dimension that a declaration of a view asks for. -/
def declaredDimension? (inst : Instruction) : Option ViewDimension :=
  if declaresTyped inst then (ViewShape.ofCode? inst.resourceDim).map (·.dimension)
  else some .buffer

/-- What a declaration of a view asks for. -/
def Asked (inst : Instruction) (x : RegisterShape) : Prop :=
  ∃ dimension, declaredDimension? inst = some dimension ∧
    x = .view (declaresTyped inst) dimension (declaredStride inst)

theorem asked_typed (typed : inst.op? = some .dclResource ∨ inst.op? = some .dclUavTyped)
    {shape : ViewShape} (known : ViewShape.ofCode? inst.resourceDim = some shape) :
    Asked inst (.view true shape.dimension 0) := by
  have is : declaresTyped inst = true := by
    rcases typed with typed | typed <;> simp [declaresTyped, typed]
  refine ⟨shape.dimension, ?_, ?_⟩
  · rw [declaredDimension?, if_pos is, known]
    rfl
  · rw [is, declaredStride, if_neg]
    rcases typed with typed | typed <;> simp [typed]

theorem asked_buffer (untyped : declaresTyped inst = false) :
    Asked inst (.view false .buffer (declaredStride inst)) :=
  ⟨.buffer, by rw [declaredDimension?, if_neg (by rw [untyped]; nofun)], by rw [untyped]⟩

theorem newTexture_asked (slot : UInt32) (notUav : inst.op? ≠ some .dclUavTyped) :
    Gives (fun made _ => Asked inst made.1.shape) (newTexture inst slot) := by
  unfold newTexture
  split
  · next typed =>
    exact .orFault_bind fun shape known => .bind fun _ =>
      (newTypedView_shape _ _ _ _ _).imp fun made _ is => is ▸ asked_typed (.inl typed) known
  · next untyped =>
    refine (newBuffer_shape _ _ _ _).imp fun made _ is => is ▸ asked_buffer ?_
    simp [declaresTyped, untyped, notUav]

theorem newUav_asked (slot : UInt32) (notResource : inst.op? ≠ some .dclResource) :
    Gives (fun made _ => Asked inst made.1.shape) (newUav inst slot) := by
  unfold newUav
  split
  · next typed =>
    exact .orFault_bind fun shape known => .bind fun env => .bind fun format => .bind fun _ =>
      (newTypedView_shape _ _ _ _ _).imp fun made _ is =>
        is ▸ asked_typed (.inr typed) (Option.filter_eq_some_iff.1 known).1
  · next untyped =>
    refine (newBuffer_shape _ _ _ _).imp fun made _ is => is ▸ asked_buffer ?_
    simp [declaresTyped, untyped, notResource]

/-- A view that passes the check is what the declaration asks for, but for the stride. -/
theorem of_run_checkRedeclared {letter : String} {slot : UInt32} {first : Resource}
    (ran : (checkRedeclared letter slot first inst).run env s = (.ok (), t)) :
    t = s ∧ ∃ x, Asked inst x ∧ first.shape.Agrees x := by
  obtain ⟨passed, rfl⟩ := of_run_check ran
  obtain ⟨typed, dimension⟩ := not_or.1 passed
  exact ⟨rfl, _, ⟨_, not_not.1 dimension, rfl⟩, (not_not.1 typed).symm, rfl⟩

/-- A typed declaration names the shape of its view. -/
theorem Asked.typed {x : RegisterShape} (asked : Asked inst x)
    (typed : inst.op? = some .dclResource ∨ inst.op? = some .dclUavTyped) :
    ∃ shape, ViewShape.ofCode? inst.resourceDim = some shape ∧
      x = .view true shape.dimension 0 := by
  obtain ⟨dimension, named, rfl⟩ := asked
  have is : declaresTyped inst = true := by
    rcases typed with typed | typed <;> simp [declaresTyped, typed]
  rw [declaredDimension?, if_pos is] at named
  obtain ⟨shape, known, rfl⟩ := Option.map_eq_some_iff.1 named
  refine ⟨shape, known, ?_⟩
  rw [is, declaredStride, if_neg]
  rcases typed with typed | typed <;> simp [typed]

theorem Asked.buffer {x : RegisterShape} (asked : Asked inst x)
    (untyped : declaresTyped inst = false) : x = .view false .buffer (declaredStride inst) := by
  obtain ⟨dimension, named, rfl⟩ := asked
  rw [declaredDimension?, if_neg (by rw [untyped]; nofun)] at named
  rw [untyped, Option.some.inj named]

/-- What asks for a view has a descriptor. -/
theorem exists_descriptor? (is : inst.op? = some op)
    (declares : Opcode.declaresTexture op = true ∨ Opcode.declaresUav op = true)
    {operand : Operand} {slot : UInt32} (dst : inst.dst[0]? = some operand)
    (index : operand.index? 0 = some slot) {x : RegisterShape} (asked : Asked inst x) :
    ∃ d, inst.descriptor? = some d := by
  have typed (typed : inst.op? = some .dclResource ∨ inst.op? = some .dclUavTyped) :
      ∃ shape, ViewShape.ofCode? inst.resourceDim = some shape :=
    (asked.typed typed).imp fun _ h => h.1
  refine Option.isSome_iff_exists.1 ?_
  cases op with
  | dclResource =>
    obtain ⟨shape, known⟩ := typed (.inl is)
    simp [Instruction.descriptor?, is, dst, index, known]
  | dclUavTyped =>
    obtain ⟨shape, known⟩ := typed (.inr is)
    simp [Instruction.descriptor?, is, dst, index, known]
  | dclResourceRaw | dclResourceStructured | dclUavRaw | dclUavStructured =>
    simp [Instruction.descriptor?, is, dst, index]
  | _ => rcases declares with h | h <;> cases h

/-- The descriptor of a declaration has the shape that is asked for. -/
theorem shape_of_descriptor? {d : Descriptor} {x : RegisterShape} (asked : Asked inst x)
    (isView : d.slotClass = .shaderResource ∨ d.slotClass = .unorderedAccess)
    (declared : inst.descriptor? = some d) : d.shape = x := by
  have known {shape shape' : ViewShape} (h : ViewShape.ofCode? inst.resourceDim = some shape)
      (h' : ViewShape.ofCode? inst.resourceDim = some shape') : shape' = shape :=
    Option.some.inj (h'.symm.trans h)
  unfold Instruction.descriptor? at declared
  split at declared
  · obtain ⟨_, _, rfl⟩ := Option.map_eq_some_iff.1 declared
    rcases isView with h | h <;> cases h
  · obtain ⟨_, _, rfl⟩ := Option.map_eq_some_iff.1 declared
    rcases isView with h | h <;> cases h
  · next is =>
    obtain ⟨_, _, rest⟩ := Option.bind_eq_some_iff.1 declared
    obtain ⟨shape, named, same⟩ := Option.bind_eq_some_iff.1 rest
    obtain ⟨shape', named', rfl⟩ := asked.typed (.inl is)
    cases same
    rw [known named named']
    simp only [Descriptor.shape]
    split <;> rfl
  · next is =>
    obtain ⟨_, _, rfl⟩ := Option.map_eq_some_iff.1 declared
    exact (asked.buffer (by simp [declaresTyped, is])).symm
  · next is =>
    obtain ⟨_, _, rfl⟩ := Option.map_eq_some_iff.1 declared
    exact (asked.buffer (by simp [declaresTyped, is])).symm
  · next is =>
    obtain ⟨_, _, rest⟩ := Option.bind_eq_some_iff.1 declared
    obtain ⟨shape, named, same⟩ := Option.bind_eq_some_iff.1 rest
    obtain ⟨shape', named', rfl⟩ := asked.typed (.inr is)
    cases same
    rw [known named named']
    simp only [Descriptor.shape]
    split <;> rfl
  · next is =>
    obtain ⟨_, _, rfl⟩ := Option.map_eq_some_iff.1 declared
    exact (asked.buffer (by simp [declaresTyped, is])).symm
  · next is =>
    obtain ⟨_, _, rfl⟩ := Option.map_eq_some_iff.1 declared
    exact (asked.buffer (by simp [declaresTyped, is])).symm
  · cases declared

theorem lowerResourceDeclaration_shape (is : inst.op? = some op)
    (declares : Opcode.declaresTexture op = true)
    (ran : (lowerResourceDeclaration inst).run env s = (.ok (), t)) :
    ∃ d, inst.descriptor? = some d ∧ d.slotClass = .shaderResource ∧
      s.Adopts t (.texture d.slot) d.shape := by
  obtain ⟨operand, s₁, read_, ran₁⟩ := run_bind_eq_ok.1 ran
  obtain ⟨dst, rfl⟩ := orFault_run_eq_ok.1 read_
  obtain ⟨slot, s₂, slot_, ran₂⟩ := run_bind_eq_ok.1 ran₁
  obtain ⟨index, rfl⟩ := declaredSlot_eq_ok slot_
  have settled {x y : RegisterShape} (asked : Asked inst x)
      (entered : t.shape? (.texture slot) = some y) (agrees : y.Agrees x)
      (new : s₂.shape? (.texture slot) = none → y = x) :
      ∃ d, inst.descriptor? = some d ∧ d.slotClass = .shaderResource ∧
        s₂.Adopts t (.texture d.slot) d.shape := by
    obtain ⟨d, declared⟩ := exists_descriptor? is (.inl declares) dst index asked
    obtain ⟨class_, rfl⟩ := descriptor?_of_texture is declares dst index declared
    obtain rfl := shape_of_descriptor? asked (.inl class_) declared
    exact ⟨d, declared, class_, y, entered, agrees, new⟩
  rw [run_state_bind] at ran₂
  split at ran₂
  · next first found =>
    obtain ⟨rfl, x, asked, agrees⟩ := of_run_checkRedeclared ran₂
    have entered : t.shape? (.texture slot) = some first.shape := by
      rw [State.shape?, found, Option.map_some]
    exact settled asked entered agrees fun none_ => by cases entered.symm.trans none_
  · obtain ⟨⟨made, binding⟩, u, new, rest⟩ := run_bind_eq_ok.1 ran₂
    have asked := newTexture_asked slot (by rintro h; cases h.symm.trans is; cases declares)
      _ _ _ _ new
    have found : t.textures.find? slot = some made := Gives.of_run
      (fun _ t => t.textures.find? slot = some made) rest <|
      .bind fun _ => .bind fun _ => .note fun s => s.textures.find?_insert_self slot _
    exact settled asked (by rw [State.shape?, found, Option.map_some]) (.refl _) fun _ => rfl

theorem lowerUavDeclaration_shape (is : inst.op? = some op)
    (declares : Opcode.declaresUav op = true)
    (ran : (lowerUavDeclaration inst).run env s = (.ok (), t)) :
    ∃ d, inst.descriptor? = some d ∧ d.slotClass = .unorderedAccess ∧
      s.Adopts t (.uav d.slot) d.shape := by
  obtain ⟨operand, s₁, read_, ran₁⟩ := run_bind_eq_ok.1 ran
  obtain ⟨dst, rfl⟩ := orFault_run_eq_ok.1 read_
  obtain ⟨slot, s₂, slot_, ran₂⟩ := run_bind_eq_ok.1 ran₁
  obtain ⟨index, rfl⟩ := declaredSlot_eq_ok slot_
  have settled {x y : RegisterShape} (asked : Asked inst x)
      (entered : t.shape? (.uav slot) = some y) (agrees : y.Agrees x)
      (new : s₂.shape? (.uav slot) = none → y = x) :
      ∃ d, inst.descriptor? = some d ∧ d.slotClass = .unorderedAccess ∧
        s₂.Adopts t (.uav d.slot) d.shape := by
    obtain ⟨d, declared⟩ := exists_descriptor? is (.inr declares) dst index asked
    obtain ⟨class_, rfl⟩ := descriptor?_of_uav is declares dst index declared
    obtain rfl := shape_of_descriptor? asked (.inr class_) declared
    exact ⟨d, declared, class_, y, entered, agrees, new⟩
  rw [run_state_bind] at ran₂
  split at ran₂
  · next first found =>
    obtain ⟨rfl, x, asked, agrees⟩ := of_run_checkRedeclared ran₂
    have entered : t.shape? (.uav slot) = some first.shape := by
      rw [State.shape?, found, Option.map_some]
    exact settled asked entered agrees fun none_ => by cases entered.symm.trans none_
  · obtain ⟨⟨made, binding⟩, u, new, rest⟩ := run_bind_eq_ok.1 ran₂
    have asked := newUav_asked slot (by rintro h; cases h.symm.trans is; cases declares) _ _ _ _ new
    have enters (s : State) := s.uavs.find?_insert_self slot made
    have found : t.uavs.find? slot = some made := Gives.of_run
      (fun _ t => t.uavs.find? slot = some made) rest <|
      .ite (.bind fun _ => .bind fun _ => .bind fun _ => .note enters)
        (.bind fun _ => .bind fun _ => .note enters)
    exact settled asked (by rw [State.shape?, found, Option.map_some]) (.refl _) fun _ => rfl

/-- The declarations that have the descriptor of a view. -/
theorem declares_of_view {d : Descriptor} (declared : inst.descriptor? = some d) :
    (d.slotClass = .shaderResource →
      ∃ op, inst.op? = some op ∧ Opcode.declaresTexture op = true) ∧
    (d.slotClass = .unorderedAccess →
      ∃ op, inst.op? = some op ∧ Opcode.declaresUav op = true) := by
  unfold Instruction.descriptor? at declared
  split at declared
  · obtain ⟨_, _, rfl⟩ := Option.map_eq_some_iff.1 declared
    exact ⟨nofun, nofun⟩
  · obtain ⟨_, _, rfl⟩ := Option.map_eq_some_iff.1 declared
    exact ⟨nofun, nofun⟩
  · next is =>
    obtain ⟨_, _, rest⟩ := Option.bind_eq_some_iff.1 declared
    obtain ⟨_, _, same⟩ := Option.bind_eq_some_iff.1 rest
    cases same
    exact ⟨fun _ => ⟨_, is, rfl⟩, nofun⟩
  · next is =>
    obtain ⟨_, _, rfl⟩ := Option.map_eq_some_iff.1 declared
    exact ⟨fun _ => ⟨_, is, rfl⟩, nofun⟩
  · next is =>
    obtain ⟨_, _, rfl⟩ := Option.map_eq_some_iff.1 declared
    exact ⟨fun _ => ⟨_, is, rfl⟩, nofun⟩
  · next is =>
    obtain ⟨_, _, rest⟩ := Option.bind_eq_some_iff.1 declared
    obtain ⟨_, _, same⟩ := Option.bind_eq_some_iff.1 rest
    cases same
    exact ⟨nofun, fun _ => ⟨_, is, rfl⟩⟩
  · next is =>
    obtain ⟨_, _, rfl⟩ := Option.map_eq_some_iff.1 declared
    exact ⟨nofun, fun _ => ⟨_, is, rfl⟩⟩
  · next is =>
    obtain ⟨_, _, rfl⟩ := Option.map_eq_some_iff.1 declared
    exact ⟨nofun, fun _ => ⟨_, is, rfl⟩⟩
  · cases declared

/-- The register of a view gets the shape of its descriptor. -/
theorem shaped?_of_view {d : Descriptor} (declared : inst.descriptor? = some d) :
    (d.slotClass = .shaderResource → inst.shaped? = some (.texture d.slot, d.shape)) ∧
    (d.slotClass = .unorderedAccess → inst.shaped? = some (.uav d.slot, d.shape)) := by
  constructor
  · intro class_
    obtain ⟨op, is, declares⟩ := (declares_of_view declared).1 class_
    unfold Instruction.shaped?
    rw [is, declared]
    unfold Opcode.declaresTexture at declares
    split at declares
    · simp only [Option.bind_some, class_]
    · simp only [Option.bind_some, class_]
    · simp only [Option.bind_some, class_]
    · cases declares
  · intro class_
    obtain ⟨op, is, declares⟩ := (declares_of_view declared).2 class_
    unfold Instruction.shaped?
    rw [is, declared]
    unfold Opcode.declaresUav at declares
    split at declares
    · simp only [Option.bind_some, class_]
    · simp only [Option.bind_some, class_]
    · simp only [Option.bind_some, class_]
    · cases declares

/-- A declaration that is accepted leaves its register with a shape that agrees. -/
theorem lowerDeclaration_adopts {r : ShapedRegister} {x : RegisterShape}
    (shaped : inst.shaped? = some (r, x))
    (ran : (lowerDeclaration inst).run env s = (.ok (), t)) : s.Adopts t r x := by
  unfold Instruction.shaped? at shaped
  split at shaped
  · next is =>
    have lowers : lowerDeclaration inst = lowerConstantBufferDeclaration inst := by
      rw [lowerDeclaration, is]
      rfl
    rw [lowers] at ran
    obtain ⟨r', x', shaped', shape⟩ := lowerConstantBufferDeclaration_shape is ran
    rw [Instruction.shaped?, is] at shaped'
    cases shaped'.symm.trans shaped
    exact .of_eq shape
  · next is =>
    have lowers : lowerDeclaration inst =
        declareIndexableTemp (inst.imm.getD 0 0) (inst.imm.getD 1 0) := by
      rw [lowerDeclaration, is]
      rfl
    rw [lowers] at ran
    cases shaped
    exact .of_eq (declareIndexableTemp_shape ran)
  · next is =>
    have lowers : lowerDeclaration inst = (do
        let reg ← groupMemoryRegister inst
        declareGroupMemory reg 0 ((inst.imm.getD 0 0).toNat / 4) : Emission Unit) := by
      rw [lowerDeclaration, is]
      rfl
    rw [lowers] at ran
    obtain ⟨r', register, same⟩ := Option.map_eq_some_iff.1 shaped
    obtain ⟨reg, u, found, ran₁⟩ := run_bind_eq_ok.1 ran
    obtain ⟨register', rfl⟩ := groupMemoryRegister_eq_ok found
    cases same
    cases register.symm.trans register'
    exact .of_eq (declareGroupMemory_shape ran₁).2
  · next is =>
    have lowers : lowerDeclaration inst =
        lowerStructuredGroupMemory inst (inst.imm.getD 0 0) (inst.imm.getD 1 0) := by
      rw [lowerDeclaration, is]
      rfl
    rw [lowers] at ran
    obtain ⟨r', register, same⟩ := Option.map_eq_some_iff.1 shaped
    obtain ⟨_, r'', register', shape⟩ := lowerStructuredGroupMemory_shape ran
    cases same
    cases register.symm.trans register'
    exact .of_eq shape
  · obtain ⟨d, declared, is⟩ := Option.bind_eq_some_iff.1 shaped
    split at is
    · next class_ =>
      obtain ⟨op, known, declares⟩ := (declares_of_view declared).1 class_
      have lowers : lowerDeclaration inst = lowerResourceDeclaration inst := by
        rw [lowerDeclaration, known]
        cases op <;> first | rfl | cases declares
      rw [lowers] at ran
      obtain ⟨d', declared', _, adopts⟩ := lowerResourceDeclaration_shape known declares ran
      cases declared.symm.trans declared'
      cases is
      exact adopts
    · next class_ =>
      obtain ⟨op, known, declares⟩ := (declares_of_view declared).2 class_
      have lowers : lowerDeclaration inst = lowerUavDeclaration inst := by
        rw [lowerDeclaration, known]
        cases op <;> first | rfl | cases declares
      rw [lowers] at ran
      obtain ⟨d', declared', _, adopts⟩ := lowerUavDeclaration_shape known declares ran
      cases declared.symm.trans declared'
      cases is
      exact adopts
    · cases is

theorem lowerInstruction_adopts {r : ShapedRegister} {x : RegisterShape}
    (declares : inst.shapeOf? r = some x)
    (ran : result (lowerInstruction inst) env s = (.ok (), t)) : s.Adopts t r x := by
  obtain ⟨family, shaped⟩ := Instruction.shapeOf?_eq_some.1 declares
  obtain ⟨_, u, lowered, remembered⟩ := result_bind_eq_ok.1 ran
  cases remembered
  rw [lowerByFamily_declaration family] at lowered
  exact (lowerDeclaration_adopts shaped lowered : s.Adopts u r x)

end Lower

/-- The shape that the first of some instructions to declare a register gives it. -/
def firstShape? (insts : List Instruction) (r : ShapedRegister) : Option RegisterShape :=
  insts.findSome? (·.shapeOf? r)

/-- A state behind some instructions knows the shape of every register that they declare: the first
that is declared, which agrees with the others. -/
structure State.Shaped (insts : List Instruction) (s : State) : Prop where
  first : ∀ r x, firstShape? insts r = some x → s.shape? r = some x
  agrees : ∀ inst ∈ insts, ∀ r x, inst.shapeOf? r = some x →
    ∃ y, s.shape? r = some y ∧ y.Agrees x

/-- Views are compared in part. -/
def ShapedRegister.isView : ShapedRegister → Bool
  | .texture _ | .uav _ => true
  | _ => false

/-- Shapes of other registers that agree are the same. -/
theorem RegisterShape.Agrees.eq {r : ShapedRegister} {x y : RegisterShape} (h : y.Agrees x)
    (is : s.shape? r = some y) (other : r.isView = false) : y = x := by
  cases r with
  | constantBuffer | indexableTemp | groupMemory =>
    obtain ⟨_, _, rfl⟩ := Option.map_eq_some_iff.1 is
    exact h
  | texture | uav => cases other

section

variable {insts : List Instruction} {r : ShapedRegister} {x : RegisterShape}

theorem firstShape?_concat : firstShape? (insts ++ [inst]) r =
    (firstShape? insts r).or (inst.shapeOf? r) := by
  rw [firstShape?, List.findSome?_append]
  congr 1
  rw [List.findSome?_singleton]

/-- A register that is bound to a view has been declared. -/
theorem firstShape?_of_firstBound {slotClass : BindingClass} {slot : UInt32} {d : Descriptor}
    (bound : firstBound insts slotClass slot = some d) (noCounter : slotClass ≠ .uavCounter)
    (register : ∀ inst : Instruction, inst.descriptor? = some d →
      inst.shaped? = some (r, d.shape)) : firstShape? insts r ≠ none := by
  obtain ⟨inst, mem, binds⟩ := mem_of_firstBound bound
  have class_ := (key_of_firstBound bound).1
  rw [firstShape?, Ne, List.findSome?_eq_none_iff]
  intro none_
  have shape : inst.shapeOf? r = some d.shape := by
    refine Instruction.shapeOf?_eq_some.2 ?_
    unfold Instruction.bound? at binds
    split at binds
    · next family => exact ⟨family, register inst binds⟩
    · obtain ⟨_, _, rfl⟩ := Option.map_eq_some_iff.1 binds
      exact absurd class_.symm noCounter
  cases (none_ inst mem).symm.trans shape

/-- A view that is not declared has no shape. -/
theorem State.Catalogued.shape?_eq_none
    (h : s.Catalogued env fun d => firstBound insts d.slotClass d.slot = some d)
    (isView : r.isView = true) (undeclared : firstShape? insts r = none) : s.shape? r = none := by
  have declared {slotClass : BindingClass} {slot : UInt32} {id : Id}
      (bound : s.bound slotClass slot = some id) :
      ∃ d, firstBound insts slotClass slot = some d := by
    obtain ⟨d, _, is, rfl, rfl, _⟩ := h.registers slotClass slot id bound
    exact ⟨d, is⟩
  cases r with
  | texture slot =>
    cases found : s.textures.find? slot with
    | none => rw [State.shape?, found, Option.map_none]
    | some entry =>
      have bound : s.bound .shaderResource slot = some entry.variable_ := by
        rw [State.bound, found, Option.map_some]
      obtain ⟨d, is⟩ := declared bound
      obtain ⟨class_, rfl⟩ := key_of_firstBound is
      have noCounter : BindingClass.shaderResource ≠ .uavCounter := by decide
      exact absurd undeclared (firstShape?_of_firstBound is noCounter fun inst declares =>
        (Lower.shaped?_of_view declares).1 class_)
  | uav slot =>
    cases found : s.uavs.find? slot with
    | none => rw [State.shape?, found, Option.map_none]
    | some entry =>
      have bound : s.bound .unorderedAccess slot = some entry.variable_ := by
        rw [State.bound, found, Option.map_some]
      obtain ⟨d, is⟩ := declared bound
      obtain ⟨class_, rfl⟩ := key_of_firstBound is
      have noCounter : BindingClass.unorderedAccess ≠ .uavCounter := by decide
      exact absurd undeclared (firstShape?_of_firstBound is noCounter fun inst declares =>
        (Lower.shaped?_of_view declares).2 class_)
  | constantBuffer | indexableTemp | groupMemory => cases isView

theorem State.Shaped.step {t : State} (shaped : s.Shaped insts)
    (h : s.Catalogued env fun d => firstBound insts d.slotClass d.slot = some d)
    (remembers : s.Remembers t)
    (ran : Lower.result (Lower.lowerInstruction inst) env s = (.ok (), t)) :
    t.Shaped (insts ++ [inst]) := by
  refine ⟨fun r x is => ?_, fun i mem r x declares => ?_⟩
  · rw [firstShape?_concat] at is
    rcases Option.or_eq_some_iff.1 is with before | ⟨undeclared, declares⟩
    · exact remembers r x (shaped.first r x before)
    · obtain ⟨y, entered, agrees, new⟩ := Lower.lowerInstruction_adopts declares ran
      cases isView : r.isView with
      | false => rw [entered, agrees.eq entered isView]
      | true => rw [entered, new (h.shape?_eq_none isView undeclared)]
  · rcases List.mem_append.1 mem with old | here
    · obtain ⟨y, known, agrees⟩ := shaped.agrees i old r x declares
      exact ⟨y, remembers r y known, agrees⟩
    · rw [List.mem_singleton.1 here] at declares
      obtain ⟨y, entered, agrees, _⟩ := Lower.lowerInstruction_adopts declares ran
      exact ⟨y, entered, agrees⟩

end

namespace Lowering

variable {version : SpirvVersion} {stage : StageState} {l m first : Lowering}
  {insts : List Instruction} {x : Configuration}

theorem steps_shaped {before : List Instruction} (at_ : l.environment = env)
    (here : x.state = l.state) (settled : x.Settled) (course : Course env version stage before x)
    (shaped : l.state.Shaped before) (ran : l.steps insts = .ok m) :
    m.state.Shaped (before ++ insts) := by
  induction insts generalizing l before x with
  | nil =>
    cases ran
    rwa [List.append_nil]
  | cons inst rest ih =>
    obtain ⟨n, stepped, more⟩ := steps_cons.1 ran
    obtain ⟨ran, same⟩ := step_eq_ok.1 stepped
    rw [at_] at ran
    rw [← here] at ran shaped
    obtain ⟨r, path, settled, covered⟩ := Lower.lowerInstruction_path settled ran
    have shaped := shaped.step course.catalogued.1 path.remembers ran
    rw [List.append_cons]
    exact ih (same.trans at_) rfl settled (course.step path covered) shaped more

/-- Accepted declarations of a register agree, and what accesses go by is the first of them. The
strides of views are not compared. -/
theorem steps_shapes (started : start env = .ok first) (accepted : first.steps insts = .ok l) :
    (∀ i ∈ insts, ∀ j ∈ insts, ∀ r x y, i.shapeOf? r = some x → j.shapeOf? r = some y →
      x.Agrees y) ∧
    ∀ r x, firstShape? insts r = some x → l.state.shape? r = some x := by
  obtain ⟨at_, stage, r, _, course, settled⟩ := start_course started
  have none_ : first.state.Shaped [] := by
    refine ⟨fun r x is => ?_, fun _ mem => absurd mem List.not_mem_nil⟩
    cases (show none = some x from is)
  have shaped : l.state.Shaped ([] ++ insts) := steps_shaped at_ rfl settled course none_ accepted
  refine ⟨fun i hi j hj r x y hx hy => ?_, shaped.first⟩
  obtain ⟨z, known, agrees⟩ := shaped.agrees i hi r x hx
  obtain ⟨z', known', agrees'⟩ := shaped.agrees j hj r y hy
  cases known.symm.trans known'
  exact agrees.symm.trans agrees'

end Lowering

/-- A pixel shader that declares one view with two strides. -/
def restrided : Program :=
  .assume [0x50, 11, 0x040000a2, 0x00107000, 0, 16, 0x040000a2, 0x00107000, 0, 32, 0x0100003e]

namespace Lowering

theorem steps_shapes_restrided :
    ∃ insts first l, restrided.instructions = .ok insts ∧
      start (restrided.environment insts ⟨[], [], []⟩ .default) = .ok first ∧
      first.steps insts = .ok l ∧
      (∀ i ∈ insts, ∀ j ∈ insts, ∀ r x y, i.shapeOf? r = some x → j.shapeOf? r = some y →
        x.Agrees y) ∧
      ∀ r x, firstShape? insts r = some x → l.state.shape? r = some x := by
  obtain ⟨_, insts, _, _, lowered, _, decoded, _⟩ :=
    exists_compile restrided ⟨[], [], []⟩ .default (fun _ _ _ => true) (by decide +kernel)
  obtain ⟨first, l, started, accepted, _⟩ := lowerInstructions_eq_ok.1 lowered
  exact ⟨insts, first, l, decoded, started, accepted, steps_shapes started accepted⟩

end Lowering

/-- The strides of views may differ in what compiles, and accesses go by the first. -/
theorem exists_restrided :
    ∃ insts l, restrided.instructions = .ok insts ∧
      lowerInstructions (restrided.environment insts ⟨[], [], []⟩ .default) insts = .ok l ∧
      insts.filterMap (·.shapeOf? (.texture 0)) =
        [.view false .buffer 16, .view false .buffer 32] ∧
      l.state.shape? (.texture 0) = some (.view false .buffer 16) := by
  obtain ⟨_, insts, l, _, lowered, _, decoded, evaluates⟩ :=
    exists_compile restrided ⟨[], [], []⟩ .default (fun insts _ l => decide
      (insts.filterMap (·.shapeOf? (.texture 0)) =
        [.view false .buffer 16, .view false .buffer 32] ∧
      l.state.shape? (.texture 0) = some (.view false .buffer 16))) (by decide +kernel)
  obtain ⟨declared, kept⟩ := of_decide_eq_true evaluates
  exact ⟨insts, l, decoded, lowered, declared, kept⟩

end ShaderLowering
