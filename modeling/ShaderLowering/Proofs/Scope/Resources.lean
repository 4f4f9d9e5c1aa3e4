import ShaderLowering.Proofs.Scope.Operands
import ShaderLowering.Proofs.Typing.Resources

/-!
Resources. A declaration makes a variable, enters its register in the table of descriptors and
decorates the variable with the binding of the register; taken together, that is one binding of the
register. Operands name the variables that have been declared.
-/

namespace ShaderLowering

open Spirv (Id Instr Arg Op Builder StorageClass Decoration)

/-- A variable has been made and its register entered, and only plain marks have been left. -/
structure Reserves (H : Limits) (env : Environment) (s t : State) (d : Descriptor) (id : Id)
    (binding : Nat) : Prop where
  bound : bindingOf env.stage d.slotClass d.slot = .ok binding
  made : ∃ storage marks, Creates H s t id storage marks ∧ (∀ i ∈ marks, i.IsPlainMark) ∧
    t.accounts =
      { s.accounts with
        listed := (id, storage) :: s.globals
        slots := enterSlot s.slots env.stage d binding }

/-- The register that a declaration binds to a descriptor, with what it says of it. -/
def Instruction.descriptor? (inst : Instruction) : Option Descriptor :=
  match inst.op? with
  | some .dclConstantBuffer => (inst.src[0]?.bind (·.index? 0)).map fun slot =>
    ⟨.constantBuffer, slot, .constantBuffer, .none, 0⟩
  | some .dclSampler => (inst.dst[0]?.bind (·.index? 0)).map fun slot =>
    ⟨.sampler, slot, .sampler, .none, 0⟩
  | some .dclResource => do
    let slot ← inst.dst[0]?.bind (·.index? 0)
    let shape ← ViewShape.ofCode? inst.resourceDim
    some ⟨.shaderResource, slot,
      if shape.dim = .buffer then .uniformTexelBuffer else .sampledImage, shape.dimension, 0⟩
  | some .dclResourceRaw | some .dclResourceStructured =>
    (inst.dst[0]?.bind (·.index? 0)).map fun slot =>
      ⟨.shaderResource, slot, .storageBuffer, .buffer, Lower.declaredStride inst⟩
  | some .dclUavTyped => do
    let slot ← inst.dst[0]?.bind (·.index? 0)
    let shape ← ViewShape.ofCode? inst.resourceDim
    some ⟨.unorderedAccess, slot,
      if shape.dim = .buffer then .storageTexelBuffer else .storageImage, shape.dimension, 0⟩
  | some .dclUavRaw | some .dclUavStructured =>
    (inst.dst[0]?.bind (·.index? 0)).map fun slot =>
      ⟨.unorderedAccess, slot, .storageBuffer, .buffer, Lower.declaredStride inst⟩
  | _ => none

/-- A register is bound by its first declaration, and nothing comes of another. -/
def Settles (H : Limits) (env : Environment) (s u : State) (d? : Option Descriptor) : Prop :=
  (u = s ∧ ∀ d, d? = some d → (s.bound d.slotClass d.slot).isSome) ∨
    ∃ d t, d? = some d ∧ Acts H env s t ∧ t.accounts = s.accounts ∧ Binds H env t u d

/-- What is bound stays bound to its variable. -/
theorem Act.bound {H : Limits} {env : Environment} {s t : State} {slotClass : BindingClass}
    {slot : UInt32} {id : Id} (h : Act H env s t) (bound : s.bound slotClass slot = some id) :
    t.bound slotClass slot = some id := by
  cases h with
  | declare | declareNew | compute | emit | annotate => exact bound
  | create _ accounts | builtin _ _ _ accounts | locate _ _ _ _ accounts | note _ _ _ accounts =>
    rwa [show t.bound = s.bound from congrArg Accounts.bound accounts]
  | bind _ binds =>
    obtain ⟨_, _, _, _, _, _, _, accounts⟩ := binds.made
    rw [show t.bound = _ from congrArg Accounts.bound accounts]
    change (if _ ∧ _ then _ else _) = _
    split
    · next same =>
      obtain ⟨rfl, rfl⟩ := same
      cases binds.unbound.symm.trans bound
    · exact bound

theorem Acts.bound {H : Limits} {env : Environment} {s t : State} {slotClass : BindingClass}
    {slot : UInt32} {id : Id} (h : Acts H env s t) (bound : s.bound slotClass slot = some id) :
    t.bound slotClass slot = some id := by
  induction h with
  | refl => exact bound
  | tail _ last ih => exact last.bound ih

namespace State

variable (s : State) (slot : UInt32)

theorem bound_constantBuffer (c : ConstantBuffer) :
    { s with constantBuffers := s.constantBuffers.insert slot c : State }.bound =
      Function.updateAt s.bound .constantBuffer slot (some c.variable_) := by
  funext slotClass i
  cases slotClass <;> simp only [bound, Function.updateAt, Table.find?_insert, reduceCtorEq,
    false_and,
    true_and, if_false]
  split <;> rfl

theorem bound_sampler (id : Id) :
    { s with samplers := s.samplers.insert slot id : State }.bound =
      Function.updateAt s.bound .sampler slot (some id) := by
  funext slotClass i
  cases slotClass <;> simp only [bound, Function.updateAt, Table.find?_insert, reduceCtorEq,
    false_and,
    true_and, if_false]

theorem bound_texture (r : Resource) :
    { s with textures := s.textures.insert slot r : State }.bound =
      Function.updateAt s.bound .shaderResource slot (some r.variable_) := by
  funext slotClass i
  cases slotClass <;> simp only [bound, Function.updateAt, Table.find?_insert, reduceCtorEq,
    false_and,
    true_and, if_false]
  split <;> rfl

theorem bound_uav {r : Resource} (unbound : s.bound .unorderedAccess slot = none)
    (fresh : r.counter? = none) : { s with uavs := s.uavs.insert slot r : State }.bound =
      Function.updateAt s.bound .unorderedAccess slot (some r.variable_) := by
  have missing : s.uavs.find? slot = none := Option.map_eq_none_iff.1 unbound
  funext slotClass i
  cases slotClass <;> simp only [bound, Function.updateAt, Table.find?_insert, reduceCtorEq,
    false_and,
    true_and, if_false]
  · split <;> rfl
  · split
    · next same =>
      rw [same, missing]
      exact fresh
    · rfl

theorem bound_counter {r : Resource} {id : Id}
    (declared : s.bound .unorderedAccess slot = some r.variable_) :
    { s with uavs := s.uavs.insert slot { r with counter? := some id } : State }.bound =
      Function.updateAt s.bound .uavCounter slot (some id) := by
  funext slotClass i
  cases slotClass <;> simp only [bound, Function.updateAt, Table.find?_insert, reduceCtorEq,
    false_and,
    true_and, if_false]
  · split
    · next same => rw [same]; exact declared.symm
    · rfl
  · split <;> rfl

end State

section

variable {H : Limits} {T : Allowance} {env : Environment} {b : Builder} {s t u v : State}
  {d : Descriptor} {id : Id} {binding : Nat} {more : List Instr}

theorem Reserves.marks (h : Reserves H env s t d id binding) (marked : Marks t u more)
    (accounts : u.accounts = t.accounts) (plain : ∀ i ∈ more, i.IsPlainMark) :
    Reserves H env s u d id binding := by
  obtain ⟨storage, before, creates, each, made⟩ := h.made
  exact ⟨h.bound, storage, before ++ more, marked.creates creates,
    List.forall_mem_append.2 ⟨each, plain⟩, accounts.trans made⟩

/-- A variable is entered in the table of its registers. -/
structure Records (H : Limits) (d : Descriptor) (id : Id) (s t : State) : Prop where
  builder : t.builder = s.builder
  kept : ∀ b : Builder, s.Kept H b → b.Standing H id → t.Kept H b
  accounts : t.accounts =
    { s.accounts with bound := Function.updateAt s.bound d.slotClass d.slot (some id) }
  remembers : s.Remembers t

theorem Reserves.binds (h : Reserves H env s t d id binding)
    (marked : Marks t u
      [.plain .decorate [.id id, .word Decoration.descriptorSet.code, .word 0],
        .plain .decorate [.id id, .word Decoration.binding.code, .word (.ofNat binding)]])
    (same : u.accounts = t.accounts) (records : Records H d id u v)
    (unbound : s.bound d.slotClass d.slot = none) : Binds H env s v d := by
  obtain ⟨storage, before, creates, plain, made⟩ := h.made
  refine ⟨unbound, id, storage, binding, before, h.bound,
    (marked.creates creates).note records.builder records.kept records.remembers, plain, ?_⟩
  have bound : u.bound = s.bound := by
    have := congrArg Accounts.bound (same.trans made)
    exact this
  rw [records.accounts, bound, same, made]

namespace Lower

/-- Entering a register changes the table of descriptors only. -/
theorem defineSlot_eq_ok
    (ran : (defineSlot d.slotClass d.slot d.kind d.dimension d.stride).run env s =
      (.ok binding, t)) :
    bindingOf env.stage d.slotClass d.slot = .ok binding ∧
      t = { s with slots := enterSlot s.slots env.stage d binding } := by
  obtain ⟨e, u, read_, ran⟩ := Emission.run_bind_eq_ok.1 ran
  cases read_
  dsimp only at ran
  split at ran
  · cases ran
  next binding' bound =>
  obtain ⟨_, u, state_, ran⟩ := Emission.run_bind_eq_ok.1 ran
  cases state_
  split at ran
  · next existing found =>
    split at ran
    · obtain ⟨_, _, failed, _⟩ := Emission.run_bind_eq_ok.1 ran
      cases failed
    · cases ran
      refine ⟨bound, ?_⟩
      rw [enterSlot, found]
  · next missing =>
    cases ran
    refine ⟨bound, ?_⟩
    rw [enterSlot, missing]
    rfl

/-- The register of a variable that has just been made. -/
theorem defineSlot_reserves {storage : StorageClass} (creates : Creates H s t id storage more)
    (plain : ∀ i ∈ more, i.IsPlainMark)
    (listed : t.accounts = { s.accounts with listed := (id, storage) :: s.globals })
    (ran : (defineSlot d.slotClass d.slot d.kind d.dimension d.stride).run env t =
      (.ok binding, u)) :
    Reserves H env s u d id binding := by
  obtain ⟨bound, rfl⟩ := defineSlot_eq_ok ran
  refine ⟨bound, storage, more,
    creates.note rfl (fun b kept _ => { kept with }) (.of_eq rfl), plain,
    ?_⟩
  have slots : t.slots = s.slots := congrArg Accounts.slots listed
  change { t.accounts with slots := enterSlot t.slots env.stage d binding } = _
  rw [listed, slots]

theorem decorateBinding_marks (ran : (decorateBinding id binding).run env s = (.ok (), t)) :
    Marks s t
      [.plain .decorate [.id id, .word Decoration.descriptorSet.code, .word 0],
        .plain .decorate [.id id, .word Decoration.binding.code, .word (.ofNat binding)]] ∧
      t.accounts = s.accounts := by
  cases ran
  exact ⟨(Marks.annotate s rfl).trans (.annotate _ rfl), rfl⟩

/-- The last steps of a declaration. -/
theorem decorateBinding_binds {β : Type} {last : Emission β} {a : β}
    (reserves : Reserves H env s t d id binding)
    (ran : (decorateBinding id binding >>= fun _ => last).run env t = (.ok a, v))
    (records : ∀ u, s.Remembers u → u.bound = s.bound → last.run env u = (.ok a, v) →
      Records H d id u v)
    (unbound : s.bound d.slotClass d.slot = none) : Binds H env s v d := by
  obtain ⟨_, u, decorated, ran⟩ := Emission.run_bind_eq_ok.1 ran
  obtain ⟨marked, same⟩ := decorateBinding_marks decorated
  obtain ⟨_, _, creates, _, made⟩ := reserves.made
  exact reserves.binds marked same (records u (creates.remembers.trans marked.remembers)
    (congrArg Accounts.bound (same.trans made)) ran) unbound

/-- A variable under a name, in a register of its own. -/
theorem newDescriptor_binds {β : Type} {pointee : Id} {storage : StorageClass} {text : Id → String}
    {last : Id → Emission β} {a : β} (ready : Ready H s) (global : s.builder.Global H pointee)
    (ran : (newVariable pointee storage none >>= fun id => name id (text id) >>= fun _ =>
      defineSlot d.slotClass d.slot d.kind d.dimension d.stride >>= fun binding =>
      decorateBinding id binding >>= fun _ => last id).run env s = (.ok a, v))
    (records : ∀ id u, s.Remembers u → u.bound = s.bound → (last id).run env u = (.ok a, v) →
      Records H d id u v)
    (unbound : s.bound d.slotClass d.slot = none) :
    (∃ t, Acts H env s t ∧ t.accounts = s.accounts ∧ Binds H env t v d) ∧
      ∃ id u, (last id).run env u = (.ok a, v) := by
  obtain ⟨id, w, created, ran₁⟩ := Emission.run_bind_eq_ok.1 ran
  obtain ⟨t, acts, creates, listed, same⟩ := newVariable_creates ready global (by nofun) created
  obtain ⟨_, x, named, ran₂⟩ := Emission.run_bind_eq_ok.1 ran₁
  obtain ⟨more, marked, kept, plain⟩ := name_leaves (P := Instr.IsPlainMark) id (text id)
    _ _ _ named
  obtain ⟨binding, y, entered, ran₃⟩ := Emission.run_bind_eq_ok.1 ran₂
  have reserves := defineSlot_reserves (marked.creates creates) plain (kept.trans listed) entered
  have bound : t.bound = s.bound := congrArg Accounts.bound same
  obtain ⟨_, u, _, ended⟩ := Emission.run_bind_eq_ok.1 ran₃
  refine ⟨⟨t, acts, same, decorateBinding_binds reserves ran₃ ?_ (bound ▸ unbound)⟩, id, u, ended⟩
  exact fun u later same ran => records id u (acts.remembers.trans later) (same.trans bound) ran

theorem declaredSlot_eq_ok {op : Operand} {slotClass : BindingClass} {slot : UInt32}
    (ran : (declaredSlot op slotClass).run env s = (.ok slot, t)) :
    op.index? 0 = some slot ∧ t = s := by
  obtain ⟨index, u, found, rest⟩ := Emission.run_bind_eq_ok.1 ran
  obtain ⟨is, rfl⟩ := orFault_run_eq_ok.1 found
  dsimp only at rest
  split at rest
  · obtain ⟨_, _, failed, _⟩ := Emission.run_bind_eq_ok.1 rest
    cases failed
  · cases rest
    exact ⟨is, rfl⟩

theorem lowerConstantBufferDeclaration_settles {inst : Instruction}
    (is : inst.op? = some .dclConstantBuffer) (ready : Ready H s)
    (ran : (lowerConstantBufferDeclaration inst).run env s = (.ok (), u)) :
    Settles H env s u inst.descriptor? := by
  obtain ⟨op, s₁, read_, ran₁⟩ := Emission.run_bind_eq_ok.1 ran
  obtain ⟨operand, rfl⟩ := orFault_run_eq_ok.1 read_
  obtain ⟨slot, s₂, slot_, ran₂⟩ := Emission.run_bind_eq_ok.1 ran₁
  obtain ⟨index, rfl⟩ := declaredSlot_eq_ok slot_
  have declared : inst.descriptor? = some ⟨.constantBuffer, slot, .constantBuffer, .none, 0⟩ := by
    rw [Instruction.descriptor?, is]
    simp only [operand, Option.bind_some, index, Option.map_some]
  obtain ⟨_, s', state_, ran₃⟩ := Emission.run_bind_eq_ok.1 ran₂
  cases state_
  split at ran₃
  · next first found =>
    refine .inl ⟨?_, fun d same => ?_⟩
    · split at ran₃
      · cases ran₃
      · cases ran₃
        rfl
    · rw [declared] at same
      cases same
      change ((s₂.constantBuffers.find? slot).map _).isSome
      rw [found]
      rfl
  · next missing =>
    obtain ⟨block, t, block_, ran₄⟩ := Emission.run_bind_eq_ok.1 ran₃
    obtain ⟨acts, global⟩ := uniformBlock_establishes _ s₂ block t ready (.refl _) block_
    have same := uniformBlock_quiet _ s₂ block t block_
    have unbound : t.bound .constantBuffer slot = none := by
      rw [show t.bound = s₂.bound from congrArg Accounts.bound same]
      change (s₂.constantBuffers.find? slot).map _ = none
      rw [missing]
      rfl
    obtain ⟨⟨v, acts', same', binds⟩, _⟩ := newDescriptor_binds
      (d := ⟨.constantBuffer, slot, .constantBuffer, .none, 0⟩) (acts.ready ready) global ran₄
      (fun id w _ same last => by
        cases last
        refine ⟨rfl, fun b kept stands => { kept with
          constantBuffers := kept.constantBuffers.insert stands }, ?_,
          State.remembers_constantBuffer fun x known => ?_⟩
        · exact congrArg (fun bound => { w.accounts with bound }) (w.bound_constantBuffer slot _)
        · rw [← same] at unbound
          rw [State.shape?, Option.map_eq_none_iff.1 unbound] at known
          cases known)
      unbound
    exact .inr ⟨_, v, declared, acts.trans acts', same'.trans same, binds⟩

theorem lowerSamplerDeclaration_settles {inst : Instruction} (is : inst.op? = some .dclSampler)
    (ready : Ready H s) (ran : (lowerSamplerDeclaration inst).run env s = (.ok (), u)) :
    Settles H env s u inst.descriptor? := by
  obtain ⟨op, s₁, read_, ran₁⟩ := Emission.run_bind_eq_ok.1 ran
  obtain ⟨operand, rfl⟩ := orFault_run_eq_ok.1 read_
  obtain ⟨slot, s₂, slot_, ran₂⟩ := Emission.run_bind_eq_ok.1 ran₁
  obtain ⟨index, rfl⟩ := declaredSlot_eq_ok slot_
  have declared : inst.descriptor? = some ⟨.sampler, slot, .sampler, .none, 0⟩ := by
    rw [Instruction.descriptor?, is]
    simp only [operand, Option.bind_some, index, Option.map_some]
  obtain ⟨_, s', state_, ran₃⟩ := Emission.run_bind_eq_ok.1 ran₂
  cases state_
  split at ran₃
  · next found =>
    refine .inl ⟨?_, fun d same => ?_⟩
    · cases ran₃
      rfl
    · rw [declared] at same
      cases same
      exact found
  · next missing =>
    obtain ⟨type, t, type_, ran₄⟩ := Emission.run_bind_eq_ok.1 ran₃
    obtain ⟨acts, global⟩ := samplerType_establishes s₂ type t ready (.refl _) type_
    have same := samplerType_quiet s₂ type t type_
    have unbound : t.bound .sampler slot = none := by
      rw [show t.bound = s₂.bound from congrArg Accounts.bound same]
      exact Option.not_isSome_iff_eq_none.1 missing
    obtain ⟨⟨v, acts', same', binds⟩, _⟩ := newDescriptor_binds
      (d := ⟨.sampler, slot, .sampler, .none, 0⟩) (acts.ready ready) global ran₄
      (fun id w _ _ last => by
        cases last
        refine ⟨rfl, fun b kept stands => { kept with
          samplers := kept.samplers.insert stands }, ?_, .of_eq rfl⟩
        exact congrArg (fun bound => { w.accounts with bound }) (w.bound_sampler slot _))
      unbound
    exact .inr ⟨_, v, declared, acts.trans acts', same'.trans same, binds⟩

/-- A step that makes the variable of a view and enters its register, which is of some kind. -/
def Reserving (H : Limits) (env : Environment) (s : State) (P : Descriptor → Prop)
    (run : Environment → State → Except CompileError (Resource × Nat) × State) : Prop :=
  ∀ r binding u, run env s = (.ok (r, binding), u) →
    r.counter? = none ∧ ∃ d t, P d ∧ Acts H env s t ∧ t.accounts = s.accounts ∧
      Reserves H env t u d r.variable_ binding

variable {P : Descriptor → Prop}

theorem Reserving.demand {α : Type} {a? : Option α} {fault : Fault}
    {f : α → Emission (Resource × Nat)}
    (later : ∀ a, a? = some a → Reserving H env s P (f a).run) :
    Reserving H env s P (orFault a? fault >>= f).run := by
  intro r binding u ran
  obtain ⟨a, t, first, rest⟩ := Emission.run_bind_eq_ok.1 ran
  obtain ⟨is, rfl⟩ := orFault_run_eq_ok.1 first
  exact later a is r binding u rest

theorem Reserving.read_bind {f : Environment → Emission (Resource × Nat)}
    (h : Reserving H env s P (f env).run) :
    Reserving H env s P (read >>= f : Emission (Resource × Nat)).run :=
  fun r binding u ran => h r binding u ran

theorem Reserving.quiet {α : Type} {e : Emission α} {f : α → Emission (Resource × Nat)}
    {fact : α → Builder → Prop} (ready : Ready H s) (does : Does H env s.builder e.run fact)
    (quiet : IsQuiet env e.run)
    (later : ∀ a t, Ready H t → fact a t.builder → Reserving H env t P (f a).run) :
    Reserving H env s P (e >>= f).run := by
  intro r binding u ran
  obtain ⟨a, t, first, rest⟩ := Emission.run_bind_eq_ok.1 ran
  obtain ⟨acts, is⟩ := does s a t ready (.refl _) first
  obtain ⟨none_, d, v, kind, acts', same, reserves⟩ :=
    later a t (acts.ready ready) is r binding u rest
  exact ⟨none_, d, v, kind, acts.trans acts', same.trans (quiet s a t first), reserves⟩

theorem newTypedView_reserving (ready : Ready H s) (slotClass : BindingClass) (slot : UInt32)
    (kind : ResourceKind) (dimension : ViewDimension) (image : ImageType)
    (is : P ⟨slotClass, slot, kind, dimension, 0⟩) :
    Reserving H env s P (newTypedView slotClass slot kind dimension image).run := by
  refine .quiet ready (imageType_establishes image) (imageType_quiet image)
    fun type t ready global r binding u ran => ?_
  obtain ⟨id, v, created, ran₁⟩ := Emission.run_bind_eq_ok.1 ran
  obtain ⟨w, acts, creates, listed, same⟩ := newVariable_creates ready global (by nofun) created
  obtain ⟨binding', x, entered, ran₂⟩ := Emission.run_bind_eq_ok.1 ran₁
  cases ran₂
  exact ⟨rfl, _, w, is, acts, same,
    defineSlot_reserves creates (List.forall_mem_nil _) listed entered⟩

theorem newBuffer_reserving (ready : Ready H s) (slotClass : BindingClass) (slot stride : UInt32)
    (isWritable : Bool) (is : P ⟨slotClass, slot, .storageBuffer, .buffer, stride⟩) :
    Reserving H env s P (newBuffer slotClass slot stride isWritable).run := by
  have required : Leaves Instr.IsPlainMark env _ :=
    requireExtensionBefore_leaves 1 3 "SPV_KHR_storage_buffer_storage_class"
  refine .quiet ready required.does (.of_leaves required) fun _ t ready _ => ?_
  refine .quiet ready storageBlock_establishes storageBlock_quiet
    fun block t ready global r binding u ran => ?_
  obtain ⟨id, v, created, ran₁⟩ := Emission.run_bind_eq_ok.1 ran
  obtain ⟨w, acts, creates, listed, same⟩ := newVariable_creates ready global (by nofun) created
  have ends (x : State) (more : List Instr) (creates : Creates H w x id .storageBuffer more)
      (plain : ∀ i ∈ more, i.IsPlainMark)
      (listed : x.accounts = { w.accounts with listed := (id, .storageBuffer) :: w.globals })
      (ran : (defineSlot slotClass slot .storageBuffer .buffer stride >>= fun binding =>
        pure (⟨id, .buffer, none, stride, none⟩, binding) : Emission (Resource × Nat)).run env x =
          (.ok (r, binding), u)) : r.counter? = none ∧
        Reserves H env w u ⟨slotClass, slot, .storageBuffer, .buffer, stride⟩ r.variable_
          binding := by
    obtain ⟨binding', y, entered, rest⟩ := Emission.run_bind_eq_ok.1 ran
    cases rest
    exact ⟨rfl, defineSlot_reserves creates plain listed entered⟩
  have reserves : r.counter? = none ∧
      Reserves H env w u ⟨slotClass, slot, .storageBuffer, .buffer, stride⟩ r.variable_
        binding := by
    dsimp only at ran₁
    split at ran₁
    · exact ends v [] creates nofun listed ran₁
    · obtain ⟨_, x, decorated, rest⟩ := Emission.run_bind_eq_ok.1 ran₁
      obtain ⟨more, marked, kept, plain⟩ := decorate_plain id rfl [] _ _ _ decorated
      exact ends x more (marked.creates creates) plain (kept.trans listed) rest
  exact ⟨reserves.1, _, w, is, acts, same, reserves.2⟩

@[grind ←]
theorem requireDimension_leaves {P : Instr → Prop} (shape : ViewShape)
    (oneDimensional buffer cubeArray : Spirv.Capability) :
    Leaves P env (requireDimension shape oneDimensional buffer cubeArray).run := by
  unfold requireDimension
  split <;> first | exact requireCapability_leaves _ | exact .pure

theorem storageFormat_leaves {P : Instr → Prop} (access : UavAccess) (declared : ScalarType) :
    Leaves P env (storageFormat access declared).run := by
  refine .ite (fun _ => .pure) fun _ => .bind (requireCapability_leaves _) fun _ => ?_
  exact .ite (fun _ => .bind (requireCapability_leaves _) fun _ => .pure) fun _ => .pure

/-- The declarations of shader resources. -/
def Opcode.declaresTexture : Opcode → Bool
  | .dclResource | .dclResourceRaw | .dclResourceStructured => true
  | _ => false

/-- The declarations of unordered access views. -/
def Opcode.declaresUav : Opcode → Bool
  | .dclUavTyped | .dclUavRaw | .dclUavStructured => true
  | _ => false

theorem newTexture_reserving {inst : Instruction} {op : Opcode} {operand : Operand} {slot : UInt32}
    (is : inst.op? = some op) (declares : Opcode.declaresTexture op = true)
    (dst : inst.dst[0]? = some operand) (index : operand.index? 0 = some slot) (ready : Ready H s) :
    Reserving H env s (fun d => inst.descriptor? = some d ∧ d.slotClass = .shaderResource ∧
      d.slot = slot) (newTexture inst slot).run := by
  unfold newTexture
  split
  · next typed =>
    refine .demand fun shape found => ?_
    have required (P : Instr → Prop) : Leaves P env _ :=
      requireDimension_leaves shape .sampled1D .sampledBuffer .sampledCubeArray
    refine .quiet ready (required _).does (.of_leaves (required fun _ => True))
      fun _ t ready _ => ?_
    refine newTypedView_reserving ready _ _ _ _ _ ⟨?_, rfl, rfl⟩
    rw [Instruction.descriptor?, typed]
    simp only [dst, Option.bind_some, index, found, Option.bind_eq_bind]
  · next other =>
    refine newBuffer_reserving ready _ _ _ _ ⟨?_, rfl, rfl⟩
    rw [Instruction.descriptor?, is]
    unfold Opcode.declaresTexture at declares
    split at declares
    · exact absurd is other
    · simp only [dst, Option.bind_some, index, Option.map_some]
    · simp only [dst, Option.bind_some, index, Option.map_some]
    · cases declares

theorem newUav_reserving {inst : Instruction} {op : Opcode} {operand : Operand} {slot : UInt32}
    (is : inst.op? = some op) (declares : Opcode.declaresUav op = true)
    (dst : inst.dst[0]? = some operand) (index : operand.index? 0 = some slot) (ready : Ready H s) :
    Reserving H env s (fun d => inst.descriptor? = some d ∧ d.slotClass = .unorderedAccess ∧
      d.slot = slot) (newUav inst slot).run := by
  unfold newUav
  split
  · next typed =>
    refine .demand fun shape found => ?_
    refine .read_bind ?_
    have format (P : Instr → Prop) : Leaves P env _ := storageFormat_leaves
      (env.analysis.uav slot) (.ofReturnType (inst.imm.headD floatReturnType))
    refine .quiet ready (format _).does (.of_leaves (format fun _ => True)) fun _ t ready _ => ?_
    have required (P : Instr → Prop) : Leaves P env _ :=
      requireDimension_leaves shape .image1D .imageBuffer .imageCubeArray
    refine .quiet ready (required _).does (.of_leaves (required fun _ => True))
      fun _ t ready _ => ?_
    refine newTypedView_reserving ready _ _ _ _ _ ⟨?_, rfl, rfl⟩
    rw [Instruction.descriptor?, typed]
    simp only [dst, Option.bind_some, index, (Option.filter_eq_some_iff.1 found).1,
      Option.bind_eq_bind]
  · next other =>
    refine newBuffer_reserving ready _ _ _ _ ⟨?_, rfl, rfl⟩
    rw [Instruction.descriptor?, is]
    unfold Opcode.declaresUav at declares
    split at declares
    · exact absurd is other
    · simp only [dst, Option.bind_some, index, Option.map_some]
    · simp only [dst, Option.bind_some, index, Option.map_some]
    · cases declares

/-- The register that a shader resource declaration binds. -/
theorem descriptor?_of_texture {inst : Instruction} {op : Opcode} {operand : Operand}
    {slot : UInt32}
    (is : inst.op? = some op) (declares : Opcode.declaresTexture op = true)
    (dst : inst.dst[0]? = some operand) (index : operand.index? 0 = some slot)
    (declared : inst.descriptor? = some d) : d.slotClass = .shaderResource ∧ d.slot = slot := by
  rw [Instruction.descriptor?, is] at declared
  unfold Opcode.declaresTexture at declares
  split at declares
  · simp only [dst, Option.bind_some, index, Option.bind_eq_bind, Option.bind_eq_some_iff,
      Option.some.injEq] at declared
    obtain ⟨_, _, rfl⟩ := declared
    exact ⟨rfl, rfl⟩
  · simp only [dst, Option.bind_some, index, Option.map_some, Option.some.injEq] at declared
    exact declared ▸ ⟨rfl, rfl⟩
  · simp only [dst, Option.bind_some, index, Option.map_some, Option.some.injEq] at declared
    exact declared ▸ ⟨rfl, rfl⟩
  · cases declares

/-- The register that a declaration of an unordered access view binds. -/
theorem descriptor?_of_uav {inst : Instruction} {op : Opcode} {operand : Operand} {slot : UInt32}
    (is : inst.op? = some op) (declares : Opcode.declaresUav op = true)
    (dst : inst.dst[0]? = some operand) (index : operand.index? 0 = some slot)
    (declared : inst.descriptor? = some d) : d.slotClass = .unorderedAccess ∧ d.slot = slot := by
  rw [Instruction.descriptor?, is] at declared
  unfold Opcode.declaresUav at declares
  split at declares
  · simp only [dst, Option.bind_some, index, Option.bind_eq_bind, Option.bind_eq_some_iff,
      Option.some.injEq] at declared
    obtain ⟨_, _, rfl⟩ := declared
    exact ⟨rfl, rfl⟩
  · simp only [dst, Option.bind_some, index, Option.map_some, Option.some.injEq] at declared
    exact declared ▸ ⟨rfl, rfl⟩
  · simp only [dst, Option.bind_some, index, Option.map_some, Option.some.injEq] at declared
    exact declared ▸ ⟨rfl, rfl⟩
  · cases declares

/-- A repeated declaration changes nothing. -/
theorem checkRedeclared_eq_ok {letter : String} {slot : UInt32} {first : Resource}
    {inst : Instruction} (ran : (checkRedeclared letter slot first inst).run env s = (.ok (), t)) :
    t = s := by
  have agree {p : Prop} [Decidable p] {fault : Fault}
      (ran : (if p then failWith fault else pure () : Emission Unit).run env s = (.ok (), t)) :
      t = s := by
    split at ran
    · cases ran
    · cases ran
      rfl
  exact agree ran

theorem lowerResourceDeclaration_settles {inst : Instruction} {op : Opcode}
    (is : inst.op? = some op) (declares : Opcode.declaresTexture op = true) (ready : Ready H s)
    (ran : (lowerResourceDeclaration inst).run env s = (.ok (), u)) :
    Settles H env s u inst.descriptor? := by
  obtain ⟨operand, s₁, read_, ran₁⟩ := Emission.run_bind_eq_ok.1 ran
  obtain ⟨dst, rfl⟩ := orFault_run_eq_ok.1 read_
  obtain ⟨slot, s₂, slot_, ran₂⟩ := Emission.run_bind_eq_ok.1 ran₁
  obtain ⟨index, rfl⟩ := declaredSlot_eq_ok slot_
  obtain ⟨_, s', state_, ran₃⟩ := Emission.run_bind_eq_ok.1 ran₂
  cases state_
  split at ran₃
  · next first found =>
    refine .inl ⟨checkRedeclared_eq_ok ran₃, fun d same => ?_⟩
    obtain ⟨class_, at_⟩ := descriptor?_of_texture is declares dst index same
    rw [class_, at_]
    exact (Option.isSome_map ..).trans (by rw [found]; rfl)
  · next missing =>
    obtain ⟨⟨r, binding⟩, w, made, ran₄⟩ := Emission.run_bind_eq_ok.1 ran₃
    obtain ⟨_, d, t, ⟨declared, class_, rfl⟩, acts, same, reserves⟩ :=
      newTexture_reserving is declares dst index ready r binding w made
    obtain ⟨_, x, named, ran₅⟩ := Emission.run_bind_eq_ok.1 ran₄
    obtain ⟨more, marked, kept, plain⟩ := name_leaves (P := Instr.IsPlainMark) _ _ _ _ _ named
    have unbound : t.bound d.slotClass d.slot = none := by
      rw [show t.bound = s₂.bound from congrArg Accounts.bound same, class_]
      exact Option.map_eq_none_iff.2 missing
    have binds := decorateBinding_binds (reserves.marks marked kept plain) ran₅
      (fun u _ same last => by
        cases last
        refine ⟨rfl, fun b kept stands => { kept with textures := kept.textures.insert stands }, ?_,
          State.remembers_texture fun x known => ?_⟩
        · rw [class_]
          exact congrArg (fun bound => { u.accounts with bound }) (u.bound_texture d.slot r)
        · rw [← same, class_] at unbound
          rw [State.shape?, Option.map_eq_none_iff.1 unbound] at known
          cases known) unbound
    exact .inr ⟨d, t, declared, acts, same, binds⟩

theorem lowerUavDeclaration_settles {inst : Instruction} {op : Opcode}
    (is : inst.op? = some op) (declares : Opcode.declaresUav op = true) (ready : Ready H s)
    (ran : (lowerUavDeclaration inst).run env s = (.ok (), u)) :
    Settles H env s u inst.descriptor? := by
  obtain ⟨operand, s₁, read_, ran₁⟩ := Emission.run_bind_eq_ok.1 ran
  obtain ⟨dst, rfl⟩ := orFault_run_eq_ok.1 read_
  obtain ⟨slot, s₂, slot_, ran₂⟩ := Emission.run_bind_eq_ok.1 ran₁
  obtain ⟨index, rfl⟩ := declaredSlot_eq_ok slot_
  obtain ⟨_, s', state_, ran₃⟩ := Emission.run_bind_eq_ok.1 ran₂
  cases state_
  split at ran₃
  · next first found =>
    refine .inl ⟨checkRedeclared_eq_ok ran₃, fun d same => ?_⟩
    obtain ⟨class_, at_⟩ := descriptor?_of_uav is declares dst index same
    rw [class_, at_]
    exact (Option.isSome_map ..).trans (by rw [found]; rfl)
  · next missing =>
    obtain ⟨⟨r, binding⟩, w, made, ran₄⟩ := Emission.run_bind_eq_ok.1 ran₃
    obtain ⟨none_, d, t, ⟨declared, class_, rfl⟩, acts, same, reserves⟩ :=
      newUav_reserving is declares dst index ready r binding w made
    have unbound : t.bound d.slotClass d.slot = none := by
      rw [show t.bound = s₂.bound from congrArg Accounts.bound same, class_]
      exact Option.map_eq_none_iff.2 missing
    have ends (x : State) (reserves : Reserves H env t x d r.variable_ binding)
        (ran : (name r.variable_ s!"u{d.slot}" >>= fun _ => decorateBinding r.variable_ binding >>=
          fun _ => Emission.note (fun s => { s with uavs := s.uavs.insert d.slot r })
            (fun _ => by constructor <;> rfl) (fun _ => by constructor <;> rfl)).run env x =
            (.ok (), u)) : Binds H env t u d := by
      obtain ⟨_, y, named, rest⟩ := Emission.run_bind_eq_ok.1 ran
      obtain ⟨more, marked, kept, plain⟩ := name_leaves (P := Instr.IsPlainMark) _ _ _ _ _ named
      refine decorateBinding_binds (reserves.marks marked kept plain) rest
        (fun z _ bound last => ?_) unbound
      cases last
      rw [← bound, class_] at unbound
      refine ⟨rfl, fun b kept stands => { kept with uavs := kept.uavs.insert ⟨stands, ?_⟩ }, ?_,
        State.remembers_uav fun x known => ?_⟩
      · intro id counter
        rw [none_] at counter
        cases counter
      · rw [class_]
        exact congrArg (fun bound => { z.accounts with bound }) (z.bound_uav d.slot unbound none_)
      · rw [State.shape?, Option.map_eq_none_iff.1 unbound] at known
        cases known
    dsimp only at ran₄
    split at ran₄
    · obtain ⟨_, x, decorated, rest⟩ := Emission.run_bind_eq_ok.1 ran₄
      obtain ⟨more, marked, kept, plain⟩ := decorate_plain _ rfl [] _ _ _ decorated
      exact .inr ⟨d, t, declared, acts, same, ends x (reserves.marks marked kept plain) rest⟩
    · exact .inr ⟨d, t, declared, acts, same, ends w reserves ran₄⟩

/-- A standing variable that a register is bound to. -/
theorem standing_of_bound (kept : s.Kept H b) {slotClass : BindingClass} {slot : UInt32}
    (bound : s.bound slotClass slot = some id) : b.Standing H id := by
  cases slotClass with
  | constantBuffer =>
    obtain ⟨c, found, rfl⟩ := Option.map_eq_some_iff.1 bound
    exact kept.constantBuffers.find? found
  | sampler => exact kept.samplers.find? bound
  | shaderResource =>
    obtain ⟨r, found, rfl⟩ := Option.map_eq_some_iff.1 bound
    exact kept.textures.find? found
  | unorderedAccess =>
    obtain ⟨r, found, rfl⟩ := Option.map_eq_some_iff.1 bound
    exact (kept.uavs.find? found).1
  | uavCounter =>
    obtain ⟨r, found, counter⟩ := Option.bind_eq_some_iff.1 bound
    exact (kept.uavs.find? found).2 id counter

theorem uavCounter_runs {slot : UInt32} (may : H.binds (.counter slot)) :
    Runs H env s (uavCounter slot).run fun id t => t.bound .uavCounter slot = some id := by
  refine .state_bind ?_
  intro id u ready ran
  obtain ⟨resource, s₁, read_, ran₁⟩ := Emission.run_bind_eq_ok.1 ran
  obtain ⟨found, rfl⟩ := orFault_run_eq_ok.1 read_
  split at ran₁
  · next counter is =>
    cases ran₁
    exact ⟨.refl, (congrArg (·.bind (·.counter?)) found).trans is⟩
  · next none_ =>
    have required : Leaves Instr.IsPlainMark env _ :=
      requireExtensionBefore_leaves 1 3 "SPV_KHR_storage_buffer_storage_class"
    obtain ⟨_, t, required_, ran₂⟩ := Emission.run_bind_eq_ok.1 ran₁
    obtain ⟨acts, _⟩ := required.does _ _ _ ready (.refl _) required_
    obtain ⟨block, v, block_, ran₃⟩ := Emission.run_bind_eq_ok.1 ran₂
    obtain ⟨acts', global⟩ :=
      counterBlock_establishes _ _ _ (acts.ready ready) (.refl _) block_
    have same : v.accounts = s₁.accounts :=
      (counterBlock_quiet _ _ _ block_).trans (IsQuiet.of_leaves required _ _ _ required_)
    have bound : v.bound = s₁.bound := congrArg Accounts.bound same
    have declared : v.bound .unorderedAccess slot = some resource.variable_ := by
      rw [bound]
      exact Option.map_eq_some_iff.2 ⟨resource, found, rfl⟩
    have shaped : v.shape? (.uav slot) = some resource.shape :=
      acts'.remembers _ _ (acts.remembers _ _ (Option.map_eq_some_iff.2 ⟨resource, found, rfl⟩))
    have unbound : v.bound .uavCounter slot = none := by
      rw [bound]
      exact (congrArg (·.bind (·.counter?)) found).trans none_
    obtain ⟨⟨w, acts'', same', binds⟩, made, x, last⟩ := newDescriptor_binds
      (d := .counter slot) (acts'.ready (acts.ready ready)) global ran₃
      (fun id x later same last => by
        cases last
        refine ⟨rfl, fun b kept stands => { kept with
          uavs := kept.uavs.insert ⟨standing_of_bound kept (same ▸ declared), ?_⟩ }, ?_,
          State.remembers_uav fun y known => ?_⟩
        · rintro _ ⟨⟩
          exact stands
        · exact congrArg (fun bound => { x.accounts with bound })
            (x.bound_counter slot (same ▸ declared))
        · exact Option.some.inj (known.symm.trans (later _ _ shaped))) unbound
    have all : Acts H env s₁ u := ((acts.trans acts').trans acts'').tail
      (.bind may binds)
    refine ⟨all, ?_⟩
    cases last
    have entered := (Table.find?_insert x.uavs slot slot
      { resource with counter? := some id }).trans (if_pos rfl)
    exact congrArg (·.bind Resource.counter?) entered

theorem uavCounter_does {slot : UInt32} (may : H.binds (.counter slot)) :
    Does H env b (uavCounter slot).run fun id c => c.Standing H id := by
  intro s id t ready _ ran
  obtain ⟨acts, bound⟩ := uavCounter_runs may id t ready ran
  exact ⟨acts, standing_of_bound (acts.ready ready).kept bound⟩

end Lower

instance : Refers Resource := ⟨fun p r => p r.variable_, fun h => h _, fun _ => trivial⟩

instance : Refers ImageType := ⟨fun _ _ => True, fun _ h => h, fun _ => trivial⟩

@[simp, grind =]
theorem Known.resource_iff {r : Resource} : Known H b r ↔ b.Available H r.variable_ := Iff.rfl

@[simp, grind =]
theorem Known.imageType_iff {image : ImageType} : Known H b image ↔ True := Iff.rfl

namespace Lower

@[grind ←]
theorem lowerImmediateConstants_supplies (words : List UInt32) :
    Supplies H env b (lowerImmediateConstants words).run := by
  refine .state_bind fun s _ _ => .ite (.pure trivial) ?_
  dsimp only
  refine .after (.mapM (P := fun id c => c.Global H id) (fun global within => global.mono within)
    fun chunk _ c _ => constantVector_establishes .u32 _) fun elements c _ parts => ?_
  refine Does.bind (vectorType_establishes _) fun element d within global => ?_
  refine .bind (arrayOf_establishes global _) fun type e within' global => ?_
  refine .bind (constantComposite_establishes global fun id mem => ?_)
    fun initial f within'' value => ?_
  · exact ((parts id mem).mono within).mono within'
  refine .bind (newVariable_does (global.mono within'') (by rintro _ ⟨⟩; exact value))
    fun id g _ stands => ?_
  refine .bind (name_leaves id "icb").does fun _ h within _ => ?_
  refine .note (fun _ => rfl) (fun _ => .refl _) (fun _ => rfl) (fun s within' kept => ?_)
    (fun _ => rfl) fun _ => .of_eq rfl
  exact { kept with
    immediates := by rintro _ ⟨⟩; exact (stands.mono within).mono within' }

@[grind ←]
theorem resource_supplies (op : Operand) : Supplies H env b (resource op).run := by
  refine .demand fun slot _ => ?_
  split
  · refine .state_bind fun s ready _ => .orFault _ fun r found => ?_
    exact (ready.kept.textures.find? found).available
  · refine .state_bind fun s ready _ => .orFault _ fun r found => ?_
    exact (ready.kept.uavs.find? found).1.available
  · exact .failWith _

@[grind ←]
theorem typedImage_supplies (op : Operand) : Supplies H env b (typedImage op).run := by
  unfold typedImage
  grind

@[grind ←]
theorem loadImage_supplies {r : Resource} (known : Known H b r) (image : ImageType) :
    Supplies H env b (loadImage r image).run := by
  unfold loadImage
  grind

@[grind ←]
theorem sampledImage_supplies {r : Resource} (known : Known H b r) (image : ImageType)
    (sampler : Operand) : Supplies H env b (sampledImage r image sampler).run := by
  refine .demand fun slot _ => .state_bind fun s ready within => .demand fun variable_ found => ?_
  have stands := (ready.kept.samplers.find? found).available
  replace known := known.mono within
  refine .after (imageType_establishes image) fun type c _ global =>
    .bind (loadFrom_routine ?_ ?_).supplies fun loaded d within' _ =>
    .bind samplerType_supplies fun samplerType e within'' _ =>
    .bind (loadFrom_routine ?_ ?_).supplies fun sampler f later _ =>
    .after (sampledImageType_establishes ?_) fun type g _ _ => ?_
  all_goals grind

@[grind ←]
theorem writeResourceResult_supplies (op resource : Operand) {value : Value}
    (known : Known (.tables T) b value) (isSaturated : Bool) :
    Supplies (.tables T) env b (writeResourceResult op resource value isSaturated).run := by
  unfold writeResourceResult
  grind

end Lower

end

end ShaderLowering
