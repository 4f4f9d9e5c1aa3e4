import Mathlib.Data.Set.Function
import ShaderLowering.Proofs.Scope.Accounts
import ShaderLowering.Proofs.Scope.Discipline

/-!
Descriptors. A register that an instruction binds gets one variable, one binding and one entry in
the table of slots, with what its first declaration says of it; nothing else is decorated as a
descriptor. So slots and descriptor variables of a module correspond one to one.
-/

namespace ShaderLowering

open Spirv (Id Instr Arg Op Module Builder StorageClass Decoration)

namespace Table

variable {α : Type} {t : Table α} {key : UInt32} {a : α}

theorem findIn_of_mem {l : List (UInt32 × α)} (increasing : (l.map (·.1)).Pairwise (· < ·))
    (mem : (key, a) ∈ l) : findIn key l = some a := by
  induction l with
  | nil => cases mem
  | cons e rest ih =>
    rw [List.map_cons, List.pairwise_cons] at increasing
    rcases List.mem_cons.1 mem with rfl | mem
    · rw [findIn, if_pos rfl]
    · have below := increasing.1 key (List.mem_map_of_mem mem)
      rw [findIn, if_neg (UInt32.ne_of_lt below), ih increasing.2 mem]

theorem mem_entries : (key, a) ∈ t.entries ↔ t.find? key = some a :=
  ⟨findIn_of_mem t.increasing, mem_of_findIn⟩

end Table

section

variable {stage : ShaderStage} {slotClass slotClass' : BindingClass} {slot slot' : UInt32}
  {binding : Nat}

theorem bindingOf_eq_ok : bindingOf stage slotClass slot = .ok binding ↔
    slot.toNat < slotClass.maxSlots ∧ ∃ index, stage.index? = some index ∧
      binding = index * stageStride + slotClass.base + slot.toNat := by
  unfold bindingOf
  split
  · next large =>
    constructor
    · nofun
    · rintro ⟨small, _⟩
      exact absurd large (Nat.not_le.2 small)
  · next small =>
    cases stage.index? with
    | none =>
      constructor
      · nofun
      · rintro ⟨_, _, ⟨⟩, _⟩
    | some index =>
      constructor
      · rintro ⟨⟩
        exact ⟨Nat.not_le.1 small, index, rfl, rfl⟩
      · rintro ⟨_, _, ⟨⟩, rfl⟩
        rfl

theorem index_lt {index : Nat} (is : stage.index? = some index) : index < 6 := by
  cases stage <;> cases is <;> decide

theorem bindingOf_lt (h : bindingOf stage slotClass slot = .ok binding) :
    binding < UInt32.size := by
  obtain ⟨small, index, is, rfl⟩ := bindingOf_eq_ok.1 h
  have := index_lt is
  have : 6 * 288 < UInt32.size := by decide
  cases slotClass <;>
    simp only [BindingClass.maxSlots, BindingClass.base, stageStride] at * <;> omega

/-- No two registers of a stage share a binding. -/
theorem bindingOf_injective (h : bindingOf stage slotClass slot = .ok binding)
    (h' : bindingOf stage slotClass' slot' = .ok binding) :
      slotClass = slotClass' ∧ slot = slot' := by
  obtain ⟨small, index, is, rfl⟩ := bindingOf_eq_ok.1 h
  obtain ⟨small', index', is', same⟩ := bindingOf_eq_ok.1 h'
  cases is.symm.trans is'
  have classes : slotClass = slotClass' := by
    cases slotClass <;> cases slotClass' <;>
      first
      | rfl
      | (simp only [BindingClass.maxSlots, BindingClass.base] at *; omega)
  subst classes
  exact ⟨rfl, UInt32.toNat_inj.1 (by omega)⟩

theorem ofNat_binding_inj {binding' : Nat} (h : bindingOf stage slotClass slot = .ok binding)
    (h' : bindingOf stage slotClass' slot' = .ok binding')
    (same : UInt32.ofNat binding = .ofNat binding') : binding = binding' := by
  have := congrArg UInt32.toNat same
  rwa [UInt32.toNat_ofNat_of_lt' (bindingOf_lt h),
    UInt32.toNat_ofNat_of_lt' (bindingOf_lt h')] at this

end

/-- The register classes that a kind of descriptor is used for. -/
def ResourceKind.classes : ResourceKind → List BindingClass
  | constantBuffer => [.constantBuffer]
  | sampler => [.sampler]
  | sampledImage | uniformTexelBuffer => [.shaderResource]
  | storageImage | storageTexelBuffer => [.unorderedAccess]
  | storageBuffer => [.shaderResource, .unorderedAccess]
  | uavCounter => [.uavCounter]

namespace Instruction

variable {inst : Instruction} {d : Descriptor} {slot : UInt32}

/-- What is declared is of a class that descriptors of its kind are bound in, and no counter. -/
theorem classes_of_descriptor? (declared : inst.descriptor? = some d) :
    d.slotClass ∈ d.kind.classes ∧ d.slotClass ≠ .uavCounter := by
  have each {f : UInt32 → Descriptor} {slot? : Option UInt32}
      (classes : ∀ slot, (f slot).slotClass ∈ (f slot).kind.classes ∧
        (f slot).slotClass ≠ .uavCounter)
      (is : slot?.map f = some d) : d.slotClass ∈ d.kind.classes ∧ d.slotClass ≠ .uavCounter := by
    obtain ⟨slot, _, rfl⟩ := Option.map_eq_some_iff.1 is
    exact classes slot
  have shaped {f : UInt32 → ViewShape → Descriptor} {slot? : Option UInt32}
      {shape? : Option ViewShape}
      (classes : ∀ slot shape, (f slot shape).slotClass ∈ (f slot shape).kind.classes ∧
        (f slot shape).slotClass ≠ .uavCounter)
      (is : (slot?.bind fun slot => shape?.bind fun shape => some (f slot shape)) = some d) :
      d.slotClass ∈ d.kind.classes ∧ d.slotClass ≠ .uavCounter := by
    obtain ⟨slot, _, is⟩ := Option.bind_eq_some_iff.1 is
    obtain ⟨shape, _, is⟩ := Option.bind_eq_some_iff.1 is
    cases is
    exact classes slot shape
  have view (p : Prop) [Decidable p] : BindingClass.shaderResource ∈
      (if p then ResourceKind.uniformTexelBuffer else .sampledImage).classes := by
    split <;> decide
  have writable (p : Prop) [Decidable p] : BindingClass.unorderedAccess ∈
      (if p then ResourceKind.storageTexelBuffer else .storageImage).classes := by
    split <;> decide
  unfold descriptor? at declared
  split at declared
  · exact each (fun _ => by simp [ResourceKind.classes]) declared
  · exact each (fun _ => by simp [ResourceKind.classes]) declared
  · exact shaped (fun _ _ => ⟨view _, fun is => by cases is⟩) declared
  · exact each (fun _ => by simp [ResourceKind.classes]) declared
  · exact each (fun _ => by simp [ResourceKind.classes]) declared
  · exact shaped (fun _ _ => ⟨writable _, fun is => by cases is⟩) declared
  · exact each (fun _ => by simp [ResourceKind.classes]) declared
  · exact each (fun _ => by simp [ResourceKind.classes]) declared
  · cases declared

/-- What an instruction binds is declared, or it is the counter that the instruction uses. -/
theorem cases_of_bound? (bound : inst.bound? = some d) :
    inst.descriptor? = some d ∨ ∃ slot, inst.counted? = some slot ∧ d = .counter slot := by
  unfold bound? at bound
  split at bound
  · exact .inl bound
  · obtain ⟨slot, counted, rfl⟩ := Option.map_eq_some_iff.1 bound
    exact .inr ⟨slot, counted, rfl⟩

theorem classes_of_bound? (bound : inst.bound? = some d) : d.slotClass ∈ d.kind.classes := by
  rcases cases_of_bound? bound with declared | ⟨slot, _, rfl⟩
  · exact (classes_of_descriptor? declared).1
  · exact List.mem_singleton.2 rfl

/-- Counters are bound by the instructions that use them. -/
theorem counted_of_bound? (bound : inst.bound? = some d) (counter : d.slotClass = .uavCounter) :
    inst.counted? = some d.slot ∧ d = .counter d.slot := by
  rcases cases_of_bound? bound with declared | ⟨slot, counted, rfl⟩
  · exact absurd counter (classes_of_descriptor? declared).2
  · exact ⟨counted, rfl⟩

end Instruction

/-- What the first instruction that binds a register says of it. -/
def firstBound (insts : List Instruction) (slotClass : BindingClass) (slot : UInt32) :
    Option Descriptor :=
  (insts.filterMap Instruction.bound?).find? fun d => d.slotClass = slotClass ∧ d.slot = slot

section

variable {insts : List Instruction} {inst : Instruction} {slotClass : BindingClass} {slot : UInt32}
  {d : Descriptor}

theorem firstBound_concat : firstBound (insts ++ [inst]) slotClass slot =
    (firstBound insts slotClass slot).or
      (inst.bound?.filter fun d => d.slotClass = slotClass ∧ d.slot = slot) := by
  unfold firstBound
  rw [List.filterMap_append, List.find?_append]
  congr 1
  cases h : inst.bound? with
  | none => rw [List.filterMap_cons_none h, List.filterMap_nil, List.find?_nil, Option.filter_none]
  | some d =>
    rw [List.filterMap_cons_some h, List.filterMap_nil, List.find?_singleton, Option.filter_some]

theorem key_of_firstBound (is : firstBound insts slotClass slot = some d) :
    d.slotClass = slotClass ∧ d.slot = slot := by
  simpa using List.find?_some is

theorem isSome_firstBound (mem : inst ∈ insts) (bound : inst.bound? = some d) :
    (firstBound insts d.slotClass d.slot).isSome = true := by
  unfold firstBound
  rw [List.find?_isSome]
  exact ⟨d, List.mem_filterMap.2 ⟨inst, mem, bound⟩, by simp⟩

theorem mem_of_firstBound (is : firstBound insts slotClass slot = some d) :
    ∃ inst ∈ insts, inst.bound? = some d := by
  obtain ⟨inst, mem, bound⟩ := List.mem_filterMap.1 (List.mem_of_find?_eq_some is)
  exact ⟨inst, mem, bound⟩

end

namespace Spirv

variable {m n : Module} {id : Id} {d : Decoration} {args : List Arg} {marks : List Instr}

/-- The decorations of descriptors. -/
def Decoration.isDescriptor : Decoration → Bool
  | binding | descriptorSet => true
  | _ => false

theorem Decoration.isSpecial_of_isDescriptor (h : d.isDescriptor = true) : d.isSpecial = true := by
  cases d <;> first | rfl | cases h

theorem Decoration.mark_inj {id' : Id} {d' : Decoration} {args' : List Arg}
    (same : Instr.plain .decorate (.id id :: .word d.code :: args) =
      .plain .decorate (.id id' :: .word d'.code :: args')) : id = id' ∧ d = d' ∧ args = args' := by
  injection same with _ _ _ same
  injection same with same₁ same
  injection same with same₂ same
  exact ⟨Arg.id.inj same₁, code_injective (Arg.word.inj same₂), same⟩

theorem Module.decorated_append (h : n.annotations.toList = m.annotations.toList ++ marks) :
    n.Decorated id d args ↔
      m.Decorated id d args ∨ .plain .decorate (.id id :: .word d.code :: args) ∈ marks := by
  rw [Decorated, h, List.mem_append, Decorated]

theorem Instr.IsPlainMark.ne {i : Instr} (plain : i.IsPlainMark) (special : d.isSpecial = true) :
    .plain .decorate (.id id :: .word d.code :: args) ≠ i := by
  rintro rfl
  have := plain.isSpecial id d args rfl
  rw [special] at this
  cases this

/-- Plain annotations do not add special decorations. -/
theorem Module.decorated_of_plain (h : n.annotations.toList = m.annotations.toList ++ marks)
    (plain : ∀ i ∈ marks, i.IsPlainMark) (special : d.isSpecial = true) :
    n.Decorated id d args ↔ m.Decorated id d args := by
  rw [decorated_append h, or_iff_left]
  exact fun mem => (plain _ mem).ne special rfl

end Spirv

section

variable {binds K : Descriptor → Prop} {env : Environment} {s t : State} {id : Id} {d : Decoration}
  {args : List Arg} {x y : Configuration} {slotClass : BindingClass} {slot : UInt32}

/-- What descriptors a state has. -/
structure State.Catalogued (env : Environment) (K : Descriptor → Prop) (s : State) : Prop where
  /-- A bound register has an entry, and its variable is decorated with its place. -/
  registers : ∀ slotClass slot id, s.bound slotClass slot = some id → ∃ d binding, K d ∧
    d.slotClass = slotClass ∧ d.slot = slot ∧ bindingOf env.stage slotClass slot = .ok binding ∧
    s.slots.find? (.ofNat binding) = some (d.entry env.stage binding) ∧
    (∃ storage, s.builder.module.HasVariable id storage) ∧
    s.builder.module.Decorated id .descriptorSet [.word 0] ∧
    s.builder.module.Decorated id .binding [.word (.ofNat binding)]
  slots : ∀ key entry, s.slots.find? key = some entry → ∃ slotClass slot binding,
    (s.bound slotClass slot).isSome = true ∧ bindingOf env.stage slotClass slot = .ok binding ∧
      key = .ofNat binding
  decorated : ∀ id d args, d.isDescriptor = true → s.builder.module.Decorated id d args →
    ∃ slotClass slot binding, s.bound slotClass slot = some id ∧
      bindingOf env.stage slotClass slot = .ok binding ∧
      args = [.word (if d = .binding then .ofNat binding else 0)]
  old : ∀ slotClass slot id, s.bound slotClass slot = some id → id < s.builder.nextId
  own : ∀ slotClass slot slotClass' slot' id, s.bound slotClass slot = some id →
    s.bound slotClass' slot' = some id → slotClass = slotClass' ∧ slot = slot'

/-- A change that is not one of the descriptors. -/
structure State.Passes (s t : State) : Prop where
  bound : t.bound = s.bound
  slots : t.slots = s.slots
  declared : ∀ id storage, s.builder.module.HasVariable id storage →
    t.builder.module.HasVariable id storage
  decorated : ∀ id d args, d.isDescriptor = true →
    (t.builder.module.Decorated id d args ↔ s.builder.module.Decorated id d args)
  nextId : s.builder.nextId ≤ t.builder.nextId

theorem State.Keeps.passes (h : s.Keeps t) : s.Passes t := by
  obtain ⟨marks, annotations, plain⟩ := h.annotations
  refine ⟨h.bound, h.slots, fun _ _ => h.hasVariable.2, fun id d args is => ?_,
    h.nextId⟩
  exact Spirv.Module.decorated_of_plain annotations plain
    (Spirv.Decoration.isSpecial_of_isDescriptor is)

/-- A variable that is no descriptor. -/
theorem State.Enters.passes {storage : StorageClass} {marks : List Instr}
    (h : s.Enters t id storage marks) (bound : t.bound = s.bound) (slots : t.slots = s.slots)
    (others : ∀ id (d : Decoration) args, d.isDescriptor = true →
      Instr.plain .decorate (.id id :: .word d.code :: args) ∉ marks) : s.Passes t := by
  refine ⟨bound, slots, fun _ _ is => h.hasVariable.2 (.inl is),
    fun id d args is => ?_, Nat.le_of_lt (Nat.lt_of_lt_of_eq (Nat.lt_succ_self _) h.nextId.symm)⟩
  rw [Spirv.Module.decorated_append h.annotations, or_iff_left (others id d args is)]

namespace State.Catalogued

theorem pass (h : s.Catalogued env K) (passes : s.Passes t) : t.Catalogued env K := by
  refine ⟨fun slotClass slot id is => ?_, fun key entry found => ?_, fun id d args is marked => ?_,
    fun slotClass slot id is => ?_, ?_⟩
  · rw [passes.bound] at is
    obtain ⟨d, binding, known, classes, same, place, found, ⟨storage, declared⟩, set_, at_⟩ :=
      h.registers slotClass slot id is
    exact ⟨d, binding, known, classes, same, place, passes.slots ▸ found,
      ⟨storage, passes.declared id storage declared⟩, (passes.decorated _ _ _ rfl).2 set_,
      (passes.decorated _ _ _ rfl).2 at_⟩
  · rw [passes.slots] at found
    rw [passes.bound]
    exact h.slots key entry found
  · rw [passes.bound]
    exact h.decorated id d args is ((passes.decorated id d args is).1 marked)
  · rw [passes.bound] at is
    exact Nat.lt_of_lt_of_le (h.old slotClass slot id is) passes.nextId
  · rw [passes.bound]
    exact h.own

theorem imp {K' : Descriptor → Prop} (h : s.Catalogued env K) (weaker : ∀ d, K d → K' d) :
    s.Catalogued env K' := by
  refine ⟨fun slotClass slot id is => ?_, h.slots, h.decorated, h.old, h.own⟩
  obtain ⟨d, binding, known, rest⟩ := h.registers slotClass slot id is
  exact ⟨d, binding, weaker d known, rest⟩

/-- A binding that is not taken yet has no entry. -/
theorem find?_of_unbound (h : s.Catalogued env K) {binding : Nat}
    (unbound : s.bound slotClass slot = none)
    (place : bindingOf env.stage slotClass slot = .ok binding) :
    s.slots.find? (.ofNat binding) = none := by
  cases found : s.slots.find? (.ofNat binding) with
  | none => rfl
  | some entry =>
    obtain ⟨slotClass', slot', binding', bound, place', same⟩ := h.slots _ _ found
    cases ofNat_binding_inj place place' same
    obtain ⟨rfl, rfl⟩ := bindingOf_injective place place'
    rw [unbound] at bound
    cases bound

/-- A register is bound. -/
theorem bind (h : s.Catalogued env K) {d : Descriptor} {storage : StorageClass} {binding : Nat}
    {marks : List Instr} (known : K d) (unbound : s.bound d.slotClass d.slot = none)
    (place : bindingOf env.stage d.slotClass d.slot = .ok binding)
    (enters : s.Enters t id storage (marks ++
      [.plain .decorate [.id id, .word Decoration.descriptorSet.code, .word 0],
        .plain .decorate [.id id, .word Decoration.binding.code, .word (.ofNat binding)]]))
    (others : ∀ i ∈ marks, i.IsPlainMark)
    (bound : t.bound = Function.updateAt s.bound d.slotClass d.slot (some id))
    (slots : t.slots = enterSlot s.slots env.stage d binding) : t.Catalogued env K := by
  have find (key : UInt32) : t.slots.find? key =
      if key = .ofNat binding then some (d.entry env.stage binding) else s.slots.find? key := by
    rw [slots, enterSlot, h.find?_of_unbound unbound place]
    exact Table.find?_insert _ _ _ _
  have marked (id' : Id) (d' : Decoration) (args : List Arg) :
      t.builder.module.Decorated id' d' args ↔ s.builder.module.Decorated id' d' args ∨ _ :=
    Spirv.Module.decorated_append enters.annotations
  have cases_ {slotClass : BindingClass} {slot : UInt32} {id' : Id}
      (is : t.bound slotClass slot = some id') :
      (slotClass = d.slotClass ∧ slot = d.slot ∧ id' = id) ∨ s.bound slotClass slot = some id' := by
    rw [bound, Function.updateAt] at is
    split at is
    · next same => exact .inl ⟨same.1, same.2, (Option.some.inj is).symm⟩
    · exact .inr is
  have at_ : t.bound d.slotClass d.slot = some id := by
    rw [bound, Function.updateAt, if_pos ⟨rfl, rfl⟩]
  have stays {slotClass : BindingClass} {slot : UInt32} {id' : Id}
      (is : s.bound slotClass slot = some id') : t.bound slotClass slot = some id' := by
    rw [bound, Function.updateAt, if_neg, is]
    rintro ⟨rfl, rfl⟩
    cases unbound.symm.trans is
  have new {slotClass : BindingClass} {slot : UInt32} (is : s.bound slotClass slot = some id) :
      False :=
    Nat.lt_irrefl _ (enters.fresh ▸ h.old slotClass slot id is)
  refine ⟨fun slotClass slot id' is => ?_, fun key entry found => ?_, fun id' d' args is mark => ?_,
    fun slotClass slot id' is => ?_, fun slotClass slot slotClass' slot' id' is is' => ?_⟩
  · rcases cases_ is with ⟨rfl, rfl, rfl⟩ | was
    · refine ⟨d, binding, known, rfl, rfl, place, ?_,
        ⟨storage, enters.hasVariable.2 (.inr ⟨rfl, rfl⟩)⟩,
        (marked _ _ _).2 (.inr ?_), (marked _ _ _).2 (.inr ?_)⟩
      · rw [find, if_pos rfl]
      · exact List.mem_append_right _ List.mem_cons_self
      · exact List.mem_append_right _ (List.mem_cons_of_mem _ List.mem_cons_self)
    · obtain ⟨d', binding', known', classes, same, place', found, ⟨storage', declared⟩,
        set_, binds⟩ :=
        h.registers slotClass slot id' was
      refine ⟨d', binding', known', classes, same, place', ?_,
        ⟨storage', enters.hasVariable.2 (.inl declared)⟩, (marked _ _ _).2 (.inl set_),
        (marked _ _ _).2 (.inl binds)⟩
      rw [find, if_neg, found]
      intro equal
      cases ofNat_binding_inj place' place equal
      obtain ⟨rfl, rfl⟩ := bindingOf_injective place' place
      cases unbound.symm.trans was
  · rw [find] at found
    split at found
    · next same => exact ⟨d.slotClass, d.slot, binding, by rw [at_]; rfl, place, same⟩
    · obtain ⟨slotClass, slot, binding', was, place', same⟩ := h.slots key entry found
      obtain ⟨id', was⟩ := Option.isSome_iff_exists.1 was
      exact ⟨slotClass, slot, binding', by rw [stays was]; rfl, place', same⟩
  · rcases (marked id' d' args).1 mark with was | mem
    · obtain ⟨slotClass, slot, binding', was, place', same⟩ := h.decorated id' d' args is was
      exact ⟨slotClass, slot, binding', stays was, place', same⟩
    rcases List.mem_append.1 mem with plain | mem
    · exact absurd rfl ((others _ plain).ne (Spirv.Decoration.isSpecial_of_isDescriptor is))
    rcases List.mem_cons.1 mem with same | mem
    · obtain ⟨rfl, rfl, rfl⟩ := Spirv.Decoration.mark_inj same
      exact ⟨d.slotClass, d.slot, binding, at_, place, rfl⟩
    · obtain ⟨rfl, rfl, rfl⟩ := Spirv.Decoration.mark_inj (List.mem_singleton.1 mem)
      exact ⟨d.slotClass, d.slot, binding, at_, place, rfl⟩
  · rw [enters.nextId]
    rcases cases_ is with ⟨_, _, rfl⟩ | was
    · exact enters.fresh ▸ Nat.lt_succ_self _
    · exact Nat.lt_succ_of_lt (h.old slotClass slot id' was)
  · rcases cases_ is with ⟨rfl, rfl, rfl⟩ | was
    · rcases cases_ is' with ⟨rfl, rfl, _⟩ | was'
      · exact ⟨rfl, rfl⟩
      · exact (new was').elim
    · rcases cases_ is' with ⟨rfl, rfl, rfl⟩ | was'
      · exact (new was).elim
      · exact h.own slotClass slot slotClass' slot' id' was was'

end State.Catalogued

/-- A change passes, or it binds a register. -/
theorem State.Changes.catalogued (h : s.Changes binds env t) (catalogued : s.Catalogued env K)
    (known : ∀ d, binds d → s.bound d.slotClass d.slot = none → K d) :
    t.Catalogued env K ∧
      ∀ slotClass slot id, s.bound slotClass slot = some id → t.bound slotClass slot = some id := by
  have pass (passes : s.Passes t) : t.Catalogued env K ∧ ∀ slotClass slot id,
      s.bound slotClass slot = some id → t.bound slotClass slot = some id :=
    ⟨catalogued.pass passes, fun _ _ _ is => by rw [passes.bound, is]⟩
  cases h with
  | keep keeps => exact pass keeps.passes
  | create enters accounts =>
    exact pass (enters.passes (congrArg Accounts.bound accounts) (congrArg Accounts.slots accounts)
      fun _ _ _ _ => List.not_mem_nil)
  | builtin _ enters others accounts =>
    refine pass (enters.passes (congrArg Accounts.bound accounts) (congrArg Accounts.slots accounts)
      fun id d args is mem => ?_)
    rcases List.mem_cons.1 mem with same | mem
    · obtain ⟨_, rfl, _⟩ := Spirv.Decoration.mark_inj same
      cases is
    · rcases others _ mem with plain | same
      · exact plain.ne (Spirv.Decoration.isSpecial_of_isDescriptor is) rfl
      · obtain ⟨_, rfl, _⟩ := Spirv.Decoration.mark_inj same
        cases is
  | @locate side _ _ _ _ _ enters others accounts =>
    refine pass (enters.passes (congrArg Accounts.bound accounts) (congrArg Accounts.slots accounts)
      fun id d args is mem => ?_)
    rcases List.mem_append.1 mem with mem | mem
    · split at mem
      · obtain ⟨_, rfl, _⟩ := Spirv.Decoration.mark_inj (List.mem_singleton.1 mem)
        cases is
      · cases mem
    · rcases List.mem_cons.1 mem with same | mem
      · obtain ⟨_, rfl, _⟩ := Spirv.Decoration.mark_inj same
        cases is
      · exact (others _ mem).ne (Spirv.Decoration.isSpecial_of_isDescriptor is) rfl
  | bind may unbound place enters others accounts =>
    have bound := congrArg Accounts.bound accounts
    refine ⟨catalogued.bind (known _ may unbound) unbound place enters others bound
      (congrArg Accounts.slots accounts), fun slotClass slot id is => ?_⟩
    change t.accounts.bound slotClass slot = _
    rw [bound]
    dsimp only
    rw [Function.updateAt, if_neg, is]
    rintro ⟨rfl, rfl⟩
    cases unbound.symm.trans is

theorem Path.catalogued (path : Path binds env x y) (h : x.state.Catalogued env K)
    (known : ∀ d, binds d → x.state.bound d.slotClass d.slot = none → K d) :
    y.state.Catalogued env K ∧ ∀ slotClass slot id, x.state.bound slotClass slot = some id →
      y.state.bound slotClass slot = some id := by
  induction path with
  | refl => exact ⟨h, fun _ _ _ => id⟩
  | tail _ last ih =>
    obtain ⟨catalogued, stays⟩ := ih
    obtain ⟨catalogued, stays'⟩ := last.changes.catalogued catalogued fun d may unbound =>
      known d may (Option.eq_none_iff_forall_ne_some.2 fun id is => by
        cases unbound.symm.trans (stays _ _ id is))
    exact ⟨catalogued, fun slotClass slot id is => stays' _ _ _ (stays _ _ _ is)⟩

/-- Along a course, what is bound is what the instructions so far bind, each register as the first
of them says. -/
theorem Course.catalogued {version : SpirvVersion} {stage : StageState} {insts : List Instruction}
    (course : Course env version stage insts x) :
    x.state.Catalogued env (fun d => firstBound insts d.slotClass d.slot = some d) ∧
      ∀ slotClass slot, (firstBound insts slotClass slot).isSome = true →
        (x.state.bound slotClass slot).isSome = true := by
  induction course with
  | begin path =>
    have nothing (slotClass : BindingClass) (slot : UInt32) :
        (State.opened version stage).bound slotClass slot = none := by
      cases slotClass <;> rfl
    refine ⟨(path.catalogued ⟨fun slotClass slot id is => ?_, nofun, fun _ _ _ _ mark => ?_,
      fun slotClass slot id is => ?_, fun slotClass slot _ _ _ is => ?_⟩ nofun).1, nofun⟩
    · cases (nothing slotClass slot).symm.trans is
    · cases mark
    · cases (nothing slotClass slot).symm.trans is
    · cases (nothing slotClass slot).symm.trans is
  | @step insts inst x y before path covered ih =>
    obtain ⟨catalogued, bound⟩ := ih
    have first {slotClass : BindingClass} {slot : UInt32} {d : Descriptor}
        (is : firstBound insts slotClass slot = some d) :
        firstBound (insts ++ [inst]) slotClass slot = some d := by
      rw [firstBound_concat, is]
      rfl
    obtain ⟨catalogued, stays⟩ := path.catalogued (catalogued.imp fun d is => first is)
      fun d binds unbound => by
        have none_ : firstBound insts d.slotClass d.slot = none := by
          cases h : firstBound insts d.slotClass d.slot with
          | none => rfl
          | some d' =>
            have := bound d.slotClass d.slot (by rw [h]; rfl)
            rw [unbound] at this
            cases this
        rw [firstBound_concat, none_, show inst.bound? = some d from binds]
        simp [Option.filter_some]
    refine ⟨catalogued, fun slotClass slot is => ?_⟩
    rw [firstBound_concat] at is
    cases h : firstBound insts slotClass slot with
    | some d =>
      obtain ⟨id, was⟩ := Option.isSome_iff_exists.1 (bound slotClass slot (by rw [h]; rfl))
      rw [stays _ _ _ was]
      rfl
    | none =>
      rw [h, Option.none_or] at is
      obtain ⟨d, is⟩ := Option.isSome_iff_exists.1 is
      obtain ⟨binds, key⟩ := Option.filter_eq_some_iff.1 is
      obtain ⟨rfl, rfl⟩ := of_decide_eq_true key
      exact covered d binds

end

/-- Slots and descriptors of a module correspond to one another and to what a program binds. -/
structure Catalogue (stage : ShaderStage) (insts : List Instruction) (slots : List ResourceSlot)
    (m : Module) : Prop where
  increasing : slots.Pairwise fun a b => a.binding < b.binding
  /-- There is a slot for each register that is bound, with what is said of it first. -/
  entries : ∀ slot, slot ∈ slots ↔ ∃ d binding, firstBound insts d.slotClass d.slot = some d ∧
    bindingOf stage d.slotClass d.slot = .ok binding ∧ slot = d.entry stage binding
  places : ∀ slot ∈ slots, ∃ slotClass ∈ slot.kind.classes,
    bindingOf stage slotClass slot.slot = .ok slot.binding
  counters : ∀ u, (slots.countP fun slot => slot.kind = .uavCounter ∧ slot.slot = u) =
    if ∃ inst ∈ insts, inst.counted? = some u then 1 else 0
  /-- Slots correspond one to one to the variables that are decorated with a binding. -/
  descriptors : ∃ variableOf : ResourceSlot → Id,
    Set.BijOn variableOf {slot | slot ∈ slots} {id | ∃ args, m.Decorated id .binding args} ∧
      ∀ slot ∈ slots, (∃ storage, m.HasVariable (variableOf slot) storage) ∧
        (∀ args, m.Decorated (variableOf slot) .descriptorSet args ↔ args = [.word 0]) ∧
        ∀ args, m.Decorated (variableOf slot) .binding args ↔ args = [.word (.ofNat slot.binding)]

section

variable {env : Environment} {insts : List Instruction} {s : State} {slot : ResourceSlot}
  {K : Descriptor → Prop}

namespace State.Catalogued

/-- What an entry of the table says. -/
theorem entry (h : s.Catalogued env K) {key : UInt32} (found : s.slots.find? key = some slot) :
    ∃ d binding id, K d ∧ s.bound d.slotClass d.slot = some id ∧
      bindingOf env.stage d.slotClass d.slot = .ok binding ∧ slot = d.entry env.stage binding ∧
      key = .ofNat slot.binding := by
  obtain ⟨slotClass, reg, binding, bound, place, rfl⟩ := h.slots key slot found
  obtain ⟨id, bound⟩ := Option.isSome_iff_exists.1 bound
  obtain ⟨d, binding', known, rfl, rfl, place', found', _⟩ := h.registers _ _ id bound
  cases place.symm.trans place'
  cases found.symm.trans found'
  exact ⟨d, binding, id, known, bound, place, rfl, rfl⟩

theorem mem_values (h : s.Catalogued env K) : slot ∈ s.slots.values ↔
    s.slots.find? (.ofNat slot.binding) = some slot := by
  constructor
  · intro mem
    obtain ⟨⟨key, slot'⟩, among, rfl⟩ := List.mem_map.1 mem
    have found := Table.mem_entries.1 among
    obtain ⟨_, _, _, _, _, _, _, same⟩ := h.entry found
    exact same ▸ found
  · exact fun found => List.mem_map_of_mem (Table.mem_entries.2 found)

theorem increasing (h : s.Catalogued env K) :
    s.slots.values.Pairwise fun a b => a.binding < b.binding := by
  refine List.pairwise_map.2 ((List.pairwise_map.1 s.slots.increasing).imp_of_mem ?_)
  rintro ⟨key, a⟩ ⟨key', b⟩ mem mem' less
  obtain ⟨d, binding, _, _, _, place, rfl, same⟩ := h.entry (Table.mem_entries.1 mem)
  obtain ⟨d', binding', _, _, _, place', rfl, same'⟩ := h.entry (Table.mem_entries.1 mem')
  change key = .ofNat binding at same
  change key' = .ofNat binding' at same'
  change key.toNat < key'.toNat at less
  rwa [same, same', UInt32.toNat_ofNat_of_lt' (bindingOf_lt place),
    UInt32.toNat_ofNat_of_lt' (bindingOf_lt place')] at less

/-- Each slot has a variable of its own. -/
theorem descriptors (h : s.Catalogued env K) : ∃ variableOf : ResourceSlot → Id,
    Set.BijOn variableOf {slot | slot ∈ s.slots.values}
      {id | ∃ args, s.builder.module.Decorated id .binding args} ∧
      ∀ slot ∈ s.slots.values,
        (∃ storage, s.builder.module.HasVariable (variableOf slot) storage) ∧
        (∀ args, s.builder.module.Decorated (variableOf slot) .descriptorSet args ↔
          args = [.word 0]) ∧
        ∀ args, s.builder.module.Decorated (variableOf slot) .binding args ↔
          args = [.word (.ofNat slot.binding)] := by
  have bound : ∀ slot ∈ s.slots.values, ∃ id, ∃ d : Descriptor,
      s.bound d.slotClass d.slot = some id ∧
        bindingOf env.stage d.slotClass d.slot = .ok slot.binding := by
    intro slot mem
    obtain ⟨d, binding, id, _, bound, place, rfl, _⟩ := h.entry (h.mem_values.1 mem)
    exact ⟨id, d, bound, place⟩
  choose! variableOf bound using bound
  have marked : ∀ slot ∈ s.slots.values,
      (∃ storage, s.builder.module.HasVariable (variableOf slot) storage) ∧
        s.builder.module.Decorated (variableOf slot) .descriptorSet [.word 0] ∧
        s.builder.module.Decorated (variableOf slot) .binding [.word (.ofNat slot.binding)] := by
    intro slot mem
    obtain ⟨d, is, place⟩ := bound slot mem
    obtain ⟨_, binding, _, _, _, place', _, declared, set_, at_⟩ := h.registers _ _ _ is
    cases place.symm.trans place'
    exact ⟨declared, set_, at_⟩
  have only : ∀ slot ∈ s.slots.values, ∀ (d : Decoration) args, d.isDescriptor = true →
      s.builder.module.Decorated (variableOf slot) d args →
        args = [.word (if d = .binding then .ofNat slot.binding else 0)] := by
    intro slot mem d args is mark
    obtain ⟨d', is', place⟩ := bound slot mem
    obtain ⟨slotClass, reg, binding, is'', place', rfl⟩ := h.decorated _ d args is mark
    obtain ⟨rfl, rfl⟩ := h.own _ _ _ _ _ is' is''
    cases place.symm.trans place'
    rfl
  refine ⟨variableOf,
    ⟨fun slot mem => ⟨_, (marked slot mem).2.2⟩, fun slot mem slot' mem' same => ?_,
    fun id ⟨args, mark⟩ => ?_⟩, fun slot mem => ⟨(marked slot mem).1, fun args =>
      ⟨only slot mem .descriptorSet args rfl, ?_⟩,
      fun args => ⟨only slot mem .binding args rfl, ?_⟩⟩⟩
  · have equal := only slot mem .binding _ rfl (same ▸ (marked slot' mem').2.2)
    have equal : UInt32.ofNat slot'.binding = .ofNat slot.binding :=
      Arg.word.inj (List.cons.inj equal).1
    have found := h.mem_values.1 mem'
    rw [equal, h.mem_values.1 mem] at found
    exact Option.some.inj found
  · obtain ⟨slotClass, reg, binding, is, place, _⟩ := h.decorated id .binding args rfl mark
    obtain ⟨d, binding', _, rfl, rfl, place', found, _⟩ := h.registers _ _ _ is
    cases place.symm.trans place'
    have mem : d.entry env.stage binding ∈ s.slots.values := h.mem_values.2 found
    refine ⟨_, mem, ?_⟩
    obtain ⟨d', is', place'⟩ := bound _ mem
    obtain ⟨classes, regs⟩ := bindingOf_injective place' place
    rw [classes, regs, is] at is'
    exact (Option.some.inj is').symm
  · rintro rfl
    exact (marked slot mem).2.1
  · rintro rfl
    exact (marked slot mem).2.2

/-- The table of slots is that of the program. -/
theorem catalogue (h : s.Catalogued env fun d => firstBound insts d.slotClass d.slot = some d)
    (covered : ∀ slotClass slot, (firstBound insts slotClass slot).isSome = true →
      (s.bound slotClass slot).isSome = true) :
    Catalogue env.stage insts s.slots.values s.builder.module := by
  have entries (slot : ResourceSlot) : slot ∈ s.slots.values ↔ ∃ d binding,
      firstBound insts d.slotClass d.slot = some d ∧
        bindingOf env.stage d.slotClass d.slot = .ok binding ∧
          slot = d.entry env.stage binding := by
    constructor
    · intro mem
      obtain ⟨d, binding, _, known, _, place, same, _⟩ := h.entry (h.mem_values.1 mem)
      exact ⟨d, binding, known, place, same⟩
    · rintro ⟨d, binding, known, place, rfl⟩
      obtain ⟨id, bound⟩ :=
        Option.isSome_iff_exists.1 (covered d.slotClass d.slot (by rw [known]; rfl))
      obtain ⟨d', binding', known', classes, same, place', found, _⟩ := h.registers _ _ id bound
      rw [classes, same, known] at known'
      cases known'
      cases place.symm.trans place'
      exact h.mem_values.2 found
  refine ⟨h.increasing, entries, fun slot mem => ?_, fun u => ?_, h.descriptors⟩
  · obtain ⟨d, binding, known, place, rfl⟩ := (entries slot).1 mem
    obtain ⟨inst, _, bound⟩ := mem_of_firstBound known
    exact ⟨d.slotClass, Instruction.classes_of_bound? bound, place⟩
  have nodup : s.slots.values.Nodup := h.increasing.imp fun less same => by
    rw [same] at less
    exact Nat.lt_irrefl _ less
  have counter {slot : ResourceSlot} (mem : slot ∈ s.slots.values) (kind : slot.kind = .uavCounter)
      (is : slot.slot = u) : (∃ inst ∈ insts, inst.counted? = some u) ∧ ∃ binding,
        bindingOf env.stage .uavCounter u = .ok binding ∧
          slot = (Descriptor.counter u).entry env.stage binding := by
    obtain ⟨d, binding, known, place, rfl⟩ := (entries slot).1 mem
    obtain ⟨inst, among, bound⟩ := mem_of_firstBound known
    have classes := Instruction.classes_of_bound? bound
    rw [show d.kind = .uavCounter from kind] at classes
    obtain ⟨counted, same⟩ := Instruction.counted_of_bound? bound (List.mem_singleton.1 classes)
    rw [show d.slot = u from is] at counted same place
    rw [same] at place ⊢
    exact ⟨⟨inst, among, counted⟩, binding, place, rfl⟩
  split
  · next counted =>
    obtain ⟨inst, among, counted⟩ := counted
    have bound := Instruction.bound?_of_counted counted
    obtain ⟨d, first⟩ := Option.isSome_iff_exists.1 (isSome_firstBound among bound)
    obtain ⟨inst', _, bound'⟩ := mem_of_firstBound first
    obtain ⟨classes, same⟩ := key_of_firstBound first
    obtain ⟨_, is⟩ := Instruction.counted_of_bound? bound' classes
    have same : d.slot = u := same
    rw [same] at is
    subst is
    obtain ⟨id, at_⟩ := Option.isSome_iff_exists.1 (covered _ _ (by rw [first]; rfl))
    obtain ⟨_, binding, _, _, _, place, _⟩ := h.registers _ _ id at_
    have mem : (Descriptor.counter u).entry env.stage binding ∈ s.slots.values :=
      (entries _).2 ⟨_, binding, first, place, rfl⟩
    rw [← List.count_eq_one_of_mem nodup mem, List.count]
    refine List.countP_congr fun slot among => ?_
    simp only [decide_eq_true_eq, beq_iff_eq]
    constructor
    · rintro ⟨kind, is⟩
      obtain ⟨_, binding', place', rfl⟩ := counter among kind is
      cases place.symm.trans place'
      rfl
    · rintro rfl
      exact ⟨rfl, rfl⟩
  · next none_ =>
    refine List.countP_eq_zero.2 fun slot among is => none_ ?_
    obtain ⟨kind, is⟩ := of_decide_eq_true is
    exact (counter among kind is).1

end State.Catalogued

theorem State.Announced.passes {t : State} (h : s.Announced env t) : s.Passes t := by
  obtain ⟨_, _, rfl⟩ := h
  exact ⟨rfl, rfl, fun _ _ => id, fun _ _ _ _ => .rfl, Nat.le_refl _⟩

/-- The slots of a lowered shader are those of its program. -/
theorem lowerInstructions_catalogue {l : Lowering} (lowered : lowerInstructions env insts = .ok l) :
    Catalogue env.stage insts l.state.slots.values l.state.builder.module := by
  obtain ⟨_, stage, x, y, _, course, path, announced⟩ := lowerInstructions_course lowered
  obtain ⟨catalogued, covered⟩ := course.catalogued
  obtain ⟨catalogued, stays⟩ := path.catalogued catalogued nofun
  refine (catalogued.pass announced.passes).catalogue fun slotClass slot is => ?_
  obtain ⟨id, was⟩ := Option.isSome_iff_exists.1 (covered slotClass slot is)
  rw [announced.passes.bound, stays _ _ _ was]
  rfl

end

section Compilation

variable {program : Program} {entries : SignatureEntries} {options : Options}
  {artifact : Artifact}

/-- The resource table of a compiled program is in step with the descriptors of its module and with
what the program declares and counts. -/
theorem compile_catalogue (h : compile program entries options = .ok artifact) :
    ∃ insts l, program.instructions = .ok insts ∧
      lowerInstructions (program.environment insts entries options) insts = .ok l ∧
      artifact = l.artifact ∧
      Catalogue program.stage insts artifact.slots l.state.builder.module := by
  obtain ⟨insts, l, decoded, lowered, rfl⟩ := compile_eq_ok.1 h
  exact ⟨insts, l, decoded, lowered, rfl, lowerInstructions_catalogue lowered⟩

/-- A pixel shader that counts twice in one view. -/
def twiceCounted : Program :=
  .assume [0x50, 19, 0x0400009e, 0x0011e000, 0, 16, 0x02000068, 1, 0x050000b2, 0x00100012, 0,
    0x0011e000, 0, 0x050000b2, 0x00100012, 0, 0x0011e000, 0, 0x0100003e]

theorem compile_catalogue_twiceCounted :
    ∃ artifact insts l, compile twiceCounted ⟨[], [], []⟩ .default = .ok artifact ∧
      twiceCounted.instructions = .ok insts ∧
      lowerInstructions (twiceCounted.environment insts ⟨[], [], []⟩ .default) insts = .ok l ∧
      artifact = l.artifact ∧
      Catalogue twiceCounted.stage insts artifact.slots l.state.builder.module := by
  obtain ⟨artifact, _, _, compiles, _⟩ :=
    exists_compile twiceCounted ⟨[], [], []⟩ .default (fun _ _ _ => true) (by decide +kernel)
  obtain ⟨insts, l, found⟩ := compile_catalogue compiles
  exact ⟨artifact, insts, l, compiles, found⟩

end Compilation

end ShaderLowering
