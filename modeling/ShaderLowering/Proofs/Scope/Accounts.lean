import ShaderLowering.Proofs.Scope.Course

/-!
What a lowering keeps account of. Every change of a configuration either leaves the accounts as they
are, or declares a variable, which is entered where it belongs: among the variables that are listed,
and among the built-ins, interface registers or descriptors if it is one of them. The variable, its
decorations and its entry come in one step, so that they never disagree.
-/

namespace ShaderLowering

open Spirv (Id Instr Arg Op Module Builder StorageClass BuiltIn Decoration Exit Merge)

namespace Spirv

/-- The number of a storage class is its own. -/
theorem StorageClass.code_injective {storage storage' : StorageClass}
    (same : storage.code = storage'.code) : storage = storage' := by
  cases storage <;> cases storage' <;> first | rfl | exact absurd same (by decide)

/-- An instruction declares a variable. -/
structure Instr.Introduces (i : Instr) (id : Id) (storage : StorageClass) : Prop where
  op : i.op = .ordinary .var
  result? : i.result? = some id
  storage : i.args.head? = some (.word storage.code)

instance (i : Instr) (id : Id) (storage : StorageClass) : Decidable (i.Introduces id storage) :=
  decidable_of_iff (i.op = .ordinary .var ∧ i.result? = some id ∧
    i.args.head? = some (.word storage.code))
    ⟨fun ⟨op, result, storage⟩ => ⟨op, result, storage⟩, fun h => ⟨h.op, h.result?, h.storage⟩⟩

theorem Instr.Introduces.eq {i : Instr} {id id' : Id} {storage storage' : StorageClass}
    (h : i.Introduces id storage) (h' : i.Introduces id' storage') :
      id = id' ∧ storage = storage' :=
  ⟨Option.some.inj (h.result?.symm.trans h'.result?),
    StorageClass.code_injective (Arg.word.inj (Option.some.inj (h.storage.symm.trans h'.storage)))⟩

namespace Module

/-- A variable is declared, in a block or outside. -/
def HasVariable (m : Module) (id : Id) (storage : StorageClass) : Prop :=
  ∃ i ∈ m.definitions, i.Introduces id storage

/-- A variable is declared outside the functions. -/
def HasGlobalVariable (m : Module) (id : Id) (storage : StorageClass) : Prop :=
  ∃ i ∈ m.globals.toList, i.Introduces id storage

theorem HasGlobalVariable.hasVariable {m : Module} {id : Id} {storage : StorageClass}
    (h : m.HasGlobalVariable id storage) : m.HasVariable id storage := by
  obtain ⟨i, hi, is⟩ := h
  exact ⟨i, List.mem_append_left _ hi, is⟩

/-- An id carries a decoration. -/
def Decorated (m : Module) (id : Id) (d : Decoration) (args : List Arg) : Prop :=
  Instr.plain .decorate (.id id :: .word d.code :: args) ∈ m.annotations.toList

instance (m : Module) (id : Id) (d : Decoration) (args : List Arg) :
    Decidable (m.Decorated id d args) :=
  inferInstanceAs (Decidable (_ ∈ _))

end Module

namespace Builder

variable {b c : Builder} {i : Instr} {id : Id} {storage : StorageClass}

/-- Two builders have the same variables, decorations and entry points. -/
structure Level (b c : Builder) : Prop where
  declared : ∀ i, i.op = .ordinary .var → (i ∈ c.module.definitions ↔ i ∈ b.module.definitions)
  annotations : c.module.annotations = b.module.annotations
  entryPoints : c.module.entryPoints = b.module.entryPoints
  nextId : b.nextId ≤ c.nextId

namespace Level

theorem refl (b : Builder) : b.Level b :=
  ⟨fun _ _ => .rfl, rfl, rfl, Nat.le_refl _⟩

theorem retable (h : b.Level c) (tables : Tables c.module.globals.toList) :
    b.Level { c with tables } :=
  ⟨h.declared, h.annotations, h.entryPoints, h.nextId⟩

/-- What is added is no variable. -/
theorem of_mem
    (added : ∀ j ∈ c.module.definitions, j ∈ b.module.definitions ∨ j.op ≠ .ordinary .var)
    (kept : ∀ j ∈ b.module.definitions, j ∈ c.module.definitions)
    (annotations : c.module.annotations = b.module.annotations)
    (entryPoints : c.module.entryPoints = b.module.entryPoints) (nextId : b.nextId ≤ c.nextId) :
    b.Level c :=
  ⟨fun j op => ⟨fun hj => (added j hj).resolve_right fun other => other op, kept j⟩, annotations,
    entryPoints, nextId⟩

end Level

theorem level_addGlobal (b : Builder) (other : i.op ≠ .ordinary .var) :
    b.Level (b.fresh.2.addGlobal i) := by
  refine .of_mem (fun j hj => ?_) (fun j hj => definitions_addGlobal.2 (.inl hj)) rfl rfl
    (Nat.le_succ _)
  rcases definitions_addGlobal.1 hj with old | rfl
  · exact .inl old
  · exact .inr other

theorem level_declare (b : Builder) (key : Key) : b.Level (b.declare key).2 := by
  obtain ⟨_, tables, _, same⟩ | ⟨tables, new⟩ := b.declare_eq key
  · rw [same]
    exact (Level.refl b).retable tables
  · have level : b.Level (b.declareNew key.op key.type? key.args).2 :=
      b.level_addGlobal fun is => key.ne_var (OpCode.ordinary.inj is)
    rw [new]
    exact level.retable tables

theorem entryPoints_of_push (placed : b.push i = .ok c) :
    c.module.entryPoints = b.module.entryPoints := by
  obtain ⟨_, _, _, _, rfl⟩ := push_eq_ok.1 placed
  rfl

theorem entryPoints_of_terminate (ended : b.terminate i = .ok c) :
    c.module.entryPoints = b.module.entryPoints := by
  obtain ⟨d, placed, rfl⟩ := terminate_eq_ok.1 ended
  exact (entryPoints_of_push placed :)

namespace Sound

variable (sound : b.Sound)
include sound

theorem level_push (placed : b.push i = .ok c) (other : i.op ≠ .ordinary .var) : b.Level c := by
  have appends := sound.appends placed
  refine .of_mem (fun j hj => ?_) (fun j hj => appends.mem_definitions.2 (.inl hj))
    appends.annotations (entryPoints_of_push placed) (within_push placed).nextId
  rcases appends.mem_definitions.1 hj with old | rfl
  · exact .inl old
  · exact .inr other

/-- A variable is declared. -/
theorem introduces_variable (pointer : Id) (storage : StorageClass) (initial? : Option Id) :
    ∃ i : Instr, i.Introduces b.nextId storage ∧ ∀ j,
      j ∈ (b.variable_ pointer storage initial?).2.module.definitions ↔
        j ∈ b.module.definitions ∨ j = i := by
  refine ⟨⟨.ordinary .var, some pointer, some b.nextId,
    .word storage.code :: initial?.toList.map .id⟩,
    ⟨rfl, rfl, rfl⟩, fun j => ?_⟩
  unfold Builder.variable_
  dsimp only [Builder.fresh]
  split
  · next c placed => exact (sound.fresh.appends placed).mem_definitions
  · exact definitions_addGlobal (b := b.fresh.2)

end Sound

theorem entryPoints_variable (b : Builder) (pointer : Id) (storage : StorageClass)
    (initial? : Option Id) : (b.variable_ pointer storage initial?).2.module.entryPoints =
      b.module.entryPoints := by
  unfold variable_
  dsimp only
  split
  · next placed => exact (entryPoints_of_push placed).trans rfl
  · rfl

theorem Like.definitions (h : b.Like c) : c.module.definitions = b.module.definitions := by
  rw [Module.definitions, Module.definitions, Module.bodies, Module.bodies, h.globals, h.functions]

end Builder

end Spirv

variable {H : Limits} {env : Environment} {binds : Descriptor → Prop} {s t u : State} {id : Id}
  {storage : StorageClass} {marks : List Instr} {x y : Configuration}

/-- Nothing is entered, and only plain annotations are added. -/
structure State.Keeps (s t : State) : Prop where
  listed : t.globals = s.globals
  builtins : t.builtins = s.builtins
  located : t.located = s.located
  bound : t.bound = s.bound
  slots : t.slots = s.slots
  declared : ∀ i, i.op = .ordinary .var →
    (i ∈ t.builder.module.definitions ↔ i ∈ s.builder.module.definitions)
  annotations : ∃ marks, t.builder.module.annotations.toList =
    s.builder.module.annotations.toList ++ marks ∧ ∀ i ∈ marks, i.IsPlainMark
  entryPoints : t.builder.module.entryPoints = s.builder.module.entryPoints
  nextId : s.builder.nextId ≤ t.builder.nextId

/-- A variable is declared and decorated. -/
structure State.Enters (s t : State) (id : Id) (storage : StorageClass) (marks : List Instr) :
    Prop where
  fresh : id = s.builder.nextId
  nextId : t.builder.nextId = s.builder.nextId + 1
  declared : ∃ i : Instr, i.Introduces id storage ∧
    ∀ j, j ∈ t.builder.module.definitions ↔ j ∈ s.builder.module.definitions ∨ j = i
  annotations : t.builder.module.annotations.toList =
    s.builder.module.annotations.toList ++ marks
  entryPoints : t.builder.module.entryPoints = s.builder.module.entryPoints

/-- What a change of a configuration means for the accounts. -/
inductive State.Changes (binds : Descriptor → Prop) (env : Environment) (s t : State) : Prop
  | keep (keeps : s.Keeps t)
  | create {id : Id} {storage : StorageClass} (enters : s.Enters t id storage [])
    (accounts : t.accounts = { s.accounts with listed := (id, storage) :: s.globals })
  | builtin {key : BuiltIn × StorageClass} {made : BuiltinVariable} {marks : List Instr}
    (missing : s.builtins.lookup key = none)
    (enters : s.Enters t made.id key.2
      (.plain .decorate [.id made.id, .word Decoration.builtIn.code, .word key.1.code] :: marks))
    (others : ∀ i ∈ marks, i.IsPlainMark ∨
      i = .plain .decorate [.id made.id, .word Decoration.patch.code])
    (accounts : t.accounts =
      { s.accounts with
        listed := (made.id, key.2) :: s.globals
        builtins := (key, made) :: s.builtins })
  | locate {side : Side} {reg : UInt32} {id : Id} {marks : List Instr}
    (missing : s.located side reg = none) (small : reg.toNat < maxInterfaceRegisters)
    (enters : s.Enters t id side.storage
      ((if side.isPatch then [.plain .decorate [.id id, .word Decoration.patch.code]] else []) ++
        .plain .decorate
          [.id id, .word Decoration.location.code, .word (side.locationOf reg)] :: marks))
    (others : ∀ i ∈ marks, i.IsPlainMark)
    (accounts : t.accounts =
      { s.accounts with
        listed := (id, side.storage) :: s.globals
        located := Function.updateAt s.located side reg (some id) })
  | bind {d : Descriptor} {id : Id} {storage : StorageClass} {binding : Nat} {marks : List Instr}
    (may : binds d) (unbound : s.bound d.slotClass d.slot = none)
    (place : bindingOf env.stage d.slotClass d.slot = .ok binding)
    (enters : s.Enters t id storage (marks ++
      [.plain .decorate [.id id, .word Decoration.descriptorSet.code, .word 0],
        .plain .decorate [.id id, .word Decoration.binding.code, .word (.ofNat binding)]]))
    (others : ∀ i ∈ marks, i.IsPlainMark)
    (accounts : t.accounts =
      { s.accounts with
        listed := (id, storage) :: s.globals
        bound := Function.updateAt s.bound d.slotClass d.slot (some id)
        slots := enterSlot s.slots env.stage d binding })

theorem State.Keeps.hasVariable (h : s.Keeps t) :
    t.builder.module.HasVariable id storage ↔ s.builder.module.HasVariable id storage :=
  exists_congr fun i => ⟨fun ⟨hi, is⟩ => ⟨(h.declared i is.op).1 hi, is⟩,
    fun ⟨hi, is⟩ => ⟨(h.declared i is.op).2 hi, is⟩⟩

theorem State.Enters.hasVariable (h : s.Enters t id storage marks) {id' : Id}
    {storage' : StorageClass} : t.builder.module.HasVariable id' storage' ↔
      s.builder.module.HasVariable id' storage' ∨ id' = id ∧ storage' = storage := by
  obtain ⟨i, new, all⟩ := h.declared
  constructor
  · rintro ⟨j, hj, is⟩
    rcases (all j).1 hj with old | rfl
    · exact .inl ⟨j, old, is⟩
    · exact .inr (is.eq new)
  · rintro (⟨j, hj, is⟩ | ⟨rfl, rfl⟩)
    · exact ⟨j, (all j).2 (.inl hj), is⟩
    · exact ⟨i, (all i).2 (.inr rfl), new⟩

theorem State.Keeps.of_level (level : s.builder.Level t.builder) (listed : t.globals = s.globals)
    (builtins : t.builtins = s.builtins) (located : t.located = s.located)
    (bound : t.bound = s.bound) (slots : t.slots = s.slots) : s.Keeps t where
  listed
  builtins
  located
  bound
  slots
  declared := level.declared
  annotations := ⟨[], by rw [level.annotations, List.append_nil], List.forall_mem_nil _⟩
  entryPoints := level.entryPoints
  nextId := level.nextId

/-- The builder alone has changed. -/
theorem State.Keeps.of_builder {c : Builder} (level : s.builder.Level c) :
    s.Keeps { s with builder := c } :=
  .of_level level rfl rfl rfl rfl rfl

theorem Creates.enters (h : Creates H s t id storage marks) (sound : s.builder.Sound) :
    s.Enters t id storage marks := by
  obtain ⟨pointer, initial?, _, like⟩ := h.built
  refine ⟨h.fresh, ?_, ?_, h.marks, ?_⟩
  · rw [like.nextId, Builder.nextId_variable]
  · rw [like.definitions, h.fresh]
    exact sound.introduces_variable pointer storage initial?
  · rw [like.entryPoints, Builder.entryPoints_variable]

theorem Act.changes (h : Act H env s t) (may : ∀ d, H.binds d → binds d) (sound : s.builder.Sound) :
    s.Changes binds env t := by
  cases h with
  | declare => exact .keep (.of_builder (s.builder.level_declare _))
  | declareNew global =>
    refine .keep (.of_builder (s.builder.level_addGlobal ?_))
    rintro ⟨⟩
    cases global
  | compute emits placed =>
    have level := sound.fresh.level_push placed fun is =>
      emits.ne_var (Spirv.OpCode.ordinary.inj is)
    exact .keep (.of_builder ⟨level.declared, level.annotations, level.entryPoints,
      Nat.le_of_succ_le level.nextId⟩)
  | emit emits placed =>
    exact .keep (.of_builder (sound.level_push placed
      fun is => emits.ne_var (Spirv.OpCode.ordinary.inj is)))
  | create creates accounts => exact .create (creates.enters sound) accounts
  | annotate plain =>
    refine .keep ⟨rfl, rfl, rfl, rfl, rfl,
      fun _ _ => .rfl, ⟨_, ?_, List.forall_mem_singleton.2 plain⟩,
      rfl, Nat.le_refl _⟩
    exact Array.toList_push
  | note like annotations _ accounts =>
    have same {α : Type} (f : Accounts → α) : f t.accounts = f s.accounts := congrArg f accounts
    refine .keep
      (.of_level ⟨fun _ _ => ?_, annotations, like.entryPoints, Nat.le_of_eq like.nextId.symm⟩
      (same (·.listed)) (same (·.builtins)) (same (·.located)) (same (·.bound)) (same (·.slots)))
    rw [like.definitions]
  | builtin missing creates others accounts =>
    exact .builtin missing (creates.enters sound) others accounts
  | locate missing small creates others accounts =>
    exact .locate missing small (creates.enters sound) others accounts
  | bind allowed bound =>
    obtain ⟨_, _, _, _, place, creates, others, accounts⟩ := bound.made
    exact .bind (may _ allowed) bound.unbound place (creates.enters sound) others accounts

/-- A step of the builder that directs control. -/
theorem Spirv.Builder.Steers.level {b c : Builder} (h : b.Steers c)
    (entryPoints : c.module.entryPoints = b.module.entryPoints) (nextId : b.nextId ≤ c.nextId) :
    b.Level c := by
  refine .of_mem (fun j hj => ?_) (fun j hj => ?_) h.annotations entryPoints nextId
  · rcases List.mem_append.1 hj with global | inside
    · exact .inl (List.mem_append_left _ (h.globals ▸ global))
    · refine (h.mem_bodies j inside).imp (List.mem_append_right _) ?_
      rintro ⟨op, is⟩
      rw [is]
      nofun
  · rcases List.mem_append.1 hj with global | inside
    · exact List.mem_append_left _ (h.globals ▸ global)
    · exact List.mem_append_right _ (h.bodies j inside)

theorem Move.changes (h : Move H env x y) (may : ∀ d, H.binds d → binds d)
    (sound : x.state.builder.Sound) : x.state.Changes binds env y.state := by
  have later := h.nextId
  cases h with
  | act act => exact act.changes may sound
  | reserve | leave | closeFunction =>
    exact .keep (.of_builder ⟨fun _ _ => .rfl, rfl, rfl, later⟩)
  | forget => exact .keep (.of_level (.refl _) rfl rfl rfl rfl rfl)
  | @exit _ _ e _ ended =>
    have entryPoints := Spirv.Builder.entryPoints_of_terminate ended
    cases e <;>
      exact .keep (.of_builder ((sound.steers_terminate ended).1.level entryPoints later))
  | @merge _ _ m _ placed =>
    exact .keep (.of_builder (sound.level_push placed (by cases m <;> nofun)))
  | place inside => exact .keep (.of_builder ((sound.steers_block inside _).level rfl later))
  | reopen opened =>
    rw [Spirv.Builder.reopenBlock_eq_ok opened]
    exact .keep (.of_builder ⟨fun _ _ => .rfl, rfl, rfl, Nat.le_refl _⟩)
  | openFunction outside =>
    exact .keep (.of_builder ((sound.steers_function outside _).level rfl later))
  | note builder _ accounts =>
    have same {α : Type} (f : Accounts → α) : f _ = f _ := congrArg f accounts
    refine .keep (.of_level ?_ (same (·.listed)) (same (·.builtins)) (same (·.located))
      (same (·.bound)) (same (·.slots)))
    rw [builder]
    exact .refl _

theorem Advance.changes (h : Advance binds env x y) : x.state.Changes binds env y.state := by
  cases h with
  | move may ready move => exact move.changes may ready.sound
  | restage => exact .keep (.of_level (.refl _) rfl rfl rfl rfl rfl)

end ShaderLowering
