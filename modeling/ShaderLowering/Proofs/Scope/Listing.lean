import ShaderLowering.Proofs.Scope.Descriptors

/-!
The interface. All variables are listed, and the special decorations are on variables that are
listed. Those that carry an interface register have its location, those that stand for a built-in
its name, and nothing else has either. So the interface of the entry point and the bit masks of the
locations can be read off the module.
-/

namespace ShaderLowering

open Spirv (Id Instr Arg Op Module Builder StorageClass BuiltIn Decoration)

theorem Spirv.BuiltIn.code_injective {builtin builtin' : BuiltIn}
    (same : builtin.code = builtin'.code) : builtin = builtin' := by
  cases builtin <;> cases builtin' <;> first | rfl | exact absurd same (by decide)

variable {binds : Descriptor → Prop} {env : Environment} {s t : State} {id id' : Id}
  {storage : StorageClass} {d : Decoration} {args : List Arg} {marks : List Instr}
  {x y : Configuration}

/-- All variables are listed, each once, and only they have special decorations. -/
structure State.Listed (s : State) : Prop where
  complete : ∀ i ∈ s.builder.module.definitions, i.op = .ordinary .var →
    ∃ id storage, i.Introduces id storage ∧ (id, storage) ∈ s.globals
  declared : ∀ id storage, (id, storage) ∈ s.globals → s.builder.module.HasVariable id storage
  once : (s.globals.map (·.1)).Nodup
  old : ∀ id storage, (id, storage) ∈ s.globals → id < s.builder.nextId
  marked : ∀ id d args, d.isSpecial = true → s.builder.module.Decorated id d args →
    id < s.builder.nextId

/-- Special decorations are on one id only. -/
def OnlyMarks (id : Id) (marks : List Instr) : Prop :=
  ∀ id' (d : Decoration) args, d.isSpecial = true →
    Instr.plain .decorate (.id id' :: .word d.code :: args) ∈ marks → id' = id

theorem OnlyMarks.of_plain (plain : ∀ i ∈ marks, i.IsPlainMark) : OnlyMarks id marks :=
  fun _ _ _ special mem => absurd rfl ((plain _ mem).ne special)

theorem OnlyMarks.cons (h : OnlyMarks id marks) (d : Decoration) (args : List Arg) :
    OnlyMarks id (.plain .decorate (.id id :: .word d.code :: args) :: marks) := by
  intro id' d' args' special mem
  rcases List.mem_cons.1 mem with same | mem
  · exact (Decoration.mark_inj same).1
  · exact h id' d' args' special mem

theorem OnlyMarks.append {more : List Instr} (h : OnlyMarks id marks) (h' : OnlyMarks id more) :
    OnlyMarks id (marks ++ more) := fun id' d args special mem =>
  (List.mem_append.1 mem).elim (h id' d args special) (h' id' d args special)

theorem OnlyMarks.nil : OnlyMarks id [] :=
  .of_plain (List.forall_mem_nil _)

namespace State.Enters

variable (h : s.Enters t id storage marks) (only : OnlyMarks id marks)
include h only

/-- Old decorations are as they were. -/
theorem decorated_other (special : d.isSpecial = true) (other : id' ≠ id) :
    t.builder.module.Decorated id' d args ↔ s.builder.module.Decorated id' d args := by
  rw [Spirv.Module.decorated_append h.annotations, or_iff_left]
  exact fun mem => other (only id' d args special mem)

omit only in
theorem decorated_self (listed : s.Listed) (special : d.isSpecial = true) :
    t.builder.module.Decorated id d args ↔
      Instr.plain .decorate (.id id :: .word d.code :: args) ∈ marks := by
  rw [Spirv.Module.decorated_append h.annotations, or_iff_right]
  exact fun before => Nat.lt_irrefl _ (h.fresh ▸ listed.marked id d args special before)

theorem listed (listed : s.Listed) (entered : t.globals = (id, storage) :: s.globals) :
    t.Listed := by
  obtain ⟨i, new, all⟩ := h.declared
  have later {id' : Id} (old : id' < s.builder.nextId) : id' < t.builder.nextId :=
    h.nextId ▸ Nat.lt_succ_of_lt old
  have self : id < t.builder.nextId := by
    rw [h.fresh, h.nextId]
    exact Nat.lt_succ_self _
  refine ⟨fun j hj op => ?_, fun id' storage' mem => ?_, ?_, fun id' storage' mem => ?_,
    fun id' d args special mark => ?_⟩
  · rw [entered]
    rcases (all j).1 hj with old | rfl
    · obtain ⟨id', storage', is, mem⟩ := listed.complete j old op
      exact ⟨id', storage', is, List.mem_cons_of_mem _ mem⟩
    · exact ⟨id, storage, new, List.mem_cons_self⟩
  · rw [entered] at mem
    rcases List.mem_cons.1 mem with same | mem
    · cases same
      exact h.hasVariable.2 (.inr ⟨rfl, rfl⟩)
    · exact h.hasVariable.2 (.inl (listed.declared id' storage' mem))
  · rw [entered, List.map_cons, List.nodup_cons]
    refine ⟨fun mem => ?_, listed.once⟩
    obtain ⟨⟨id', storage'⟩, mem, same⟩ := List.mem_map.1 mem
    have below := listed.old id' storage' mem
    rw [show id' = id from same, h.fresh] at below
    exact Nat.lt_irrefl _ below
  · rw [entered] at mem
    rcases List.mem_cons.1 mem with same | mem
    · cases same
      exact self
    · exact later (listed.old id' storage' mem)
  · rcases (Spirv.Module.decorated_append h.annotations).1 mark with before | mem
    · exact later (listed.marked id' d args special before)
    · exact only id' d args special mem ▸ self

end State.Enters

/-- What interface registers have is what they are decorated with. -/
structure State.Placed (s : State) : Prop where
  located : ∀ side reg id, s.located side reg = some id → reg.toNat < maxInterfaceRegisters ∧
    (id, side.storage) ∈ s.globals ∧
    s.builder.module.Decorated id .location [.word (side.locationOf reg)] ∧
    (s.builder.module.Decorated id .patch [] ↔ side.isPatch = true)
  locations : ∀ id args, s.builder.module.Decorated id .location args →
    ∃ side reg, s.located side reg = some id ∧ args = [.word (side.locationOf reg)]

/-- A variable that carries no interface register. -/
theorem State.Enters.placed (h : s.Enters t id storage marks) (only : OnlyMarks id marks)
    (listed : s.Listed) (placed : s.Placed) (entered : t.globals = (id, storage) :: s.globals)
    (located : t.located = s.located)
    (none_ : ∀ args,
      Instr.plain .decorate (.id id :: .word Decoration.location.code :: args) ∉ marks) :
    t.Placed := by
  refine ⟨fun side reg id' is => ?_, fun id' args mark => ?_⟩
  · rw [located] at is
    obtain ⟨small, mem, location, patch⟩ := placed.located side reg id' is
    have other : id' ≠ id := fun same =>
      Nat.lt_irrefl _ (h.fresh ▸ same ▸ listed.old _ _ mem)
    rw [entered, h.decorated_other only rfl other, h.decorated_other only rfl other]
    exact ⟨small, List.mem_cons_of_mem _ mem, location, patch⟩
  · rw [located]
    by_cases same : id' = id
    · subst same
      exact absurd ((h.decorated_self listed rfl).1 mark) (none_ args)
    · exact placed.locations id' args ((h.decorated_other only rfl same).1 mark)

/-- A variable for an interface register. -/
theorem State.Enters.places {side : Side} {reg : UInt32}
    (h : s.Enters t id side.storage
      ((if side.isPatch then [.plain .decorate [.id id, .word Decoration.patch.code]] else []) ++
        .plain .decorate
          [.id id, .word Decoration.location.code, .word (side.locationOf reg)] :: marks))
    (others : ∀ i ∈ marks, i.IsPlainMark) (listed : s.Listed) (placed : s.Placed)
    (missing : s.located side reg = none) (small : reg.toNat < maxInterfaceRegisters)
    (entered : t.globals = (id, side.storage) :: s.globals)
    (located : t.located = Function.updateAt s.located side reg (some id)) :
    OnlyMarks id ((if side.isPatch then [Instr.plain .decorate
        [.id id, .word Decoration.patch.code]] else []) ++
      .plain .decorate
        [.id id, .word Decoration.location.code, .word (side.locationOf reg)] :: marks) ∧
      t.Placed := by
  have only : OnlyMarks id ((if side.isPatch then [Instr.plain .decorate
        [.id id, .word Decoration.patch.code]] else []) ++
      .plain .decorate
        [.id id, .word Decoration.location.code, .word (side.locationOf reg)] :: marks) := by
    refine .append ?_ ((OnlyMarks.of_plain others).cons _ _)
    split
    · exact OnlyMarks.nil.cons _ _
    · exact .nil
  have location (args : List Arg) : t.builder.module.Decorated id .location args ↔
      args = [.word (side.locationOf reg)] := by
    rw [h.decorated_self listed rfl, List.mem_append, List.mem_cons]
    constructor
    · rintro (mem | same | mem)
      · split at mem
        · cases (Decoration.mark_inj (List.mem_singleton.1 mem)).2.1
        · cases mem
      · exact (Decoration.mark_inj same).2.2
      · exact absurd rfl ((others _ mem).ne rfl)
    · rintro rfl
      exact .inr (.inl rfl)
  have patch : t.builder.module.Decorated id .patch [] ↔ side.isPatch = true := by
    rw [h.decorated_self listed rfl, List.mem_append, List.mem_cons]
    constructor
    · rintro (mem | same | mem)
      · split at mem
        · assumption
        · cases mem
      · cases (Decoration.mark_inj same).2.1
      · exact absurd rfl ((others _ mem).ne rfl)
    · intro is
      rw [if_pos is]
      exact .inl List.mem_cons_self
  refine ⟨only, fun side' reg' id' is => ?_, fun id' args mark => ?_⟩
  · rw [located, Function.updateAt] at is
    split at is
    · next same =>
      obtain ⟨rfl, rfl⟩ := same
      cases is
      exact ⟨small, entered ▸ List.mem_cons_self, (location _).2 rfl, patch⟩
    · obtain ⟨small', mem, location', patch'⟩ := placed.located side' reg' id' is
      have other : id' ≠ id := fun same =>
        Nat.lt_irrefl _ (h.fresh ▸ same ▸ listed.old _ _ mem)
      rw [entered, h.decorated_other only rfl other, h.decorated_other only rfl other]
      exact ⟨small', List.mem_cons_of_mem _ mem, location', patch'⟩
  · by_cases same : id' = id
    · subst same
      refine ⟨side, reg, ?_, (location args).1 mark⟩
      rw [located, Function.updateAt, if_pos ⟨rfl, rfl⟩]
    · obtain ⟨side', reg', is, rfl⟩ :=
        placed.locations id' args ((h.decorated_other only rfl same).1 mark)
      refine ⟨side', reg', ?_, rfl⟩
      rw [located, Function.updateAt, if_neg, is]
      rintro ⟨rfl, rfl⟩
      cases missing.symm.trans is

/-- What stands for a built-in is what is decorated with it. -/
structure State.Tagged (s : State) : Prop where
  builtins : ∀ key made, s.builtins.lookup key = some made → (made.id, key.2) ∈ s.globals ∧
    s.builder.module.Decorated made.id .builtIn [.word key.1.code]
  tags : ∀ id args, s.builder.module.Decorated id .builtIn args →
    ∃ key made, s.builtins.lookup key = some made ∧ made.id = id ∧ args = [.word key.1.code]

/-- A variable that stands for no built-in. -/
theorem State.Enters.tagged (h : s.Enters t id storage marks) (only : OnlyMarks id marks)
    (listed : s.Listed) (tagged : s.Tagged) (entered : t.globals = (id, storage) :: s.globals)
    (builtins : t.builtins = s.builtins)
    (none_ : ∀ args,
      Instr.plain .decorate (.id id :: .word Decoration.builtIn.code :: args) ∉ marks) :
    t.Tagged := by
  refine ⟨fun key made is => ?_, fun id' args mark => ?_⟩
  · rw [builtins] at is
    obtain ⟨mem, mark⟩ := tagged.builtins key made is
    have other : made.id ≠ id := fun same =>
      Nat.lt_irrefl _ (h.fresh ▸ same ▸ listed.old _ _ mem)
    exact ⟨entered ▸ List.mem_cons_of_mem _ mem, (h.decorated_other only rfl other).2 mark⟩
  · rw [builtins]
    by_cases same : id' = id
    · subst same
      exact absurd ((h.decorated_self listed rfl).1 mark) (none_ args)
    · exact tagged.tags id' args ((h.decorated_other only rfl same).1 mark)

/-- A variable for a built-in. -/
theorem State.Enters.tags {key : BuiltIn × StorageClass} {made : BuiltinVariable}
    (h : s.Enters t made.id key.2
      (.plain .decorate [.id made.id, .word Decoration.builtIn.code, .word key.1.code] :: marks))
    (others : ∀ i ∈ marks, i.IsPlainMark ∨
      i = .plain .decorate [.id made.id, .word Decoration.patch.code])
    (listed : s.Listed) (tagged : s.Tagged) (missing : s.builtins.lookup key = none)
    (entered : t.globals = (made.id, key.2) :: s.globals)
    (builtins : t.builtins = (key, made) :: s.builtins) :
    OnlyMarks made.id
      (.plain .decorate [.id made.id, .word Decoration.builtIn.code, .word key.1.code] :: marks) ∧
      t.Tagged := by
  have only : OnlyMarks made.id (.plain .decorate
      [.id made.id, .word Decoration.builtIn.code, .word key.1.code] :: marks) := by
    refine OnlyMarks.cons (fun id' d args special mem => ?_) _ _
    rcases others _ mem with plain | same
    · exact absurd rfl (plain.ne special)
    · exact (Decoration.mark_inj same).1
  have lookup (key' : BuiltIn × StorageClass) : t.builtins.lookup key' =
      if key' = key then some made else s.builtins.lookup key' := by
    rw [builtins, List.lookup_cons]
    by_cases same : key' = key
    · rw [if_pos same, beq_iff_eq.2 same]
    · rw [if_neg same, beq_eq_false_iff_ne.2 same]
  refine ⟨only, fun key' made' is => ?_, fun id args mark => ?_⟩
  · rw [lookup] at is
    rw [entered]
    split at is
    · next same =>
      cases is
      subst same
      exact ⟨List.mem_cons_self, (h.decorated_self listed rfl).2 List.mem_cons_self⟩
    · obtain ⟨mem, mark⟩ := tagged.builtins key' made' is
      have other : made'.id ≠ made.id := fun same =>
        Nat.lt_irrefl _ (h.fresh ▸ same ▸ listed.old _ _ mem)
      exact ⟨List.mem_cons_of_mem _ mem, (h.decorated_other only rfl other).2 mark⟩
  · by_cases same : id = made.id
    · subst same
      refine ⟨key, made, by rw [lookup, if_pos rfl], rfl, ?_⟩
      rcases List.mem_cons.1 ((h.decorated_self listed rfl).1 mark) with same | mem
      · exact (Decoration.mark_inj same).2.2
      · rcases others _ mem with plain | same
        · exact absurd rfl (plain.ne rfl)
        · cases (Decoration.mark_inj same).2.1
    · obtain ⟨key', made', is, rfl, rfl⟩ :=
        tagged.tags id args ((h.decorated_other only rfl same).1 mark)
      refine ⟨key', made', ?_, rfl, rfl⟩
      rw [lookup, if_neg, is]
      rintro rfl
      cases missing.symm.trans is

/-- The accounts of the interface are in order, and there is no entry point yet. -/
structure State.Recorded (s : State) : Prop where
  listed : s.Listed
  placed : s.Placed
  tagged : s.Tagged
  entryPoints : s.builder.module.entryPoints = #[]

theorem State.Keeps.recorded (h : s.Keeps t) (recorded : s.Recorded) : t.Recorded := by
  obtain ⟨⟨complete, declared, once, old, marked⟩, ⟨located, locations⟩, ⟨builtins, tags⟩, none_⟩ :=
    recorded
  obtain ⟨marks, annotations, plain⟩ := h.annotations
  have decorated {id : Id} {d : Decoration} {args : List Arg} (special : d.isSpecial = true) :
      t.builder.module.Decorated id d args ↔ s.builder.module.Decorated id d args :=
    Spirv.Module.decorated_of_plain annotations plain special
  refine ⟨⟨fun i hi op => ?_, fun id storage mem => ?_, ?_, fun id storage mem => ?_,
    fun id d args special mark => ?_⟩, ⟨fun side reg id is => ?_, fun id args mark => ?_⟩,
    ⟨fun key made is => ?_, fun id args mark => ?_⟩, h.entryPoints.trans none_⟩
  · rw [h.listed]
    exact complete i ((h.declared i op).1 hi) op
  · exact h.hasVariable.2 (declared id storage (h.listed ▸ mem))
  · rwa [h.listed]
  · exact Nat.lt_of_lt_of_le (old id storage (h.listed ▸ mem)) h.nextId
  · exact Nat.lt_of_lt_of_le (marked id d args special ((decorated special).1 mark)) h.nextId
  · rw [h.located] at is
    rw [h.listed, decorated rfl, decorated rfl]
    exact located side reg id is
  · rw [h.located]
    exact locations id args ((decorated rfl).1 mark)
  · rw [h.builtins] at is
    rw [h.listed, decorated rfl]
    exact builtins key made is
  · rw [h.builtins]
    exact tags id args ((decorated rfl).1 mark)

theorem State.Changes.recorded (h : s.Changes binds env t) (recorded : s.Recorded) :
    t.Recorded := by
  obtain ⟨listed, placed, tagged, none_⟩ := recorded
  have plain_ne {marks : List Instr} (plain : ∀ i ∈ marks, i.IsPlainMark) (id : Id) {d : Decoration}
      (special : d.isSpecial = true) (args : List Arg) :
      Instr.plain .decorate (.id id :: .word d.code :: args) ∉ marks :=
    fun mem => absurd rfl ((plain _ mem).ne special)
  cases h with
  | keep keeps => exact keeps.recorded ⟨listed, placed, tagged, none_⟩
  | create enters accounts =>
    have entered := congrArg Accounts.listed accounts
    exact ⟨enters.listed .nil listed entered,
      enters.placed .nil listed placed entered (congrArg Accounts.located accounts)
        fun _ => List.not_mem_nil,
      enters.tagged .nil listed tagged entered (congrArg Accounts.builtins accounts)
        fun _ => List.not_mem_nil, enters.entryPoints.trans none_⟩
  | builtin missing enters others accounts =>
    have entered := congrArg Accounts.listed accounts
    obtain ⟨only, tagged⟩ := enters.tags others listed tagged missing entered
      (congrArg Accounts.builtins accounts)
    refine ⟨enters.listed only listed entered, enters.placed only listed placed entered
      (congrArg Accounts.located accounts) fun args mem => ?_, tagged,
      enters.entryPoints.trans none_⟩
    rcases List.mem_cons.1 mem with same | mem
    · cases (Decoration.mark_inj same).2.1
    · rcases others _ mem with plain | same
      · exact absurd rfl (plain.ne rfl)
      · cases (Decoration.mark_inj same).2.1
  | @locate side _ _ _ missing small enters others accounts =>
    have entered := congrArg Accounts.listed accounts
    obtain ⟨only, placed⟩ := enters.places others listed placed missing small entered
      (congrArg Accounts.located accounts)
    refine ⟨enters.listed only listed entered, placed, enters.tagged only listed tagged entered
      (congrArg Accounts.builtins accounts) fun args mem => ?_, enters.entryPoints.trans none_⟩
    rcases List.mem_append.1 mem with mem | mem
    · split at mem
      · cases (Decoration.mark_inj (List.mem_singleton.1 mem)).2.1
      · cases mem
    · rcases List.mem_cons.1 mem with same | mem
      · cases (Decoration.mark_inj same).2.1
      · exact plain_ne others _ rfl _ mem
  | @bind d id storage binding marks _ _ _ enters others accounts =>
    have entered := congrArg Accounts.listed accounts
    have only : OnlyMarks id (marks ++
        [.plain .decorate [.id id, .word Decoration.descriptorSet.code, .word 0],
          .plain .decorate [.id id, .word Decoration.binding.code, .word (.ofNat binding)]]) :=
      (OnlyMarks.of_plain others).append ((OnlyMarks.nil.cons _ _).cons _ _)
    have none_of {d : Decoration} (special : d.isSpecial = true) (other : d.isDescriptor = false)
        (args : List Arg) : Instr.plain .decorate (.id id :: .word d.code :: args) ∉ marks ++
          [.plain .decorate [.id id, .word Decoration.descriptorSet.code, .word 0],
            .plain .decorate [.id id, .word Decoration.binding.code, .word (.ofNat binding)]] := by
      intro mem
      rcases List.mem_append.1 mem with mem | mem
      · exact plain_ne others id special args mem
      · rcases List.mem_cons.1 mem with same | mem
        · cases (Decoration.mark_inj same).2.1
          cases other
        · cases (Decoration.mark_inj (List.mem_singleton.1 mem)).2.1
          cases other
    exact ⟨enters.listed only listed entered,
      enters.placed only listed placed entered (congrArg Accounts.located accounts)
        (none_of rfl rfl),
      enters.tagged only listed tagged entered (congrArg Accounts.builtins accounts)
        (none_of rfl rfl), enters.entryPoints.trans none_⟩

theorem Path.recorded (path : Path binds env x y) (recorded : x.state.Recorded) :
    y.state.Recorded := by
  induction path with
  | refl => exact recorded
  | tail _ last ih => exact last.changes.recorded ih

theorem State.recorded_opened (version : SpirvVersion) (stage : StageState) :
    (State.opened version stage).Recorded where
  listed :=
    { complete := fun _ h => absurd h List.not_mem_nil
      declared := fun _ _ h => absurd h List.not_mem_nil
      once := .nil
      old := fun _ _ h => absurd h List.not_mem_nil
      marked := fun _ _ _ _ h => absurd h List.not_mem_nil }
  placed :=
    { located := fun side _ _ is => by cases side <;> cases is
      locations := fun _ _ h => absurd h List.not_mem_nil }
  tagged :=
    { builtins := fun _ _ is => by cases is
      tags := fun _ _ h => absurd h List.not_mem_nil }
  entryPoints := rfl

theorem Course.recorded {version : SpirvVersion} {stage : StageState} {insts : List Instruction}
    (course : Course env version stage insts x) : x.state.Recorded := by
  induction course with
  | begin path => exact path.recorded (State.recorded_opened version stage)
  | step _ path _ ih => exact path.recorded ih

/-- What the variables of the interface are for: a register, or a built-in. -/
inductive Port
  | register (side : Side) (reg : UInt32)
  | builtin (builtin : BuiltIn) (storage : StorageClass)
deriving DecidableEq

def Port.storageClass : Port → StorageClass
  | register side _ => side.storage
  | builtin _ storage => storage

def State.port? (s : State) : Port → Option Id
  | .register side reg => s.located side reg
  | .builtin builtin storage => (s.builtins.lookup (builtin, storage)).map (·.id)

/-- No two registers or built-ins have one variable. -/
def State.Unshared (s : State) : Prop :=
  ∀ p q id, s.port? p = some id → s.port? q = some id → q = p

theorem State.Recorded.mem_port (h : s.Recorded) {p : Port} (is : s.port? p = some id) :
    (id, p.storageClass) ∈ s.globals := by
  cases p with
  | register side reg => exact (h.placed.located side reg id is).2.1
  | builtin builtin storage =>
    obtain ⟨made, found, rfl⟩ := Option.map_eq_some_iff.1 is
    exact (h.tagged.builtins _ made found).1

/-- A new variable for one port is none of the old ones. -/
theorem State.Unshared.enter (h : s.Unshared) (recorded : s.Recorded)
    (fresh : id = s.builder.nextId)
    (new : Port) (others : ∀ p, p ≠ new → t.port? p = s.port? p) (made : t.port? new = some id) :
    t.Unshared := by
  have apart {p : Port} (other : p ≠ new) : t.port? p ≠ some id := by
    intro is
    have old := recorded.listed.old id p.storageClass (recorded.mem_port (others p other ▸ is))
    exact Nat.lt_irrefl _ (fresh ▸ old)
  intro p q i hp hq
  by_cases first : p = new
  · subst first
    cases made.symm.trans hp
    exact not_not.1 fun second => apart second hq
  · by_cases second : q = new
    · subst second
      cases made.symm.trans hq
      exact absurd hp (apart first)
    · rw [others p first] at hp
      rw [others q second] at hq
      exact h p q i hp hq

theorem State.Unshared.of_same (h : s.Unshared) (same : ∀ p, t.port? p = s.port? p) :
    t.Unshared := by
  intro p q id hp hq
  rw [same] at hp hq
  exact h p q id hp hq

theorem State.port?_of_same (builtins : t.builtins = s.builtins) (located : t.located = s.located)
    (p : Port) : t.port? p = s.port? p := by
  cases p with
  | register side reg => exact congrFun (congrFun located side) reg
  | builtin builtin storage => rw [port?, port?, builtins]

theorem State.Changes.unshared (h : s.Changes binds env t) (recorded : s.Recorded)
    (unshared : s.Unshared) : t.Unshared := by
  have same (accounts : t.builtins = s.builtins ∧ t.located = s.located) : t.Unshared :=
    unshared.of_same (State.port?_of_same accounts.1 accounts.2)
  cases h with
  | keep keeps => exact same ⟨keeps.builtins, keeps.located⟩
  | create _ accounts =>
    exact same ⟨congrArg Accounts.builtins accounts, congrArg Accounts.located accounts⟩
  | bind _ _ _ _ _ accounts =>
    exact same ⟨congrArg Accounts.builtins accounts, congrArg Accounts.located accounts⟩
  | @builtin key made _ _ enters _ accounts =>
    have builtins : t.builtins = (key, made) :: s.builtins := congrArg Accounts.builtins accounts
    have located : t.located = s.located := congrArg Accounts.located accounts
    refine unshared.enter recorded enters.fresh (.builtin key.1 key.2) (fun p other => ?_) ?_
    · cases p with
      | register side reg => exact congrFun (congrFun located side) reg
      | builtin builtin storage =>
        have apart : (builtin, storage) ≠ key := by
          rintro rfl
          exact other rfl
        rw [State.port?, State.port?, builtins, List.lookup_cons, beq_eq_false_iff_ne.2 apart]
    · rw [State.port?, builtins, List.lookup_cons_self]
      rfl
  | @locate side reg id _ _ _ enters _ accounts =>
    have builtins : t.builtins = s.builtins := congrArg Accounts.builtins accounts
    have located : t.located = Function.updateAt s.located side reg (some id) :=
      congrArg Accounts.located accounts
    refine unshared.enter recorded enters.fresh (.register side reg) (fun p other => ?_) ?_
    · cases p with
      | register side' reg' =>
        rw [State.port?, State.port?, located, Function.updateAt, if_neg]
        rintro ⟨rfl, rfl⟩
        exact other rfl
      | builtin builtin storage => rw [State.port?, State.port?, builtins]
    · rw [State.port?, located, Function.updateAt, if_pos ⟨rfl, rfl⟩]

theorem Path.unshared (path : Path binds env x y) (recorded : x.state.Recorded)
    (unshared : x.state.Unshared) : y.state.Unshared := by
  induction path with
  | refl => exact unshared
  | tail before last ih => exact last.changes.unshared (Path.recorded before recorded) ih

theorem State.unshared_opened (version : SpirvVersion) (stage : StageState) :
    (State.opened version stage).Unshared := by
  intro p q id is
  cases p with
  | register side reg => cases side <;> cases is
  | builtin builtin storage => cases is

theorem Course.unshared {version : SpirvVersion} {stage : StageState} {insts : List Instruction}
    (course : Course env version stage insts x) : x.state.Unshared := by
  induction course with
  | begin path =>
    exact path.unshared (State.recorded_opened version stage) (State.unshared_opened version stage)
  | step before path _ ih => exact path.unshared before.recorded ih

theorem testBit_or_shift {acc reg : UInt32} (small : reg.toNat < maxInterfaceRegisters) (n : Nat) :
    (acc ||| 1 <<< reg).toNat.testBit n = true ↔ acc.toNat.testBit n = true ∨ n = reg.toNat := by
  have small : reg.toNat < 32 := small
  have one : (1 <<< reg : UInt32).toNat = 2 ^ reg.toNat := by
    rw [UInt32.toNat_shiftLeft, Nat.mod_eq_of_lt small, UInt32.toNat_one, Nat.one_shiftLeft,
      Nat.mod_eq_of_lt (Nat.pow_lt_pow_right (by decide) small)]
  rw [UInt32.toNat_or, one, Nat.testBit_or, Bool.or_eq_true, Nat.testBit_two_pow, decide_eq_true_eq,
    eq_comm (a := n)]

/-- The bits of a mask are the registers with a location variable. -/
theorem testBit_locationBits {t : Table InterfaceRegister} {n : UInt32}
    (small : ∀ reg r, t.find? reg = some r → r.location?.isSome = true →
      reg.toNat < maxInterfaceRegisters) :
    (Lower.locationBits t).toNat.testBit n.toNat = true ↔
      ∃ r, t.find? n = some r ∧ r.location?.isSome = true := by
  have fold (l : List (UInt32 × InterfaceRegister)) (acc : UInt32)
      (small : ∀ e ∈ l, e.2.location?.isSome = true → e.1.toNat < maxInterfaceRegisters) :
      (l.foldl (fun acc (e : UInt32 × InterfaceRegister) =>
        if e.2.location?.isSome then acc ||| 1 <<< e.1 else acc) acc).toNat.testBit n.toNat = true ↔
        acc.toNat.testBit n.toNat = true ∨ ∃ r, (n, r) ∈ l ∧ r.location?.isSome = true := by
    induction l generalizing acc with
    | nil => simp
    | cons e rest ih =>
      obtain ⟨reg, r⟩ := e
      rw [List.foldl_cons, ih _ fun e' mem => small e' (List.mem_cons_of_mem _ mem)]
      simp only [List.mem_cons, or_and_right, exists_or, ← or_assoc]
      refine or_congr_left ?_
      have here : (∃ r', (n, r') = (reg, r) ∧ r'.location?.isSome = true) ↔
          r.location?.isSome = true ∧ n.toNat = reg.toNat := by
        constructor
        · rintro ⟨_, same, is⟩
          cases same
          exact ⟨is, rfl⟩
        · rintro ⟨is, same⟩
          exact ⟨r, by rw [UInt32.toNat_inj.1 same], is⟩
      rw [here]
      split
      · next is => rw [testBit_or_shift (small _ List.mem_cons_self is), and_iff_right is]
      · next is => rw [or_iff_left fun both => is both.1]
  have found : (∃ r, (n, r) ∈ t.entries ∧ r.location?.isSome = true) ↔
      ∃ r, t.find? n = some r ∧ r.location?.isSome = true := by
    simp only [Table.mem_entries]
  rw [← found, Lower.locationBits, fold t.entries 0 fun e mem =>
    small e.1 e.2 (Table.mem_entries.1 mem)]
  simp

/-- What an entry point lists: all inputs and outputs, and from version 1.4 on exactly the variables
that are counted, before it nothing else. -/
def Spirv.Module.Lists (m : Module) (version : SpirvVersion) (counted : Id → StorageClass → Prop)
    (interface : List Id) : Prop :=
  (∀ id storage, m.HasVariable id storage → storage = .input ∨ storage = .output →
    id ∈ interface) ∧
  ∀ id, id ∈ interface ↔ ∃ storage, if version.atLeast 1 4 = true then counted id storage
    else m.HasVariable id storage ∧ (storage = .input ∨ storage = .output)

/-- The interface of a module is what its masks and its entry point say, where `counted` says which
variables an entry point lists from version 1.4 on. -/
structure InterfaceAccount (version : SpirvVersion) (slots : InterfaceSlots) (m : Module)
    (counted : Id → StorageClass → Prop) : Prop where
  variables_ : ∀ i ∈ m.definitions, i.op = .ordinary .var → ∃ id storage, i.Introduces id storage
  /-- Variables of a storage class differ in their locations, and in the built-ins they stand
  for. -/
  locations : ∀ storage id id' args, m.HasVariable id storage → m.HasVariable id' storage →
    m.Decorated id .location args → m.Decorated id' .location args → id = id'
  builtins : ∀ storage id id' args, m.HasVariable id storage → m.HasVariable id' storage →
    m.Decorated id .builtIn args → m.Decorated id' .builtIn args → id = id'
  inputs : ∀ n : UInt32, slots.inputSlots.toNat.testBit n.toNat = true ↔
    ∃ id, m.HasVariable id .input ∧ ¬m.Decorated id .patch [] ∧ m.Decorated id .location [.word n]
  outputs : ∀ n : UInt32, slots.outputSlots.toNat.testBit n.toNat = true ↔
    ∃ id, m.HasVariable id .output ∧ ¬m.Decorated id .patch [] ∧ m.Decorated id .location [.word n]
  patches : ∀ n : UInt32, slots.patchSlots.toNat.testBit n.toNat = true ↔
    ∃ id storage, m.HasVariable id storage ∧ m.Decorated id .patch [] ∧
      m.Decorated id .location [.word (32 + n)]
  /-- There is one entry point, and it lists each variable once. -/
  entryPoint : ∃ (model : UInt32) (entry : Id) (name : String) (interface : List Id),
    m.entryPoints = #[.plain .entryPoint
      (.word model :: .id entry :: .text name :: interface.map .id)] ∧
    interface.Nodup ∧ m.Lists version counted interface

theorem Side.toNat_locationOf (side : Side) {reg : UInt32}
    (small : reg.toNat < maxInterfaceRegisters) :
    (side.locationOf reg).toNat = (if side.isPatch then 32 else 0) + reg.toNat := by
  have small : reg.toNat < 32 := small
  have base : patchLocationBase.toNat = 32 := rfl
  unfold locationOf
  split
  · rw [UInt32.toNat_add, base]
    omega
  · exact (Nat.zero_add _).symm

theorem Side.ext_of {side side' : Side} (storage : side.storage = side'.storage)
    (patch : side.isPatch = side'.isPatch) : side = side' := by
  cases side <;> cases side' <;> first
    | rfl
    | (cases storage; done)
    | cases patch

/-- A location tells side and register of a storage class. -/
theorem Side.locationOf_inj {side side' : Side} {reg reg' : UInt32}
    (small : reg.toNat < maxInterfaceRegisters) (small' : reg'.toNat < maxInterfaceRegisters)
    (same : side.locationOf reg = side'.locationOf reg') (storage : side.storage = side'.storage) :
    side = side' ∧ reg = reg' := by
  have places := congrArg UInt32.toNat same
  rw [side.toNat_locationOf small, side'.toNat_locationOf small'] at places
  have small : reg.toNat < 32 := small
  have small' : reg'.toNat < 32 := small'
  have patch : side.isPatch = side'.isPatch := by
    cases h : side.isPatch <;> cases h' : side'.isPatch <;> simp only [h, h'] at places <;>
      first
      | rfl
      | (simp at places; omega)
  rw [patch] at places
  exact ⟨ext_of storage patch, UInt32.toNat_inj.1 (by omega)⟩

namespace State.Recorded

variable (h : s.Recorded)
include h

theorem mem_globals : s.builder.module.HasVariable id storage ↔ (id, storage) ∈ s.globals := by
  constructor
  · rintro ⟨i, hi, is⟩
    obtain ⟨id', storage', is', mem⟩ := h.listed.complete i hi is.op
    obtain ⟨rfl, rfl⟩ := is.eq is'
    exact mem
  · exact h.listed.declared id storage

/-- A variable has one storage class. -/
theorem storage_eq {storage' : StorageClass} (mem : (id, storage) ∈ s.globals)
    (mem' : (id, storage') ∈ s.globals) : storage = storage' :=
  congrArg Prod.snd (List.inj_on_of_nodup_map h.listed.once mem mem' rfl)

theorem locations (args : List Arg) (is : s.builder.module.HasVariable id storage)
    (is' : s.builder.module.HasVariable id' storage)
    (mark : s.builder.module.Decorated id .location args)
    (mark' : s.builder.module.Decorated id' .location args) : id = id' := by
  obtain ⟨side, reg, at_, rfl⟩ := h.placed.locations id args mark
  obtain ⟨side', reg', at', same⟩ := h.placed.locations id' _ mark'
  obtain ⟨small, mem, _⟩ := h.placed.located side reg id at_
  obtain ⟨small', mem', _⟩ := h.placed.located side' reg' id' at'
  have storage := (h.storage_eq mem (h.mem_globals.1 is)).trans
    (h.storage_eq mem' (h.mem_globals.1 is')).symm
  obtain ⟨rfl, rfl⟩ :=
    Side.locationOf_inj small small' (Arg.word.inj (List.cons.inj same).1) storage
  exact Option.some.inj (at_.symm.trans at')

theorem builtins (args : List Arg) (is : s.builder.module.HasVariable id storage)
    (is' : s.builder.module.HasVariable id' storage)
    (mark : s.builder.module.Decorated id .builtIn args)
    (mark' : s.builder.module.Decorated id' .builtIn args) : id = id' := by
  obtain ⟨⟨builtin, storage₁⟩, made, found, rfl, rfl⟩ := h.tagged.tags id args mark
  obtain ⟨⟨builtin', storage₂⟩, made', found', rfl, same⟩ := h.tagged.tags id' _ mark'
  obtain rfl := h.storage_eq (h.tagged.builtins _ _ found).1 (h.mem_globals.1 is)
  obtain rfl := h.storage_eq (h.tagged.builtins _ _ found').1 (h.mem_globals.1 is')
  cases Spirv.BuiltIn.code_injective (Arg.word.inj (List.cons.inj same).1)
  rw [Option.some.inj (found.symm.trans found')]

/-- The variables of one side are those of its storage class with a location that are or are not
decorated as patches. -/
theorem isSome_located (side : Side) (n : UInt32) : (s.located side n).isSome = true ↔
    ∃ id, s.builder.module.HasVariable id side.storage ∧
      (s.builder.module.Decorated id .patch [] ↔ side.isPatch = true) ∧
      s.builder.module.Decorated id .location [.word (side.locationOf n)] := by
  constructor
  · intro is
    obtain ⟨id, is⟩ := Option.isSome_iff_exists.1 is
    obtain ⟨_, mem, location, patch⟩ := h.placed.located side n id is
    exact ⟨id, h.mem_globals.2 mem, patch, location⟩
  · rintro ⟨id, is, patch, mark⟩
    obtain ⟨side', reg, at_, same⟩ := h.placed.locations id _ mark
    obtain ⟨small, mem, _, patch'⟩ := h.placed.located side' reg id at_
    have storage := h.storage_eq mem (h.mem_globals.1 is)
    obtain rfl := Side.ext_of storage (Bool.eq_iff_iff.2 (patch'.symm.trans patch))
    have regs : n = reg := by
      have same := Arg.word.inj (List.cons.inj same).1
      unfold Side.locationOf at same
      split at same
      · exact (UInt32.add_right_inj _).1 same
      · exact same
    rw [regs, at_]
    rfl

/-- The bits of one side's registers. -/
theorem testBit_side {t : Table InterfaceRegister} (side : Side) (n : UInt32)
    (is : ∀ reg, s.located side reg = ((t.find? reg).bind (·.location?)).map (·.id)) :
    (Lower.locationBits t).toNat.testBit n.toNat = true ↔ (s.located side n).isSome = true := by
  rw [testBit_locationBits fun reg r found some_ => ?_, is]
  · cases t.find? n <;> simp
  · obtain ⟨l, some_⟩ := Option.isSome_iff_exists.1 some_
    refine (h.placed.located side reg l.id ?_).1
    rw [is, found, Option.bind_some, some_, Option.map_some]

/-- A location below the patches. -/
theorem testBit_plain {t : Table InterfaceRegister} (side : Side) (n : UInt32)
    (is : ∀ reg, s.located side reg = ((t.find? reg).bind (·.location?)).map (·.id))
    (plain : side.isPatch = false) : (Lower.locationBits t).toNat.testBit n.toNat = true ↔
      ∃ id, s.builder.module.HasVariable id side.storage ∧
        ¬s.builder.module.Decorated id .patch [] ∧
        s.builder.module.Decorated id .location [.word n] := by
  rw [h.testBit_side side n is, h.isSome_located]
  simp only [plain, Bool.false_eq_true, iff_false, Side.locationOf, if_false]

theorem testBit_patches (n : UInt32) :
    (Lower.locationBits s.patchInputs ||| Lower.locationBits s.patchOutputs).toNat.testBit
        n.toNat = true ↔
      ∃ id storage, s.builder.module.HasVariable id storage ∧
        s.builder.module.Decorated id .patch [] ∧
        s.builder.module.Decorated id .location [.word (32 + n)] := by
  rw [UInt32.toNat_or, Nat.testBit_or, Bool.or_eq_true, h.testBit_side .patchInput n fun _ => rfl,
    h.testBit_side .patchOutput n fun _ => rfl, h.isSome_located, h.isSome_located]
  constructor
  · rintro (⟨id, is, patch, location⟩ | ⟨id, is, patch, location⟩)
    · exact ⟨id, _, is, patch.2 rfl, location⟩
    · exact ⟨id, _, is, patch.2 rfl, location⟩
  · rintro ⟨id, storage, is, patch, location⟩
    obtain ⟨side, reg, at_, _⟩ := h.placed.locations id _ location
    obtain ⟨_, mem, _, patch'⟩ := h.placed.located side reg id at_
    cases h.storage_eq mem (h.mem_globals.1 is)
    have patched := patch'.1 patch
    cases side with
    | input | output => cases patched
    | patchInput => exact .inl ⟨id, is, patch', location⟩
    | patchOutput => exact .inr ⟨id, is, patch', location⟩

/-- What the entry point lists. -/
theorem mem_interface (options : Options) : id ∈ s.interface options ↔
    ∃ storage, s.builder.module.HasVariable id storage ∧
      (options.version.atLeast 1 4 = true ∨ storage = .input ∨ storage = .output) := by
  simp only [State.interface, List.mem_map, List.mem_filter, List.mem_reverse, Bool.or_eq_true,
    decide_eq_true_eq, Prod.exists, exists_and_right, exists_eq_right, h.mem_globals, or_assoc]

/-- Wherever they stand, variables are listed. -/
theorem lists (options : Options) : s.builder.module.Lists options.version
    s.builder.module.HasVariable (s.interface options) := by
  refine ⟨fun id storage is which => (h.mem_interface options).2 ⟨storage, is, .inr which⟩,
    fun id => (h.mem_interface options).trans (exists_congr fun storage => ?_)⟩
  split
  · next later => simp only [later, true_or, and_true]
  · next earlier => simp only [earlier, Bool.false_eq_true, false_or]

theorem nodup_interface (options : Options) : (s.interface options).Nodup := by
  unfold State.interface
  refine List.Nodup.sublist (List.Sublist.map _ List.filter_sublist) ?_
  rw [List.map_reverse]
  exact List.nodup_reverse.2 h.listed.once

/-- Once the entry point is announced, the interface is accounted for. -/
theorem account (announced : s.Announced env t) :
    InterfaceAccount env.options.version (Lower.interfaceSlots env t) t.builder.module
      t.builder.module.HasVariable := by
  obtain ⟨modes, _, rfl⟩ := announced
  refine
    { variables_ := fun i hi op => ?_
      locations := fun storage id id' args => h.locations args
      builtins := fun storage id id' args => h.builtins args
      inputs := fun n => h.testBit_plain .input n (fun _ => rfl) rfl
      outputs := fun n => h.testBit_plain .output n (fun _ => rfl) rfl
      patches := h.testBit_patches
      entryPoint := ⟨env.stage.executionModel.code, s.entryPoint, env.options.entryPoint,
        s.interface env.options, ?_, h.nodup_interface env.options, h.lists env.options⟩ }
  · obtain ⟨id, storage, is, _⟩ := h.listed.complete i hi op
    exact ⟨id, storage, is⟩
  · exact congrArg (·.push (s.announcement env)) h.entryPoints

/-- A variable has one storage class, once the entry point is announced as well. -/
theorem unique (announced : s.Announced env t) {storage' : StorageClass}
    (is : t.builder.module.HasVariable id storage)
    (is' : t.builder.module.HasVariable id storage') : storage = storage' := by
  obtain ⟨_, _, rfl⟩ := announced
  exact h.storage_eq (h.mem_globals.1 is) (h.mem_globals.1 is')

end State.Recorded

namespace InterfaceAccount

variable {version : SpirvVersion} {slots : InterfaceSlots} {m : Module}
  {counted counted' : Id → StorageClass → Prop}

/-- Only the list of the entry point depends on which variables are counted. -/
theorem of_lists (h : InterfaceAccount version slots m counted)
    (lists : ∀ interface, m.Lists version counted interface → m.Lists version counted' interface) :
    InterfaceAccount version slots m counted' := by
  obtain ⟨model, entry, name, interface, is, nodup, which⟩ := h.entryPoint
  exact { h with entryPoint := ⟨model, entry, name, interface, is, nodup, lists interface which⟩ }

/-- The list of an entry point is the same, whatever is counted. -/
theorem lists_congr (h : InterfaceAccount version slots m counted)
    (h' : InterfaceAccount version slots m counted') (later : version.atLeast 1 4 = true)
    (id : Id) :
    (∃ storage, counted id storage) ↔ ∃ storage, counted' id storage := by
  obtain ⟨_, _, _, interface, is, _, _, lists⟩ := h.entryPoint
  obtain ⟨_, _, _, interface', is', _, _, lists'⟩ := h'.entryPoint
  have args := congrArg Instr.args (Array.singleton_inj.1 (is.symm.trans is'))
  obtain rfl : interface = interface' :=
    List.map_injective_iff.2 (fun _ _ => Arg.id.inj)
      (List.cons.inj (List.cons.inj (List.cons.inj args).2).2).2
  simpa only [later, if_true] using (lists id).symm.trans (lists' id)

/-- The entry point lists what stands outside the functions iff nothing else is a variable, if it
has to list more than inputs and outputs. -/
theorem hasGlobalVariable_iff (h : InterfaceAccount version slots m m.HasVariable)
    (unique : ∀ id storage storage', m.HasVariable id storage → m.HasVariable id storage' →
      storage = storage') :
    InterfaceAccount version slots m m.HasGlobalVariable ↔
      (version.atLeast 1 4 = true →
        ∀ id storage, m.HasVariable id storage → m.HasGlobalVariable id storage) := by
  constructor
  · intro h' later id storage is
    obtain ⟨storage', outside⟩ := (h.lists_congr h' later id).1 ⟨storage, is⟩
    rwa [unique id storage storage' is outside.hasVariable]
  · intro outside
    refine h.of_lists fun interface lists => ⟨lists.1, fun id => (lists.2 id).trans ?_⟩
    refine exists_congr fun storage => ?_
    split
    · next later => exact ⟨outside later id storage, (·.hasVariable)⟩
    · rfl

end InterfaceAccount

/-- The interface of a lowered shader is accounted for, if all variables are counted; variables that
stand in blocks are then counted as well. -/
theorem lowerInstructions_account {insts : List Instruction} {l : Lowering}
    (lowered : lowerInstructions env insts = .ok l) :
    InterfaceAccount env.options.version (Lower.interfaceSlots env l.state)
      l.state.builder.module l.state.builder.module.HasVariable ∧
    (InterfaceAccount env.options.version (Lower.interfaceSlots env l.state)
        l.state.builder.module l.state.builder.module.HasGlobalVariable ↔
      (env.options.version.atLeast 1 4 = true → ∀ id storage,
        l.state.builder.module.HasVariable id storage →
          l.state.builder.module.HasGlobalVariable id storage)) := by
  obtain ⟨_, stage, x, y, _, course, path, announced⟩ := lowerInstructions_course lowered
  have recorded := path.recorded course.recorded
  have account := recorded.account announced
  exact ⟨account, account.hasGlobalVariable_iff fun _ _ _ => recorded.unique announced⟩

section Compilation

variable {program : Program} {entries : SignatureEntries} {options : Options}
  {artifact : Artifact}

/-- The masks of a compiled program and the list of its entry point say what the interface of its
module is. From version 1.4 on the list counts all variables wherever they stand, so it is that of
the variables outside the functions iff there are no others. -/
theorem compile_account (h : compile program entries options = .ok artifact) :
    ∃ insts l, program.instructions = .ok insts ∧
      lowerInstructions (program.environment insts entries options) insts = .ok l ∧
      artifact = l.artifact ∧
      InterfaceAccount options.version artifact.interface l.state.builder.module
        l.state.builder.module.HasVariable ∧
      (InterfaceAccount options.version artifact.interface l.state.builder.module
          l.state.builder.module.HasGlobalVariable ↔
        (options.version.atLeast 1 4 = true → ∀ id storage,
          l.state.builder.module.HasVariable id storage →
            l.state.builder.module.HasGlobalVariable id storage)) := by
  obtain ⟨insts, l, decoded, lowered, rfl⟩ := compile_eq_ok.1 h
  have same := (lowerInstructions_course lowered).1
  refine ⟨insts, l, decoded, lowered, rfl, ?_⟩
  rw [show l.artifact.interface = Lower.interfaceSlots _ l.state from rfl, same]
  exact lowerInstructions_account lowered

/-- A vertex shader that declares an input and an output. -/
def idleVertex : Program :=
  .assume [0x10050, 9, 0x0300005f, 0x00101032, 1, 0x03000065, 0x001020f2, 0, 0x0100003e]

theorem compile_account_idleVertex :
    ∃ artifact insts l, compile idleVertex ⟨[], [], []⟩ .default = .ok artifact ∧
      idleVertex.instructions = .ok insts ∧
      lowerInstructions (idleVertex.environment insts ⟨[], [], []⟩ .default) insts = .ok l ∧
      artifact = l.artifact ∧
      InterfaceAccount Options.default.version artifact.interface l.state.builder.module
        l.state.builder.module.HasVariable ∧
      (InterfaceAccount Options.default.version artifact.interface l.state.builder.module
          l.state.builder.module.HasGlobalVariable ↔
        (Options.default.version.atLeast 1 4 = true → ∀ id storage,
          l.state.builder.module.HasVariable id storage →
            l.state.builder.module.HasGlobalVariable id storage)) := by
  obtain ⟨artifact, _, _, compiles, _⟩ :=
    exists_compile idleVertex ⟨[], [], []⟩ .default (fun _ _ _ => true) (by decide +kernel)
  obtain ⟨insts, l, found⟩ := compile_account compiles
  exact ⟨artifact, insts, l, compiles, found⟩

/-- A variable stands in a block. -/
def Spirv.Module.hasInnerVariable (m : Module) (id : Id) (storage : StorageClass) : Bool :=
  m.definitions.any (·.Introduces id storage) && !m.globals.toList.any (·.Introduces id storage)

/-- The input of a pixel shader stands in the block of its body, and from version 1.4 on the entry
point lists it, where it should list what stands outside the functions. -/
theorem exists_not_account :
    ∃ artifact insts l,
      compile idleInput ⟨[], [], []⟩ { Options.default with version := ⟨1, 4⟩ } = .ok artifact ∧
      lowerInstructions (idleInput.environment insts ⟨[], [], []⟩
        { Options.default with version := ⟨1, 4⟩ }) insts = .ok l ∧
      artifact = l.artifact ∧
      ¬InterfaceAccount ⟨1, 4⟩ artifact.interface l.state.builder.module
        l.state.builder.module.HasGlobalVariable := by
  obtain ⟨artifact, insts, l, compiles, lowered, rfl, _, inner⟩ :=
    exists_compile idleInput ⟨[], [], []⟩ { Options.default with version := ⟨1, 4⟩ }
      (fun _ _ l => l.state.builder.module.hasInnerVariable 10 .input) (by decide +kernel)
  obtain ⟨within, without⟩ := Bool.and_eq_true_iff.1 inner
  refine ⟨_, insts, l, compiles, lowered, rfl, fun account => ?_⟩
  rw [show l.artifact.interface = Lower.interfaceSlots _ l.state from rfl,
    (lowerInstructions_course lowered).1] at account
  obtain ⟨j, hj, introduced⟩ := List.any_eq_true.1 within
  obtain ⟨i, hi, introduces⟩ := (lowerInstructions_account lowered).2.1 account rfl 10 .input
    ⟨j, hj, of_decide_eq_true introduced⟩
  rw [Bool.not_eq_true', List.any_eq_false] at without
  exact without i hi (decide_eq_true introduces)

end Compilation

end ShaderLowering
