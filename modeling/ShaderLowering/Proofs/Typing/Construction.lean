import ShaderLowering.Proofs.Typing.Shape

/-!
Modules under construction define no id twice, and each step of the builder adds to what is
defined. A builder is sound when its open block exists and all ids in use are below the next one;
every step keeps it sound.
-/

namespace ShaderLowering.Spirv

/-- The opcodes of types and constants. -/
@[grind =]
def Op.isGlobal : Op → Bool
  | typeArray | typeBool | typeFloat | typeFunction | typeImage | typeInt | typePointer
  | typeRuntimeArray | typeSampledImage | typeSampler | typeStruct | typeVector | typeVoid
  | constant | constantComposite | constantFalse | constantNull | constantTrue => true
  | _ => false

theorem Key.isGlobal_op (key : Key) : key.op.isGlobal = true := by
  unfold Key.op TypeKey.op ConstantKey.op
  split <;> split <;> first | rfl | (split <;> rfl)

theorem Key.ne_var (key : Key) : key.op ≠ .var := by
  intro same
  have global := key.isGlobal_op
  rw [same] at global
  cases global

/-- Constants are looked for in their table only. -/
theorem ConstantKey.isInterned_op (key : ConstantKey) : key.op.isInterned = false := by
  unfold ConstantKey.op
  split
  · split <;> rfl
  · rfl
  · rfl
  · rfl

namespace Module

variable {m : Module} {i j : Instr}

theorem mem_bodies : i ∈ m.bodies ↔
    ∃ (f k : Nat) (function : Function) (block : Block), m.functions[f]? = some function ∧
      function.blocks[k]? = some block ∧ i ∈ block.body := by
  simp only [bodies, Function.body, List.mem_flatMap, Array.mem_toList_iff, Array.mem_iff_getElem?]
  constructor
  · rintro ⟨function, ⟨f, hf⟩, block, ⟨k, hk⟩, hi⟩
    exact ⟨f, k, function, block, hf, hk, hi⟩
  · rintro ⟨f, k, function, block, hf, hk, hi⟩
    exact ⟨function, ⟨f, hf⟩, block, ⟨k, hk⟩, hi⟩

theorem bodies_modify {f : Nat} {g : Function → Function} (same : ∀ e, (g e).body = e.body) :
    { m with functions := m.functions.modify f g }.bodies = m.bodies := by
  unfold bodies
  rw [Array.toList_modify]
  generalize m.functions.toList = functions
  induction functions generalizing f with
  | nil => rw [List.modify_nil]
  | cons e rest ih =>
    cases f with
    | zero => rw [List.modify_zero_cons, List.flatMap_cons, List.flatMap_cons, same]
    | succ f => rw [List.modify_succ_cons, List.flatMap_cons, List.flatMap_cons, ih]

/-- An id is that of a variable. -/
def DefinesVariable (m : Module) (id : Id) : Prop :=
  ∃ type? args, ⟨.ordinary .var, type?, some id, args⟩ ∈ m.definitions

theorem DefinesVariable.mono {n : Module} {id : Id} (h : m.DefinesVariable id) (grows : m.Grows n) :
    n.DefinesVariable id := by
  obtain ⟨type?, args, mem⟩ := h
  exact ⟨type?, args, grows.definitions mem⟩

/-- An id is that of a variable with a place of a given shape. -/
structure Houses (m : Module) (id : Id) (storage : StorageClass) (shape : Shape) : Prop where
  variable_ : m.DefinesVariable id
  places : m.Places id storage shape

theorem Houses.mono {n : Module} {id : Id} {storage : StorageClass} {shape : Shape}
    (h : m.Houses id storage shape) (grows : m.Grows n) : n.Houses id storage shape :=
  ⟨h.variable_.mono grows, h.places.mono grows⟩

end Module

namespace Builder

variable {b c : Builder} {i j : Instr} {f k : Nat} {function : Function} {block : Block}

/-- Appending to a block of a function that is there. -/
theorem mem_bodies_pushTo (hf : b.module.functions[f]? = some function)
    (hk : function.blocks[k]? = some block) :
    j ∈ (b.pushTo f k i).module.bodies ↔ j ∈ b.module.bodies ∨ j = i := by
  have at_ (f' : Nat) : (b.pushTo f k i).module.functions[f']? =
      if f = f' then some { function with
        blocks := function.blocks.modify k fun block => { block with body := block.body.push i } }
      else b.module.functions[f']? := by
    rw [pushTo, Array.getElem?_modify]
    split
    · next same => rw [← same, hf]; rfl
    · rfl
  have inside (k' : Nat) :
      (function.blocks.modify k fun block => { block with body := block.body.push i })[k']? =
        if k = k' then some { block with body := block.body.push i } else function.blocks[k']? := by
    rw [Array.getElem?_modify]
    split
    · next same => rw [← same, hk]; rfl
    · rfl
  simp only [Module.mem_bodies]
  constructor
  · rintro ⟨f', k', function', block', hf', hk', hj⟩
    rw [at_] at hf'
    split at hf'
    · next same =>
      cases hf'
      rw [inside] at hk'
      split at hk'
      · next same' =>
        cases hk'
        rcases Array.mem_push.1 hj with hj | rfl
        · exact .inl ⟨f, k, function, block, hf, hk, hj⟩
        · exact .inr rfl
      · exact .inl ⟨f, k', function, block', hf, hk', hj⟩
    · exact .inl ⟨f', k', function', block', hf', hk', hj⟩
  · rintro (⟨f', k', function', block', hf', hk', hj⟩ | rfl)
    · by_cases same : f = f'
      · subst same
        obtain rfl : function' = function := Option.some.inj (hf'.symm.trans hf)
        by_cases same' : k = k'
        · subst same'
          obtain rfl : block' = block := Option.some.inj (hk'.symm.trans hk)
          exact ⟨f, k, _, _, by rw [at_, if_pos rfl], by rw [inside, if_pos rfl],
            Array.mem_push_of_mem _ hj⟩
        · exact ⟨f, k', _, block', by rw [at_, if_pos rfl], by rw [inside, if_neg same', hk'], hj⟩
      · exact ⟨f', k', function', block', by rw [at_, if_neg same, hf'], hk', hj⟩
    · exact ⟨f, k, _, _, by rw [at_, if_pos rfl], by rw [inside, if_pos rfl], Array.mem_push_self⟩

/-- The open function and block exist, ids in use are below the next one, and none is defined
twice. -/
structure Sound (b : Builder) : Prop where
  function : ∀ f, b.function? = some f → f < b.module.functions.size
  block : ∀ k, b.block? = some k → ∃ (f : Nat) (function : Function), b.function? = some f ∧
    b.module.functions[f]? = some function ∧ k < function.blocks.size
  below : ∀ i ∈ b.module.definitions, ∀ id, i.result? = some id → id < b.nextId
  distinct : b.module.Distinct
  interned : b.module.Interned
  /-- What is found among the globals has an id. -/
  named : ∀ i ∈ b.module.globals.toList, i.result?.isSome = true

/-- One builder defines what another does, and one instruction more. -/
structure Appends (b c : Builder) (i : Instr) : Prop where
  mem_bodies : ∀ j, j ∈ c.module.bodies ↔ j ∈ b.module.bodies ∨ j = i
  globals : c.module.globals = b.module.globals
  annotations : c.module.annotations = b.module.annotations
  capabilities : c.module.capabilities = b.module.capabilities

/-- One builder differs from another in the open function and block, and in instructions that
direct control. -/
structure Steers (b c : Builder) : Prop where
  sound : c.Sound
  mem_bodies : ∀ j ∈ c.module.bodies, j ∈ b.module.bodies ∨ ∃ op, j.op = .control op
  bodies : ∀ j ∈ b.module.bodies, j ∈ c.module.bodies
  globals : c.module.globals = b.module.globals
  annotations : c.module.annotations = b.module.annotations
  capabilities : c.module.capabilities = b.module.capabilities

namespace Appends

theorem mem_definitions (h : b.Appends c i) :
    j ∈ c.module.definitions ↔ j ∈ b.module.definitions ∨ j = i := by
  simp only [Module.definitions, List.mem_append, h.globals, h.mem_bodies, or_assoc]

theorem grows (h : b.Appends c i) : b.module.Grows c.module :=
  ⟨fun _ hj => h.globals ▸ hj, fun j hj => (h.mem_bodies j).2 (.inl hj),
    fun _ hj => h.capabilities ▸ hj⟩

end Appends

theorem Steers.grows (h : b.Steers c) : b.module.Grows c.module :=
  ⟨fun _ hj => h.globals ▸ hj, h.bodies, fun _ hj => h.capabilities ▸ hj⟩

/-- Taking an id defines nothing. -/
theorem Steers.of_fresh (h : b.fresh.2.Steers c) : b.Steers c :=
  ⟨h.sound, h.mem_bodies, h.bodies, h.globals, h.annotations, h.capabilities⟩

theorem definitions_addGlobal :
    j ∈ (b.addGlobal i).module.definitions ↔ j ∈ b.module.definitions ∨ j = i := by
  simp only [addGlobal, Module.definitions, Module.bodies, List.mem_append, Array.toList_push,
    List.mem_singleton]
  rw [or_right_comm]

theorem grows_addGlobal (b : Builder) (i : Instr) : b.module.Grows (b.addGlobal i).module := by
  refine ⟨fun j hj => ?_, fun _ h => h, fun _ h => h⟩
  rw [addGlobal, Array.toList_push]
  exact List.mem_append_left _ hj

theorem declares_addGlobal {op op' : Op} {type? type'? : Option Id} {args args' : List Arg}
    {id id' : Id} :
    (b.addGlobal ⟨.ordinary op, type?, some id, args⟩).module.Declares op' type'? args' id' ↔
      b.module.Declares op' type'? args' id' ∨
        op' = op ∧ type'? = type? ∧ id' = id ∧ args' = args := by
  simp only [Module.Declares, addGlobal, Array.toList_push, List.mem_append, List.mem_singleton,
    Instr.mk.injEq, OpCode.ordinary.injEq, Option.some.injEq]

theorem nextId_variable (b : Builder) (pointer : Id) (storage : StorageClass)
    (initial? : Option Id) : (b.variable_ pointer storage initial?).2.nextId = b.nextId + 1 := by
  unfold variable_
  dsimp only [Builder.fresh]
  split
  · next placed =>
    obtain ⟨_, _, _, _, rfl⟩ := push_eq_ok.1 placed
    rfl
  · rfl

theorem fst_variable (b : Builder) (pointer : Id) (storage : StorageClass)
    (initial? : Option Id) : (b.variable_ pointer storage initial?).1 = b.nextId := by
  unfold variable_
  dsimp only [Builder.fresh]
  split <;> rfl

namespace Sound

theorem fresh (h : b.Sound) : b.fresh.2.Sound :=
  ⟨h.function, h.block, fun i hi id result => Nat.lt_succ_of_lt (h.below i hi id result),
    h.distinct, h.interned, h.named⟩

/-- A definition of an id that had none. -/
theorem distinct_insert (h : b.Sound)
    (mem : ∀ j, j ∈ c.module.definitions ↔ j ∈ b.module.definitions ∨ j = i)
    (apart : ∀ j ∈ b.module.definitions, ∀ id, j.result? = some id → i.result? ≠ some id) :
    c.module.Distinct := by
  intro p hp q hq id rp rq
  rcases (mem p).1 hp with hp | rfl <;> rcases (mem q).1 hq with hq | rfl
  · exact h.distinct p hp q hq id rp rq
  · exact absurd rq (apart p hp id rp)
  · exact absurd rp (apart q hq id rq)
  · rfl

/-- The id that was taken last is defined nowhere. -/
theorem apart_fresh (h : b.Sound) (result : ∀ id, i.result? = some id → id = b.nextId) :
    ∀ j ∈ b.fresh.2.module.definitions, ∀ id, j.result? = some id → i.result? ≠ some id := by
  intro j hj id rj ri
  have := h.below j hj id rj
  rw [result id ri] at this
  exact Nat.lt_irrefl _ this

/-- A new type, constant or variable. Types that are declared once must not be there yet. -/
theorem addGlobal (h : b.Sound) {op : Op} {type? : Option Id} {args : List Arg}
    (new : op.isInterned = true → ∀ a, ¬ b.module.Declares op type? args a) :
    (b.fresh.2.addGlobal ⟨.ordinary op, type?, some b.nextId, args⟩).Sound := by
  let i : Instr := ⟨.ordinary op, type?, some b.nextId, args⟩
  have mem (j : Instr) : j ∈ (b.fresh.2.addGlobal i).module.definitions ↔
      j ∈ b.fresh.2.module.definitions ∨ j = i := definitions_addGlobal
  have apart := h.apart_fresh (i := i) fun id result => (Option.some.inj result).symm
  refine ⟨h.function, h.block, fun j hj id result => ?_, h.fresh.distinct_insert mem apart, ?_, ?_⟩
  · rcases (mem j).1 hj with hj | rfl
    · exact Nat.lt_succ_of_lt (h.below j hj id result)
    · cases result
      exact Nat.lt_succ_self _
  · intro op' interned type'? args' p q hp hq
    rcases declares_addGlobal.1 hp with old | ⟨rfl, rfl, rfl, rfl⟩
    · rcases declares_addGlobal.1 hq with old' | ⟨rfl, rfl, rfl, rfl⟩
      · exact h.interned _ interned _ _ _ _ old old'
      · exact absurd old (new interned _)
    · rcases declares_addGlobal.1 hq with old' | ⟨_, _, same, _⟩
      · exact absurd old' (new interned _)
      · exact same.symm
  · intro j hj
    rw [Builder.addGlobal, Array.toList_push] at hj
    rcases List.mem_append.1 hj with hj | hj
    · exact h.named j hj
    · rw [List.mem_singleton.1 hj]
      rfl

/-- A type or constant that is not found is not there. -/
theorem not_declares (h : b.Sound) {op : Op} {type? : Option Id} {args : List Arg}
    (none_ : b.findGlobal? op type? args = none) (a : Id) :
    ¬ b.module.Declares op type? args a := by
  intro declares
  unfold findGlobal? at none_
  cases found : b.module.globals.find? fun g =>
      g.op = .ordinary op && g.resultType? = type? && g.args = args with
  | none =>
    have := Array.find?_eq_none.1 found _ (Array.mem_toList_iff.1 declares)
    simp at this
  | some g =>
    rw [found] at none_
    have named := h.named g (Array.mem_toList_iff.2 (Array.mem_of_find?_eq_some found))
    rw [Option.bind_some] at none_
    rw [none_] at named
    cases named

theorem retable (h : b.Sound) (tables : Tables b.module.globals.toList) :
    Sound { b with tables } :=
  ⟨h.function, h.block, h.below, h.distinct, h.interned, h.named⟩

theorem make (h : b.Sound) (key : Key) : (b.make key).2.Sound := by
  cases key with
  | type key =>
    change (b.findOrDeclare key.op key.args).2.Sound
    unfold findOrDeclare
    split
    · exact h
    · next none_ => exact h.addGlobal fun _ => h.not_declares none_
  | constant key =>
    refine h.addGlobal fun interned => ?_
    cases key.isInterned_op.symm.trans interned

theorem declare (h : b.Sound) (key : Key) : (b.declare key).2.Sound := by
  unfold Builder.declare
  split
  · exact h
  · exact (h.make key).retable _

/-- The open function and block. -/
theorem opened (h : b.Sound) (hf : b.function? = some f) (hk : b.block? = some k) :
    ∃ function block, b.module.functions[f]? = some function ∧
      function.blocks[k]? = some block := by
  obtain ⟨f', function, hf', at_, inside⟩ := h.block k hk
  obtain rfl : f' = f := Option.some.inj (hf'.symm.trans hf)
  exact ⟨function, function.blocks[k], at_, Array.getElem?_eq_getElem inside⟩

theorem appends (h : b.Sound) (placed : b.push i = .ok c) : b.Appends c i := by
  obtain ⟨f, k, hf, hk, rfl⟩ := push_eq_ok.1 placed
  obtain ⟨function, block, at_, inside⟩ := h.opened hf hk
  exact ⟨fun j => mem_bodies_pushTo at_ inside, rfl, rfl, rfl⟩

theorem push (h : b.Sound) (placed : b.push i = .ok c)
    (below : ∀ id, i.result? = some id → id < b.nextId)
    (apart : ∀ j ∈ b.module.definitions, ∀ id, j.result? = some id → i.result? ≠ some id) :
    c.Sound := by
  have mem (j : Instr) : j ∈ c.module.definitions ↔ j ∈ b.module.definitions ∨ j = i :=
    (h.appends placed).mem_definitions
  obtain ⟨f, k, hf, hk, rfl⟩ := push_eq_ok.1 placed
  refine ⟨fun f' hf' => ?_, fun k' hk' => ?_, fun j hj id hr => ?_, h.distinct_insert mem apart,
    h.interned, h.named⟩
  · change f' < (b.module.functions.modify f _).size
    rw [Array.size_modify]
    exact h.function f' hf'
  · obtain ⟨f', function', hf', at', inside'⟩ := h.block k' hk'
    obtain rfl : f' = f := Option.some.inj (hf'.symm.trans hf)
    refine ⟨f', { function' with
      blocks := function'.blocks.modify k fun block => { block with body := block.body.push i } },
      hf', ?_, ?_⟩
    · rw [pushTo, Array.getElem?_modify, if_pos rfl, at']
      rfl
    · simpa using inside'
  · rcases (mem j).1 hj with hj | rfl
    · exact h.below j hj id hr
    · exact below id hr

/-- A new variable is one. -/
theorem definesVariable (h : b.Sound) (pointer : Id) (storage : StorageClass)
    (initial? : Option Id) :
    (b.variable_ pointer storage initial?).2.module.DefinesVariable b.nextId := by
  unfold variable_
  dsimp only
  split
  · next c placed => exact ⟨_, _, (h.fresh.appends placed).mem_definitions.2 (.inr rfl)⟩
  · exact ⟨_, _, definitions_addGlobal.2 (.inr rfl)⟩

/-- An id that is taken is below the next one. -/
theorem lt_of_definesVariable (h : b.Sound) {id : Id} (is : b.module.DefinesVariable id) :
    id < b.nextId := by
  obtain ⟨_, _, mem⟩ := is
  exact h.below _ mem id rfl

theorem steers_push (h : b.Sound) {op : ControlOp} {args : List Arg}
    (placed : b.push (.control op args) = .ok c) : b.Steers c := by
  have appends := h.appends placed
  refine ⟨h.push placed nofun fun _ _ _ _ => nofun, fun j hj => ?_, appends.grows.bodies,
    appends.globals, appends.annotations, appends.capabilities⟩
  refine ((appends.mem_bodies j).1 hj).imp_right ?_
  rintro rfl
  exact ⟨op, rfl⟩

/-- The same module, with another block open. -/
theorem steers_open (h : b.Sound) (block? : Option Nat)
    (inside : ∀ k, block? = some k → ∃ (f : Nat) (function : Function), b.function? = some f ∧
      b.module.functions[f]? = some function ∧ k < function.blocks.size) :
    b.Steers { b with block? } :=
  ⟨⟨h.function, inside, h.below, h.distinct, h.interned, h.named⟩, fun _ hj => .inl hj,
    fun _ hj => hj, rfl, rfl, rfl⟩

theorem steers_leaveBlock (h : b.Sound) : b.Steers b.leaveBlock :=
  h.steers_open none nofun

theorem steers_terminate (h : b.Sound) {op : ControlOp} {args : List Arg}
    (ended : b.terminate (.control op args) = .ok c) : b.Steers c ∧ c.block? = none := by
  unfold terminate at ended
  split at ended
  · cases ended
  · split at ended
    · next d placed =>
      cases ended
      have pushed := h.steers_push placed
      have left := pushed.sound.steers_leaveBlock
      exact ⟨⟨left.sound, pushed.mem_bodies, pushed.bodies, pushed.globals, pushed.annotations,
        pushed.capabilities⟩, rfl⟩
    · cases ended

theorem steers_reopenBlock (h : b.Sound) {k : Nat} (opened : b.reopenBlock k = .ok c) :
    b.Steers c := by
  unfold reopenBlock at opened
  split at opened
  · cases opened
  · next f hf =>
    dsimp only at opened
    split at opened
    · next inside =>
      cases opened
      refine h.steers_open (some k) fun k' hk' => ?_
      cases hk'
      have there := h.function f hf
      refine ⟨f, b.module.functions[f], hf, Array.getElem?_eq_getElem there, ?_⟩
      rwa [Array.getElem?_eq_getElem there] at inside
    · cases opened

/-- Other functions without other instructions. -/
theorem steers_functions (h : b.Sound) (functions : Array Function) (function? block? : Option Nat)
    (bodies : { b.module with functions }.bodies = b.module.bodies)
    (function : ∀ f, function? = some f → f < functions.size)
    (block : ∀ k, block? = some k → ∃ (f : Nat) (e : Function), function? = some f ∧
      functions[f]? = some e ∧ k < e.blocks.size) :
    b.Steers { b with function?, block?, module := { b.module with functions } } := by
  have definitions : { b.module with functions }.definitions = b.module.definitions :=
    congrArg (b.module.globals.toList ++ ·) bodies
  refine ⟨⟨function, block, fun i hi => h.below i (definitions ▸ hi), ?_, h.interned, h.named⟩,
    fun j hj => .inl (bodies ▸ hj), fun j hj => bodies.symm ▸ hj, rfl, rfl, rfl⟩
  rw [Module.Distinct, definitions]
  exact h.distinct

theorem steers_block (h : b.Sound) {f : Nat} (hf : b.function? = some f) (label : Id) :
    b.Steers { b with
      block? := some ((b.module.functions[f]?).elim 0 (·.blocks.size))
      module := { b.module with
        functions := b.module.functions.modify f fun e =>
          { e with blocks := e.blocks.push (.start label) } } } := by
  have there := Array.getElem?_eq_getElem (h.function f hf)
  refine h.steers_functions _ b.function? _ (Module.bodies_modify fun e => ?_) ?_ fun k hk => ?_
  · simp [Function.body, Block.start]
  · intro f' hf'
    rw [Array.size_modify]
    exact h.function f' hf'
  · cases hk
    have inside := h.function f hf
    let e := b.module.functions[f]
    refine ⟨f, { e with blocks := e.blocks.push (.start label) }, hf, ?_, ?_⟩
    · rw [Array.getElem?_modify, if_pos rfl, there]
      rfl
    · rw [there]
      simp [e]

/-- Opening a block of the open function adds no instruction. -/
theorem steers_beginBlock (h : b.Sound) {label? : Option Id} {label : Id}
    (begun : b.beginBlock label? = .ok (label, c)) : b.Steers c := by
  unfold beginBlock at begun
  split at begun
  · cases begun
  · cases begun
  · next f hf hk =>
    cases label? with
    | some _ =>
      cases begun
      exact h.steers_block hf label
    | none =>
      cases begun
      exact .of_fresh (h.fresh.steers_block hf b.nextId)

theorem steers_function (h : b.Sound) (hf : b.function? = none) (definition : Instr) :
    b.Steers { b with
      function? := some b.module.functions.size
      module := { b.module with functions := b.module.functions.push ⟨definition, #[]⟩ } } := by
  refine h.steers_functions _ _ b.block? ?_ (fun f hf => ?_) fun k hk => ?_
  · simp [Module.bodies, Function.body]
  · cases hf
    simp
  · obtain ⟨f, _, hf', _⟩ := h.block k hk
    rw [hf] at hf'
    cases hf'

/-- A function starts without blocks. -/
theorem steers_beginFunction (h : b.Sound) {returnType functionType id : Id} {id? : Option Id}
    (begun : b.beginFunction returnType functionType id? = .ok (id, c)) : b.Steers c := by
  unfold beginFunction at begun
  split at begun
  · cases begun
  · next hf =>
    cases id? with
    | some _ =>
      cases begun
      exact h.steers_function hf _
    | none =>
      cases begun
      exact .of_fresh (h.fresh.steers_function hf
        ⟨.ordinary .function, some returnType, some b.nextId, [.word 0, .id functionType]⟩)

/-- A function may end once its last block is closed. -/
theorem steers_endFunction (h : b.Sound) (closed : b.block? = none)
    (ended : b.endFunction = .ok c) : b.Steers c := by
  unfold endFunction at ended
  split at ended
  · cases ended
    refine ⟨⟨nofun, fun k hk => ?_, h.below, h.distinct, h.interned, h.named⟩, fun _ hj => .inl hj,
      fun _ hj => hj, rfl, rfl, rfl⟩
    rw [closed] at hk
    cases hk
  · cases ended

end Sound

end Builder

end ShaderLowering.Spirv
