import ShaderLowering.Proofs.Scope.Supplies
import ShaderLowering.Proofs.WellFormed.Bodies

/-!
What lowering is made of altogether. Besides acts there are moves: ids are set aside for labels and
functions to come, blocks and functions are opened and closed. What has been set aside belongs to
the configuration, so that a move can say of a label that it was taken for just this block.
-/

namespace ShaderLowering

open Spirv (Id Instr Arg Op Module Builder Exit Merge)

namespace Spirv.Builder

variable {b c d : Builder} {id label : Id}

/-- One builder has come to be from another in the same function. -/
structure Onward (b c : Builder) : Prop where
  extends_ : b.module.Extends c.module
  function? : c.function? = b.function?

theorem Within.onward (h : b.Within c) : b.Onward c :=
  ⟨h.extends_, h.function?⟩

namespace Onward

theorem refl (b : Builder) : b.Onward b :=
  ⟨.refl _, rfl⟩

theorem trans (first : b.Onward c) (second : c.Onward d) : b.Onward d :=
  ⟨first.extends_.trans second.extends_, second.function?.trans first.function?⟩

end Onward

/-- What an instruction in the open block may refer to. -/
def Sees (b : Builder) (i : Instr) (id : Id) : Prop :=
  b.module.Stands id ∨ b.Computes id ∨
    i.op = .control .switch ∧ ∃ f k, b.function? = some f ∧ b.block? = some k ∧
      b.module.Handed f k id

/-- An id is that of a value computed in a block of the open function that goes on to a label. -/
def Passes (b : Builder) (label id : Id) : Prop :=
  ∃ f k j, b.function? = some f ∧ b.module.At f k j (Exit.branch label).instr ∧
    b.module.Before f k j id

theorem Passes.mono (h : b.Passes label id) (onward : b.Onward c) : c.Passes label id := by
  obtain ⟨f, k, j, hf, branch, before⟩ := h
  exact ⟨f, k, j, onward.function?.trans hf, onward.extends_.at_ branch,
    onward.extends_.before before⟩

theorem terminate_eq_ok {i : Instr} :
    b.terminate i = .ok c ↔ ∃ d, b.push i = .ok d ∧ c = d.leaveBlock := by
  unfold terminate
  constructor
  · intro h
    split at h
    · cases h
    · split at h
      · next d placed =>
        cases h
        exact ⟨d, placed, rfl⟩
      · cases h
  · rintro ⟨d, placed, rfl⟩
    obtain ⟨f, k, hf, hk, rfl⟩ := push_eq_ok.1 placed
    rw [hk]
    dsimp only
    rw [placed]
    rfl

theorem onward_terminate {i : Instr} (ended : b.terminate i = .ok c) : b.Onward c := by
  obtain ⟨d, placed, rfl⟩ := terminate_eq_ok.1 ended
  exact ⟨(within_push placed).extends_, (within_push placed).function?⟩

/-- A builder with another block of the open function, which is open. -/
def enter (b : Builder) (f : Nat) (label : Id) : Builder :=
  { b with
    block? := some ((b.module.functions[f]?).elim 0 (·.blocks.size))
    module := { b.module with
      functions := b.module.functions.modify f fun e =>
        { e with blocks := e.blocks.push (.start label) } } }

theorem enter_of_beginBlock (begun : (b.beginBlock (some label)).map (·.2) = .ok c) :
    ∃ f, b.function? = some f ∧ b.block? = none ∧ c = b.enter f label := by
  unfold beginBlock at begun
  split at begun
  · cases begun
  · cases begun
  · next f hf hk =>
    cases begun
    exact ⟨f, hf, hk, rfl⟩

theorem enter_of_beginFreshBlock (begun : (b.beginBlock none).map (·.2) = .ok c) :
    ∃ f, b.function? = some f ∧ b.block? = none ∧ c = b.fresh.2.enter f b.nextId := by
  unfold beginBlock at begun
  split at begun
  · cases begun
  · cases begun
  · next f hf hk =>
    cases begun
    exact ⟨f, hf, hk, rfl⟩

section Enter

variable {f f' k : Nat} {block : Block}

theorem block?_enter (there : f < b.module.functions.size) :
    (b.enter f label).module.block? f' k = some block ↔
      b.module.block? f' k = some block ∨
        f' = f ∧ (b.enter f label).block? = some k ∧ block = .start label := by
  have found := Array.getElem?_eq_getElem there
  unfold Module.block? enter
  dsimp only
  rw [Array.getElem?_modify, found, Option.elim_some]
  by_cases same : f = f'
  · subst same
    rw [if_pos rfl, found, Option.map_some, Option.bind_some, Option.bind_some]
    dsimp only
    rw [Array.getElem?_push]
    by_cases last : k = b.module.functions[f].blocks.size
    · subst last
      rw [if_pos rfl, Array.getElem?_size]
      simp [eq_comm]
    · rw [if_neg last]
      simp [Ne.symm last]
  · rw [if_neg same]
    simp [Ne.symm same]

theorem extends_enter (there : f < b.module.functions.size) :
    b.module.Extends (b.enter f label).module := by
  refine ⟨List.prefix_rfl, rfl, fun f' e he => ?_, fun f' k block hb => ?_⟩
  · unfold enter
    rw [Array.getElem?_modify, he]
    split
    · exact ⟨_, rfl, rfl⟩
    · exact ⟨e, rfl, rfl⟩
  · exact ⟨block, (block?_enter there).2 (.inl hb), rfl, List.prefix_rfl⟩

theorem labelAt_enter (there : f < b.module.functions.size) :
    ∃ k, (b.enter f label).block? = some k ∧ (b.enter f label).module.LabelAt f k label :=
  ⟨_, rfl, .start label, (block?_enter there).2 (.inr ⟨rfl, rfl, rfl⟩), rfl⟩

end Enter

theorem reopenBlock_eq_ok {k : Nat} (opened : b.reopenBlock k = .ok c) :
    c = { b with block? := some k } := by
  unfold reopenBlock at opened
  split at opened
  · cases opened
  · dsimp only at opened
    split at opened
    · cases opened
      rfl
    · cases opened

/-- A builder with another function, which is open. -/
def addFunction (b : Builder) (definition : Instr) : Builder :=
  { b with
    function? := some b.module.functions.size
    module := { b.module with functions := b.module.functions.push ⟨definition, #[]⟩ } }

/-- The definition of a function without parameters. -/
def definition (returnType functionType id : Id) : Instr :=
  ⟨.ordinary .function, some returnType, some id, [.word 0, .id functionType]⟩

section

variable {returnType functionType : Id}

theorem addFunction_of_beginFunction
    (begun : b.beginFunction returnType functionType (some label) = .ok (id, c)) :
    b.function? = none ∧ id = label ∧
      c = b.addFunction (definition returnType functionType label) := by
  unfold beginFunction at begun
  split at begun
  · cases begun
  · next hf =>
    cases begun
    exact ⟨hf, rfl, rfl⟩

theorem addFunction_of_beginFreshFunction
    (begun : b.beginFunction returnType functionType none = .ok (id, c)) :
    b.function? = none ∧ id = b.nextId ∧
      c = b.fresh.2.addFunction (definition returnType functionType b.nextId) := by
  unfold beginFunction at begun
  split at begun
  · cases begun
  · next hf =>
    cases begun
    exact ⟨hf, rfl, rfl⟩

theorem extends_addFunction (b : Builder) (i : Instr) :
    b.module.Extends (b.addFunction i).module := by
  have old (f : Nat) (e : Function) (he : b.module.functions[f]? = some e) :
      (b.addFunction i).module.functions[f]? = some e := by
    obtain ⟨there, _⟩ := Array.getElem?_eq_some_iff.1 he
    change (b.module.functions.push _)[f]? = _
    rw [Array.getElem?_push, if_neg (Nat.ne_of_lt there), he]
  refine ⟨List.prefix_rfl, rfl, fun f e he => ⟨e, old f e he, rfl⟩, fun f k block hb => ?_⟩
  obtain ⟨e, he, hk⟩ := Option.bind_eq_some_iff.1 hb
  exact ⟨block, Option.bind_eq_some_iff.2 ⟨e, old f e he, hk⟩, rfl, List.prefix_rfl⟩

theorem stands_addFunction (b : Builder) {i : Instr} (result : i.result? = some id) :
    (b.addFunction i).module.Stands id := by
  refine .inr (.inr (.inl ⟨b.module.functions.size, ⟨i, #[]⟩, ?_, result⟩))
  change (b.module.functions.push _)[b.module.functions.size]? = _
  rw [Array.getElem?_push_size]

end

theorem endFunction_eq_ok : b.endFunction = .ok c ↔
    (∃ f, b.function? = some f) ∧ c = { b with function? := none } := by
  unfold endFunction
  constructor
  · intro h
    split at h
    · next f hf =>
      cases h
      exact ⟨⟨f, hf⟩, rfl⟩
    · cases h
  · rintro ⟨⟨f, hf⟩, rfl⟩
    rw [hf]

end Spirv.Builder

/-- A state together with the ids that are set aside. -/
structure Configuration where
  state : State
  reserved : List Id

variable {H : Limits} {env : Environment} {s t : State} {r r' : List Id} {x y z : Configuration}

/-- One sound change of a configuration. -/
inductive Move (H : Limits) (env : Environment) : Configuration → Configuration → Prop
  | act {s t : State} {r : List Id} (act : Act H env s t) : Move H env ⟨s, r⟩ ⟨t, r⟩
  | reserve {s : State} {r : List Id} :
    Move H env ⟨s, r⟩ ⟨{ s with builder := s.builder.fresh.2 }, s.builder.nextId :: r⟩
  | forget {s : State} {r r' : List Id} (fewer : r'.Subperm r) : Move H env ⟨s, r⟩ ⟨s, r'⟩
  | exit {s : State} {r : List Id} {e : Exit} {c : Builder}
    (ended : s.builder.terminate e.instr = .ok c)
    (known : ∀ id ∈ e.instr.reads, s.builder.Sees e.instr id) :
    Move H env ⟨s, r⟩ ⟨{ s with builder := c }, r⟩
  | merge {s : State} {r : List Id} {m : Merge} {c : Builder}
    (placed : s.builder.push m.instr = .ok c) : Move H env ⟨s, r⟩ ⟨{ s with builder := c }, r⟩
  | place {s : State} {r : List Id} {label : Id} {f : Nat} (inside : s.builder.function? = some f) :
    Move H env ⟨s, label :: r⟩ ⟨{ s with builder := s.builder.enter f label }, r⟩
  | leave {s : State} {r : List Id} :
    Move H env ⟨s, r⟩ ⟨{ s with builder := s.builder.leaveBlock }, r⟩
  | reopen {s : State} {r : List Id} {k : Nat} {c : Builder}
    (opened : s.builder.reopenBlock k = .ok c) : Move H env ⟨s, r⟩ ⟨{ s with builder := c }, r⟩
  | openFunction {s : State} {r : List Id} {returnType functionType id : Id}
    (outside : s.builder.function? = none) (returns : s.builder.module.IsGlobal returnType)
    (typed : s.builder.module.IsGlobal functionType) :
    Move H env ⟨s, id :: r⟩
      ⟨{ s with
          builder := s.builder.addFunction (Builder.definition returnType functionType id) }, r⟩
  | closeFunction {s : State} {r : List Id} (left : s.builder.block? = none) :
    Move H env ⟨s, r⟩ ⟨{ s with builder := { s.builder with function? := none } }, r⟩
  /-- Only what has nothing to do with the module changes. -/
  | note {s t : State} {r : List Id} (builder : t.builder = s.builder)
    (kept : s.Kept H s.builder → t.Kept H s.builder) (accounts : t.accounts = s.accounts)
    (remembers : s.Remembers t) : Move H env ⟨s, r⟩ ⟨t, r⟩

def Moves (H : Limits) (env : Environment) : Configuration → Configuration → Prop :=
  Relation.ReflTransGen (Move H env)

/-- Every step of the builder leads to a module that extends the one before. -/
theorem Move.extends_ (h : Move H env x y) (sound : x.state.builder.Sound) :
    x.state.builder.module.Extends y.state.builder.module := by
  cases h with
  | act act => exact act.within.extends_
  | reserve | leave | closeFunction => exact .refl _
  | forget => exact .refl _
  | exit ended => exact (Spirv.Builder.onward_terminate ended).extends_
  | merge placed => exact (Spirv.Builder.within_push placed).extends_
  | place inside => exact Spirv.Builder.extends_enter (sound.function _ inside)
  | reopen opened =>
    rw [Spirv.Builder.reopenBlock_eq_ok opened]
    exact .refl _
  | openFunction => exact Spirv.Builder.extends_addFunction _ _
  | note builder =>
    rw [builder]
    exact .refl _

theorem Move.nextId (h : Move H env x y) : x.state.builder.nextId ≤ y.state.builder.nextId := by
  cases h with
  | act act => exact act.within.nextId
  | reserve => exact Nat.le_succ _
  | forget | place | leave | openFunction | closeFunction => exact Nat.le_refl _
  | exit ended =>
    obtain ⟨d, placed, rfl⟩ := Spirv.Builder.terminate_eq_ok.1 ended
    exact (Spirv.Builder.within_push placed).nextId
  | merge placed => exact (Spirv.Builder.within_push placed).nextId
  | reopen opened =>
    obtain rfl := Spirv.Builder.reopenBlock_eq_ok opened
    exact Nat.le_refl _
  | note builder => exact Nat.le_of_eq (congrArg Builder.nextId builder.symm)

/-- A move that is not an act keeps a builder sound, and all globals, and adds nothing to blocks but
what directs control. -/
theorem Move.steers (h : Move H env x y) (sound : x.state.builder.Sound) :
    Act H env x.state y.state ∨
      y.state.builder.Sound ∧ y.state.builder.module.globals = x.state.builder.module.globals ∧
        ∀ j ∈ y.state.builder.module.bodies,
          j ∈ x.state.builder.module.bodies ∨ ∃ op, j.op = .control op := by
  have steers {c : Builder} (h : x.state.builder.Steers c) (is : y.state.builder = c) :
      Act H env x.state y.state ∨ y.state.builder.Sound ∧
        y.state.builder.module.globals = x.state.builder.module.globals ∧
          ∀ j ∈ y.state.builder.module.bodies,
            j ∈ x.state.builder.module.bodies ∨ ∃ op, j.op = .control op :=
    .inr (is ▸ ⟨h.sound, h.globals, h.mem_bodies⟩)
  cases h with
  | act act => exact .inl act
  | reserve => exact .inr ⟨sound.fresh, rfl, fun _ => .inl⟩
  | forget => exact .inr ⟨sound, rfl, fun _ => .inl⟩
  | @exit _ _ e _ ended => cases e <;> exact steers (sound.steers_terminate ended).1 rfl
  | @merge _ _ m _ placed => cases m <;> exact steers (sound.steers_push placed) rfl
  | place inside => exact steers (sound.steers_block inside _) rfl
  | leave => exact steers sound.steers_leaveBlock rfl
  | reopen opened => exact steers (sound.steers_reopenBlock opened) rfl
  | openFunction outside => exact steers (sound.steers_function outside _) rfl
  | closeFunction left =>
    exact .inr ⟨⟨nofun, fun k hk => absurd (left.symm.trans hk) nofun, sound.below, sound.distinct,
      sound.interned, sound.named⟩, rfl, fun _ => .inl⟩
  | note builder =>
    exact .inr ⟨builder ▸ sound, congrArg (·.module.globals) builder, fun _ => builder ▸ .inl⟩

/-- No move takes the shape of a register away. -/
theorem Move.remembers (h : Move H env x y) : x.state.Remembers y.state := by
  cases h with
  | act act => exact act.remembers
  | note _ _ _ remembers => exact remembers
  | _ => exact .of_eq rfl

theorem Move.ready (h : Move H env x y) (ready : Ready H x.state) : Ready H y.state := by
  rcases h.steers ready.sound with act | ⟨sound, globals, _⟩
  · exact act.ready ready
  refine ⟨sound, ?_, fun id hidden => ⟨Nat.lt_of_lt_of_le (ready.hidden id hidden).1 h.nextId, ?_⟩⟩
  · have kept := ready.kept.extend (h.extends_ ready.sound)
    cases h with
    | act act => exact (act.ready ready).kept
    | note builder keeps =>
      rw [builder] at kept ⊢
      exact keeps kept
    | _ => exact { kept with }
  · rw [globals]
    exact (ready.hidden id hidden).2

namespace Moves

theorem ready (h : Moves H env x y) (ready : Ready H x.state) : Ready H y.state := by
  induction h with
  | refl => exact ready
  | tail _ last ih => exact last.ready ih

theorem single (h : Move H env x y) : Moves H env x y :=
  Relation.ReflTransGen.single h

theorem of_acts (h : Acts H env s t) (r : List Id) : Moves H env ⟨s, r⟩ ⟨t, r⟩ := by
  induction h with
  | refl => exact .refl
  | tail _ last ih => exact ih.tail (.act last)

end Moves

/-- A step that starts where acts may start consists of moves, and what it gives and leaves behind
is as promised. -/
def Works {α : Type} (H : Limits) (env : Environment) (x : Configuration) (m : Lower α)
    (post : α → Configuration → Prop) : Prop :=
  Ready H x.state → ∀ a t, Lower.result m env x.state = (.ok a, t) →
    ∃ r, Moves H env x ⟨t, r⟩ ∧ post a ⟨t, r⟩

/-- Only the builder has changed, in the same function, and the given ids are set aside. -/
structure Configuration.Steered (x : Configuration) (r : List Id) (y : Configuration) : Prop where
  onward : x.state.builder.Onward y.state.builder
  state : y.state = { x.state with builder := y.state.builder }
  reserved : y.reserved = r

theorem Configuration.Steered.trans (first : x.Steered r y) (second : y.Steered r' z) :
    x.Steered r' z := by
  refine ⟨first.onward.trans second.onward, ?_, second.reserved⟩
  rw [second.state, first.state]

namespace Works

variable {α β : Type} {m : Lower α} {f : α → Lower β} {post q : α → Configuration → Prop}

protected theorem pure {a : α} (h : post a x) : Works H env x (pure a) post := by
  intro _ _ _ ran
  cases ran
  exact ⟨x.reserved, .refl, h⟩

protected theorem bind {post : β → Configuration → Prop} (first : Works H env x m q)
    (later : ∀ a y, q a y → Works H env y (f a) post) : Works H env x (m >>= f) post := by
  intro ready b u ran
  obtain ⟨a, t, ran, ran'⟩ := Lower.result_bind_eq_ok.1 ran
  obtain ⟨r, moves, fact⟩ := first ready a t ran
  obtain ⟨r', moves', fact'⟩ := later a ⟨t, r⟩ fact (moves.ready ready) b u ran'
  exact ⟨r', moves.trans moves', fact'⟩

theorem imp (h : Works H env x m q) (weaker : ∀ a y, q a y → post a y) :
    Works H env x m post := by
  intro ready a t ran
  obtain ⟨r, moves, fact⟩ := h ready a t ran
  exact ⟨r, moves, weaker a _ fact⟩

theorem get_bind {k : State → Lower α} (h : Works H env x (k x.state) post) :
    Works H env x (get >>= k) post :=
  fun ready a t ran => h ready a t ran

theorem read_bind {k : Environment → Lower α} (h : Works H env x (k env) post) :
    Works H env x (read >>= k) post :=
  fun ready a t ran => h ready a t ran

theorem ite {p : Prop} [Decidable p] {yes no : Lower α} (hyes : p → Works H env x yes post)
    (hno : ¬p → Works H env x no post) : Works H env x (if p then yes else no) post := by
  split
  · next h => exact hyes h
  · next h => exact hno h

theorem failWith (fault : Fault) : Works H env x (liftM (Lower.failWith (α := α) fault)) post := by
  intro _ _ _ ran
  cases ran

theorem failWith_bind (fault : Fault) {k : α → Lower β} {post : β → Configuration → Prop} :
    Works H env x (liftM (Lower.failWith (α := α) fault) >>= k) post := by
  intro _ _ _ ran
  cases ran

/-- The value of an option that has to be there. -/
theorem orFault_bind {a? : Option α} {fault : Fault} {post : β → Configuration → Prop}
    (h : ∀ a, a? = some a → Works H env x (f a) post) :
    Works H env x (liftM (Lower.orFault a? fault) >>= f) post := by
  cases a? with
  | none => exact failWith_bind fault
  | some a => exact h a rfl

/-- An ordinary step. -/
theorem lift {e : Emission α} {Q : α → Builder → Prop}
    (does : Does H env x.state.builder e.run Q) :
    Works H env x (liftM e) fun a y => Acts H env x.state y.state ∧ Emits x.state y.state ∧
      y.reserved = x.reserved ∧ Q a y.state.builder := by
  intro ready a t ran
  obtain ⟨acts, fact⟩ := does x.state a t ready (.refl _) ran
  exact ⟨x.reserved, .of_acts acts _, acts, Emission.emits_of_run ran, rfl, fact⟩

/-- A single move. -/
theorem move (h : ∀ a t, Ready H x.state → Lower.result m env x.state = (.ok a, t) →
    ∃ r, Move H env x ⟨t, r⟩ ∧ post a ⟨t, r⟩) : Works H env x m post := by
  intro ready a t ran
  obtain ⟨r, move, fact⟩ := h a t ready ran
  exact ⟨r, .single move, fact⟩

/-- A change of what has nothing to do with the module. -/
theorem note {g : State → State} (builder : (g x.state).builder = x.state.builder)
    (kept : x.state.Kept H x.state.builder → (g x.state).Kept H x.state.builder)
    (accounts : (g x.state).accounts = x.state.accounts)
    (remembers : x.state.Remembers (g x.state)) :
    Works H env x (modify g) fun _ y => y = ⟨g x.state, x.reserved⟩ := by
  refine move fun _ t _ ran => ?_
  cases ran
  exact ⟨x.reserved, .note builder kept accounts remembers, rfl⟩

/-- Fewer ids are set aside from now on. -/
theorem forgetting (h : Works H env ⟨x.state, r⟩ m post) (fewer : r.Subperm x.reserved) :
    Works H env x m post := by
  intro ready a t ran
  obtain ⟨r', moves, fact⟩ := h ready a t ran
  exact ⟨r', .trans (.single (.forget fewer)) moves, fact⟩

/-- A step of the builder. -/
theorem build {step : Builder → Except Spirv.BuildError Builder}
    {post : Unit → Configuration → Prop}
    (h : ∀ c, Ready H x.state → step x.state.builder = .ok c →
      ∃ r, Move H env x ⟨{ x.state with builder := c }, r⟩ ∧
        post () ⟨{ x.state with builder := c }, r⟩) :
    Works H env x (Lower.tryBuild step) post := by
  refine move fun _ t ready ran => ?_
  rw [Lower.result_tryBuild] at ran
  split at ran
  · next c built =>
    cases ran
    exact h c ready built
  · cases ran

end Works

namespace Lower

variable {label : Id}

theorem fresh_works : Works H env x (liftM fresh) fun id y =>
    x.Steered (id :: x.reserved) y ∧ x.state.builder.Within y.state.builder := by
  refine .move fun id t _ ran => ?_
  cases ran
  exact ⟨_, .reserve, ⟨⟨.refl _, rfl⟩, rfl, rfl⟩, x.state.builder.within_fresh⟩

theorem exit_works (e : Exit) (known : ∀ id ∈ e.instr.reads, x.state.builder.Sees e.instr id) :
    Works H env x (tryBuild (·.terminate e.instr)) fun _ y => x.Steered x.reserved y :=
  .build fun _ _ ended =>
    ⟨x.reserved, .exit ended known, ⟨Spirv.Builder.onward_terminate ended, rfl, rfl⟩⟩

/-- A branch hands all values of its block on. -/
theorem branch_works : Works H env x (branch label) fun _ y => x.Steered x.reserved y ∧
    ∀ id, x.state.builder.Computes id → y.state.builder.Passes label id := by
  unfold branch terminate
  refine .build fun c ready ended => ?_
  refine ⟨x.reserved, .exit (e := .branch label) ended nofun,
    ⟨Spirv.Builder.onward_terminate ended, rfl, rfl⟩, fun id computes => ?_⟩
  obtain ⟨d, placed, rfl⟩ := Spirv.Builder.terminate_eq_ok.1 ended
  obtain ⟨f, k, hf, hk, rfl⟩ := Spirv.Builder.push_eq_ok.1 placed
  obtain ⟨f', k', j, hf', hk', l, _, i, hi, result⟩ := computes
  cases hf.symm.trans hf'
  cases hk.symm.trans hk'
  obtain ⟨block, hb⟩ := ready.sound.opened_block hf hk
  refine ⟨f, k, block.body.size, hf, (Spirv.Builder.at_pushTo hb).2 (.inr ⟨rfl, rfl, rfl, rfl⟩), l,
    ?_, i, (Spirv.Builder.at_pushTo hb).2 (.inl hi), result⟩
  obtain ⟨block', hb', hi⟩ := hi
  cases hb.symm.trans hb'
  exact (Array.getElem?_eq_some_iff.1 hi).1

theorem test_works {condition yes no : Id}
    (known : x.state.builder.Available H condition) :
    Works H env x (branchConditional condition yes no) fun _ y => x.Steered x.reserved y :=
  exit_works (.test condition yes no) fun id hid => by
    cases List.mem_singleton.1 hid
    exact known.2.imp_right .inl

theorem merge_works (m : Merge) : Works H env x (tryBuild (·.push m.instr)) fun _ y =>
    x.Steered x.reserved y ∧ x.state.builder.Within y.state.builder :=
  .build fun _ _ placed => ⟨x.reserved, .merge placed,
    ⟨(Spirv.Builder.within_push placed).onward, rfl, rfl⟩, Spirv.Builder.within_push placed⟩

/-- A block is placed under a label that was set aside. -/
theorem beginBlock_works (due : (label :: r).Subperm x.reserved) :
    Works H env x (beginBlock label) fun _ y => x.Steered r y ∧
      ∃ f k, y.state.builder.function? = some f ∧ y.state.builder.block? = some k ∧
        y.state.builder.module.LabelAt f k label := by
  refine .forgetting (.build fun c ready begun => ?_) due
  obtain ⟨f, hf, _, rfl⟩ := Spirv.Builder.enter_of_beginBlock begun
  have there := ready.sound.function f hf
  obtain ⟨k, opened, labelled⟩ := Spirv.Builder.labelAt_enter there
  exact ⟨r, .place hf, ⟨⟨Spirv.Builder.extends_enter there, rfl⟩, rfl, rfl⟩, f, k, hf, opened,
    labelled⟩

theorem beginFreshBlock_works :
    Works H env x beginFreshBlock fun _ y => x.Steered x.reserved y := by
  intro ready _ t ran
  unfold beginFreshBlock at ran
  rw [result_tryBuild] at ran
  split at ran
  · next c built =>
    cases ran
    obtain ⟨f, hf, _, rfl⟩ := Spirv.Builder.enter_of_beginFreshBlock built
    refine ⟨x.reserved, .trans (.single .reserve) (.single (.place hf)), ?_, rfl, rfl⟩
    exact ⟨Spirv.Builder.extends_enter (b := x.state.builder.fresh.2) (ready.sound.function f hf),
      rfl⟩
  · cases ran

end Lower

end ShaderLowering
