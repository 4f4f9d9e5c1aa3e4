import ShaderLowering.Proofs.Lowering.Conditions
import ShaderLowering.Proofs.Typing.Invariant

/-!
What lowering steps yield. A step that starts where the invariant holds ends where it holds, the
module grows, and what it gives is as promised. Facts about the module are stated for one that the
state has outgrown, so that they can be carried from step to step.
-/

namespace ShaderLowering

open Spirv (Id Instr Arg Op Module StorageClass Builder)

/-- The stage that a state is one of. -/
def StageState.kind : StageState → ShaderStage
  | vertex => .vertex
  | pixel .. => .pixel
  | compute .. => .compute
  | geometry .. => .geometry
  | domain .. => .domain
  | hull _ => .hull

/-- Opcodes of instructions of which nothing has to be known. -/
@[grind =]
def Spirv.Op.isFree : Op → Bool
  | accessChain | imageTexelPointer | imageRead | imageWrite | var | constant => false
  | _ => true

namespace Shader

variable {x : Shader} {v : VertexCounts} {m n : Module} {s t : State}

theorem accounts_of_isFree {op : Op} (free : op.isFree = true) (type? result? : Option Id)
    (args : List Arg) : x.Accounts m ⟨.ordinary op, type?, result?, args⟩ := by
  cases op <;> trivial

theorem accounts_of_isGlobal {op : Op} (global : op.isGlobal = true) (type? result? : Option Id)
    (args : List Arg) : x.Accounts m ⟨.ordinary op, type?, result?, args⟩ := by
  cases op <;> trivial

theorem accounts_control {i : Instr} {op : Spirv.ControlOp} (h : i.op = .control op) :
    x.Accounts m i := by
  unfold Accounts
  rw [h]
  trivial

structure Invariant (x : Shader) (v : VertexCounts) (s : State) : Prop where
  builder : s.builder.Sound
  explains : x.Explains s.builder.module
  tables : x.Tables s.builder.module s
  kind : s.stage.kind = x.env.stage
  inputs : s.stage.inputVertices = v.inputs
  outputs : s.stage.outputVertices = v.outputs

namespace Invariant

/-- The builder goes on; what is new is accounted for. -/
theorem build (h : x.Invariant v s) {c : Builder} (sound : c.Sound)
    (grows : s.builder.module.Grows c.module)
    (new : ∀ i ∈ c.module.definitions, i ∈ s.builder.module.definitions ∨ x.Accounts c.module i)
    (annotations : ∀ a ∈ c.module.annotations.toList, a ∈ s.builder.module.annotations.toList ∨
      ∀ type, a.laysOut? = some type → x.Laid c.module type) :
    x.Invariant v { s with builder := c } := by
  refine ⟨sound, ⟨fun i hi => ?_, fun a ha type is => ?_⟩, ?_, h.kind, h.inputs, h.outputs⟩
  · exact (new i hi).elim (fun old => (h.explains.definitions i old).mono grows) id
  · exact (annotations a ha).elim (fun old => (h.explains.annotations a old type is).mono grows)
      fun laid => laid type is
  · have tables := h.tables.mono grows
    exact { tables with }

theorem steer (h : x.Invariant v s) {c : Builder} (steers : s.builder.Steers c) :
    x.Invariant v { s with builder := c } := by
  refine h.build steers.sound steers.grows (fun i hi => ?_)
    fun a ha => .inl (steers.annotations ▸ ha)
  rcases List.mem_append.1 hi with hi | hi
  · exact .inl (List.mem_append_left _ (steers.globals ▸ hi))
  · rcases steers.mem_bodies i hi with hi | ⟨op, control⟩
    · exact .inl (List.mem_append_right _ hi)
    · exact .inr (accounts_control control)

theorem fresh (h : x.Invariant v s) : x.Invariant v { s with builder := s.builder.fresh.2 } :=
  h.build h.builder.fresh (.refl _) (fun _ hi => .inl hi) fun _ ha => .inl ha

/-- A change of tables. -/
theorem retable (h : x.Invariant v s) (builder : t.builder = s.builder) (stage : t.stage = s.stage)
    (tables : x.Tables s.builder.module t) : x.Invariant v t :=
  ⟨builder ▸ h.builder, builder ▸ h.explains, builder ▸ tables, stage ▸ h.kind, stage ▸ h.inputs,
    stage ▸ h.outputs⟩

/-- A stage that knows more of itself. -/
theorem restage (h : x.Invariant v s) {stage : StageState} {w : VertexCounts}
    (kind : stage.kind = x.env.stage) (inputs : stage.inputVertices = w.inputs)
    (outputs : stage.outputVertices = w.outputs)
    (phases : ∀ h, stage.hull? = some h → ∀ p ∈ h.fork ++ h.join,
      s.builder.module.Houses p.instanceId .priv (.vector (.single .u32))) :
    x.Invariant w { s with stage } :=
  ⟨h.builder, h.explains, { h.tables with phases }, kind, inputs, outputs⟩

/-- A stage other than hull that knows more of itself. -/
theorem become (h : x.Invariant v s) {stage : StageState} {w : VertexCounts}
    (notHull : stage.hull? = none) (kind : stage.kind = x.env.stage)
    (inputs : stage.inputVertices = w.inputs) (outputs : stage.outputVertices = w.outputs) :
    x.Invariant w { s with stage := s.stage.become stage } := by
  have same : s.stage.become stage = stage := by
    refine if_neg fun hull => ?_
    have other := h.kind.trans kind.symm
    cases is : s.stage <;> rw [is] at hull other <;> cases hull
    cases stage <;> cases other
    cases notHull
  rw [same]
  exact h.restage kind inputs outputs fun _ hull => by rw [notHull] at hull; cases hull

/-- Another module with the same definitions and annotations. -/
theorem remodel (h : x.Invariant v s) {n : Module} (grows : s.builder.module.Grows n)
    (tables : Spirv.Tables n.globals.toList) (globals : n.globals = s.builder.module.globals)
    (functions : n.functions = s.builder.module.functions)
    (annotations : n.annotations = s.builder.module.annotations) :
    x.Invariant v { s with builder := { s.builder with module := n, tables } } := by
  have sound := h.builder
  have definitions : n.definitions = s.builder.module.definitions := by
    rw [Module.definitions, Module.bodies, globals, functions]
    rfl
  refine h.build ⟨?_, ?_, ?_, ?_, ?_, ?_⟩ grows (fun i hi => .inl (definitions ▸ hi))
    fun a ha => .inl (annotations ▸ ha)
  · exact functions.symm ▸ sound.function
  · exact functions.symm ▸ sound.block
  · exact definitions.symm ▸ sound.below
  · change ∀ i ∈ n.definitions, ∀ j ∈ n.definitions, _
    exact definitions.symm ▸ sound.distinct
  · intro op interned type? args a b
    change ⟨.ordinary op, type?, some a, args⟩ ∈ n.globals.toList →
      ⟨.ordinary op, type?, some b, args⟩ ∈ n.globals.toList → a = b
    exact globals.symm ▸ sound.interned op interned type? args a b
  · exact globals.symm ▸ sound.named

/-- A type, constant or variable of module scope. -/
theorem addGlobal (h : x.Invariant v s) {op : Op} {type? : Option Id} {args : List Arg}
    (new : op.isInterned = true → ∀ a, ¬ s.builder.module.Declares op type? args a)
    (accounts : x.Accounts s.builder.module ⟨.ordinary op, type?, some s.builder.nextId, args⟩) :
    x.Invariant v { s with
      builder :=
        s.builder.fresh.2.addGlobal ⟨.ordinary op, type?, some s.builder.nextId, args⟩ } := by
  have grows := s.builder.fresh.2.grows_addGlobal
    ⟨.ordinary op, type?, some s.builder.nextId, args⟩
  refine h.build (h.builder.addGlobal new) grows (fun i hi => ?_) fun _ ha => .inl ha
  refine (Builder.definitions_addGlobal.1 hi).imp_right ?_
  rintro rfl
  exact accounts.mono grows

/-- An instruction that is accounted for. -/
theorem push (h : x.Invariant v s) {c : Builder} {i : Instr} (placed : s.builder.push i = .ok c)
    (below : ∀ id, i.result? = some id → id < s.builder.nextId)
    (apart : ∀ j ∈ s.builder.module.definitions, ∀ id, j.result? = some id → i.result? ≠ some id)
    (accounts : x.Accounts s.builder.module i) : x.Invariant v { s with builder := c } := by
  have appends := h.builder.appends placed
  refine h.build (h.builder.push placed below apart) appends.grows (fun j hj => ?_)
    fun a ha => .inl (appends.annotations ▸ ha)
  refine (appends.mem_definitions.1 hj).imp_right ?_
  rintro rfl
  exact accounts.mono appends.grows

/-- An instruction under an id that was just taken. -/
theorem pushFresh (h : x.Invariant v s) {c : Builder} {op : Op} {type? : Option Id}
    {args : List Arg}
    (placed : s.builder.fresh.2.push ⟨.ordinary op, type?, some s.builder.nextId, args⟩ = .ok c)
    (accounts : x.Accounts s.builder.module ⟨.ordinary op, type?, some s.builder.nextId, args⟩) :
    x.Invariant v { s with builder := c } := by
  refine h.fresh.push placed (fun id result => ?_) ?_ accounts
  · cases result
    exact Nat.lt_succ_self _
  · exact h.builder.apart_fresh fun id result => (Option.some.inj result).symm

/-- A variable, wherever it goes. -/
theorem newVariable (h : x.Invariant v s) {pointer : Id} {storage : StorageClass}
    {initial? : Option Id}
    (accounts : x.Variable s.builder.module ⟨.ordinary .var, some pointer, some s.builder.nextId,
      .word storage.code :: initial?.toList.map .id⟩) :
    x.Invariant v { s with builder := (s.builder.variable_ pointer storage initial?).2 } ∧
      s.builder.module.Grows (s.builder.variable_ pointer storage initial?).2.module ∧
      (s.builder.variable_ pointer storage initial?).2.module.HasType
        (s.builder.variable_ pointer storage initial?).1 pointer ∧
      (s.builder.variable_ pointer storage initial?).2.module.DefinesVariable
        (s.builder.variable_ pointer storage initial?).1 := by
  let i : Instr := ⟨.ordinary .var, some pointer, some s.builder.nextId,
    .word storage.code :: initial?.toList.map .id⟩
  unfold Builder.variable_
  dsimp only [Builder.fresh]
  split
  · next c placed =>
    have appends := h.fresh.builder.appends placed
    have mem := appends.mem_definitions.2 (.inr (rfl : i = i))
    exact ⟨h.pushFresh placed accounts, appends.grows, ⟨i, mem, rfl, rfl⟩, _, _, mem⟩
  · have other : Op.var.isInterned ≠ true := by decide
    have mem := Builder.definitions_addGlobal (b := s.builder.fresh.2).2 (.inr (rfl : i = i))
    exact ⟨h.addGlobal (fun interned => absurd interned other) accounts,
      s.builder.fresh.2.grows_addGlobal i, ⟨i, mem, rfl, rfl⟩, _, _, mem⟩

/-- An annotation that lays nothing out, or what may be laid out. -/
theorem annotate (h : x.Invariant v s) {a : Instr}
    (laid : ∀ type, a.laysOut? = some type → x.Laid s.builder.module type) :
    x.Invariant v { s with builder := s.builder.annotate a } := by
  have sound := h.builder
  have grows : s.builder.module.Grows (s.builder.annotate a).module :=
    ⟨fun _ hi => hi, fun _ hi => hi, fun _ hi => hi⟩
  refine h.build ⟨sound.function, sound.block, sound.below, sound.distinct, sound.interned,
    sound.named⟩ grows (fun _ hi => .inl hi) fun b hb => ?_
  rw [Builder.annotate, Array.toList_push] at hb
  refine (List.mem_append.1 hb).imp_right fun hb type is => ?_
  rw [List.mem_singleton.1 hb] at is
  exact (laid type is).mono grows

end Invariant

end Shader

/-- A step that starts where the invariant holds and the module has outgrown `m` ends where the
invariant holds, and what it gives is as promised. -/
def Yields {α : Type} (x : Shader) (v : VertexCounts) (m : Module)
    (run : Environment → State → Except CompileError α × State) (post : α → Module → Prop) : Prop :=
  ∀ s a t, x.Invariant v s → m.Grows s.builder.module → run x.env s = (.ok a, t) →
    x.Invariant v t ∧ s.builder.module.Grows t.builder.module ∧ post a t.builder.module

/-- A step of whose result nothing has to be known. -/
def Safe {α : Type} (x : Shader) (v : VertexCounts) (m : Module)
    (run : Environment → State → Except CompileError α × State) : Prop :=
  Yields x v m run fun _ _ => True

section

variable {α β : Type} {x : Shader} {v : VertexCounts} {m n : Module}
  {run : Environment → State → Except CompileError α × State} {post mid : α → Module → Prop}

namespace Yields

theorem grow (h : Yields x v m run post) (grows : m.Grows n) : Yields x v n run post :=
  fun s a t hs outgrown ran => h s a t hs (grows.trans outgrown) ran

theorem imp (h : Yields x v m run mid) (weaker : ∀ a n, m.Grows n → mid a n → post a n) :
    Yields x v m run post := by
  intro s a t hs outgrown ran
  obtain ⟨ht, grows, fact⟩ := h s a t hs outgrown ran
  exact ⟨ht, grows, weaker a _ (outgrown.trans grows) fact⟩

theorem safe (h : Yields x v m run post) : Safe x v m run :=
  h.imp fun _ _ _ _ => trivial

/-- What is known of the result in any case. -/
theorem also {fact : α → Prop} (h : Yields x v m run post)
    (any : ∀ s a t, run x.env s = (.ok a, t) → fact a) :
    Yields x v m run fun a n => fact a ∧ post a n := by
  intro s a t hs outgrown ran
  obtain ⟨ht, grows, known⟩ := h s a t hs outgrown ran
  exact ⟨ht, grows, any s a t ran, known⟩

/-- A step followed by another. -/
theorem andThen {next : α → Environment → State → Except CompileError β × State}
    {both : Environment → State → Except CompileError β × State} {post : β → Module → Prop}
    (is : ∀ env s, both env s = Lower.andThen (run env s) fun a t => next a env t)
    (first : Yields x v m run mid)
    (later : ∀ a n, m.Grows n → mid a n → Yields x v n (next a) post) :
    Yields x v m both post := by
  intro s b u hs outgrown ran
  rw [is] at ran
  obtain ⟨a, t, ran, ran'⟩ := Lower.andThen_eq_ok.1 ran
  obtain ⟨ht, grows, fact⟩ := first s a t hs outgrown ran
  obtain ⟨hu, grows', fact'⟩ := later a _ (outgrown.trans grows) fact t b u ht (.refl _) ran'
  exact ⟨hu, grows.trans grows', fact'⟩

end Yields

theorem Safe.grow (h : Safe x v m run) (grows : m.Grows n) : Safe x v n run :=
  Yields.grow h grows

end

namespace Yields

variable {α β : Type} {x : Shader} {v : VertexCounts} {m n : Module} {a : α}
  {e : Emission α} {f : α → Emission β}

protected theorem pure {post : α → Module → Prop} (h : ∀ n, m.Grows n → post a n) :
    Yields x v m (pure a : Emission α).run post := by
  intro s b t hs outgrown ran
  cases ran
  exact ⟨hs, .refl _, h _ outgrown⟩

protected theorem bind {mid : α → Module → Prop} {post : β → Module → Prop}
    (first : Yields x v m e.run mid)
    (later : ∀ a n, m.Grows n → mid a n → Yields x v n (f a).run post) :
    Yields x v m (e >>= f).run post :=
  .andThen (fun _ _ => rfl) first later

theorem pureBind {post : β → Module → Prop} (h : Yields x v m (f a).run post) :
    Yields x v m (pure a >>= f).run post :=
  h

/-- A step of whose result nothing has to be known, followed by another. -/
theorem after {post : β → Module → Prop} (first : Safe x v m e.run)
    (later : ∀ a n, m.Grows n → Yields x v n (f a).run post) : Yields x v m (e >>= f).run post :=
  .bind first fun a n grows _ => later a n grows

theorem read_bind {f : Environment → Emission β} {post : β → Module → Prop}
    (h : Yields x v m (f x.env).run post) : Yields x v m (read >>= f).run post :=
  fun s b t hs outgrown ran => h s b t hs outgrown ran

/-- What the state holds is known, in the module as it is. -/
theorem state_bind {f : State → Emission β} {post : β → Module → Prop}
    (h : ∀ s, x.Invariant v s → m.Grows s.builder.module →
      Yields x v s.builder.module (f s).run post) : Yields x v m (Emission.state >>= f).run post :=
  fun s b t hs outgrown ran => h s hs outgrown s b t hs (.refl _) ran

theorem fail {post : α → Module → Prop} {error : CompileError}
    {own : ∀ b, error ≠ .builder b} :
    Yields x v m (Emission.fail error own : Emission α).run post := by
  intro s b t hs outgrown ran
  cases ran

/-- Nothing follows a failure. -/
theorem failBind {fault : Fault} {post : β → Module → Prop} :
    Yields x v m ((Lower.failWith fault : Emission α) >>= f).run post := by
  intro s b t hs outgrown ran
  cases ran

/-- A change of the state and nothing else. -/
theorem note {run : Environment → State → Except CompileError Unit × State} {g : State → State}
    {post : Unit → Module → Prop} (is : ∀ s, run x.env s = (.ok (), g s))
    (h : ∀ s, x.Invariant v s → m.Grows s.builder.module → x.Invariant v (g s) ∧
      s.builder.module.Grows (g s).builder.module ∧ post () (g s).builder.module) :
    Yields x v m run post := by
  intro s b t hs outgrown ran
  rw [is] at ran
  cases ran
  exact h s hs outgrown

/-- A change of tables. -/
theorem noteTables {run : Environment → State → Except CompileError Unit × State}
    {g : State → State} (is : ∀ s, run x.env s = (.ok (), g s))
    (builder : ∀ s, (g s).builder = s.builder) (stage : ∀ s, (g s).stage = s.stage)
    (tables : ∀ s, x.Tables s.builder.module s → m.Grows s.builder.module →
      x.Tables s.builder.module (g s)) :
    Yields x v m run fun _ _ => True := by
  refine .note is fun s hs outgrown => ?_
  refine ⟨hs.retable (builder s) (stage s) (tables s hs.tables outgrown), ?_, trivial⟩
  rw [builder]
  exact .refl _

/-- A type or constant is declared as asked for. -/
theorem declare (key : Spirv.Key) :
    Yields x v m (Emission.declare key).run
      fun id n => n.Declares key.op key.type? key.args id := by
  intro s id t hs outgrown ran
  have declared : t.builder.module.Declares key.op key.type? key.args id := Lower.declare_mem ran
  have sound := hs.builder.declare key
  have same : t = { s with builder := (s.builder.declare key).2 } := by
    cases ran
    rfl
  subst same
  obtain ⟨_, tables, _, found⟩ | ⟨tables, new⟩ := s.builder.declare_eq key
  · rw [found] at declared sound ⊢
    have grows : s.builder.module.Grows s.builder.module := .refl _
    exact ⟨hs.remodel grows tables rfl rfl rfl, grows, declared⟩
  · rw [new] at declared sound ⊢
    have grows := s.builder.fresh.2.grows_addGlobal (key.declaration s.builder.nextId)
    refine ⟨hs.build sound grows (fun i hi => ?_) fun _ ha => .inl ha, grows, declared⟩
    refine (Builder.definitions_addGlobal.1 hi).imp_right ?_
    rintro rfl
    exact Shader.accounts_of_isGlobal key.isGlobal_op _ _ _

theorem declareNew {op : Op} (global : op.isGlobal = true) (other : op.isInterned = false)
    (type? : Option Id) (args : List Arg) :
    Yields x v m (Emission.declareNew op type? args).run
      fun id n => n.Declares op type? args id := by
  intro s id t hs outgrown ran
  cases ran
  refine ⟨hs.addGlobal (fun interned => ?_) (Shader.accounts_of_isGlobal global _ _ _),
    s.builder.fresh.2.grows_addGlobal _, ?_⟩
  · rw [other] at interned
    cases interned
  · exact Builder.declares_addGlobal.2 (.inr ⟨rfl, rfl, rfl, rfl⟩)

theorem annotate {i : Instr}
    (laid : ∀ n, m.Grows n → ∀ type, i.laysOut? = some type → x.Laid n type) :
    Yields x v m (Emission.annotate i).run fun _ _ => True := by
  intro s id t hs outgrown ran
  cases ran
  exact ⟨hs.annotate (laid _ outgrown), ⟨fun _ h => h, fun _ h => h, fun _ h => h⟩, trivial⟩

theorem ite {p : Prop} [Decidable p] {yes no : Emission α} {post : α → Module → Prop}
    (hyes : p → Yields x v m yes.run post) (hno : ¬p → Yields x v m no.run post) :
    Yields x v m (if p then yes else no).run post := by
  split
  · next h => exact hyes h
  · next h => exact hno h

/-- A step that is only taken under a condition, and what comes after it in any case. -/
theorem optional {p : Prop} [Decidable p] {step : Emission Unit} {f : Unit → Emission β}
    {post : β → Module → Prop} (safe : Safe x v m step.run)
    (later : ∀ n, m.Grows n → Yields x v n (f ()).run post) :
    Yields x v m (if p then step >>= f else f ()).run post :=
  .ite (fun _ => .after safe fun _ => later) fun _ => later m (.refl m)

/-- One step or another, and what comes after it in any case. -/
theorem choose {p : Prop} [Decidable p] {yes no : Emission α} {f : α → Emission β}
    {mid : α → Module → Prop} {post : β → Module → Prop}
    (first : Yields x v m (if p then yes else no).run mid)
    (later : ∀ a n, m.Grows n → mid a n → Yields x v n (f a).run post) :
    Yields x v m (if p then yes >>= f else no >>= f).run post := by
  split
  · next h =>
    rw [if_pos h] at first
    exact first.bind later
  · next h =>
    rw [if_neg h] at first
    exact first.bind later

/-- The value of an option that has to be there. -/
theorem orFault {a? : Option α} {fault : Fault} {post : α → Module → Prop}
    (h : ∀ a, a? = some a → ∀ n, m.Grows n → post a n) :
    Yields x v m (Lower.orFault a? fault).run post := by
  cases a? with
  | none =>
    intro s b t hs outgrown ran
    cases ran
  | some a => exact .pure (h a rfl)

/-- What is done with the value of an option that has to be there. -/
theorem demand {a? : Option α} {fault : Fault} {post : β → Module → Prop}
    (later : ∀ a, a? = some a → Yields x v m (f a).run post) :
    Yields x v m (Lower.orFault a? fault >>= f).run post := by
  cases a? with
  | none =>
    intro s b t hs outgrown ran
    cases ran
  | some a => exact later a rfl

theorem mapM {f : α → Emission β} {list : List α} (each : ∀ a ∈ list, Safe x v m (f a).run) :
    Yields x v m (list.mapM f).run fun parts _ => parts.length = list.length := by
  induction list generalizing m with
  | nil =>
    rw [List.mapM_nil]
    exact .pure fun _ _ => rfl
  | cons a rest ih =>
    rw [List.mapM_cons]
    refine .bind (each a List.mem_cons_self) fun b n grows _ => ?_
    refine .bind (ih fun a ha => ?_) fun parts k _ length => .pure fun _ _ => ?_
    · exact (each a (List.mem_cons_of_mem _ ha)).grow grows
    · rw [List.length_cons, List.length_cons, length]

theorem fresh : Yields x v m Emission.fresh.run fun _ _ => True := by
  intro s id t hs outgrown ran
  cases ran
  exact ⟨hs.fresh, .refl _, trivial⟩

/-- An instruction without a result. -/
theorem push {op : Op} {args : List Arg}
    (accounts : ∀ n, m.Grows n → x.Accounts n ⟨.ordinary op, none, none, args⟩) :
    Yields x v m (Emission.push op none none args).run fun _ _ => True := by
  intro s id t hs outgrown ran
  obtain ⟨c, placed, rfl⟩ := Emission.run_push_eq_ok.1 ran
  exact ⟨hs.push placed nofun (fun _ _ _ _ => nofun) (accounts _ outgrown),
    (hs.builder.appends placed).grows, trivial⟩

theorem newVariable {pointer : Id} {storage : StorageClass} {initial? : Option Id}
    (accounts : ∀ n id, m.Grows n → x.Variable n ⟨.ordinary .var, some pointer, some id,
      .word storage.code :: initial?.toList.map .id⟩) :
    Yields x v m (Emission.newVariable pointer storage initial?).run
      fun id n => n.HasType id pointer ∧ n.DefinesVariable id := by
  intro s id t hs outgrown ran
  cases ran
  exact hs.newVariable (accounts _ _ outgrown)

theorem newTemp {pointer : Id} (is : m.IsPointer .priv (.vector float4) pointer) :
    Yields x v m (Emission.newTemp pointer).run fun _ _ => True := by
  intro s id t hs outgrown ran
  cases ran
  have isPointer := is.mono outgrown
  have accounts : x.Variable s.builder.module ⟨.ordinary .var, some pointer,
      some s.builder.nextId, .word StorageClass.priv.code :: (none : Option Id).toList.map .id⟩ :=
    ⟨.priv, [], rfl, fun _ => ⟨.vector float4, _, rfl, isPointer, Nat.le_refl 4⟩⟩
  obtain ⟨hs', grows, typed, _⟩ := hs.newVariable accounts
  refine ⟨⟨hs'.builder, hs'.explains, ?_, hs'.kind, hs'.inputs, hs'.outputs⟩, grows, trivial⟩
  have tables := hs'.tables
  have old := hs.tables
  have sound := hs.builder
  refine { tables with temps := fun id hid => ?_, ownTemps := ?_, housedTemps := fun id hid => ?_ }
  · rw [Array.toList_push] at hid
    rcases List.mem_append.1 hid with hid | hid
    · exact tables.temps id hid
    · rw [List.mem_singleton.1 hid]
      exact ⟨_, typed, isPointer.mono grows⟩
  · rw [Array.toList_push]
    change (s.temps.toList ++ [(s.builder.variable_ pointer .priv none).1]).Nodup
    rw [s.builder.fst_variable, List.nodup_append]
    refine ⟨old.ownTemps, List.pairwise_singleton _ _, ?_⟩
    rintro a ha b hb rfl
    have below := sound.lt_of_definesVariable (old.housedTemps a ha)
    rw [List.mem_singleton.1 hb] at below
    exact Nat.lt_irrefl _ below
  · rw [Array.toList_push] at hid
    change id ∈ s.temps.toList ++ [(s.builder.variable_ pointer .priv none).1] at hid
    rw [s.builder.fst_variable] at hid
    rcases List.mem_append.1 hid with hid | hid
    · exact tables.housedTemps id hid
    · rw [List.mem_singleton.1 hid]
      exact sound.definesVariable _ _ _

end Yields

namespace Safe

variable {α β γ : Type} {x : Shader} {v : VertexCounts} {m : Module} {e : Emission α}
  {f : α → Emission β}

@[grind ←]
protected theorem pure (a : α) : Safe x v m (pure a : Emission α).run :=
  Yields.pure fun _ _ => trivial

@[grind ←]
protected theorem bind (first : Safe x v m e.run) (later : ∀ a, Safe x v m (f a).run) :
    Safe x v m (e >>= f).run :=
  Yields.bind first fun a _ grows _ => (later a).grow grows

@[grind ←]
theorem read_bind {f : Environment → Emission β} (h : Safe x v m (f x.env).run) :
    Safe x v m (read >>= f : Emission β).run :=
  Yields.read_bind h

@[grind ←]
theorem state_bind {f : State → Emission β} (h : ∀ s, Safe x v m (f s).run) :
    Safe x v m (Emission.state >>= f).run :=
  Yields.state_bind fun s _ grows => (h s).grow grows

theorem ite {p : Prop} [Decidable p] {yes no : Emission α} (hyes : Safe x v m yes.run)
    (hno : Safe x v m no.run) : Safe x v m (if p then yes else no).run :=
  Yields.ite (fun _ => hyes) fun _ => hno

/-- One step or another, and what comes after it in any case. -/
theorem choose {p : Prop} [Decidable p] {yes no : Emission α} (hyes : Safe x v m yes.run)
    (hno : Safe x v m no.run) (later : ∀ a, Safe x v m (f a).run) :
    Safe x v m (if p then yes >>= f else no >>= f).run :=
  .ite (.bind hyes later) (.bind hno later)

@[grind ←]
theorem fail {error : CompileError} {own : ∀ b, error ≠ .builder b} :
    Safe x v m (Emission.fail error own : Emission α).run :=
  Yields.fail

@[grind ←]
theorem failWith (fault : Fault) : Safe x v m (Lower.failWith fault : Emission α).run :=
  Yields.fail

@[grind ←]
theorem orFault (a? : Option α) (fault : Fault) : Safe x v m (Lower.orFault a? fault).run :=
  Yields.orFault fun _ _ _ _ => trivial

@[grind ←]
theorem mapM {f : α → Emission β} (each : ∀ a, Safe x v m (f a).run) (list : List α) :
    Safe x v m (list.mapM f).run :=
  (Yields.mapM fun a _ => each a).safe

/-- A loop is safe if its body is for every element. -/
theorem forIn_mem {f : α → γ → Emission (ForInStep γ)} {list : List α} {c : γ}
    (each : ∀ a ∈ list, ∀ c, Safe x v m (f a c).run) :
    Safe x v m (ForIn.forIn list c f : Emission γ).run := by
  induction list generalizing m c with
  | nil =>
    rw [List.forIn_nil]
    exact .pure c
  | cons a rest ih =>
    rw [List.forIn_cons]
    refine .bind (each a List.mem_cons_self c) fun step => ?_
    cases step with
    | done c => exact .pure c
    | yield c => exact ih fun a ha => each a (List.mem_cons_of_mem _ ha)

@[grind ←]
theorem forIn {f : α → γ → Emission (ForInStep γ)} (each : ∀ a c, Safe x v m (f a c).run)
    (list : List α) (c : γ) : Safe x v m (ForIn.forIn list c f : Emission γ).run :=
  forIn_mem fun a _ => each a

@[grind ←]
theorem declare (key : Spirv.Key) : Safe x v m (Emission.declare key).run :=
  (Yields.declare key).safe

@[grind ←]
theorem fresh : Safe x v m Emission.fresh.run :=
  Yields.fresh

end Safe

namespace Yields

variable {α β : Type} {x : Shader} {v : VertexCounts} {m : Module} {mid : α → Module → Prop}
  {post : β → Module → Prop}

theorem bindInterface {e : InterfaceStep α} {f : α → InterfaceStep β}
    (first : Yields x v m e.run mid)
    (later : ∀ a n, m.Grows n → mid a n → Yields x v n (f a).run post) :
    Yields x v m (e >>= f).run post :=
  .andThen (fun _ _ => rfl) first later

theorem afterInterface {e : InterfaceStep α} {f : α → InterfaceStep β}
    (first : Safe x v m e.run) (later : ∀ a n, m.Grows n → Yields x v n (f a).run post) :
    Yields x v m (e >>= f).run post :=
  .bindInterface first fun a n grows _ => later a n grows

theorem pureInterface {a : β} (h : ∀ n, m.Grows n → post a n) :
    Yields x v m (pure a : InterfaceStep β).run post :=
  Yields.pure h

theorem iteInterface {p : Prop} [Decidable p] {yes no : InterfaceStep β}
    (hyes : p → Yields x v m yes.run post) (hno : ¬p → Yields x v m no.run post) :
    Yields x v m (if p then yes else no).run post := by
  split
  · next h => exact hyes h
  · next h => exact hno h

theorem readInterface {f : Environment → InterfaceStep β} (h : Yields x v m (f x.env).run post) :
    Yields x v m (read >>= f).run post :=
  fun s b t hs outgrown ran => h s b t hs outgrown ran

theorem stateInterface {f : State → InterfaceStep β}
    (h : ∀ s, x.Invariant v s → m.Grows s.builder.module →
      Yields x v s.builder.module (f s).run post) :
    Yields x v m ((liftM Emission.state : InterfaceStep State) >>= f).run post :=
  fun s b t hs outgrown ran => h s hs outgrown s b t hs (.refl _) ran

theorem failInterface {fault : Fault} :
    Yields x v m (liftM (Lower.failWith fault : Emission β) : InterfaceStep β).run post := by
  intro s b t hs outgrown ran
  cases ran

/-- Nothing follows a failure. -/
theorem failBindInterface {fault : Fault} {f : α → InterfaceStep β} :
    Yields x v m ((liftM (Lower.failWith fault : Emission α) : InterfaceStep α) >>= f).run
      post := by
  intro s b t hs outgrown ran
  cases ran

/-- What is done with the value of an option that has to be there. -/
theorem demandInterface {a? : Option α} {fault : Fault} {f : α → InterfaceStep β}
    (later : ∀ a, a? = some a → Yields x v m (f a).run post) :
    Yields x v m ((liftM (Lower.orFault a? fault) : InterfaceStep α) >>= f).run post := by
  cases a? with
  | none =>
    intro s b t hs outgrown ran
    cases ran
  | some a => exact later a rfl

theorem forInInterface {γ : Type} {f : α → γ → InterfaceStep (ForInStep γ)} {list : List α} {c : γ}
    (each : ∀ a ∈ list, ∀ c, Safe x v m (f a c).run) :
    Safe x v m (ForIn.forIn list c f : InterfaceStep γ).run := by
  induction list generalizing m c with
  | nil =>
    rw [List.forIn_nil]
    exact Yields.pureInterface fun _ _ => trivial
  | cons a rest ih =>
    rw [List.forIn_cons]
    refine .afterInterface (each a List.mem_cons_self c) fun step n grows => ?_
    cases step with
    | done c => exact Yields.pureInterface fun _ _ => trivial
    | yield c => exact ih fun a ha c => (each a (List.mem_cons_of_mem _ ha) c).grow grows

theorem bindLower {e : Lower α} {f : α → Lower β} (first : Yields x v m (Lower.result e) mid)
    (later : ∀ a n, m.Grows n → mid a n → Yields x v n (Lower.result (f a)) post) :
    Yields x v m (Lower.result (e >>= f)) post :=
  .andThen (fun env s => Lower.result_bind env s e f) first later

end Yields

namespace Lower

variable {x : Shader} {v : VertexCounts} {m : Module}

@[grind ←]
theorem fresh_safe : Safe x v m fresh.run :=
  .fresh

/-- An instruction with a result that is accounted for. -/
theorem emitValue_yields {op : Op} {type : Id} {args : List Arg} (value : op ≠ .constant)
    (accounts : ∀ n id, m.Grows n → x.Accounts n ⟨.ordinary op, some type, some id, args⟩) :
    Yields x v m (emitValue op type args).run fun id n => n.HasType id type ∧ n.Computes id := by
  intro s id t hs outgrown ran
  obtain ⟨id', u, taken, rest⟩ := Emission.run_bind_eq_ok.1 ran
  cases taken
  obtain ⟨_, w, pushed, last⟩ := Emission.run_bind_eq_ok.1 rest
  cases last
  obtain ⟨c, placed, rfl⟩ := Emission.run_push_eq_ok.1 pushed
  have appends := hs.fresh.builder.appends placed
  have mem := (appends.mem_bodies _).2 (.inr rfl)
  exact ⟨hs.pushFresh placed (accounts _ _ outgrown), appends.grows,
    ⟨_, List.mem_append_right _ mem, rfl, rfl⟩, _, mem, rfl,
    fun same => value (Spirv.OpCode.ordinary.inj same)⟩

/-- An instruction of which nothing has to be known. -/
theorem emitValue_free {op : Op} (free : op.isFree = true) (type : Id) (args : List Arg) :
    Yields x v m (emitValue op type args).run fun id n => n.HasType id type ∧ n.Computes id :=
  emitValue_yields (by rintro rfl; cases free) fun _ _ _ =>
    Shader.accounts_of_isFree free _ _ _

@[grind ←]
theorem emitValue_safe {op : Op} (free : op.isFree = true) (type : Id) (args : List Arg) :
    Safe x v m (emitValue op type args).run :=
  (emitValue_free free type args).safe

@[grind ←]
theorem emit_safe {op : Op} (free : op.isFree = true) (args : List Arg) :
    Safe x v m (emit op args).run :=
  Yields.push fun _ _ => Shader.accounts_of_isFree free _ _ _

end Lower

end ShaderLowering
