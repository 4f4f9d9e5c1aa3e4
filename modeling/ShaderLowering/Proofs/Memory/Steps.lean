import ShaderLowering.Proofs.Execution.Registers
import ShaderLowering.Proofs.Memory.Invocation
import ShaderLowering.Proofs.Typing.Lowered

/-!
What the code of a lowering step does to an invocation. A step performs what is said of it if,
wherever a block is open and the step succeeds, an invocation gets through the new code. Code that
only computes does to an invocation what it does to a processor.
-/

namespace ShaderLowering

open Spirv (Id Instr Arg Op Key Module Processor Device Datum Invocation World Address Memory)

namespace Spirv

namespace World

variable {w : World} {m : Module} {μ ν : Invocation} {code more : List Instr} {i : Instr}

theorem run_append : w.run m (code ++ more) μ = (w.run m code μ).bind (w.run m more) :=
  List.foldlM_append ..

/-- An instruction says nothing of ids that it does not compute. -/
theorem act?_other (h : w.act? m μ i = some ν) {id : Id} (other : i.result? ≠ some id) :
    ν.values id = μ.values id ∧ ν.addresses id = μ.addresses id := by
  have apart {id' : Id} (is : i.result? = some id') : id ≠ id' := by
    intro same
    exact other (same ▸ is)
  unfold act? at h
  split at h
  · cases h
    exact ⟨rfl, rfl⟩
  · obtain ⟨_, _, h⟩ := Option.bind_eq_some_iff.1 h
    obtain ⟨_, _, h⟩ := Option.bind_eq_some_iff.1 h
    cases h
    exact ⟨rfl, rfl⟩
  · cases h
    exact ⟨rfl, rfl⟩
  · cases h
    exact ⟨rfl, rfl⟩
  · cases h
    exact ⟨rfl, rfl⟩
  · cases h
    exact ⟨rfl, rfl⟩
  · obtain ⟨_, _, h⟩ := Option.bind_eq_some_iff.1 h
    obtain ⟨_, _, h⟩ := Option.bind_eq_some_iff.1 h
    cases h
    exact ⟨rfl, Function.update_of_ne (apart rfl) _ _⟩
  · split at h
    · obtain ⟨_, _, h⟩ := Option.bind_eq_some_iff.1 h
      obtain ⟨_, _, h⟩ := Option.bind_eq_some_iff.1 h
      obtain ⟨_, _, h⟩ := Option.bind_eq_some_iff.1 h
      obtain ⟨_, _, h⟩ := Option.bind_eq_some_iff.1 h
      cases h
      exact ⟨Function.update_of_ne (apart rfl) _ _, rfl⟩
    · obtain ⟨_, _, h⟩ := Option.bind_eq_some_iff.1 h
      cases h
      exact ⟨Function.update_of_ne (apart rfl) _ _, rfl⟩
  · cases h

theorem run_other (h : w.run m code μ = some ν) {id : Id}
    (other : ∀ i ∈ code, i.result? ≠ some id) :
    ν.values id = μ.values id ∧ ν.addresses id = μ.addresses id := by
  induction code generalizing μ with
  | nil =>
    cases h
    exact ⟨rfl, rfl⟩
  | cons i rest ih =>
    obtain ⟨κ, acted, ran⟩ := Option.bind_eq_some_iff.1 h
    have later := ih ran fun j hj => other j (List.mem_cons_of_mem _ hj)
    have first := act?_other acted (other i List.mem_cons_self)
    exact ⟨later.1.trans first.1, later.2.trans first.2⟩

/-- The run of some code in a module, and in each that the module may grow into. -/
def Runs (w : World) (m : Module) (code : List Instr) (μ ν : Invocation) : Prop :=
  ∀ n, m.Grows n → n.Distinct → w.run n code μ = some ν

theorem Runs.append {n : Module} {κ : Invocation} (first : w.Runs m code μ ν) (grows : m.Grows n)
    (second : w.Runs n more ν κ) : w.Runs n (code ++ more) μ κ := by
  intro o growth distinct
  rw [run_append, first o (grows.trans growth) distinct, Option.bind_some, second o growth distinct]

theorem Runs.nil : w.Runs m [] μ μ :=
  fun _ _ _ => rfl

theorem Runs.mono {n : Module} (h : w.Runs m code μ ν) (grows : m.Grows n) : w.Runs n code μ ν :=
  fun o larger distinct => h o (grows.trans larger) distinct

end World

/-- Two invocations know the same of the ids below a bound. -/
def Invocation.Agrees (bound : Id) (μ ν : Invocation) : Prop :=
  ∀ id < bound, ν.values id = μ.values id ∧ ν.addresses id = μ.addresses id

namespace Invocation.Agrees

variable {bound bound' : Id} {μ ν κ : Invocation}

theorem refl (μ : Invocation) : Agrees bound μ μ :=
  fun _ _ => ⟨rfl, rfl⟩

theorem trans (first : Agrees bound μ ν) (second : Agrees bound ν κ) : Agrees bound μ κ :=
  fun id old => ⟨(second id old).1.trans (first id old).1, (second id old).2.trans (first id old).2⟩

theorem mono (h : Agrees bound μ ν) (lower : bound' ≤ bound) : Agrees bound' μ ν :=
  fun id old => h id (Nat.lt_of_lt_of_le old lower)

end Invocation.Agrees

/-- The operations that a processor knows and that leave memory and its addresses alone. -/
def Op.isQuiet : Op → Bool
  | load | store | accessChain | functionCall | controlBarrier | emitVertex | endPrimitive
  | compositeInsert | fDiv => false
  | op => !op.isAtomic

theorem Op.isAtomic_of_isQuiet {op : Op} (quiet : op.isQuiet = true) : op.isAtomic = false := by
  cases op <;> first | rfl | cases quiet

def Instr.IsQuiet (i : Instr) : Prop :=
  ∀ op, i.op = .ordinary op → op.isQuiet = true

/-- A processor evaluates what an invocation does. -/
theorem Invocation.evaluate?_quiet {d : Device} {m : Module} {μ : Invocation} {op : Op}
    {type? : Option Id} {args : List Arg} {x : Datum} (quiet : op.isQuiet = true)
    (is : d.evaluate? m μ.processor op args = some x) : μ.evaluate? d m op type? args = some x := by
  unfold Invocation.evaluate?
  split
  · cases quiet
  · cases quiet
  · cases quiet
  · next set code args =>
    split
    · next same =>
      subst same
      cases is
    · exact is
  · cases quiet
  · cases quiet
  · cases quiet
  · exact is

/-- What a processor does an invocation does to its values, and to nothing else. -/
theorem World.act?_quiet {w : World} {m : Module} {μ : Invocation} {κ : Processor} {i : Instr}
    (quiet : i.IsQuiet) (stepped : w.device.step m μ.processor i = some κ) :
    w.act? m μ i = some { μ with values := κ.values } ∧ κ.memory = μ.processor.memory := by
  unfold Device.step at stepped
  split at stepped
  · cases stepped
    exact ⟨rfl, rfl⟩
  · cases quiet _ rfl
  · next op type? id args other =>
    obtain ⟨x, evaluated, same⟩ := Option.bind_eq_some_iff.1 stepped
    cases same
    have calm := quiet op rfl
    clear quiet
    have computed : μ.evaluate? w.device m op type? args = some x :=
      Invocation.evaluate?_quiet calm evaluated
    refine ⟨?_, rfl⟩
    unfold act?
    split
    · next same =>
      cases same
      exact (other _ rfl rfl).elim
    · next same => cases same
    · next same =>
      cases same
      cases calm
    · next same => cases same
    · next same => cases same
    · next same => cases same
    · next same =>
      cases same
      cases calm
    · next same =>
      cases same
      rw [Op.isAtomic_of_isQuiet calm, if_neg Bool.false_ne_true, computed]
      rfl
    · next last => exact (last _ _ _ _ rfl).elim
  · cases stepped

/-- What a processor does with quiet code an invocation does. -/
theorem World.run_quiet {w : World} {m : Module} {code : List Instr} {μ : Invocation}
    {κ : Processor} (quiet : ∀ i ∈ code, i.IsQuiet)
    (ran : w.device.run m code μ.processor = some κ) :
    w.run m code μ = some { μ with values := κ.values } := by
  induction code generalizing μ with
  | nil =>
    cases ran
    rfl
  | cons i rest ih =>
    obtain ⟨ν, stepped, ran⟩ := Option.bind_eq_some_iff.1 ran
    obtain ⟨acted, memory⟩ := act?_quiet (quiet i List.mem_cons_self) stepped
    rw [run, List.foldlM_cons, acted]
    refine ih (fun j hj => quiet j (List.mem_cons_of_mem _ hj)) ?_
    have same : Invocation.processor { μ with values := ν.values } = ν :=
      congrArg (Processor.mk ν.values) memory.symm
    rw [same]
    exact ran

end Spirv

/-- Which variables stand for what, temporaries apart, and what is known of the stage. -/
structure Inventory where
  stage : StageState
  indexableTemps : Table IndexableTemp
  groupMemory : Table GroupMemory
  immediateConstants? : Option Id
  inputArray? : Option Id
  outputArray? : Option Id
  patchArray? : Option Id
  registers : Side → Table InterfaceRegister
  builtins : List ((Spirv.BuiltIn × Spirv.StorageClass) × BuiltinVariable)
  constantBuffers : Table ConstantBuffer
  textures : Table Resource
  uavs : Table Resource

def State.inventory (s : State) : Inventory where
  stage := s.stage
  indexableTemps := s.indexableTemps
  groupMemory := s.groupMemory
  immediateConstants? := s.immediateConstants?
  inputArray? := s.inputArray?
  outputArray? := s.outputArray?
  patchArray? := s.patchArray?
  registers := s.registers
  builtins := s.builtins
  constantBuffers := s.constantBuffers
  textures := s.textures
  uavs := s.uavs

/-- The location variable of an interface register, if it has one. -/
def Inventory.location? (v : Inventory) (side : Side) (reg : UInt32) : Option LocationVariable :=
  ((v.registers side).find? reg).bind (·.location?)

/-- Whatever stands for something is a variable. -/
structure Inventory.Furnished (env : Environment) (m : Module) (v : Inventory) : Prop where
  phase : ∀ p, v.stage.currentPhase? = some p → m.DefinesVariable p.instanceId
  indexableTemps : v.indexableTemps.All fun _ t => m.DefinesVariable t.variable_
  groupMemory : v.groupMemory.All fun _ g => m.DefinesVariable g.variable_
  immediates : ∀ id, v.immediateConstants? = some id → m.DefinesVariable id
  inputArray : ∀ id, v.inputArray? = some id → m.DefinesVariable id
  outputArray : ∀ id, v.outputArray? = some id → m.DefinesVariable id
  patchArray : ∀ id, v.patchArray? = some id → m.DefinesVariable id
  registers : ∀ side, (v.registers side).All fun _ r => ∀ l, r.location? = some l →
    m.DefinesVariable l.id ∧ l.type.count = 4 ∧ l.type.scalar ≠ .bool
  builtins : ∀ e ∈ v.builtins, m.DefinesVariable e.2.id ∧
    (e.2.type, e.2.length) = Lower.builtinShape env.analysis e.1.1 e.1.2 ∧
      (Lower.isPerVertex env.stage e.1.1 e.1.2 = false → e.2.vertices = 0)
  constantBuffers : v.constantBuffers.All fun _ b => m.DefinesVariable b.variable_
  textures : v.textures.All fun _ r => m.DefinesVariable r.variable_
  uavs : v.uavs.All fun _ r => m.DefinesVariable r.variable_

theorem Inventory.Furnished.mono {env : Environment} {m n : Module} {v : Inventory}
    (h : v.Furnished env m) (grows : m.Grows n) : v.Furnished env n where
  phase p is := (h.phase p is).mono grows
  indexableTemps := h.indexableTemps.imp fun _ _ is => is.mono grows
  groupMemory := h.groupMemory.imp fun _ _ is => is.mono grows
  immediates id is := (h.immediates id is).mono grows
  inputArray id is := (h.inputArray id is).mono grows
  outputArray id is := (h.outputArray id is).mono grows
  patchArray id is := (h.patchArray id is).mono grows
  registers side := (h.registers side).imp fun _ _ is l hl =>
    ⟨(is l hl).1.mono grows, (is l hl).2⟩
  builtins e he := ⟨(h.builtins e he).1.mono grows, (h.builtins e he).2⟩
  constantBuffers := h.constantBuffers.imp fun _ _ is => is.mono grows
  textures := h.textures.imp fun _ _ is => is.mono grows
  uavs := h.uavs.imp fun _ _ is => is.mono grows

/-- What is known of the stage and has a variable stays as it is. Register arrays, interface
registers and built-ins may get variables. -/
structure Inventory.Within (v v' : Inventory) : Prop where
  stage : v'.stage = v.stage
  indexableTemps : v'.indexableTemps = v.indexableTemps
  groupMemory : v'.groupMemory = v.groupMemory
  immediates : v'.immediateConstants? = v.immediateConstants?
  inputArray : ∀ id, v.inputArray? = some id → v'.inputArray? = some id
  outputArray : ∀ id, v.outputArray? = some id → v'.outputArray? = some id
  patchArray : ∀ id, v.patchArray? = some id → v'.patchArray? = some id
  locations : ∀ side reg l, v.location? side reg = some l → v'.location? side reg = some l
  builtins : ∀ key made, v.builtins.lookup key = some made → v'.builtins.lookup key = some made
  constantBuffers : v'.constantBuffers = v.constantBuffers
  textures : v'.textures = v.textures
  uavs : v'.uavs = v.uavs

theorem Inventory.Within.refl (v : Inventory) : v.Within v where
  stage := rfl
  indexableTemps := rfl
  groupMemory := rfl
  immediates := rfl
  inputArray _ h := h
  outputArray _ h := h
  patchArray _ h := h
  locations _ _ _ h := h
  builtins _ _ h := h
  constantBuffers := rfl
  textures := rfl
  uavs := rfl

theorem Inventory.Within.trans {v v' v'' : Inventory} (first : v.Within v')
    (second : v'.Within v'') : v.Within v'' where
  stage := second.stage.trans first.stage
  indexableTemps := second.indexableTemps.trans first.indexableTemps
  groupMemory := second.groupMemory.trans first.groupMemory
  immediates := second.immediates.trans first.immediates
  inputArray id h := second.inputArray id (first.inputArray id h)
  outputArray id h := second.outputArray id (first.outputArray id h)
  patchArray id h := second.patchArray id (first.patchArray id h)
  locations side reg l h := second.locations side reg l (first.locations side reg l h)
  builtins key made h := second.builtins key made (first.builtins key made h)
  constantBuffers := second.constantBuffers.trans first.constantBuffers
  textures := second.textures.trans first.textures
  uavs := second.uavs.trans first.uavs

namespace State

variable {env : Environment} {s t u : State} {μ ν : Invocation} {code more : List Instr} {id : Id}

/-- A block is open, and all registers that are there are variables. -/
structure Settled (env : Environment) (s : State) : Prop extends s.Receptive where
  furnished : s.inventory.Furnished env s.builder.module

/-- All registers that are there stay there. -/
structure Maintains (s t : State) : Prop where
  temps : s.temps.toList <+: t.temps.toList
  within_ : s.inventory.Within t.inventory

theorem Maintains.refl (s : State) : s.Maintains s :=
  ⟨List.prefix_rfl, .refl _⟩

theorem Maintains.trans (first : s.Maintains t) (second : t.Maintains u) : s.Maintains u :=
  ⟨first.temps.trans second.temps, first.within_.trans second.within_⟩

/-- Where a pointer leads for good. -/
def Leads (s : State) (μ : Invocation) (id : Id) (p : Address) : Prop :=
  id < s.builder.nextId ∧
    ∀ n, s.builder.module.Grows n → n.Distinct → μ.address? n id = some p

theorem Leads.of_variable (sound : s.builder.Sound) (h : s.builder.module.DefinesVariable id) :
    s.Leads μ id ⟨id, []⟩ := by
  obtain ⟨type?, args, mem⟩ := h
  refine ⟨sound.below _ mem id rfl, fun n grows distinct => ?_⟩
  rw [Invocation.address?, distinct.definition? (grows.definitions mem) rfl]

/-- A state behind another, in which what was known is known still. -/
structure Since (env : Environment) (s : State) (μ : Invocation) (t : State) (ν : Invocation) :
    Prop where
  knows : ∀ {id x}, s.Knows μ.processor id x → t.Knows ν.processor id x
  leads : ∀ {id p}, s.Leads μ id p → t.Leads ν id p
  grows : s.builder.module.Grows t.builder.module
  maintains : s.Maintains t
  settled : t.Settled env

theorem Since.refl (settled : s.Settled env) : Since env s μ s μ :=
  ⟨fun h => h, fun h => h, .refl _, .refl s, settled⟩

theorem Since.trans {κ : Invocation} (first : Since env s μ t ν) (second : Since env t ν u κ) :
    Since env s μ u κ :=
  ⟨fun h => second.knows (first.knows h), fun h => second.leads (first.leads h),
    first.grows.trans second.grows, first.maintains.trans second.maintains, second.settled⟩

/-- Code that follows computes nothing twice. -/
theorem Follows.agrees {w : World} (h : s.Follows t code)
    (runs : w.Runs t.builder.module code μ ν) : Invocation.Agrees s.builder.nextId μ ν :=
  fun _ old => World.run_other (runs _ (.refl _) h.ready.sound.distinct) fun i hi is =>
    Nat.not_lt_of_le (h.results i hi _ is) old

/-- What was known to an invocation is known to one that agrees with it. -/
theorem Since.of_agrees (nextId : s.builder.nextId ≤ t.builder.nextId)
    (growth : s.builder.module.Grows t.builder.module) (maintains : s.Maintains t)
    (settled : t.Settled env) (agrees : Invocation.Agrees s.builder.nextId μ ν) :
    Since env s μ t ν := by
  refine ⟨fun {id x} known => ⟨Nat.lt_of_lt_of_le known.1 nextId, fun n grows distinct => ?_⟩,
    fun {id p} known => ⟨Nat.lt_of_lt_of_le known.1 nextId, fun n grows distinct => ?_⟩,
    growth, maintains, settled⟩
  · rw [← known.2 n (growth.trans grows) distinct]
    exact n.datum?_congr (agrees id known.1).1
  · rw [← known.2 n (growth.trans grows) distinct]
    unfold Invocation.address?
    split
    · rfl
    · exact (agrees id known.1).2

theorem Follows.since {w : World} (h : s.Follows t code) (runs : w.Runs t.builder.module code μ ν)
    (maintains : s.Maintains t) (furnished : t.inventory.Furnished env t.builder.module) :
    Since env s μ t ν :=
  .of_agrees h.nextId h.grows maintains ⟨h.ready, furnished⟩ (h.agrees runs)

/-- Tables that stay as they are. -/
theorem Follows.maintains (h : s.Follows t code) (same : t.inventory = s.inventory) :
    s.Maintains t :=
  ⟨h.temps, same ▸ .refl _⟩

theorem Follows.furnished (h : s.Follows t code) (same : t.inventory = s.inventory)
    (settled : s.Settled env) : t.inventory.Furnished env t.builder.module :=
  same ▸ settled.furnished.mono h.grows

end State

section Steady

variable {α β : Type} {env : Environment} {e : Emission α} {f : α → Emission β}

/-- A step that leaves the tables as they are, and whose code only computes. -/
def IsSteady (env : Environment) (e : Emission α) : Prop :=
  ∀ s a t, s.Receptive → e.run env s = (.ok a, t) → t.inventory = s.inventory ∧
    ∃ code, s.Follows t code ∧ ∀ i ∈ code, i.IsQuiet

namespace IsSteady

protected theorem pure (a : α) : IsSteady env (pure a : Emission α) := by
  intro s b t ready ran
  cases ran
  exact ⟨rfl, [], .refl ready, List.forall_mem_nil _⟩

protected theorem bind (first : IsSteady env e) (later : ∀ a, IsSteady env (f a)) :
    IsSteady env (e >>= f) := by
  intro s b u ready ran
  obtain ⟨a, t, ran, ran'⟩ := Emission.run_bind_eq_ok.1 ran
  obtain ⟨same, code, follows, quiet⟩ := first s a t ready ran
  obtain ⟨same', more, follows', quiet'⟩ := later a t b u follows.ready ran'
  exact ⟨same'.trans same, code ++ more, follows.trans follows',
    fun i hi => (List.mem_append.1 hi).elim (quiet i) (quiet' i)⟩

theorem read_bind {f : Environment → Emission β} (h : IsSteady env (f env)) :
    IsSteady env (read >>= f) :=
  h

theorem state_bind {f : State → Emission β} (h : ∀ s, IsSteady env (f s)) :
    IsSteady env (Emission.state >>= f) :=
  fun s b t ready ran => h s s b t ready ran

theorem orFault (a? : Option α) (fault : Fault) : IsSteady env (Lower.orFault a? fault) := by
  cases a? with
  | none =>
    intro s b t _ ran
    cases ran
  | some a => exact .pure a

theorem ite {p : Prop} [Decidable p] {yes no : Emission α} (hyes : IsSteady env yes)
    (hno : IsSteady env no) : IsSteady env (if p then yes else no) := by
  split
  · exact hyes
  · exact hno

theorem mapM {l : List α} {f : α → Emission β} (each : ∀ a, IsSteady env (f a)) :
    IsSteady env (l.mapM f) := by
  induction l with
  | nil => exact .pure _
  | cons a rest ih =>
    rw [List.mapM_cons]
    exact .bind (each a) fun _ => .bind ih fun _ => .pure _

theorem forIn {l : List α} {f : α → β → Emission (ForInStep β)}
    (round : ∀ a b, IsSteady env (f a b)) (b : β) : IsSteady env (ForIn.forIn l b f) := by
  induction l generalizing b with
  | nil =>
    rw [List.forIn_nil]
    exact .pure _
  | cons a rest ih =>
    rw [List.forIn_cons]
    refine .bind (round a b) fun r => ?_
    cases r with
    | done b => exact .pure b
    | yield b => exact ih b

/-- A step that appends no code. -/
theorem of_reads {d : Spirv.Device} {L : Id → Prop} {Q : State → α → State → Spirv.Processor → Prop}
    (reads : ∀ s μ, Reads d L env e s μ (Q s))
    (still : ∀ s a t, e.run env s = (.ok a, t) → t.inventory = s.inventory ∧
      t.builder.openCode = s.builder.openCode) : IsSteady env e := by
  intro s a t ready ran
  obtain ⟨b, u, code, _, ran', follows, _⟩ := reads s ⟨fun _ => none, fun _ => .zero⟩ ready
  cases ran.symm.trans ran'
  obtain ⟨same, none_⟩ := still s a t ran
  have empty : code = [] := by
    have appends := follows.appends
    rw [none_] at appends
    exact (List.self_eq_append_right.1 appends)
  exact ⟨same, code, follows, empty ▸ List.forall_mem_nil _⟩

theorem declare (key : Key) : IsSteady env (Emission.declare key) := by
  refine of_reads (d := ⟨fun _ _ => 0, fun _ _ => 0, fun _ _ => 0⟩) (L := fun _ => False)
    (fun _ _ => .declare key) fun s id t ran => ?_
  cases ran
  have functions : (s.builder.declare key).2.module.functions =
      s.builder.module.functions := by
    obtain ⟨id, _, _, is⟩ | ⟨_, is⟩ := s.builder.declare_eq key <;> rw [is]
    rfl
  refine ⟨rfl, ?_⟩
  change (s.builder.declare key).2.openCode = _
  rw [Spirv.Builder.openCode, s.builder.function?_declare, s.builder.block?_declare, functions]
  rfl

theorem annotate (i : Instr) : IsSteady env (Emission.annotate i) := by
  refine of_reads (d := ⟨fun _ _ => 0, fun _ _ => 0, fun _ _ => 0⟩) (L := fun _ => False)
    (fun _ _ => .annotate i) fun s id t ran => ?_
  cases ran
  exact ⟨rfl, rfl⟩

/-- A note on names or capabilities. -/
theorem note {f : State → State} {same : ∀ s : State, s.SameOutline (f s)}
    {keeps : ∀ s : State, s.SameInterface (f s)}
    (capabilities : ∀ s : State, s.builder.module.capabilities.toList ⊆
      (f s).builder.module.capabilities.toList)
    (inventory : ∀ s : State, (f s).inventory = s.inventory) :
    IsSteady env (Emission.note f same keeps) := by
  refine of_reads (d := ⟨fun _ _ => 0, fun _ _ => 0, fun _ _ => 0⟩) (L := fun _ => False)
    (fun _ _ => .note capabilities) fun s id t ran => ?_
  cases ran
  refine ⟨inventory s, ?_⟩
  rw [Spirv.Builder.openCode, (same s).function?, (same s).block?, (same s).functions]
  rfl

/-- An instruction that computes a value. -/
theorem emitValue {op : Op} (quiet : op.isQuiet = true) (type : Id) (args : List Arg) :
    IsSteady env (Lower.emitValue op type args) := by
  intro s id t ready ran
  let i : Instr := ⟨.ordinary op, some type, some s.builder.nextId, args⟩
  obtain ⟨b, placed, follows, _⟩ := ready.follows_push (i := i) s.temps
    (Nat.le_succ _) (fun id is => by cases is; exact ⟨rfl, Nat.lt_succ_self _⟩) (.inl rfl)
  obtain ⟨_, _, taken, ran⟩ := Emission.run_bind_eq_ok.1 ran
  cases taken
  obtain ⟨_, _, pushed, ran⟩ := Emission.run_bind_eq_ok.1 ran
  obtain ⟨c, placed', rfl⟩ := Emission.run_push_eq_ok.1 pushed
  cases ran
  obtain rfl : b = c := Except.ok.inj (placed.symm.trans placed')
  refine ⟨rfl, [i], follows, fun j hj op' is => ?_⟩
  rw [List.mem_singleton.1 hj] at is
  cases is
  exact quiet

theorem newTemp (pointerType : Id) : IsSteady env (Emission.newTemp pointerType) := by
  intro s id t ready ran
  let i : Instr :=
    ⟨.ordinary .var, some pointerType, some s.builder.nextId,
      [.word Spirv.StorageClass.priv.code]⟩
  obtain ⟨b, placed, follows, _⟩ := ready.follows_push (i := i)
    (s.temps.push s.builder.nextId) (Nat.le_succ _)
    (fun id is => by cases is; exact ⟨rfl, Nat.lt_succ_self _⟩) (.inr ⟨_, _, _, rfl, rfl⟩)
  have made : s.builder.variable_ pointerType .priv none = (s.builder.nextId, b) := by
    unfold Spirv.Builder.variable_
    dsimp only
    split
    · next c placed' =>
      cases placed.symm.trans placed'
      rfl
    · next placed' => cases placed.symm.trans placed'
  have is : t = { s with
      builder := (s.builder.variable_ pointerType .priv none).2
      temps := s.temps.push (s.builder.variable_ pointerType .priv none).1 } := by
    cases ran
    rfl
  rw [made] at is
  subst is
  refine ⟨rfl, [i], follows, fun j hj op' is => ?_⟩
  rw [List.mem_singleton.1 hj] at is
  cases is
  rfl

end IsSteady

end Steady

variable {α β : Type} {w : World} {env : Environment} {s t : State} {μ ν : Invocation}
  {e : Emission α} {f : α → Emission β}

/-- A step that, wherever it succeeds, appends code that an invocation gets through. -/
def InterfaceStep.Performs (w : World) (env : Environment) (e : InterfaceStep α) (s : State)
    (μ : Invocation) (Q : α → State → Invocation → Prop) : Prop :=
  s.Settled env → ∀ a t, e.run env s = (.ok a, t) → ∃ code ν, s.Follows t code ∧
    w.Runs t.builder.module code μ ν ∧ s.Maintains t ∧
      t.inventory.Furnished env t.builder.module ∧ Q a t ν

namespace InterfaceStep.Performs

variable {Q Q' : α → State → Invocation → Prop} {R : β → State → Invocation → Prop}

theorem mono {e : InterfaceStep α} (h : e.Performs w env s μ Q)
    (weaker : ∀ a t ν, State.Since env s μ t ν → Q a t ν → Q' a t ν) :
    e.Performs w env s μ Q' := by
  intro settled a t ran
  obtain ⟨code, ν, follows, runs, maintains, furnished, q⟩ := h settled a t ran
  exact ⟨code, ν, follows, runs, maintains, furnished,
    weaker a t ν (follows.since runs maintains furnished) q⟩

protected theorem pure {a : α} (h : s.Settled env → Q a s μ) :
    InterfaceStep.Performs w env (pure a) s μ Q := by
  intro settled b t ran
  cases ran
  exact ⟨[], μ, .refl settled.toReceptive, .nil, .refl s, settled.furnished, h settled⟩

protected theorem bind {e : InterfaceStep α} {f : α → InterfaceStep β}
    (first : e.Performs w env s μ Q)
    (later : ∀ a t ν, State.Since env s μ t ν → Q a t ν → (f a).Performs w env t ν R) :
    InterfaceStep.Performs w env (e >>= f) s μ R := by
  intro settled b u ran
  obtain ⟨a, t, ran, ran'⟩ := InterfaceStep.run_bind_eq_ok.1 ran
  obtain ⟨code, ν, follows, runs, maintains, furnished, q⟩ := first settled a t ran
  have since := follows.since runs maintains furnished
  obtain ⟨more, κ, follows', runs', maintains', furnished', r⟩ :=
    later a t ν since q since.settled b u ran'
  exact ⟨code ++ more, κ, follows.trans follows', runs.append follows'.grows runs',
    maintains.trans maintains', furnished', r⟩

/-- A step that finds what it gives without any code. -/
theorem idle_bind {e : InterfaceStep α} {f : α → InterfaceStep β} {a : α}
    (idle : e.run env s = (.ok a, s)) (later : (f a).Performs w env s μ R) :
    InterfaceStep.Performs w env (e >>= f) s μ R := by
  intro settled b t ran
  obtain ⟨a', s', found, ran⟩ := InterfaceStep.run_bind_eq_ok.1 ran
  cases idle.symm.trans found
  exact later settled b t ran

/-- A step for things that the tables take in. -/
theorem note {change : State → State} {same : ∀ s : State, s.SameOutline (change s)}
    (builder : (change s).builder = s.builder)
    (within_ : s.inventory.Within (change s).inventory)
    (furnished : s.Settled env → (change s).inventory.Furnished env s.builder.module) :
    InterfaceStep.Performs w env (.note change same) s μ fun _ t ν => t = change s ∧ ν = μ := by
  intro settled _ t ran
  cases ran
  have o := same s
  have capabilities : s.builder.module.capabilities.toList ⊆
      (change s).builder.module.capabilities.toList := by
    rw [builder]
    exact fun _ h => h
  have follows : s.Follows (change s) [] := .of_same settled.toReceptive o.nextId o.function?
    o.block? o.functions o.globals capabilities o.temps
  exact ⟨[], μ, follows, .nil, ⟨follows.temps, within_⟩, builder.symm ▸ furnished settled, rfl, rfl⟩

end InterfaceStep.Performs

/-- An ordinary step of this kind. -/
def Performs (w : World) (env : Environment) (e : Emission α) (s : State) (μ : Invocation)
    (Q : α → State → Invocation → Prop) : Prop :=
  e.toInterfaceStep.Performs w env s μ Q

/-- Memory and others are left alone. -/
structure Spirv.Invocation.Unmoved (μ ν : Invocation) : Prop where
  memory : ν.memory = μ.memory
  events : ν.events = μ.events

/-- A step whose code changes nothing but what the invocation knows. -/
def Looks (w : World) (env : Environment) (e : Emission α) (s : State) (μ : Invocation)
    (Q : α → State → Invocation → Prop) : Prop :=
  Performs w env e s μ fun a t ν => μ.Unmoved ν ∧ Q a t ν

namespace Performs

variable {Q Q' : α → State → Invocation → Prop} {R : β → State → Invocation → Prop}

theorem mono (h : Performs w env e s μ Q)
    (weaker : ∀ a t ν, State.Since env s μ t ν → Q a t ν → Q' a t ν) :
    Performs w env e s μ Q' :=
  InterfaceStep.Performs.mono h weaker

protected theorem pure {a : α} (h : s.Settled env → Q a s μ) :
    Performs w env (pure a) s μ Q :=
  InterfaceStep.Performs.pure h

protected theorem bind (first : Performs w env e s μ Q)
    (later : ∀ a t ν, State.Since env s μ t ν → Q a t ν → Performs w env (f a) t ν R) :
    Performs w env (e >>= f) s μ R :=
  InterfaceStep.Performs.bind first later

/-- What a step says of the interface registers: it leaves them alone. -/
theorem keeping (h : Performs w env e s μ Q) :
    Performs w env e s μ fun a t ν => s.SameInterface t ∧ Q a t ν := by
  intro settled a t ran
  obtain ⟨code, ν, follows, runs, maintains, furnished, q⟩ := h settled a t ran
  have keeps := e.keeps env s
  rw [ran] at keeps
  exact ⟨code, ν, follows, runs, maintains, furnished, keeps, q⟩

theorem read_bind {f : Environment → Emission β} (h : Performs w env (f env) s μ R) :
    Performs w env (read >>= f) s μ R :=
  h

theorem state_bind {f : State → Emission β} (h : s.Settled env → Performs w env (f s) s μ R) :
    Performs w env (Emission.state >>= f) s μ R :=
  fun settled => h settled settled

theorem pure_bind {a : α} (h : Performs w env (f a) s μ R) :
    Performs w env (Pure.pure a >>= f) s μ R :=
  h

theorem orFault_bind {a? : Option α} {fault : Fault}
    (h : ∀ a, a? = some a → Performs w env (f a) s μ R) :
    Performs w env (Lower.orFault a? fault >>= f) s μ R := by
  cases a? with
  | none =>
    intro _ b t ran
    cases ran
  | some a => exact h a rfl

theorem failWith {fault : Fault} : Performs w env (Lower.failWith fault : Emission α) s μ Q := by
  intro _ a t ran
  cases ran

theorem failWith_bind {fault : Fault} :
    Performs w env ((Lower.failWith fault : Emission α) >>= f) s μ R := by
  intro _ a t ran
  cases ran

theorem ite {p : Prop} [Decidable p] {yes no : Emission α}
    (hyes : p → Performs w env yes s μ Q) (hno : ¬p → Performs w env no s μ Q) :
    Performs w env (if p then yes else no) s μ Q := by
  split
  · next h => exact hyes h
  · next h => exact hno h

end Performs

namespace Spirv.Invocation.Unmoved

variable {κ : Invocation}

theorem refl (μ : Invocation) : μ.Unmoved μ :=
  ⟨rfl, rfl⟩

theorem trans (first : μ.Unmoved ν) (second : ν.Unmoved κ) : μ.Unmoved κ :=
  ⟨second.memory.trans first.memory, second.events.trans first.events⟩

end Spirv.Invocation.Unmoved

namespace Looks

variable {Q Q' : α → State → Invocation → Prop} {R : β → State → Invocation → Prop}

theorem mono (h : Looks w env e s μ Q)
    (weaker : ∀ a t ν, State.Since env s μ t ν → μ.Unmoved ν → Q a t ν → Q' a t ν) :
    Looks w env e s μ Q' :=
  Performs.mono h fun a t ν since h => ⟨h.1, weaker a t ν since h.1 h.2⟩

protected theorem pure {a : α} (h : s.Settled env → Q a s μ) : Looks w env (pure a) s μ Q :=
  Performs.pure fun settled => ⟨.refl μ, h settled⟩

protected theorem bind (first : Looks w env e s μ Q)
    (later : ∀ a t ν, State.Since env s μ t ν → μ.Unmoved ν → Q a t ν →
      Looks w env (f a) t ν R) : Looks w env (e >>= f) s μ R :=
  Performs.bind first fun a t ν since h =>
    Performs.mono (later a t ν since h.1 h.2) fun _ _ _ _ h' => ⟨h.1.trans h'.1, h'.2⟩

theorem ite {p : Prop} [Decidable p] {yes no : Emission α} (hyes : p → Looks w env yes s μ Q)
    (hno : ¬p → Looks w env no s μ Q) : Looks w env (if p then yes else no) s μ Q :=
  Performs.ite hyes hno

theorem read_bind {f : Environment → Emission β} (h : Looks w env (f env) s μ R) :
    Looks w env (read >>= f) s μ R :=
  h

theorem state_bind {f : State → Emission β} (h : s.Settled env → Looks w env (f s) s μ R) :
    Looks w env (Emission.state >>= f) s μ R :=
  Performs.state_bind h

theorem pure_bind {a : α} (h : Looks w env (f a) s μ R) :
    Looks w env (Pure.pure a >>= f) s μ R :=
  h

theorem orFault_bind {a? : Option α} {fault : Fault}
    (h : ∀ a, a? = some a → Looks w env (f a) s μ R) :
    Looks w env (Lower.orFault a? fault >>= f) s μ R :=
  Performs.orFault_bind h

/-- A step that only looks, in front of one that may do more. -/
theorem andThen (first : Looks w env e s μ Q)
    (later : ∀ a t ν, State.Since env s μ t ν → μ.Unmoved ν → Q a t ν →
      Performs w env (f a) t ν R) : Performs w env (e >>= f) s μ R :=
  Performs.bind first fun a t ν since h => later a t ν since h.1 h.2

/-- One of two steps that only look, in front of one that may do more. -/
theorem eitherThen {p : Prop} [Decidable p] {yes no : Emission α}
    (first : Looks w env (if p then yes else no) s μ Q)
    (later : ∀ a t ν, State.Since env s μ t ν → μ.Unmoved ν → Q a t ν →
      Performs w env (f a) t ν R) :
    Performs w env (if p then yes >>= f else no >>= f) s μ R := by
  split
  · next h =>
    rw [if_pos h] at first
    exact andThen first later
  · next h =>
    rw [if_neg h] at first
    exact andThen first later

end Looks

/-- A step that only looks, and makes nothing that stands for anything. -/
def Stays (w : World) (env : Environment) (e : Emission α) (s : State) (μ : Invocation)
    (Q : α → State → Invocation → Prop) : Prop :=
  Looks w env e s μ fun a t ν => t.inventory = s.inventory ∧ Q a t ν

namespace Stays

variable {Q Q' : α → State → Invocation → Prop} {R : β → State → Invocation → Prop}

theorem looks (h : Stays w env e s μ Q) : Looks w env e s μ Q :=
  Looks.mono h fun _ _ _ _ _ h => h.2

protected theorem pure {a : α} (h : s.Settled env → Q a s μ) : Stays w env (pure a) s μ Q :=
  Looks.pure fun settled => ⟨rfl, h settled⟩

protected theorem bind (first : Stays w env e s μ Q)
    (later : ∀ a t ν, State.Since env s μ t ν → Q a t ν → Stays w env (f a) t ν R) :
    Stays w env (e >>= f) s μ R :=
  Looks.bind first fun a t ν since _ h =>
    Looks.mono (later a t ν since h.2) fun _ _ _ _ _ h' => ⟨h'.1.trans h.1, h'.2⟩

theorem ite {p : Prop} [Decidable p] {yes no : Emission α} (hyes : p → Stays w env yes s μ Q)
    (hno : ¬p → Stays w env no s μ Q) : Stays w env (if p then yes else no) s μ Q :=
  Performs.ite hyes hno

theorem read_bind {f : Environment → Emission β} (h : Stays w env (f env) s μ R) :
    Stays w env (read >>= f) s μ R :=
  h

/-- A step that is only taken under a condition. -/
theorem optional {p : Prop} [Decidable p] {step : Emission Unit} {f : Unit → Emission β}
    (first : Stays w env step s μ fun _ _ _ => True)
    (later : ∀ t ν, State.Since env s μ t ν → Stays w env (f ()) t ν R) :
    Stays w env (if p then step >>= f else f ()) s μ R :=
  .ite (fun _ => .bind first fun _ t ν since _ => later t ν since)
    fun _ settled => later s μ (.refl settled) settled

/-- What a processor gets through, an invocation gets through as well. -/
theorem of_reads {P : α → State → Spirv.Processor → Prop} (steady : IsSteady env e)
    (reads : Reads w.device (fun _ => False) env e s μ.processor P) :
    Stays w env e s μ fun a t ν => P a t ν.processor := by
  intro settled a t ran
  obtain ⟨b, u, code, κ, ran', follows, runs, ⟨memory, _, _⟩, p⟩ := reads settled.toReceptive
  cases ran.symm.trans ran'
  obtain ⟨same, code', follows', quiet⟩ := steady s a t settled.toReceptive ran
  obtain rfl : code' = code :=
    List.append_cancel_left (follows'.appends.symm.trans follows.appends)
  refine ⟨code', { μ with values := κ.values }, follows, fun n grows distinct => ?_,
    follows.maintains same, follows.furnished same settled, ⟨rfl, rfl⟩, same, ?_⟩
  · exact World.run_quiet quiet (runs n grows distinct)
  · have known : Invocation.processor { μ with values := κ.values } = κ :=
      congrArg (Spirv.Processor.mk κ.values) memory.symm
    exact known.symm ▸ p

end Stays

namespace Looks

variable {Q : α → State → Invocation → Prop} {R : β → State → Invocation → Prop}

/-- What comes after a step finds the tables as they were. -/
theorem after (first : Stays w env e s μ Q)
    (later : ∀ a t ν, State.Since env s μ t ν → t.inventory = s.inventory → Q a t ν →
      Looks w env (f a) t ν R) : Looks w env (e >>= f) s μ R :=
  Looks.bind first fun a t ν since _ h => later a t ν since h.1 h.2

/-- A step that is only taken under a condition. -/
theorem optional {p : Prop} [Decidable p] {step : Emission Unit} {f : Unit → Emission β}
    (first : Stays w env step s μ fun _ _ _ => True)
    (later : ∀ t ν, State.Since env s μ t ν → t.inventory = s.inventory →
      Looks w env (f ()) t ν R) :
    Looks w env (if p then step >>= f else f ()) s μ R :=
  .ite (fun _ => after first fun _ t ν since same _ => later t ν since same)
    fun _ settled => later s μ (.refl settled) rfl settled

/-- One step or another, and what comes after it in any case. -/
theorem choose {p : Prop} [Decidable p] {yes no : Emission α}
    (first : Stays w env (if p then yes else no) s μ Q)
    (later : ∀ a t ν, State.Since env s μ t ν → t.inventory = s.inventory → Q a t ν →
      Looks w env (f a) t ν R) :
    Looks w env (if p then yes >>= f else no >>= f) s μ R := by
  split
  · next h =>
    rw [if_pos h] at first
    exact after first later
  · next h =>
    rw [if_neg h] at first
    exact after first later

theorem of_reads {P : α → State → Spirv.Processor → Prop} (steady : IsSteady env e)
    (reads : Reads w.device (fun _ => False) env e s μ.processor P) :
    Looks w env e s μ fun a t ν => P a t ν.processor :=
  (Stays.of_reads steady reads).looks

/-- A step for things that the tables take in. -/
theorem remember {change : State → State} {same : ∀ s : State, s.SameOutline (change s)}
    {keeps : ∀ s : State, s.SameInterface (change s)} (builder : (change s).builder = s.builder)
    (within_ : s.inventory.Within (change s).inventory)
    (furnished : s.Settled env → (change s).inventory.Furnished env s.builder.module) :
    Looks w env (Emission.note change same keeps) s μ fun _ t ν => t = change s ∧ ν = μ :=
  InterfaceStep.Performs.mono (@InterfaceStep.Performs.note _ _ _ _ change same builder within_
    furnished) fun _ _ _ _ h => ⟨h.2 ▸ .refl μ, h⟩

end Looks

namespace Shader

variable {x : Shader} {v : VertexCounts} {m : Module}

theorem View.variable_ {r : Resource} (h : View m r) : m.DefinesVariable r.variable_ := by
  unfold View at h
  split at h <;> exact h.variable_

theorem Tables.furnished (h : x.Tables m s) : s.inventory.Furnished x.env m where
  phase p is := by
    obtain ⟨hull, known, mem⟩ := StageState.exists_phases is
    exact (h.phases hull known p mem).variable_
  indexableTemps := h.indexableTemps.imp fun _ _ is => is.2.variable_
  groupMemory := h.groupMemory.imp fun _ _ is => is.variable_
  immediates id is := by
    obtain ⟨_, houses, _⟩ := h.immediates id is
    exact houses.variable_
  inputArray id is := by
    obtain ⟨_, _, houses⟩ := h.inputArray id is
    exact houses.variable_
  outputArray id is := (h.outputArray id is).variable_
  patchArray id is := (h.patchArray id is).variable_
  registers side := by
    have known : x.Registers m side (s.registers side) := by
      cases side with
      | input => exact h.inputs
      | output => exact h.outputs
      | patchInput => exact h.patchInputs
      | patchOutput => exact h.patchOutputs
    refine known.imp fun _ _ is l hl => ?_
    have location := is.2.location l hl
    exact ⟨location.houses.variable_, location.type, location.number⟩
  builtins e he := by
    have known := h.builtins e he
    refine ⟨known.houses.variable_, known.shape, fun one => ?_⟩
    have vertices := known.vertices
    unfold BuiltinVertices at vertices
    rwa [one] at vertices
  constantBuffers := h.constantBuffers.imp fun _ _ is => is.1.variable_
  textures := h.textures.imp fun _ _ is => is.1.variable_
  uavs := h.uavs.imp fun _ _ is => is.view.variable_

theorem Invariant.settled (h : x.Invariant v s) (place : s.HasPlace) : s.Settled x.env :=
  ⟨⟨h.builder, place, h.tables.ownTemps, h.tables.housedTemps⟩, h.tables.furnished⟩

end Shader

/-- Where an open block is reached, all is settled. -/
theorem Lowering.settled {p : Program} {insts done : List Instruction} {entries : SignatureEntries}
    {options : Options} {first l : Lowering} (decoded : p.instructions = .ok insts)
    (behind : done <+: insts) (started : start (p.environment insts entries options) = .ok first)
    (ran : first.steps done = .ok l) (place : l.state.HasPlace) :
    l.state.Settled (p.environment insts entries options) :=
  (invariant_upTo (x := p.shader decoded entries options) behind started ran).settled place

end ShaderLowering
