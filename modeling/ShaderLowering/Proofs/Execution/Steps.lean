import ShaderLowering.Proofs.Execution.Processor
import ShaderLowering.Proofs.Lowering.Conditions
import ShaderLowering.Proofs.Typing.Construction
import Mathlib.Data.List.Forall2

/-!
What the code does that a lowering step appends. A step runs through if it succeeds wherever a block
is open and the processor gets through the new code; what is known of ids stays known, since nothing
is computed twice. Steps that only read leave the memory of the processor alone.
-/

namespace ShaderLowering

open Spirv (Id Instr Arg Op Key Module Builder Processor Device Datum)

namespace Spirv

/-- The operations whose results a processor computes. -/
@[grind =]
def Op.isComputed : Op → Bool
  | var | store | constant | constantComposite => false
  | _ => true

namespace Module

variable {m n : Module} {id : Id}

/-- What an id stands for depends on no other id that is computed. -/
theorem datum?_congr {computed computed' : Id → Option Datum} (same : computed id = computed' id) :
    m.datum? computed id = m.datum? computed' id := by
  unfold datum?
  split <;> simp only [same]

theorem datum?_variable (distinct : m.Distinct) (h : m.DefinesVariable id)
    (computed : Id → Option Datum) : m.datum? computed id = some (.place id none) := by
  obtain ⟨type?, args, mem⟩ := h
  rw [datum?, distinct.definition? mem rfl]

theorem datum?_constant (distinct : m.Distinct) {w : UInt32} (h : m.IsConstant id w)
    (computed : Id → Option Datum) : m.datum? computed id = some (.words [w]) := by
  obtain ⟨type, declared⟩ := h
  rw [datum?, distinct.declared declared]

theorem datum?_composite (distinct : m.Distinct) {type? : Option Id} {parts : List Id}
    {ws : List UInt32} (h : m.Declares .constantComposite type? (parts.map .id) id)
    (constants : List.Forall₂ m.IsConstant parts ws) (computed : Id → Option Datum) :
    m.datum? computed id = some (.words ws) := by
  have words : (parts.map Arg.id).mapM m.word? = some ws := by
    clear h
    induction constants with
    | nil => rfl
    | cons first _ ih =>
      have first : m.word? (.id _) = some _ := distinct.constant? first
      rw [List.map_cons, List.mapM_cons, first, ih]
      rfl
  rw [datum?, distinct.declared h]
  dsimp only
  rw [words]
  rfl

theorem datum?_computed (distinct : m.Distinct) {op : Op} {type? : Option Id} {args : List Arg}
    (mem : ⟨.ordinary op, type?, some id, args⟩ ∈ m.definitions) (is : op.isComputed = true)
    (computed : Id → Option Datum) : m.datum? computed id = computed id := by
  rw [datum?, distinct.definition? mem rfl]
  cases op <;> first | rfl | cases is

end Module

/-- The instructions of the open block. -/
def Builder.openCode (b : Builder) : List Instr :=
  (do
    let f ← b.function?
    let k ← b.block?
    let function ← b.module.functions[f]?
    function.blocks[k]?).elim [] (·.body.toList)

theorem Builder.Sound.openCode_push {b c : Builder} {i : Instr} (h : b.Sound)
    (placed : b.push i = .ok c) : c.openCode = b.openCode ++ [i] := by
  obtain ⟨f, k, hf, hk, rfl⟩ := push_eq_ok.1 placed
  obtain ⟨function, block, at_, inside⟩ := h.opened hf hk
  simp [openCode, pushTo, hf, hk, at_, inside, Array.getElem?_modify]

namespace Device

variable {d : Device} {m : Module} {μ ν : Processor} {code more : List Instr} {i : Instr}

theorem run_append : d.run m (code ++ more) μ = (d.run m code μ).bind (d.run m more) :=
  List.foldlM_append ..

/-- An instruction changes no value but its result. -/
theorem step_values (h : d.step m μ i = some ν) {id : Id} (other : i.result? ≠ some id) :
    ν.values id = μ.values id := by
  unfold step at h
  split at h
  · cases h
    rfl
  · obtain ⟨_, _, h⟩ := Option.bind_eq_some_iff.1 h
    obtain ⟨_, _, h⟩ := Option.bind_eq_some_iff.1 h
    obtain ⟨_, _, h⟩ := Option.bind_eq_some_iff.1 h
    cases h
    rfl
  · obtain ⟨_, _, h⟩ := Option.bind_eq_some_iff.1 h
    cases h
    exact Function.update_of_ne (fun same => other (congrArg some same.symm)) _ _
  · cases h

theorem run_values (h : d.run m code μ = some ν) {id : Id}
    (other : ∀ i ∈ code, i.result? ≠ some id) : ν.values id = μ.values id := by
  induction code generalizing μ with
  | nil =>
    cases h
    rfl
  | cons i rest ih =>
    obtain ⟨κ, stepped, ran⟩ := Option.bind_eq_some_iff.1 h
    rw [ih ran fun j hj => other j (List.mem_cons_of_mem _ hj),
      step_values stepped (other i List.mem_cons_self)]

/-- The run of some code in a module, and in each that the module may grow into. -/
def Runs (d : Device) (m : Module) (code : List Instr) (μ ν : Processor) : Prop :=
  ∀ n, m.Grows n → n.Distinct → d.run n code μ = some ν

theorem Runs.append {n : Module} {κ : Processor} (first : d.Runs m code μ ν) (grows : m.Grows n)
    (second : d.Runs n more ν κ) : d.Runs n (code ++ more) μ κ := by
  intro o growth distinct
  rw [run_append, first o (grows.trans growth) distinct, Option.bind_some, second o growth distinct]

theorem Runs.nil : d.Runs m [] μ μ :=
  fun _ _ _ => rfl

end Device

end Spirv

namespace State

variable {s t u : State} {μ ν : Processor} {code more : List Instr} {id : Id} {x : Datum}

/-- A block is open, and each temporary has a variable of its own. -/
structure Receptive (s : State) : Prop where
  sound : s.builder.Sound
  place : s.HasPlace
  nodup : s.temps.toList.Nodup
  housed : ∀ id ∈ s.temps.toList, s.builder.module.DefinesVariable id

/-- A state behind another, with more code in the same block. All that is new has new ids. -/
structure Follows (s t : State) (code : List Instr) : Prop where
  ready : t.Receptive
  grows : s.builder.module.Grows t.builder.module
  nextId : s.builder.nextId ≤ t.builder.nextId
  appends : t.builder.openCode = s.builder.openCode ++ code
  results : ∀ i ∈ code, ∀ id, i.result? = some id → s.builder.nextId ≤ id
  temps : s.temps.toList <+: t.temps.toList

theorem Follows.refl (h : s.Receptive) : s.Follows s [] :=
  ⟨h, .refl _, Nat.le_refl _, (List.append_nil _).symm, List.forall_mem_nil _, List.prefix_rfl⟩

theorem Follows.trans (first : s.Follows t code) (second : t.Follows u more) :
    s.Follows u (code ++ more) where
  ready := second.ready
  grows := first.grows.trans second.grows
  nextId := Nat.le_trans first.nextId second.nextId
  appends := by rw [second.appends, first.appends, List.append_assoc]
  results i hi id result := (List.mem_append.1 hi).elim (first.results i · id result)
    fun hi => Nat.le_trans first.nextId (second.results i hi id result)
  temps := first.temps.trans second.temps

/-- What is known of an id for good. -/
def Knows (s : State) (μ : Processor) (id : Id) (x : Datum) : Prop :=
  id < s.builder.nextId ∧
    ∀ n, s.builder.module.Grows n → n.Distinct → n.datum? μ.values id = some x

namespace Knows

theorem of_variable (ready : s.Receptive) (h : s.builder.module.DefinesVariable id) :
    s.Knows μ id (.place id none) := by
  obtain ⟨type?, args, mem⟩ := h
  exact ⟨ready.sound.below _ mem id rfl, fun n grows distinct =>
    n.datum?_variable distinct ⟨type?, args, grows.definitions mem⟩ _⟩

theorem of_constant (ready : s.Receptive) {w : UInt32} (h : s.builder.module.IsConstant id w) :
    s.Knows μ id (.words [w]) := by
  obtain ⟨type, declared⟩ := h
  exact ⟨ready.sound.below _ declared.mem_definitions id rfl, fun n grows distinct =>
    n.datum?_constant distinct ⟨type, declared.mono grows⟩ _⟩

theorem of_composite (ready : s.Receptive) {type? : Option Id} {parts : List Id} {ws : List UInt32}
    (h : s.builder.module.Declares .constantComposite type? (parts.map .id) id)
    (constants : List.Forall₂ s.builder.module.IsConstant parts ws) :
    s.Knows μ id (.words ws) :=
  ⟨ready.sound.below _ h.mem_definitions id rfl, fun n grows distinct =>
    n.datum?_composite distinct (h.mono grows) (constants.imp fun _ _ is => is.mono grows) _⟩

/-- Code that follows computes nothing twice. -/
theorem later {d : Device} (h : s.Knows μ id x) (follows : s.Follows t code)
    (runs : d.Runs t.builder.module code μ ν) : t.Knows ν id x := by
  refine ⟨Nat.lt_of_lt_of_le h.1 follows.nextId, fun n grows distinct => ?_⟩
  rw [← h.2 n (follows.grows.trans grows) distinct]
  exact n.datum?_congr (Device.run_values (runs n grows distinct) fun i hi same =>
    Nat.not_lt_of_le (follows.results i hi id same) h.1)

end Knows

/-- A state behind another, in which what was known is known still. -/
structure After (s : State) (μ : Processor) (t : State) (ν : Processor) : Prop where
  knows : ∀ {id x}, s.Knows μ id x → t.Knows ν id x
  grows : s.builder.module.Grows t.builder.module
  temps : s.temps.toList <+: t.temps.toList
  ready : t.Receptive

/-- The same, and memory is as it was. -/
structure Later (s : State) (μ : Processor) (t : State) (ν : Processor) : Prop
    extends s.After μ t ν where
  memory : ν.memory = μ.memory

theorem Follows.after {d : Device} (h : s.Follows t code)
    (runs : d.Runs t.builder.module code μ ν) : s.After μ t ν :=
  ⟨(·.later h runs), h.grows, h.temps, h.ready⟩

theorem Later.refl (ready : s.Receptive) : s.Later μ s μ :=
  ⟨⟨fun h => h, .refl _, List.prefix_rfl, ready⟩, rfl⟩

theorem Later.trans {κ : Processor} (first : s.Later μ t ν) (second : t.Later ν u κ) :
    s.Later μ u κ :=
  ⟨⟨fun h => second.knows (first.knows h), first.grows.trans second.grows,
    first.temps.trans second.temps, second.ready⟩, second.memory.trans first.memory⟩

/-- What an operation computes, now and later. -/
def Yields (d : Device) (s : State) (μ : Processor) (op : Op) (args : List Arg)
    (x : Datum) : Prop :=
  ∀ t ν, s.Later μ t ν → ∀ n, t.builder.module.Grows n → n.Distinct →
    d.evaluate? n ν op args = some x

end State

open State

variable {α β : Type} {d : Device} {L : Id → Prop} {env : Environment} {s t : State}
  {μ ν : Processor}

/-- A step that succeeds where it finds its place, with code that the processor gets through. -/
def Executes (d : Device) (env : Environment) (e : Emission α) (s : State) (μ : Processor)
    (Q : α → State → List Instr → Processor → Prop) : Prop :=
  s.Receptive → ∃ a t code ν, e.run env s = (.ok a, t) ∧ s.Follows t code ∧
    d.Runs t.builder.module code μ ν ∧ Q a t code ν

/-- Code that loads from places of a kind only. -/
def LoadsFrom (L : Id → Prop) (code : List Instr) : Prop :=
  ∀ i ∈ code, i.op = .ordinary .load → ∃ p, i.args = [.id p] ∧ L p

/-- Code that stores nothing. -/
def StoresNothing (code : List Instr) : Prop :=
  ∀ i ∈ code, i.op ≠ .ordinary .store

theorem LoadsFrom.append {code more : List Instr} (first : LoadsFrom L code)
    (second : LoadsFrom L more) : LoadsFrom L (code ++ more) :=
  fun i hi => (List.mem_append.1 hi).elim (first i) (second i)

theorem LoadsFrom.mono {L' : Id → Prop} {code : List Instr} (h : LoadsFrom L code)
    (more : ∀ id, L id → L' id) : LoadsFrom L' code :=
  fun i hi load => (h i hi load).imp fun p h => ⟨h.1, more p h.2⟩

theorem StoresNothing.append {code more : List Instr} (first : StoresNothing code)
    (second : StoresNothing more) : StoresNothing (code ++ more) :=
  fun i hi => (List.mem_append.1 hi).elim (first i) (second i)

/-- The place that an instruction loads from. -/
def Spirv.Instr.loaded? : Instr → Option Id
  | ⟨.ordinary .load, _, _, [.id p]⟩ => some p
  | _ => none

/-- The places that code loads from, in order. -/
def loads (code : List Instr) : List Id :=
  code.filterMap (·.loaded?)

theorem loads_append (code more : List Instr) : loads (code ++ more) = loads code ++ loads more :=
  List.filterMap_append

theorem LoadsFrom.loads_eq_nil {code : List Instr} (h : LoadsFrom (fun _ => False) code) :
    loads code = [] := by
  refine List.filterMap_eq_nil_iff.2 fun i mem => ?_
  unfold Instr.loaded?
  split
  · obtain ⟨_, _, none_⟩ := h _ mem rfl
    exact none_.elim
  · rfl

/-- A step whose code loads from places of a kind only, and may store. -/
def Writes (d : Device) (L : Id → Prop) (env : Environment) (e : Emission α) (s : State)
    (μ : Processor) (Q : α → State → Processor → Prop) : Prop :=
  Executes d env e s μ fun a t code ν => LoadsFrom L code ∧ Q a t ν

/-- A step whose code only reads memory, from places of a kind. -/
def Reads (d : Device) (L : Id → Prop) (env : Environment) (e : Emission α) (s : State)
    (μ : Processor) (Q : α → State → Processor → Prop) : Prop :=
  Executes d env e s μ fun a t code ν =>
    (ν.memory = μ.memory ∧ StoresNothing code ∧ LoadsFrom L code) ∧ Q a t ν

namespace Executes

variable {e : Emission α} {f : α → Emission β} {Q Q' : α → State → List Instr → Processor → Prop}
  {R : β → State → List Instr → Processor → Prop}

theorem mono (h : Executes d env e s μ Q)
    (weaker : ∀ a t code ν, s.Follows t code → d.Runs t.builder.module code μ ν → Q a t code ν →
      Q' a t code ν) : Executes d env e s μ Q' := by
  intro ready
  obtain ⟨a, t, code, ν, ran, follows, runs, q⟩ := h ready
  exact ⟨a, t, code, ν, ran, follows, runs, weaker a t code ν follows runs q⟩

protected theorem bind (first : Executes d env e s μ Q)
    (later : ∀ a t code ν, s.Follows t code → d.Runs t.builder.module code μ ν → Q a t code ν →
      Executes d env (f a) t ν fun b u more κ => R b u (code ++ more) κ) :
    Executes d env (e >>= f) s μ R := by
  intro ready
  obtain ⟨a, t, code, ν, ran, follows, runs, q⟩ := first ready
  obtain ⟨b, u, more, κ, ran', follows', runs', r⟩ :=
    later a t code ν follows runs q follows.ready
  exact ⟨b, u, code ++ more, κ, Emission.run_bind_eq_ok.2 ⟨a, t, ran, ran'⟩,
    follows.trans follows', runs.append follows'.grows runs', r⟩

protected theorem pure {a : α} (h : s.Receptive → Q a s [] μ) : Executes d env (pure a) s μ Q :=
  fun ready => ⟨a, s, [], μ, rfl, .refl ready, .nil, h ready⟩

end Executes

namespace Reads

variable {e : Emission α} {f : α → Emission β} {Q Q' : α → State → Processor → Prop}
  {R : β → State → Processor → Prop}

protected theorem pure {a : α} (h : s.Receptive → Q a s μ) : Reads d L env (pure a) s μ Q :=
  Executes.pure fun ready => ⟨⟨rfl, List.forall_mem_nil _, List.forall_mem_nil _⟩, h ready⟩

protected theorem bind (first : Reads d L env e s μ Q)
    (later : ∀ a t ν, s.Later μ t ν → Q a t ν → Reads d L env (f a) t ν R) :
    Reads d L env (e >>= f) s μ R := by
  refine Executes.bind first fun a t code ν follows runs h => ?_
  obtain ⟨⟨memory, stores, loads⟩, q⟩ := h
  refine (later a t ν ⟨follows.after runs, memory⟩ q).mono fun b u more κ _ _ h => ?_
  obtain ⟨⟨memory', stores', loads'⟩, r⟩ := h
  exact ⟨⟨memory'.trans memory, stores.append stores', loads.append loads'⟩, r⟩

theorem mono (h : Reads d L env e s μ Q)
    (weaker : ∀ a t ν, s.Later μ t ν → Q a t ν → Q' a t ν) : Reads d L env e s μ Q' :=
  Executes.mono h fun a t _ ν follows runs h =>
    ⟨h.1, weaker a t ν ⟨follows.after runs, h.1.1⟩ h.2⟩

/-- What is known of every state that the step leads to. -/
theorem also {P : α → State → Prop} (h : Reads d L env e s μ Q)
    (fact : ∀ a t, e.run env s = (.ok a, t) → P a t) :
    Reads d L env e s μ fun a t ν => Q a t ν ∧ P a t := by
  intro ready
  obtain ⟨a, t, code, ν, ran, follows, runs, reads, q⟩ := h ready
  exact ⟨a, t, code, ν, ran, follows, runs, reads, q, fact a t ran⟩

/-- Steps run where the block is open. -/
theorem of_ready (h : s.Receptive → Reads d L env e s μ Q) : Reads d L env e s μ Q :=
  fun ready => h ready ready

/-- A step that is only taken under a condition. -/
theorem ite {p : Prop} [Decidable p] {yes no : Emission α} (hyes : p → Reads d L env yes s μ Q)
    (hno : ¬p → Reads d L env no s μ Q) : Reads d L env (if p then yes else no) s μ Q := by
  split
  · next h => exact hyes h
  · next h => exact hno h

theorem state_bind {f : State → Emission β} (h : Reads d L env (f s) s μ R) :
    Reads d L env (Emission.state >>= f) s μ R :=
  h

theorem read_bind {f : Environment → Emission β} (h : Reads d L env (f env) s μ R) :
    Reads d L env (read >>= f) s μ R :=
  h

theorem pure_bind {a : α} (h : Reads d L env (f a) s μ R) :
    Reads d L env (Pure.pure a >>= f) s μ R :=
  h

theorem orFault_bind {a? : Option α} {a : α} {fault : Fault} (is : a? = some a)
    (h : Reads d L env (f a) s μ R) : Reads d L env (Lower.orFault a? fault >>= f) s μ R := by
  rw [is]
  exact h

theorem orFault {a? : Option α} {a : α} (is : a? = some a) (fault : Fault)
    (h : s.Receptive → Q a s μ) : Reads d L env (Lower.orFault a? fault) s μ Q := by
  rw [is]
  exact .pure h

end Reads

/-- A step whose code only reads memory, with the places that it loads from. -/
def Fetches (d : Device) (env : Environment) (e : Emission α) (s : State) (μ : Processor)
    (Q : α → State → List Id → Processor → Prop) : Prop :=
  Executes d env e s μ fun a t code ν =>
    (ν.memory = μ.memory ∧ StoresNothing code) ∧ Q a t (loads code) ν

namespace Fetches

variable {e : Emission α} {f : α → Emission β} {Q Q' : α → State → List Id → Processor → Prop}
  {P : α → State → Processor → Prop} {R : β → State → List Id → Processor → Prop}

theorem of_reads (h : Reads d (fun _ => False) env e s μ P) :
    Fetches d env e s μ fun a t ids ν => ids = [] ∧ P a t ν :=
  Executes.mono h fun _ _ _ _ _ _ h => ⟨⟨h.1.1, h.1.2.1⟩, h.1.2.2.loads_eq_nil, h.2⟩

protected theorem bind (first : Fetches d env e s μ Q)
    (later : ∀ a t ids ν, s.Later μ t ν → Q a t ids ν →
      Fetches d env (f a) t ν fun b u more κ => R b u (ids ++ more) κ) :
    Fetches d env (e >>= f) s μ R := by
  refine Executes.bind first fun a t code ν follows runs h => ?_
  obtain ⟨⟨memory, stores⟩, q⟩ := h
  refine (later a t _ ν ⟨follows.after runs, memory⟩ q).mono fun b u more κ _ _ h => ?_
  obtain ⟨⟨memory', stores'⟩, r⟩ := h
  exact ⟨⟨memory'.trans memory, stores.append stores'⟩, loads_append code more ▸ r⟩

/-- Steps that load nothing, in front of others. -/
theorem readBind (first : Reads d (fun _ => False) env e s μ P)
    (later : ∀ a t ν, s.Later μ t ν → P a t ν → Fetches d env (f a) t ν R) :
    Fetches d env (e >>= f) s μ R := by
  refine .bind (.of_reads first) fun a t ids ν more h => ?_
  obtain ⟨rfl, p⟩ := h
  exact later a t ν more p

theorem mono (h : Fetches d env e s μ Q)
    (weaker : ∀ a t ids ν, s.Later μ t ν → Q a t ids ν → Q' a t ids ν) :
    Fetches d env e s μ Q' :=
  Executes.mono h fun a t _ ν follows runs h =>
    ⟨h.1, weaker a t _ ν ⟨follows.after runs, h.1.1⟩ h.2⟩

protected theorem pure {a : α} (h : s.Receptive → Q a s [] μ) : Fetches d env (pure a) s μ Q :=
  Executes.pure fun ready => ⟨⟨rfl, List.forall_mem_nil _⟩, h ready⟩

end Fetches

namespace Writes

variable {e : Emission α} {f : α → Emission β} {Q Q' : α → State → Processor → Prop}
  {R : β → State → Processor → Prop}

/-- Steps that only read, in front of others. -/
theorem readBind (first : Reads d L env e s μ Q)
    (later : ∀ a t ν, s.Later μ t ν → Q a t ν → Writes d L env (f a) t ν R) :
    Writes d L env (e >>= f) s μ R := by
  refine Executes.bind first fun a t code ν follows runs h => ?_
  exact (later a t ν ⟨follows.after runs, h.1.1⟩ h.2).mono fun b u more κ _ _ h' =>
    ⟨h.1.2.2.append h'.1, h'.2⟩

theorem pure_bind {a : α} (h : Writes d L env (f a) s μ R) :
    Writes d L env (Pure.pure a >>= f) s μ R :=
  h

theorem ite {p : Prop} [Decidable p] {yes no : Emission α} (hyes : p → Writes d L env yes s μ Q)
    (hno : ¬p → Writes d L env no s μ Q) : Writes d L env (if p then yes else no) s μ Q := by
  split
  · next h => exact hyes h
  · next h => exact hno h

end Writes

namespace State

/-- A change that leaves the builder's blocks, its definitions and the temporaries alone. -/
theorem Receptive.of_same (h : s.Receptive) {b : Builder} {u : State} (builder : u.builder = b)
    (sound : b.Sound) (function : b.function? = s.builder.function?)
    (block : b.block? = s.builder.block?) (grows : s.builder.module.Grows b.module)
    (temps : u.temps = s.temps) : u.Receptive where
  sound := builder ▸ sound
  place := by rw [HasPlace, builder, function, block]; exact h.place
  nodup := temps ▸ h.nodup
  housed id hid := by rw [builder]; exact (h.housed id (temps ▸ hid)).mono grows

/-- Only tables and annotations differ. -/
theorem Follows.of_same (h : s.Receptive) (nextId : t.builder.nextId = s.builder.nextId)
    (function : t.builder.function? = s.builder.function?)
    (block : t.builder.block? = s.builder.block?)
    (functions : t.builder.module.functions = s.builder.module.functions)
    (globals : t.builder.module.globals = s.builder.module.globals)
    (capabilities : s.builder.module.capabilities.toList ⊆ t.builder.module.capabilities.toList)
    (temps : t.temps = s.temps) : s.Follows t [] := by
  have bodies : t.builder.module.bodies = s.builder.module.bodies := by
    rw [Module.bodies, functions]
    rfl
  have definitions : t.builder.module.definitions = s.builder.module.definitions := by
    rw [Module.definitions, globals, bodies]
    rfl
  have grows : s.builder.module.Grows t.builder.module :=
    ⟨fun _ hi => globals ▸ hi, fun _ hi => bodies ▸ hi, fun _ hi => capabilities hi⟩
  have sound : t.builder.Sound := by
    refine ⟨?_, ?_, ?_, ?_, ?_, ?_⟩
    · rw [function, functions]
      exact h.sound.function
    · rw [block, function, functions]
      exact h.sound.block
    · rw [definitions, nextId]
      exact h.sound.below
    · rw [Module.Distinct, definitions]
      exact h.sound.distinct
    · intro op interned type? args a b
      rw [Module.Declares, Module.Declares, globals]
      exact h.sound.interned op interned type? args a b
    · rw [globals]
      exact h.sound.named
  refine ⟨h.of_same rfl sound function block grows temps, grows, Nat.le_of_eq nextId.symm, ?_,
    List.forall_mem_nil _, temps ▸ List.prefix_rfl⟩
  rw [Builder.openCode, function, block, functions, List.append_nil]
  rfl

end State

namespace Reads

/-- A note on names or tables. -/
theorem note {f : State → State} {same : ∀ s : State, s.SameOutline (f s)}
    {keeps : ∀ s : State, s.SameInterface (f s)}
    (capabilities : ∀ s : State, s.builder.module.capabilities.toList ⊆
      (f s).builder.module.capabilities.toList) :
    Reads d L env (Emission.note f same keeps) s μ fun _ _ _ => True := by
  intro ready
  have o := same s
  exact ⟨(), f s, [], μ, rfl, .of_same ready o.nextId o.function? o.block? o.functions o.globals
    (capabilities s) o.temps, .nil, ⟨rfl, List.forall_mem_nil _, List.forall_mem_nil _⟩, trivial⟩

theorem annotate (i : Instr) :
    Reads d L env (Emission.annotate i) s μ fun _ t _ => t.temps = s.temps := by
  intro ready
  exact ⟨(), { s with builder := s.builder.annotate i }, [], μ, rfl,
    .of_same ready rfl rfl rfl rfl rfl (fun _ h => h) rfl, .nil,
    ⟨rfl, List.forall_mem_nil _, List.forall_mem_nil _⟩, rfl⟩

/-- A type or constant. -/
theorem declare (key : Key) :
    Reads d L env (Emission.declare key) s μ fun id t _ =>
      t.builder.module.Declares key.op key.type? key.args id := by
  intro ready
  have sound := ready.sound.declare key
  have ran : (Emission.declare key).run env s =
      (.ok (s.builder.declare key).1,
        { s with builder := (s.builder.declare key).2 }) := rfl
  have functions : (s.builder.declare key).2.module.functions =
      s.builder.module.functions ∧
      (s.builder.declare key).2.module.capabilities = s.builder.module.capabilities ∧
      s.builder.nextId ≤ (s.builder.declare key).2.nextId := by
    obtain ⟨id, _, _, is⟩ | ⟨_, is⟩ := s.builder.declare_eq key <;> rw [is]
    · exact ⟨rfl, rfl, Nat.le_refl _⟩
    · exact ⟨rfl, rfl, Nat.le_succ _⟩
  obtain ⟨functions, capabilities, nextId⟩ := functions
  have globals := (Emission.emits_of_run ran).globals
  have grows : s.builder.module.Grows (s.builder.declare key).2.module := by
    refine ⟨fun i hi => globals.subset hi, fun i hi => ?_, fun i hi => capabilities ▸ hi⟩
    rw [Module.bodies, functions]
    exact hi
  refine ⟨_, _, [], μ, ran, ⟨ready.of_same rfl sound (s.builder.function?_declare key)
    (s.builder.block?_declare key) grows rfl, grows, nextId, ?_, List.forall_mem_nil _,
    List.prefix_rfl⟩,
    .nil, ⟨rfl, List.forall_mem_nil _, List.forall_mem_nil _⟩, Lower.declare_mem ran⟩
  change (s.builder.declare key).2.openCode = _
  rw [Builder.openCode, s.builder.function?_declare, s.builder.block?_declare, functions,
    List.append_nil]
  rfl

end Reads

namespace State

/-- An instruction under the next id, or under none, finds its place in the open block. -/
theorem Receptive.follows_push (ready : s.Receptive) {i : Instr} {n : Id} (temps : Array Id)
    (more : s.builder.nextId ≤ n)
    (result : ∀ id, i.result? = some id → id = s.builder.nextId ∧ id < n)
    (housed : s.temps = temps ∨ ∃ id type? args, i = ⟨.ordinary .var, type?, some id, args⟩ ∧
      temps = s.temps.push id) :
    ∃ b, Builder.push { s.builder with nextId := n } i = .ok b ∧
      s.Follows { s with builder := b, temps } [i] ∧ i ∈ b.module.definitions := by
  obtain ⟨hf, hb⟩ := ready.place
  obtain ⟨function, hf⟩ := Option.isSome_iff_exists.1 hf
  obtain ⟨block, hb⟩ := Option.isSome_iff_exists.1 hb
  have old := ready.sound
  have sound : Builder.Sound { s.builder with nextId := n } :=
    ⟨old.function, old.block, fun i hi id is => Nat.lt_of_lt_of_le (old.below i hi id is) more,
      old.distinct, old.interned, old.named⟩
  have apart : ∀ j ∈ s.builder.module.definitions, ∀ id, j.result? = some id →
      i.result? ≠ some id := by
    intro j hj id rj ri
    have := old.below j hj id rj
    rw [(result id ri).1] at this
    exact Nat.lt_irrefl _ this
  have placed : Builder.push { s.builder with nextId := n } i =
      .ok (Builder.pushTo { s.builder with nextId := n } function block i) :=
    Builder.push_eq_ok.2 ⟨function, block, hf, hb, rfl⟩
  have appends := sound.appends placed
  have pushed := sound.push placed (fun id is => (result id is).2) apart
  have mem := appends.mem_definitions.2 (.inr (rfl : i = i))
  refine ⟨_, placed, ⟨⟨pushed, ready.place, ?_, ?_⟩, appends.grows, more,
    sound.openCode_push placed, ?_, ?_⟩, mem⟩
  · rcases housed with rfl | ⟨id, type?, args, rfl, rfl⟩
    · exact ready.nodup
    · rw [Array.toList_push, List.nodup_append]
      refine ⟨ready.nodup, List.pairwise_singleton _ _, ?_⟩
      rintro a ha b hb rfl
      obtain ⟨type'?, args', declared⟩ := ready.housed a ha
      rw [List.mem_singleton.1 hb] at declared
      exact apart _ declared id rfl rfl
  · intro a ha
    rcases housed with rfl | ⟨id, type?, args, rfl, rfl⟩
    · exact (ready.housed a ha).mono appends.grows
    · rw [Array.toList_push] at ha
      rcases List.mem_append.1 ha with ha | ha
      · exact (ready.housed a ha).mono appends.grows
      · rw [List.mem_singleton.1 ha]
        exact ⟨type?, args, mem⟩
  · intro j hj id is
    rw [List.mem_singleton.1 hj] at is
    exact Nat.le_of_eq (result id is).1.symm
  · rcases housed with rfl | ⟨id, type?, args, _, rfl⟩
    · exact List.prefix_rfl
    · rw [Array.toList_push]
      exact List.prefix_append _ _

end State

/-- An instruction that computes a value is all the code that it takes. -/
theorem Executes.emitValue {op : Op} {type : Id} {args : List Arg} {x : Datum}
    (computed : op.isComputed = true) (yields : Yields d s μ op args x) :
    Executes d env (Lower.emitValue op type args) s μ fun id t code ν =>
      code = [⟨.ordinary op, some type, some id, args⟩] ∧ ν.memory = μ.memory ∧
        t.Knows ν id x := by
  intro ready
  let i : Instr := ⟨.ordinary op, some type, some s.builder.nextId, args⟩
  obtain ⟨b, placed, follows, mem⟩ := ready.follows_push (i := i) s.temps
    (Nat.le_succ _) (fun id is => by cases is; exact ⟨rfl, Nat.lt_succ_self _⟩) (.inl rfl)
  let ν : Processor :=
    { μ with values := Function.update μ.values s.builder.nextId (some x) }
  have step (n : Module) (grows : b.module.Grows n) (distinct : n.Distinct) :
      d.step n μ i = some ν := by
    have evaluated := yields s μ (.refl ready) n (follows.grows.trans grows) distinct
    have unfolded : d.step n μ i = (d.evaluate? n μ op args).bind fun x =>
        some { μ with values := Function.update μ.values s.builder.nextId (some x) } := by
      cases op <;> first | rfl | cases computed
    rw [unfolded, evaluated]
    rfl
  have ran : (Lower.emitValue op type args).run env s =
      (.ok s.builder.nextId, { s with builder := b }) := by
    refine Emission.run_bind_eq_ok.2 ⟨_, _, rfl, Emission.run_bind_eq_ok.2 ⟨(), _, ?_, rfl⟩⟩
    exact Emission.run_push_eq_ok.2 ⟨b, placed, rfl⟩
  refine ⟨_, _, [i], ν, ran, follows, fun n grows distinct => ?_, rfl, rfl, ?_, ?_⟩
  · rw [Device.run, List.foldlM_cons, step n grows distinct]
    rfl
  · exact follows.ready.sound.below _ mem _ rfl
  · intro n grows distinct
    rw [n.datum?_computed distinct (grows.definitions mem) computed]
    exact Function.update_self _ _ _

namespace Reads

/-- An instruction that computes a value. -/
theorem emitValue {op : Op} {type : Id} {args : List Arg} {x : Datum}
    (computed : op.isComputed = true) (loads : op = .load → ∃ p, args = [.id p] ∧ L p)
    (yields : Yields d s μ op args x) :
    Reads d L env (Lower.emitValue op type args) s μ fun id t ν => t.Knows ν id x := by
  refine Executes.mono (.emitValue computed yields) fun id t code ν _ _ h => ?_
  obtain ⟨rfl, memory, known⟩ := h
  refine ⟨⟨memory, fun j hj stores => ?_, fun j hj isLoad => ?_⟩, known⟩
  · rw [List.mem_singleton.1 hj] at stores
    obtain rfl : op = .store := Spirv.OpCode.ordinary.inj stores
    cases computed
  · rw [List.mem_singleton.1 hj] at isLoad ⊢
    exact loads (Spirv.OpCode.ordinary.inj isLoad)

/-- A temporary that is declared where the block is open. -/
theorem newTemp (pointerType : Id) :
    Reads d L env (Emission.newTemp pointerType) s μ fun id t _ => t.temps = s.temps.push id := by
  intro ready
  let i : Instr :=
    ⟨.ordinary .var, some pointerType, some s.builder.nextId,
      [.word Spirv.StorageClass.priv.code]⟩
  obtain ⟨b, placed, follows, mem⟩ := ready.follows_push (i := i)
    (s.temps.push s.builder.nextId) (Nat.le_succ _)
    (fun id is => by cases is; exact ⟨rfl, Nat.lt_succ_self _⟩) (.inr ⟨_, _, _, rfl, rfl⟩)
  have made : s.builder.variable_ pointerType .priv none = (s.builder.nextId, b) := by
    unfold Builder.variable_
    dsimp only
    split
    · next c placed' =>
      cases placed.symm.trans placed'
      rfl
    · next placed' => cases placed.symm.trans placed'
  have ran : (Emission.newTemp pointerType).run env s =
      (.ok s.builder.nextId, { s with builder := b, temps := s.temps.push s.builder.nextId }) := by
    change ((.ok (s.builder.variable_ pointerType .priv none).1,
      { s with
        builder := (s.builder.variable_ pointerType .priv none).2
        temps := s.temps.push (s.builder.variable_ pointerType .priv none).1 }) :
          Except CompileError Id × State) = _
    rw [made]
  refine ⟨_, _, [i], μ, ran, follows, fun _ _ _ => rfl, ⟨rfl, fun j hj => ?_, fun j hj => ?_⟩, rfl⟩
  all_goals
    intro is
    rw [List.mem_singleton.1 hj] at is
    cases is

/-- A step for each of some things. What it gives for one of them is to stay true. -/
theorem mapM {l : List α} {f : α → Emission β} {P : α → β → State → Processor → Prop}
    (stays : ∀ {a b t ν u κ}, t.Later ν u κ → P a b t ν → P a b u κ)
    (each : ∀ a ∈ l, ∀ t ν, s.Later μ t ν → Reads d L env (f a) t ν (P a)) :
    Reads d L env (l.mapM f) s μ fun bs t ν => List.Forall₂ (fun a b => P a b t ν) l bs := by
  induction l generalizing s μ with
  | nil => exact .pure fun _ => .nil
  | cons a rest ih =>
    rw [List.mapM_cons]
    refine .of_ready fun ready =>
      .bind (each a List.mem_cons_self s μ (.refl ready)) fun b t ν later first => ?_
    refine .bind (ih fun c hc u κ more => each c (List.mem_cons_of_mem _ hc) u κ (later.trans more))
      fun bs u κ later' others => ?_
    exact .pure fun _ => .cons (stays later' first) others

end Reads

/-- A load from a place. -/
theorem Fetches.emitLoad {type p : Id} {x : Datum} (yields : Yields d s μ .load [.id p] x) :
    Fetches d env (Lower.emitValue .load type [.id p]) s μ fun id t ids ν =>
      ids = [p] ∧ t.Knows ν id x := by
  refine Executes.mono (.emitValue rfl yields) fun id t code ν _ _ h => ?_
  obtain ⟨rfl, memory, known⟩ := h
  refine ⟨⟨memory, fun i mem => ?_⟩, rfl, known⟩
  rw [List.mem_singleton.1 mem]
  nofun

/-- A store to a place that is known. -/
theorem Writes.storeTo {p v : Id} {place : Datum} {ws : List UInt32} {memory : Id → Words4}
    (hp : s.Knows μ p place) (hv : s.Knows μ v (.words ws))
    (stores : place.store? ws μ.memory = some memory) :
    Writes d L env (Lower.storeTo p v) s μ fun _ _ ν => ν.memory = memory := by
  intro ready
  let i : Instr := .plain .store [.id p, .id v]
  obtain ⟨b, placed, follows, _⟩ := ready.follows_push (i := i) s.temps
    (Nat.le_refl _) nofun (.inl rfl)
  have ran : (Lower.storeTo p v).run env s = (.ok (), { s with builder := b }) :=
    Emission.run_push_eq_ok.2 ⟨b, placed, rfl⟩
  have step (n : Module) (grows : b.module.Grows n) (distinct : n.Distinct) :
      d.step n μ i = some { μ with memory } := by
    have grows := follows.grows.trans grows
    have unfolded : d.step n μ i = do
        let memory ← (← Device.datum? n μ (.id p)).store? (← Device.words? n μ (.id v)) μ.memory
        return { μ with memory } := rfl
    have place? : Device.datum? n μ (.id p) = some place := hp.2 n grows distinct
    have words? : Device.words? n μ (.id v) = some ws := by
      have value : Device.datum? n μ (.id v) = some (.words ws) := hv.2 n grows distinct
      rw [Device.words?, value]
      rfl
    rw [unfolded, place?, words?]
    simp only [Option.bind_eq_bind, Option.bind_some, stores]
    rfl
  refine ⟨(), _, [i], { μ with memory }, ran, follows, fun n grows distinct => ?_,
    fun j hj => ?_, rfl⟩
  · rw [Device.run, List.foldlM_cons, step n grows distinct]
    rfl
  · rw [List.mem_singleton.1 hj]
    nofun

end ShaderLowering
