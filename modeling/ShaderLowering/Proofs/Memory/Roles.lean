import ShaderLowering.Proofs.Memory.Dwords
import ShaderLowering.Proofs.Scope.Listing

/-!
Copies between variables. A variable has a role, which is what it holds. That the variables for
different roles differ is known of a whole lowering, so what is said of a copy is said of the states
behind it in which they do.

Some copies are told by the roles that they store to in turn, some by the places they go between. A
step conveys a list of things if its code does to each in turn what there is to do; such steps are
put together as the lists are.
-/

namespace ShaderLowering

open Spirv (Id Instr Arg Op Module StorageClass BuiltIn Invocation World Address Memory Event)

/-- Where all steps give a result, each is in the list of the results. -/
theorem List.exists_mem_mapM {α β : Type} {f : α → Option β} {l : List α} {r : List β}
    (all : l.mapM f = some r) {a : α} (mem : a ∈ l) : ∃ b ∈ r, f a = some b := by
  induction l generalizing r with
  | nil => cases mem
  | cons first rest ih =>
    rw [List.mapM_cons] at all
    obtain ⟨b, is, all⟩ := Option.bind_eq_some_iff.1 all
    obtain ⟨others, rest_, same⟩ := Option.bind_eq_some_iff.1 all
    cases same
    rcases List.mem_cons.1 mem with rfl | mem
    · exact ⟨b, List.mem_cons_self, is⟩
    · obtain ⟨b', mem', is'⟩ := ih rest_ mem
      exact ⟨b', List.mem_cons_of_mem _ mem', is'⟩

/-- Each result comes from one of the steps. -/
theorem List.exists_of_mem_mapM {α β : Type} {f : α → Option β} {l : List α} {r : List β}
    (all : l.mapM f = some r) {b : β} (mem : b ∈ r) : ∃ a ∈ l, f a = some b := by
  induction l generalizing r with
  | nil =>
    cases all
    cases mem
  | cons first rest ih =>
    rw [List.mapM_cons] at all
    obtain ⟨b', is, all⟩ := Option.bind_eq_some_iff.1 all
    obtain ⟨others, rest_, same⟩ := Option.bind_eq_some_iff.1 all
    cases same
    rcases List.mem_cons.1 mem with rfl | mem
    · exact ⟨first, List.mem_cons_self, is⟩
    · obtain ⟨a, mem', is'⟩ := ih rest_ mem
      exact ⟨a, List.mem_cons_of_mem _ mem', is'⟩

/-- What a variable holds: the registers of a private array, or what goes through a port. -/
inductive Role
  | inputs
  | outputs
  | patch
  | port (p : Port)
deriving DecidableEq

def Role.storageClass : Role → StorageClass
  | inputs | outputs | patch => .priv
  | port p => p.storageClass

namespace State

variable {env : Environment} {s t u : State} {μ ν κ : Invocation} {r r' : Role} {id id' : Id}
  {R : Role → Prop}

def holder? (s : State) : Role → Option Id
  | .inputs => s.inputArray?
  | .outputs => s.outputArray?
  | .patch => s.patchArray?
  | .port p => s.port? p

theorem located_inventory (s : State) (side : Side) (reg : UInt32) :
    s.located side reg = (s.inventory.location? side reg).map (·.id) := by
  cases side <;> rfl

theorem Maintains.holder? (h : s.Maintains t) (is : s.holder? r = some id) :
    t.holder? r = some id := by
  cases r with
  | inputs => exact h.within_.inputArray id is
  | outputs => exact h.within_.outputArray id is
  | patch => exact h.within_.patchArray id is
  | port p =>
    cases p with
    | register side reg =>
      rw [State.holder?, port?, located_inventory] at is ⊢
      obtain ⟨l, found, rfl⟩ := Option.map_eq_some_iff.1 is
      rw [h.within_.locations side reg l found]
      rfl
    | builtin builtin storage =>
      obtain ⟨made, found, rfl⟩ := Option.map_eq_some_iff.1 is
      have later : t.builtins.lookup (builtin, storage) = some made :=
        h.within_.builtins _ made found
      rw [State.holder?, port?, later]
      rfl

/-- Variables for things in different storage classes differ, and ports have variables of their
own. -/
structure Parted (s : State) : Prop where
  apart {r r' : Role} {id id' : Id} : s.holder? r = some id → s.holder? r' = some id' →
    r.storageClass ≠ r'.storageClass → id ≠ id'
  unshared : s.Unshared

/-- All that happened are stores to the variables of some roles. -/
structure Touched (s : State) (R : Role → Prop) (μ ν : Invocation) : Prop where
  events : ∃ stores, ν.events = μ.events ++ stores ∧
    ∀ e ∈ stores, ∃ r p ws, R r ∧ s.holder? r = some p.variable_ ∧ e = .store p ws
  memory : ∀ p, (∀ r, R r → s.holder? r ≠ some p.variable_) → ν.memory p = μ.memory p

/-- All that happened are stores to the variables of some roles, one after the other. -/
structure Visited (s : State) (roles : List Role) (μ ν : Invocation) : Prop where
  events : ∃ stores, ν.events = μ.events ++ stores ∧
    List.Forall₂ (fun r e => ∃ p ws, s.holder? r = some p.variable_ ∧ e = Event.store p ws) roles
      stores
  memory : ∀ p, (∀ r ∈ roles, s.holder? r ≠ some p.variable_) → ν.memory p = μ.memory p

namespace Visited

variable {roles more : List Role}

theorem of_unmoved (h : μ.Unmoved ν) : s.Visited [] μ ν :=
  ⟨⟨[], h.events.trans (List.append_nil _).symm, .nil⟩, fun p _ => congrFun h.memory p⟩

theorem trans (first : s.Visited roles μ ν) (second : s.Visited more ν κ) :
    s.Visited (roles ++ more) μ κ := by
  obtain ⟨⟨stores, events, all⟩, memory⟩ := first
  obtain ⟨⟨stores', events', all'⟩, memory'⟩ := second
  refine ⟨⟨stores ++ stores', ?_, List.rel_append all all'⟩, fun p other => ?_⟩
  · rw [events', events, List.append_assoc]
  · rw [memory' p fun r mem => other r (List.mem_append_right _ mem),
      memory p fun r mem => other r (List.mem_append_left _ mem)]

theorem of_stored {q : Address} {count : Nat} {mask : WriteMask} {g : Nat → UInt32}
    (is : s.holder? r = some q.variable_) (h : μ.Stored ν q count mask g) : s.Visited [r] μ ν := by
  obtain ⟨p, ws, same, events⟩ := h.events
  refine ⟨⟨_, events, .cons ⟨p, ws, same ▸ is, rfl⟩ .nil⟩, fun a other => ?_⟩
  rw [h.memory]
  refine Spirv.Memory.assign_other fun c _ here => other r List.mem_cons_self ?_
  have component : (q.component count c).variable_ = q.variable_ := by
    unfold Address.component
    split <;> rfl
  rw [here, component, is]

theorem touched (h : s.Visited roles μ ν) (among : ∀ r ∈ roles, R r) : s.Touched R μ ν := by
  obtain ⟨⟨stores, events, all⟩, memory⟩ := h
  refine ⟨⟨stores, events, fun e he => ?_⟩, fun p other => memory p fun r mem =>
    other r (among r mem)⟩
  clear events memory
  induction all with
  | nil => cases he
  | cons is _ ih =>
    rcases List.mem_cons.1 he with rfl | he
    · obtain ⟨p, ws, is, same⟩ := is
      exact ⟨_, p, ws, among _ List.mem_cons_self, is, same⟩
    · exact ih (fun r mem => among r (List.mem_cons_of_mem _ mem)) he

end Visited

end State

namespace Spirv

/-- The words of a vector that lies at an address. -/
def Memory.vector (memory : Memory) (p : Address) (count : Nat) : List UInt32 :=
  (List.range count).map fun c => memory (p.component count c)

theorem Memory.write_elsewhere {memory : Memory} {p q : Address} {ws : List UInt32}
    (other : q.variable_ ≠ p.variable_) : memory.write p ws q = memory q := by
  unfold write
  split
  · exact Function.update_of_ne (fun same => other (congrArg Address.variable_ same)) _ _
  · have none_ : (List.range ws.length).find? (fun i => q = p.part i) = none := by
      refine List.find?_eq_none.2 fun i _ is => ?_
      have same : q.variable_ = (p.part i).variable_ := congrArg _ (of_decide_eq_true is)
      exact other same
    dsimp only
    rw [none_]
    rfl

theorem Address.component_variable (p : Address) (count c : Nat) :
    (p.component count c).variable_ = p.variable_ := by
  unfold component
  split <;> rfl

/-- Words were written to some places in turn, and that is all that happened. -/
structure Invocation.Put (μ ν : Invocation) (l : List (Address × List UInt32)) : Prop where
  memory : ν.memory = l.foldl (fun memory p => memory.write p.1 p.2) μ.memory
  events : ν.events = μ.events ++ l.map fun p => .store p.1 p.2

namespace Invocation.Put

variable {μ ν κ : Invocation} {l l' : List (Address × List UInt32)}

theorem of_unmoved (h : μ.Unmoved ν) : μ.Put ν [] :=
  ⟨h.memory, h.events.trans (List.append_nil _).symm⟩

theorem of_wrote {q : Address} {ws : List UInt32} (h : μ.Wrote ν q ws) : μ.Put ν [(q, ws)] :=
  ⟨h.memory, h.events⟩

theorem trans (first : μ.Put ν l) (second : ν.Put κ l') : μ.Put κ (l ++ l') := by
  constructor
  · rw [second.memory, first.memory, List.foldl_append]
  · rw [second.events, first.events, List.map_append, List.append_assoc]

/-- What nothing was written to is as it was. -/
theorem elsewhere (h : μ.Put ν l) {q : Address} (other : ∀ p ∈ l, q.variable_ ≠ p.1.variable_) :
    ν.memory q = μ.memory q := by
  have still (memory : Memory) : l.foldl (fun memory p => memory.write p.1 p.2) memory q =
      memory q := by
    clear h
    induction l generalizing memory with
    | nil => rfl
    | cons p rest ih =>
      rw [List.foldl_cons, ih (fun p' h => other p' (List.mem_cons_of_mem _ h)),
        Memory.write_elsewhere (other p List.mem_cons_self)]
  rw [h.memory, still]

end Invocation.Put

end Spirv

/-- Where some things are copied from and to, in variables for the one or for the other. -/
structure Route (ι : Type) where
  /-- How many words each of them has. -/
  size : Nat
  source : State → ι → Option Address
  target : State → ι → Option Address
  apart : ∀ u : State, u.Parted → ∀ i p j q, source u i = some p → target u j = some q →
    p.variable_ ≠ q.variable_

namespace Route

variable {ι : Type} {r : Route ι} {u : State} {μ ν κ : Invocation} {items more : List ι}

/-- The place that something is copied to, and the words that it gets. -/
def copy? (r : Route ι) (u : State) (memory : Memory) (i : ι) : Option (Address × List UInt32) :=
  (r.target u i).bind fun q => (r.source u i).map fun p => (q, memory.vector p r.size)

/-- All that happened are copies of some things along a route. -/
def Copied (r : Route ι) (u : State) (items : List ι) (μ ν : Invocation) : Prop :=
  ∃ l, items.mapM (r.copy? u μ.memory) = some l ∧ μ.Put ν l

theorem target_of_mem {memory : Memory} {l : List (Address × List UInt32)}
    (all : items.mapM (r.copy? u memory) = some l) {p : Address × List UInt32} (mem : p ∈ l) :
    ∃ i, r.target u i = some p.1 := by
  obtain ⟨i, _, is⟩ := List.exists_of_mem_mapM all mem
  obtain ⟨q, target, is⟩ := Option.bind_eq_some_iff.1 is
  obtain ⟨_, _, rfl⟩ := Option.map_eq_some_iff.1 is
  exact ⟨i, target⟩

/-- Where nothing that is copied from was changed, the copies are the same. -/
theorem copy?_congr {memory memory' : Memory} (i : ι)
    (same : ∀ p, r.source u i = some p → ∀ q : Address, q.variable_ = p.variable_ →
      memory q = memory' q) : r.copy? u memory i = r.copy? u memory' i := by
  unfold copy?
  cases source : r.source u i with
  | none => rfl
  | some p =>
    have words : memory.vector p r.size = memory'.vector p r.size :=
      List.map_congr_left fun c _ => same p source _ (Address.component_variable p _ c)
    simp only [Option.map_some, words]

theorem mapM_congr {memory memory' : Memory}
    (same : ∀ i p, r.source u i = some p → ∀ q : Address, q.variable_ = p.variable_ →
      memory q = memory' q) :
    items.mapM (r.copy? u memory) = items.mapM (r.copy? u memory') :=
  congrArg (items.mapM ·) (funext fun i => copy?_congr i (same i))

namespace Copied

theorem of_unmoved (h : μ.Unmoved ν) : r.Copied u [] μ ν :=
  ⟨[], rfl, .of_unmoved h⟩

/-- There is a place that each of the things comes from, and one that it goes to. -/
theorem exists_places (copied : r.Copied u items μ ν) {i : ι} (mem : i ∈ items) :
    (∃ p, r.source u i = some p) ∧ ∃ q, r.target u i = some q := by
  obtain ⟨l, all, -⟩ := copied
  obtain ⟨_, _, is⟩ := List.exists_mem_mapM all mem
  obtain ⟨q, target, is⟩ := Option.bind_eq_some_iff.1 is
  obtain ⟨p, source, _⟩ := Option.map_eq_some_iff.1 is
  exact ⟨⟨p, source⟩, q, target⟩

/-- What the first copies leave alone the others find as it was. -/
theorem trans (parted : u.Parted) (first : r.Copied u items μ ν) (second : r.Copied u more ν κ) :
    r.Copied u (items ++ more) μ κ := by
  obtain ⟨l, all, put⟩ := first
  obtain ⟨l', all', put'⟩ := second
  refine ⟨l ++ l', ?_, put.trans put'⟩
  have same : more.mapM (r.copy? u ν.memory) = more.mapM (r.copy? u μ.memory) := by
    refine mapM_congr fun i p source q own => put.elsewhere fun e mem => ?_
    obtain ⟨j, target⟩ := target_of_mem all mem
    exact own ▸ r.apart u parted i p j e.1 source target
  rw [List.mapM_append, all, ← same, all']
  rfl

/-- One thing more, as it was in the beginning. -/
theorem extend {i : ι} {p q : Address} (first : r.Copied u items μ ν)
    (source : r.source u i = some p) (target : r.target u i = some q)
    (h : ν.Wrote κ q (μ.memory.vector p r.size)) : r.Copied u (items ++ [i]) μ κ := by
  obtain ⟨l, all, put⟩ := first
  refine ⟨l ++ [(q, _)], ?_, put.trans (.of_wrote h)⟩
  rw [List.mapM_append, all, List.mapM_cons, List.mapM_nil, copy?, target, source]
  rfl

theorem of_wrote {i : ι} {p q : Address} (source : r.source u i = some p)
    (target : r.target u i = some q) (h : μ.Wrote ν q (μ.memory.vector p r.size)) :
    r.Copied u [i] μ ν :=
  extend (of_unmoved (.refl μ)) source target h

end Copied

end Route

/-- Runs that do to some things in turn what there is to do follow one another, where variables are
told apart. -/
class Composes {ι : Type} (C : State → List ι → Invocation → Invocation → Prop) : Prop where
  idle {u : State} {μ ν : Invocation} : μ.Unmoved ν → C u [] μ ν
  trans {u : State} {items more : List ι} {μ ν κ : Invocation} : u.Parted → C u items μ ν →
    C u more ν κ → C u (items ++ more) μ κ

instance {ι : Type} (r : Route ι) : Composes r.Copied where
  idle := .of_unmoved
  trans := .trans

instance : Composes State.Visited where
  idle := .of_unmoved
  trans _ := .trans

section Conveys

variable {ι α β : Type} {w : World} {env : Environment} {s : State} {μ : Invocation}
  {C : State → List ι → Invocation → Invocation → Prop} {items more : List ι}

/-- A step that does to some things in turn what there is to do, whatever comes after it, and does
nothing else. -/
def Conveys (w : World) (env : Environment) (C : State → List ι → Invocation → Invocation → Prop)
    (items : List ι) (e : Emission α) (s : State) (μ : Invocation)
    (P : α → Prop := fun _ => True) : Prop :=
  Performs w env e s μ fun a t ν => P a ∧ ∀ u, t.Maintains u → u.Parted → C u items μ ν

/-- A round of a loop does not break off. -/
def GoesOn (r : ForInStep β) : Prop :=
  ∃ b, r = .yield b

namespace Conveys

variable {P : α → Prop} {Q : β → Prop}

theorem ite {p : Prop} [Decidable p] {yes no : Emission α}
    (hyes : p → Conveys w env C items yes s μ P) (hno : ¬p → Conveys w env C items no s μ P) :
    Conveys w env C items (if p then yes else no) s μ P :=
  Performs.ite hyes hno

theorem pure_bind {a : α} {f : α → Emission β} (h : Conveys w env C items (f a) s μ Q) :
    Conveys w env C items (Pure.pure a >>= f) s μ Q :=
  h

theorem read_bind {f : Environment → Emission β} (h : Conveys w env C items (f env) s μ Q) :
    Conveys w env C items (read >>= f) s μ Q :=
  h

theorem state_bind {f : State → Emission β}
    (h : s.Settled env → Conveys w env C items (f s) s μ Q) :
    Conveys w env C items (Emission.state >>= f) s μ Q :=
  Performs.state_bind h

theorem idle_bind {e : Emission α} {f : α → Emission β} {a : α}
    (idle : e.run env s = (.ok a, s)) (later : Conveys w env C items (f a) s μ Q) :
    Conveys w env C items (e >>= f) s μ Q :=
  Performs.idle_bind idle later

/-- What several branches end with is followed once for all of them. -/
theorem of_tail (items : List ι) {tail : Emission β} {e : Emission α}
    (whole : (∀ t ν, State.Since env s μ t ν → Conveys w env C items tail t ν Q) →
      Conveys w env C more e s μ P)
    (each : ∀ t ν, State.Since env s μ t ν → Conveys w env C items tail t ν Q) :
    Conveys w env C more e s μ P :=
  whole each

/-- A step that stores what lies at the source of something to its target. -/
theorem of_performs {r : Route ι} {e : Emission α} {i : ι}
    (h : Performs w env e s μ fun _ t ν => ∃ p q,
      (∀ u, t.Maintains u → r.source u i = some p ∧ r.target u i = some q) ∧
        μ.Wrote ν q (μ.memory.vector p r.size)) : Conveys w env r.Copied [i] e s μ :=
  Performs.mono h fun _ _ _ _ h => by
    obtain ⟨p, q, is, wrote⟩ := h
    exact ⟨trivial, fun u maintains _ => .of_wrote (is u maintains).1 (is u maintains).2 wrote⟩

/-- A loop each of whose rounds stores a thing as the loop found it. -/
theorem forIn_start {r : Route ι} {f : ι → β → Emission (ForInStep β)} {b : β}
    (round : ∀ i ∈ items, ∀ c t ν, State.Since env s μ t ν → Performs w env (f i c) t ν fun b u κ =>
      GoesOn b ∧ ∃ p q, (∀ v, u.Maintains v → r.source v i = some p ∧ r.target v i = some q) ∧
        ν.Wrote κ q (μ.memory.vector p r.size)) :
    Conveys w env r.Copied items (ForIn.forIn items b f) s μ := by
  refine Performs.mono (Performs.forIn (I := fun before _ t ν =>
    ∀ u, t.Maintains u → r.Copied u before μ ν) ?_ fun _ _ => .of_unmoved (.refl μ))
      fun _ _ _ _ h => ⟨trivial, fun u maintains _ => h u maintains⟩
  intro before i after c all t ν since done
  have mem : i ∈ items := all ▸ List.mem_append_right _ List.mem_cons_self
  refine (round i mem c t ν since).mono fun b' u κ since' h => ?_
  obtain ⟨⟨c', rfl⟩, p, q, is, wrote⟩ := h
  refine ⟨c', rfl, fun v maintains => ?_⟩
  exact (done v (since'.maintains.trans maintains)).extend (is v maintains).1
    (is v maintains).2 wrote

variable [Composes C]

protected theorem pure {a : α} (h : P a) : Conveys w env C [] (pure a) s μ P :=
  Performs.pure fun _ => ⟨h, fun _ _ _ => Composes.idle (.refl μ)⟩

protected theorem bind {e : Emission α} {f : α → Emission β} (first : Conveys w env C items e s μ P)
    (later : ∀ a t ν, State.Since env s μ t ν → P a → Conveys w env C more (f a) t ν Q) :
    Conveys w env C (items ++ more) (e >>= f) s μ Q :=
  Performs.bind first fun a t ν since h =>
    Performs.mono (later a t ν since h.1) fun _ _ _ since' h' =>
      ⟨h'.1, fun u maintains parted => Composes.trans parted
        (h.2 u (since'.maintains.trans maintains) parted) (h'.2 u maintains parted)⟩

/-- A step that only looks, in front of one that conveys. -/
theorem after {e : Emission α} {f : α → Emission β} {R : α → State → Invocation → Prop}
    (first : Looks w env e s μ R)
    (later : ∀ a t ν, State.Since env s μ t ν → μ.Unmoved ν → R a t ν →
      Conveys w env C items (f a) t ν Q) : Conveys w env C items (e >>= f) s μ Q :=
  Performs.bind first fun a t ν since h =>
    Performs.mono (later a t ν since h.1 h.2) fun _ _ _ _ h' =>
      ⟨h'.1, fun u maintains parted =>
        Composes.trans parted (Composes.idle h.1) (h'.2 u maintains parted)⟩

/-- What a step ends with. -/
theorem last {e : Emission α} {b : β} (h : Conveys w env C items e s μ P) (is : Q b) :
    Conveys w env C items (e >>= fun _ => pure b) s μ Q := by
  have all : Conveys w env C (items ++ []) (e >>= fun _ => pure b) s μ Q :=
    .bind h fun _ _ _ _ _ => .pure is
  rwa [List.append_nil] at all

/-- A loop each of whose rounds conveys something and goes on. The rounds find the interface
registers as the loop did. -/
theorem forIn {f : α → β → Emission (ForInStep β)} {l : List α} {b : β} {g : α → List ι}
    (round : ∀ a ∈ l, ∀ c t ν, State.Since env s μ t ν → s.SameInterface t →
      Conveys w env C (g a) (f a c) t ν GoesOn) :
    Conveys w env C (l.flatMap g) (ForIn.forIn l b f) s μ := by
  refine Performs.mono (Performs.forIn (I := fun before _ t ν => s.SameInterface t ∧
    ∀ u, t.Maintains u → u.Parted → C u (before.flatMap g) μ ν) ?_
      ⟨.refl s, fun _ _ _ => Composes.idle (.refl μ)⟩) fun _ _ _ _ h => ⟨trivial, h.2⟩
  intro before a after c all t ν since done
  obtain ⟨same, done⟩ := done
  have mem : a ∈ l := all ▸ List.mem_append_right _ List.mem_cons_self
  refine (Performs.keeping (round a mem c t ν since same)).mono fun r' u κ since' h => ?_
  obtain ⟨keeps, ⟨c', rfl⟩, conveyed⟩ := h
  refine ⟨c', rfl, same.trans keeps, fun v maintains parted => ?_⟩
  rw [List.flatMap_append, List.flatMap_cons, List.flatMap_nil, List.append_nil]
  exact Composes.trans parted (done v (since'.maintains.trans maintains) parted)
    (conveyed v maintains parted)

end Conveys

end Conveys

end ShaderLowering
