import ShaderLowering.Proofs.Scope.Steps

/-!
What ordinary steps do and give. A step `Does` something if it consists of acts and what it gives is
as promised; facts are stated for a builder that the state has outgrown, so that they can be carried
from step to step. Most steps promise the same: that what their result refers to is available. They
are said to supply it, and the rules for them are left to automation.
-/

namespace ShaderLowering

open Spirv (Id Instr Arg Op Module StorageClass Builder)

/-- A step that starts where acts may start consists of acts, and what it gives is as promised. -/
def Does {α : Type} (H : Limits) (env : Environment) (b : Builder)
    (run : Environment → State → Except CompileError α × State) (post : α → Builder → Prop) :
    Prop :=
  ∀ s a t, Ready H s → b.Within s.builder → run env s = (.ok a, t) →
    Acts H env s t ∧ post a t.builder

section

variable {α β : Type} {H : Limits} {env : Environment} {b c : Builder}
  {run : Environment → State → Except CompileError α × State} {post q : α → Builder → Prop}

namespace Does

theorem grow (h : Does H env b run post) (within : b.Within c) : Does H env c run post :=
  fun s a t ready outgrown ran => h s a t ready (within.trans outgrown) ran

theorem imp (h : Does H env b run q) (weaker : ∀ a c, b.Within c → q a c → post a c) :
    Does H env b run post := by
  intro s a t ready outgrown ran
  obtain ⟨acts, fact⟩ := h s a t ready outgrown ran
  exact ⟨acts, weaker a _ (outgrown.trans acts.within) fact⟩

/-- A step followed by another. -/
theorem andThen {next : α → Environment → State → Except CompileError β × State}
    {both : Environment → State → Except CompileError β × State} {post : β → Builder → Prop}
    (is : ∀ env s, both env s = Lower.andThen (run env s) fun a t => next a env t)
    (first : Does H env b run q)
    (later : ∀ a c, b.Within c → q a c → Does H env c (next a) post) :
    Does H env b both post := by
  intro s d u ready outgrown ran
  rw [is] at ran
  obtain ⟨a, t, ran, ran'⟩ := Lower.andThen_eq_ok.1 ran
  obtain ⟨acts, fact⟩ := first s a t ready outgrown ran
  obtain ⟨acts', fact'⟩ := later a _ (outgrown.trans acts.within) fact t d u (acts.ready ready)
    (.refl _) ran'
  exact ⟨acts.trans acts', fact'⟩

end Does

end

namespace Does

variable {α β : Type} {H : Limits} {env : Environment} {b c : Builder} {a : α}
  {e : Emission α} {f : α → Emission β}

protected theorem pure {post : α → Builder → Prop} (h : ∀ c, b.Within c → post a c) :
    Does H env b (pure a : Emission α).run post := by
  intro s d t ready outgrown ran
  cases ran
  exact ⟨.refl, h _ outgrown⟩

protected theorem bind {q : α → Builder → Prop} {post : β → Builder → Prop}
    (first : Does H env b e.run q)
    (later : ∀ a c, b.Within c → q a c → Does H env c (f a).run post) :
    Does H env b (e >>= f).run post :=
  .andThen (fun _ _ => rfl) first later

theorem read_bind {f : Environment → Emission β} {post : β → Builder → Prop}
    (h : Does H env b (f env).run post) : Does H env b (read >>= f).run post :=
  fun s d t ready outgrown ran => h s d t ready outgrown ran

/-- What the state holds is known. -/
theorem state_bind {f : State → Emission β} {post : β → Builder → Prop}
    (h : ∀ s, Ready H s → b.Within s.builder → Does H env s.builder (f s).run post) :
    Does H env b (Emission.state >>= f).run post :=
  fun s d t ready outgrown ran => h s ready outgrown s d t ready (.refl _) ran

theorem fail {post : α → Builder → Prop} {error : CompileError} {own : ∀ b, error ≠ .builder b} :
    Does H env b (Emission.fail error own : Emission α).run post := by
  intro s d t _ _ ran
  cases ran

/-- A single act. -/
theorem act {run : Environment → State → Except CompileError α × State}
    {post : α → Builder → Prop}
    (h : ∀ s a t, Ready H s → b.Within s.builder → run env s = (.ok a, t) →
      Act H env s t ∧ post a t.builder) : Does H env b run post :=
  fun s a t ready outgrown ran =>
    ⟨.single (h s a t ready outgrown ran).1, (h s a t ready outgrown ran).2⟩

/-- A change of names, capabilities or tables that are not accounted for. -/
theorem note {run : Environment → State → Except CompileError Unit × State} {g : State → State}
    (is : ∀ s, run env s = (.ok (), g s)) (like : ∀ s : State, s.builder.Like (g s).builder)
    (annotations : ∀ s : State,
      (g s).builder.module.annotations = s.builder.module.annotations)
    (kept : ∀ s : State, b.Within s.builder → s.Kept H s.builder → (g s).Kept H s.builder)
    (accounts : ∀ s : State, (g s).accounts = s.accounts)
    (remembers : ∀ s : State, s.Remembers (g s)) :
    Does H env b run fun _ _ => True := by
  refine act fun s _ t _ outgrown ran => ?_
  rw [is] at ran
  cases ran
  exact ⟨.note (like s) (annotations s) (kept s outgrown) (accounts s) (remembers s), trivial⟩

theorem declare (key : Spirv.Key)
    (known : ∀ id ∈ key.type?.toList ++ key.args.filterMap Arg.id?, b.Global H id)
    (proper : key.IsProper b.tables) :
    Does H env b (Emission.declare key).run
      fun id c => c.Global H id ∧ c.tables.lookup key = some id := by
  refine act fun s id t ready outgrown ran => ?_
  cases ran
  refine ⟨.declare (fun id hid => (known id hid).mono outgrown) (proper.mono outgrown.tables),
    ⟨fun (hidden : H.fromTables (s.builder.declare key).1) => ?_,
      s.builder.isGlobal_declare key⟩, s.builder.lookup_declare key⟩
  obtain ⟨id, _, mem, same⟩ | ⟨_, new⟩ := s.builder.declare_eq key
  · rw [same] at hidden
    have op := (ready.hidden id hidden).2 _ mem rfl
    exact key.ne_var (Spirv.OpCode.ordinary.inj op)
  · rw [new] at hidden
    exact Nat.lt_irrefl _ (ready.hidden _ hidden).1

theorem declareNew {op : Op} (global : op.isGlobal = true) (aggregate : op.isAggregate = true)
    {type? : Option Id} {args : List Arg}
    (known : ∀ id ∈ type?.toList ++ args.filterMap Arg.id?, b.Global H id) :
    Does H env b (Emission.declareNew op type? args).run fun id c => c.Global H id := by
  refine act fun s id t ready outgrown ran => ?_
  cases ran
  exact ⟨.declareNew global aggregate fun id hid => (known id hid).mono outgrown,
    fun hidden => Nat.lt_irrefl _ (ready.hidden _ hidden).1,
    s.builder.isGlobal_declareNew op type? args⟩

theorem ite {p : Prop} [Decidable p] {yes no : Emission α} {post : α → Builder → Prop}
    (hyes : p → Does H env b yes.run post) (hno : ¬p → Does H env b no.run post) :
    Does H env b (if p then yes else no).run post := by
  split
  · next h => exact hyes h
  · next h => exact hno h

/-- One step or another, and what comes after it in any case. -/
theorem choose {p : Prop} [Decidable p] {yes no : Emission α} {q : α → Builder → Prop}
    {post : β → Builder → Prop} (first : Does H env b (if p then yes else no).run q)
    (later : ∀ a c, b.Within c → q a c → Does H env c (f a).run post) :
    Does H env b (if p then yes >>= f else no >>= f).run post := by
  split
  · next h =>
    rw [if_pos h] at first
    exact first.bind later
  · next h =>
    rw [if_neg h] at first
    exact first.bind later

/-- The value of an option that has to be there. -/
theorem orFault {a? : Option α} {fault : Fault} {post : α → Builder → Prop}
    (h : ∀ a, a? = some a → ∀ c, b.Within c → post a c) :
    Does H env b (Lower.orFault a? fault).run post := by
  cases a? with
  | none => exact fun _ _ _ _ _ ran => nomatch ran
  | some a => exact .pure (h a rfl)

/-- What is done with the value of an option that has to be there. -/
theorem demand {a? : Option α} {fault : Fault} {post : β → Builder → Prop}
    (later : ∀ a, a? = some a → Does H env b (f a).run post) :
    Does H env b (Lower.orFault a? fault >>= f).run post :=
  have found : Does H env b (Lower.orFault a? fault).run fun a _ => a? = some a :=
    .orFault fun _ is _ _ => is
  found.bind fun a _ within is => (later a is).grow within

/-- An instruction without a result. -/
theorem push {op : Op} {args : List Arg} (emits : H.Emits op)
    (known : ∀ id ∈ args.filterMap Arg.id?, b.Available H id) :
    Does H env b (Emission.push op none none args).run fun _ _ => True := by
  refine act fun s id t _ outgrown ran => ?_
  obtain ⟨c, placed, rfl⟩ := Emission.run_push_eq_ok.1 ran
  exact ⟨.emit emits placed fun id hid => (known id hid).mono outgrown, trivial⟩

/-- A step for every element of a list. -/
theorem mapM {P : β → Builder → Prop} (mono : ∀ {v c d}, P v c → c.Within d → P v d)
    {list : List α}
    (each : ∀ a ∈ list, ∀ c, b.Within c → Does H env c (f a).run P) :
    Does H env b (list.mapM f).run fun parts c => ∀ v ∈ parts, P v c := by
  induction list generalizing b with
  | nil =>
    rw [List.mapM_nil]
    exact .pure fun _ _ _ mem => absurd mem List.not_mem_nil
  | cons a rest ih =>
    rw [List.mapM_cons]
    refine .bind (each a List.mem_cons_self b (.refl b)) fun v c within is => ?_
    refine .bind (ih fun a ha d within' => ?_) fun parts d within' are => .pure fun e later => ?_
    · exact each a (List.mem_cons_of_mem _ ha) d (within.trans within')
    · exact List.forall_mem_cons.2 ⟨mono is (within'.trans later),
        fun v hv => mono (are v hv) later⟩

end Does

/-- An instruction with a result. -/
theorem Lower.emitValue_does {H : Limits} {env : Environment} {b : Builder} {op : Op} {type : Id}
    {args : List Arg} (emits : H.Emits op) (typed : b.Available H type)
    (known : ∀ id ∈ args.filterMap Arg.id?, b.Available H id) :
    Does H env b (Lower.emitValue op type args).run fun id c => c.Available H id := by
  refine .act fun s id t ready outgrown ran => ?_
  obtain ⟨id', u, taken, rest⟩ := Emission.run_bind_eq_ok.1 ran
  cases taken
  obtain ⟨_, w, pushed, last⟩ := Emission.run_bind_eq_ok.1 rest
  cases last
  obtain ⟨c, placed, rfl⟩ := Emission.run_push_eq_ok.1 pushed
  refine ⟨.compute emits placed fun a ha => ?_, fun hidden => ?_,
    .inr (ready.sound.fresh.computes_of_push placed rfl)⟩
  · rcases List.mem_cons.1 ha with rfl | ha
    · exact typed.mono outgrown
    · exact (known a ha).mono outgrown
  · exact Nat.lt_irrefl _ (ready.hidden _ (H.operands _ hidden)).1

/-- What the values of a type refer to. -/
class Refers (α : Type) where
  refers : (Id → Prop) → α → Prop
  mono : ∀ {p q : Id → Prop} {a : α}, (∀ id, p id → q id) → refers p a → refers q a
  anything : ∀ a : α, refers (fun _ => True) a

instance : Refers Unit := ⟨fun _ _ => True, fun _ h => h, fun _ => trivial⟩

instance : Refers Id := ⟨fun p id => p id, fun h => h _, fun _ => trivial⟩

instance : Refers Value := ⟨fun p v => p v.id, fun h => h _, fun _ => trivial⟩

instance : Refers Pointer := ⟨fun p v => p v.id, fun h => h _, fun _ => trivial⟩

instance : Refers Arg where
  refers p
    | .id id => p id
    | _ => True
  mono {_ _ a} h := by
    cases a with
    | id => exact h _
    | word | text => exact fun h => h
  anything a := by cases a <;> trivial

instance {α : Type} [Refers α] : Refers (List α) where
  refers p l := ∀ a ∈ l, Refers.refers p a
  mono h known a ha := Refers.mono h (known a ha)
  anything _ a _ := Refers.anything a

instance {α : Type} [Refers α] : Refers (Option α) where
  refers p o := ∀ a, o = some a → Refers.refers p a
  mono h known a ha := Refers.mono h (known a ha)
  anything _ a _ := Refers.anything a

instance {α β : Type} [Refers α] [Refers β] : Refers (α × β) where
  refers p v := Refers.refers p v.1 ∧ Refers.refers p v.2
  mono h := .imp (Refers.mono h) (Refers.mono h)
  anything v := ⟨Refers.anything v.1, Refers.anything v.2⟩

/-- Ids of one kind are of another kind as well. -/
def Spans (p q : Id → Prop) : Prop :=
  ∀ id, p id → q id

/-- All ids that a value refers to are of some kind. -/
def Given {α : Type} [Refers α] (p : Id → Prop) (a : α) : Prop :=
  Refers.refers p a

/-- All that a value refers to is available. -/
abbrev Known {α : Type} [Refers α] (H : Limits) (b : Builder) (a : α) : Prop :=
  Given (b.Available H) a

namespace Given

variable {α β : Type} [Refers α] [Refers β] {p q : Id → Prop}

@[grind →]
theorem mono {a : α} (h : Given p a) (spans : Spans p q) : Given q a :=
  Refers.mono spans h

/-- There is nothing else to refer to than ids. -/
@[grind ←]
theorem anything {a : α} : Given (fun _ => True) a :=
  Refers.anything a

@[simp, grind =]
theorem unit_iff {a : Unit} : Given p a ↔ True := Iff.rfl

@[simp, grind =]
theorem value_iff {v : Value} : Given p v ↔ Given p v.id := Iff.rfl

@[simp, grind =]
theorem pointer_iff {v : Pointer} : Given p v ↔ Given p v.id := Iff.rfl

@[simp, grind =]
theorem nil_iff : Given p ([] : List α) ↔ True :=
  ⟨fun _ => trivial, fun _ _ h => absurd h List.not_mem_nil⟩

@[simp, grind =]
theorem cons_iff {a : α} {l : List α} : Given p (a :: l) ↔ Given p a ∧ Given p l :=
  List.forall_mem_cons

@[simp, grind =]
theorem append_iff {l m : List α} : Given p (l ++ m) ↔ Given p l ∧ Given p m :=
  List.forall_mem_append

@[simp, grind =]
theorem none_iff : Given p (none : Option α) ↔ True :=
  ⟨fun _ => trivial, fun _ _ => nofun⟩

@[simp, grind =]
theorem some_iff {a : α} : Given p (some a) ↔ Given p a :=
  ⟨fun h => h a rfl, fun h _ is => Option.some.inj is ▸ h⟩

@[simp, grind =]
theorem pair_iff {v : α × β} : Given p v ↔ Given p v.1 ∧ Given p v.2 := Iff.rfl

@[simp, grind =]
theorem arg_id_iff {id : Id} : Given p (Arg.id id) ↔ Given p id := Iff.rfl

@[simp, grind =]
theorem arg_word_iff {w : UInt32} : Given p (Arg.word w) ↔ True := Iff.rfl

@[grind ←]
theorem getElem? {l : List α} (h : Given p l) (n : Nat) : Given p l[n]? :=
  fun _ found => h _ (List.mem_of_getElem? found)

@[simp, grind =]
theorem map_id_iff {l : List Id} : Given p (l.map Arg.id) ↔ Given p l := by
  constructor
  · exact fun h a ha => h (.id a) (List.mem_map_of_mem ha)
  · intro h a ha
    obtain ⟨id, mem, rfl⟩ := List.mem_map.1 ha
    exact h id mem

@[simp, grind =]
theorem map_value_iff {l : List Value} : Given p (l.map (·.id)) ↔ Given p l := by
  constructor
  · exact fun h a ha => h a.id (List.mem_map_of_mem ha)
  · intro h a ha
    obtain ⟨v, mem, rfl⟩ := List.mem_map.1 ha
    exact h v mem

@[simp, grind =]
theorem toList_iff {o : Option α} : Given p o.toList ↔ Given p o := by
  cases o <;> simp

/-- Lanes of a shuffle are plain words. -/
@[simp]
theorem lanes_iff {l : List Nat} :
    Given p (l.map fun lane => Arg.word (UInt32.ofNat lane)) ↔ True := by
  refine ⟨fun _ => trivial, fun _ a ha => ?_⟩
  obtain ⟨x, _, rfl⟩ := List.mem_map.1 ha
  trivial

@[grind ←]
theorem replicate {a : α} (h : Given p a) (n : Nat) : Given p (List.replicate n a) := by
  intro _ mem
  rwa [List.eq_of_mem_replicate mem]

end Given

section

variable {H : Limits} {env : Environment} {b c : Builder}

namespace Known

variable {α : Type} [Refers α]

@[grind →]
theorem mono {a : α} (h : Known H b a) (within : b.Within c) : Known H c a :=
  Given.mono h fun _ known => known.mono within

@[simp, grind =]
theorem id_iff {id : Id} : Known H b id ↔ b.Available H id := Iff.rfl

@[simp, grind =]
theorem value_iff {v : Value} : Known H b v ↔ b.Available H v.id := Iff.rfl

@[simp, grind =]
theorem pointer_iff {p : Pointer} : Known H b p ↔ b.Available H p.id := Iff.rfl

@[simp, grind =]
theorem arg_id_iff {id : Id} : Known H b (Arg.id id) ↔ b.Available H id := Iff.rfl

/-- The ids in known arguments. -/
theorem ids {args : List Arg} (h : Known H b args) :
    ∀ id ∈ args.filterMap Arg.id?, b.Available H id := by
  intro id hid
  obtain ⟨a, ha, is⟩ := List.mem_filterMap.1 hid
  cases a with
  | id _ =>
    cases is
    exact h _ ha
  | word | text => cases is

end Known

/-- A step whose result refers to what is available. -/
def Supplies {α : Type} [Refers α] (H : Limits) (env : Environment) (b : Builder)
    (run : Environment → State → Except CompileError α × State) : Prop :=
  Does H env b run fun a c => Known H c a

namespace Supplies

variable {α β γ : Type} [Refers α] [Refers β] [Refers γ] {e : Emission α} {f : α → Emission β}

@[grind ←]
protected theorem pure {a : α} (known : Known H b a) :
    Supplies H env b (pure a : Emission α).run :=
  Does.pure fun _ within => known.mono within

@[grind ←]
protected theorem bind (first : Supplies H env b e.run)
    (later : ∀ a c, b.Within c → Known H c a → Supplies H env c (f a).run) :
    Supplies H env b (e >>= f).run :=
  Does.bind first later

theorem pure_bind {δ : Type} {a : δ} {f : δ → Emission β} (h : Supplies H env b (f a).run) :
    Supplies H env b (pure a >>= f).run :=
  fun s d t ready outgrown ran => h s d t ready outgrown ran

@[grind ←]
theorem read_bind {f : Environment → Emission β} (h : Supplies H env b (f env).run) :
    Supplies H env b (read >>= f : Emission β).run :=
  Does.read_bind h

@[grind ←]
theorem state_bind {f : State → Emission β}
    (h : ∀ s, Ready H s → b.Within s.builder → Supplies H env s.builder (f s).run) :
    Supplies H env b (Emission.state >>= f).run :=
  Does.state_bind h

@[grind ←]
theorem fail {error : CompileError} {own : ∀ b, error ≠ .builder b} :
    Supplies H env b (Emission.fail error own : Emission α).run :=
  Does.fail

@[grind ←]
theorem failWith (fault : Fault) : Supplies H env b (Lower.failWith fault : Emission α).run :=
  Does.fail

theorem ite {p : Prop} [Decidable p] {yes no : Emission α} (hyes : Supplies H env b yes.run)
    (hno : Supplies H env b no.run) : Supplies H env b (if p then yes else no).run :=
  Does.ite (fun _ => hyes) fun _ => hno

@[grind ←]
theorem orFault {a? : Option α} (fault : Fault) (known : Known H b a?) :
    Supplies H env b (Lower.orFault a? fault).run :=
  Does.orFault fun a is _ within => Known.mono (a := a) (known a is) within

/-- One step or another, and what comes after it in any case. -/
theorem choose {p : Prop} [Decidable p] {yes no : Emission α} (hyes : Supplies H env b yes.run)
    (hno : Supplies H env b no.run)
    (later : ∀ a c, b.Within c → Known H c a → Supplies H env c (f a).run) :
    Supplies H env b (if p then yes >>= f else no >>= f).run :=
  Does.choose (.ite (fun _ => hyes) fun _ => hno) later

/-- What is done with the value of an option that has to be there. -/
@[grind ←]
theorem demand {δ : Type} {a? : Option δ} {fault : Fault} {f : δ → Emission β}
    (later : ∀ a, a? = some a → Supplies H env b (f a).run) :
    Supplies H env b (Lower.orFault a? fault >>= f).run :=
  Does.demand later

/-- A step of whose result nothing has to be known, followed by another. -/
theorem after {δ : Type} {e : Emission δ} {f : δ → Emission β} {q : δ → Builder → Prop}
    (first : Does H env b e.run q)
    (later : ∀ a c, b.Within c → q a c → Supplies H env c (f a).run) :
    Supplies H env b (e >>= f).run :=
  Does.bind first later

theorem mapM_mem {δ : Type} {f : δ → Emission β} {list : List δ}
    (each : ∀ a ∈ list, ∀ c, b.Within c → Supplies H env c (f a).run) :
    Supplies H env b (list.mapM f).run :=
  Does.mapM (P := fun v c => Known H c v) (fun known within => Known.mono known within) each

@[grind ←]
theorem mapM {δ : Type} {f : δ → Emission β} {list : List δ}
    (each : ∀ a c, b.Within c → Supplies H env c (f a).run) :
    Supplies H env b (list.mapM f).run :=
  mapM_mem fun a _ => each a

theorem forIn_mem {δ : Type} {f : δ → γ → Emission (ForInStep γ)} {list : List δ} {init : γ}
    (known : Known H b init)
    (each : ∀ a ∈ list, ∀ g c, b.Within c → Known H c g →
      Does H env c (f a g).run fun step d =>
        match step with
        | .done g | .yield g => Known H d g) :
    Supplies H env b (ForIn.forIn list init f : Emission γ).run := by
  induction list generalizing b init with
  | nil =>
    rw [List.forIn_nil]
    exact .pure known
  | cons a rest ih =>
    rw [List.forIn_cons]
    refine Does.bind (each a List.mem_cons_self init b (.refl b) known) fun step c within is => ?_
    cases step with
    | done g => exact Supplies.pure is
    | yield g =>
      exact ih is fun a ha g d within' => each a (List.mem_cons_of_mem _ ha) g d
        (within.trans within')

/-- A loop that only acts. -/
theorem forIn {δ : Type} {f : δ → PUnit → Emission (ForInStep PUnit)} {list : List δ}
    (each : ∀ a ∈ list, ∀ c, b.Within c → Does H env c (f a ⟨⟩).run fun _ _ => True) :
    Supplies H env b (ForIn.forIn list ⟨⟩ f : Emission PUnit).run :=
  forIn_mem (γ := Unit) trivial fun a ha _ c within _ => (each a ha c within).imp
    fun step _ _ _ => by cases step <;> trivial

end Supplies

end

end ShaderLowering
