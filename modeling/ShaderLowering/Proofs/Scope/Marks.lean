import ShaderLowering.Proofs.Lowering.Frame
import ShaderLowering.Proofs.Scope.Supplies

/-!
Marks, and what is kept account of. Names, annotations and capabilities are marks that follow on
declarations. A variable and its marks are taken as one act with the table entry that keeps its id;
for that, what comes before the variable must leave the accounts alone.
-/

namespace ShaderLowering

open Spirv (Id Instr Arg Op Key Module StorageClass Builder BuiltIn Decoration Capability)

variable {H : Limits} {env : Environment} {b : Builder} {s t u : State}

/-- States that differ in names, annotations and the like, and in tables that hold no ids. -/
structure Marks (s t : State) (marks : List Instr) : Prop where
  like : s.builder.Like t.builder
  annotations : t.builder.module.annotations.toList =
    s.builder.module.annotations.toList ++ marks
  kept : ∀ (H : Limits) (b : Builder), s.Kept H b → t.Kept H b
  remembers : s.Remembers t

namespace Spirv.Builder.Like

variable {b c d : Builder}

theorem refl (b : Builder) : b.Like b :=
  ⟨rfl, rfl, rfl, rfl, rfl, rfl, rfl, rfl, rfl, fun _ => .inl⟩

theorem trans (first : b.Like c) (second : c.Like d) : b.Like d :=
  ⟨second.nextId.trans first.nextId, second.function?.trans first.function?,
    second.block?.trans first.block?, second.functions.trans first.functions,
    second.globals.trans first.globals, second.imports.trans first.imports,
    second.entryPoints.trans first.entryPoints, second.types.trans first.types,
    second.constants.trans first.constants,
    fun i hi => (second.preamble i hi).elim (first.preamble i) .inr⟩

end Spirv.Builder.Like

namespace Marks

variable {marks more : List Instr}

theorem refl (s : State) : Marks s s [] :=
  ⟨.refl _, (List.append_nil _).symm, fun _ _ h => h, .refl s⟩

theorem annotate (s : State) {i : Instr} (result : i.result? = none) :
    Marks s { s with builder := s.builder.annotate i } [i] :=
  ⟨s.builder.like_annotate result, Array.toList_push, fun _ _ kept => { kept with }, .of_eq rfl⟩

theorem trans (first : Marks s t marks) (second : Marks t u more) :
    Marks s u (marks ++ more) :=
  ⟨first.like.trans second.like,
    by rw [second.annotations, first.annotations, List.append_assoc],
    fun H b h => second.kept H b (first.kept H b h), first.remembers.trans second.remembers⟩

/-- Plain marks are acts. -/
theorem acts (marked : Marks s t marks) (accounts : t.accounts = s.accounts)
    (plain : ∀ i ∈ marks, i.IsPlainMark) : Acts H env s t := by
  induction marks generalizing s with
  | nil =>
    refine .single (.note marked.like ?_ (marked.kept H _) accounts marked.remembers)
    exact Array.toList_inj.1 (marked.annotations.trans (List.append_nil _))
  | cons i rest ih =>
    have first : Act H env s { s with builder := s.builder.annotate i } :=
      .annotate (plain i List.mem_cons_self)
    have fewer : ∀ j ∈ s.builder.module.preamble, j ∈ (s.builder.annotate i).module.preamble := by
      intro j hj
      simp only [Module.preamble, Builder.annotate, Array.toList_push, ← List.append_assoc]
      exact List.mem_append_left _ hj
    refine .head first (ih ⟨?_, ?_, fun H b kept => marked.kept H b { kept with },
      marked.remembers⟩ accounts fun i hi => plain i (List.mem_cons_of_mem _ hi))
    · exact ⟨marked.like.nextId, marked.like.function?, marked.like.block?, marked.like.functions,
        marked.like.globals, marked.like.imports, marked.like.entryPoints, marked.like.types,
        marked.like.constants, fun j hj => (marked.like.preamble j hj).imp_left (fewer j)⟩
    · rw [marked.annotations, Builder.annotate, Array.toList_push, List.append_assoc]
      rfl

/-- Marks that follow on the creation of a variable. -/
theorem creates {id : Id} {storage : StorageClass} (created : Creates H s t id storage marks)
    (second : Marks t u more) : Creates H s u id storage (marks ++ more) := by
  obtain ⟨pointer, initial?, known, like⟩ := created.built
  refine ⟨⟨pointer, initial?, known, like.trans second.like⟩, created.fresh, ?_, fun b h standing =>
    second.kept H b (created.kept b h standing), created.remembers.trans second.remembers⟩
  rw [second.annotations, created.marks, List.append_assoc]

end Marks

/-- A step that only leaves marks of some kind. -/
def Leaves {α : Type} (P : Instr → Prop) (env : Environment)
    (run : Environment → State → Except CompileError α × State) : Prop :=
  ∀ s a t, run env s = (.ok a, t) →
    ∃ marks, Marks s t marks ∧ t.accounts = s.accounts ∧ ∀ i ∈ marks, P i

namespace Leaves

variable {α β : Type} {P Q : Instr → Prop} {e : Emission α} {f : α → Emission β}

theorem imp {run : Environment → State → Except CompileError α × State} (h : Leaves P env run)
    (weaker : ∀ i, P i → Q i) : Leaves Q env run := by
  intro s a t ran
  obtain ⟨marks, marked, accounts, each⟩ := h s a t ran
  exact ⟨marks, marked, accounts, fun i hi => weaker i (each i hi)⟩

protected theorem pure {a : α} : Leaves P env (pure a : Emission α).run := by
  intro s a t ran
  cases ran
  exact ⟨[], .refl s, rfl, List.forall_mem_nil _⟩

protected theorem bind (first : Leaves P env e.run) (later : ∀ a, Leaves P env (f a).run) :
    Leaves P env (e >>= f).run := by
  intro s b u ran
  obtain ⟨a, t, ran, ran'⟩ := Emission.run_bind_eq_ok.1 ran
  obtain ⟨marks, marked, accounts, each⟩ := first s a t ran
  obtain ⟨more, marked', accounts', each'⟩ := later a t b u ran'
  exact ⟨marks ++ more, marked.trans marked', accounts'.trans accounts,
    List.forall_mem_append.2 ⟨each, each'⟩⟩

theorem read_bind {f : Environment → Emission β} (h : Leaves P env (f env).run) :
    Leaves P env (read >>= f : Emission β).run :=
  fun s d t ran => h s d t ran

theorem state_bind {f : State → Emission β} (h : ∀ s, Leaves P env (f s).run) :
    Leaves P env (Emission.state >>= f).run :=
  fun s d t ran => h s s d t ran

theorem ite {p : Prop} [Decidable p] {yes no : Emission α} (hyes : p → Leaves P env yes.run)
    (hno : ¬p → Leaves P env no.run) : Leaves P env (if p then yes else no).run := by
  split
  · next h => exact hyes h
  · next h => exact hno h

theorem annotate {i : Instr} (result : i.result? = none) (is : P i) :
    Leaves P env (Emission.annotate i).run := by
  intro s a t ran
  cases ran
  exact ⟨[i], .annotate s result, rfl, List.forall_mem_singleton.2 is⟩

/-- A change of names or capabilities. -/
theorem note {run : Environment → State → Except CompileError Unit × State} {g : State → State}
    (is : ∀ s, run env s = (.ok (), g s)) (like : ∀ s : State, s.builder.Like (g s).builder)
    (annotations : ∀ s : State,
      (g s).builder.module.annotations = s.builder.module.annotations)
    (kept : ∀ (s : State) (H : Limits) (b : Builder), s.Kept H b → (g s).Kept H b)
    (accounts : ∀ s : State, (g s).accounts = s.accounts)
    (remembers : ∀ s : State, s.Remembers (g s)) :
    Leaves P env run := by
  intro s a t ran
  rw [is] at ran
  cases ran
  exact ⟨[], ⟨like s, by rw [annotations, List.append_nil], kept s, remembers s⟩, accounts s,
    List.forall_mem_nil _⟩

/-- What only leaves plain marks. -/
theorem does {run : Environment → State → Except CompileError α × State}
    (h : Leaves Instr.IsPlainMark env run) : Does H env b run fun _ _ => True := by
  intro s a t _ _ ran
  obtain ⟨marks, marked, accounts, plain⟩ := h s a t ran
  exact ⟨marked.acts accounts plain, trivial⟩

theorem supplies {run : Environment → State → Except CompileError Unit × State}
    (h : Leaves Instr.IsPlainMark env run) : Supplies H env b run :=
  h.does

end Leaves

/-- A step that leaves marks of some kind and then ends in a certain way. -/
def Closes {α : Type} (P : Instr → Prop) (env : Environment)
    (run : Environment → State → Except CompileError α × State)
    (last : α → State → State → Prop) : Prop :=
  ∀ s a u, run env s = (.ok a, u) →
    ∃ t marks, Marks s t marks ∧ t.accounts = s.accounts ∧ (∀ i ∈ marks, P i) ∧ last a t u

namespace Closes

variable {α β : Type} {P : Instr → Prop} {e : Emission α} {f : α → Emission β}
  {last : β → State → State → Prop}

theorem of {run : Environment → State → Except CompileError β × State}
    (h : ∀ s a u, run env s = (.ok a, u) → last a s u) : Closes P env run last :=
  fun s a u ran => ⟨s, [], .refl s, rfl, List.forall_mem_nil _, h s a u ran⟩

protected theorem bind (first : Leaves P env e.run) (later : ∀ a, Closes P env (f a).run last) :
    Closes P env (e >>= f).run last := by
  intro s b u ran
  obtain ⟨a, t, ran, ran'⟩ := Emission.run_bind_eq_ok.1 ran
  obtain ⟨marks, marked, accounts, each⟩ := first s a t ran
  obtain ⟨v, more, marked', accounts', each', ends⟩ := later a t b u ran'
  exact ⟨v, marks ++ more, marked.trans marked', accounts'.trans accounts,
    List.forall_mem_append.2 ⟨each, each'⟩, ends⟩

/-- A step that may be left out, and what comes after it in any case. -/
theorem optional {p : Prop} [Decidable p] {step : Emission Unit} {rest : Unit → Emission β}
    (leaves : p → Leaves P env step.run) (later : Closes P env (rest ()).run last) :
    Closes P env (if p then step >>= rest else rest ()).run last := by
  split
  · next h => exact .bind (leaves h) fun _ => later
  · exact later

end Closes

theorem Spirv.Decoration.code_inj {a b : Decoration} (same : a.code = b.code) : a = b := by
  cases a <;> cases b <;> first | rfl | exact absurd same (by decide)

namespace Lower

variable {P : Instr → Prop}

theorem isPlainMark_decorate (id : Id) {d : Decoration} (plain : d.isSpecial = false)
    (args : List Arg) : Instr.IsPlainMark (.plain .decorate (.id id :: .word d.code :: args)) := by
  refine ⟨rfl, fun id' d' args' same => ?_⟩
  obtain ⟨-, code⟩ : id = id' ∧ d.code = d'.code ∧ args = args' := by
    simpa only [Instr.plain, Instr.mk.injEq, List.cons.injEq, Arg.id.injEq, Arg.word.injEq,
      true_and] using same
  rwa [← Spirv.Decoration.code_inj code.1]

theorem decorate_leaves {id : Id} {d : Decoration} {args : List Arg}
    (is : P (.plain .decorate (.id id :: .word d.code :: args))) :
    Leaves P env (decorate id d args).run :=
  .annotate rfl is

@[grind ←]
theorem decorate_plain (id : Id) {d : Decoration} (plain : d.isSpecial = false)
    (args : List Arg) : Leaves Instr.IsPlainMark env (decorate id d args).run :=
  .annotate rfl (isPlainMark_decorate id plain args)

@[grind ←]
theorem decorateMember_plain (id : Id) (member : UInt32) (d : Decoration) (args : List Arg) :
    Leaves Instr.IsPlainMark env (decorateMember id member d args).run :=
  .annotate rfl ⟨rfl, fun _ _ _ same => by cases same⟩

@[grind ←]
theorem name_leaves (id : Id) (text : String) : Leaves P env (name id text).run :=
  .read_bind <| .ite (fun _ => .pure) fun _ =>
    .note (fun _ => rfl) (fun s => ⟨rfl, rfl, rfl, rfl, rfl, rfl, rfl, rfl, rfl,
      by grind [Module.mem_preamble, Instr.plain]⟩) (fun _ => rfl)
      (fun _ _ _ kept => { kept with }) (fun _ => rfl) fun _ => .of_eq rfl

@[grind ←]
theorem requireCapability_leaves (c : Capability) : Leaves P env (requireCapability c).run :=
  .state_bind fun _ => .ite (fun _ => .pure) fun _ =>
    .note (fun _ => rfl) (fun s => ⟨rfl, rfl, rfl, rfl, rfl, rfl, rfl, rfl, rfl,
      by grind [Module.mem_preamble, Instr.plain]⟩) (fun _ => rfl)
      (fun _ _ _ kept => { kept with }) (fun _ => rfl) fun _ => .of_eq rfl

@[grind ←]
theorem requireExtension_leaves (text : String) : Leaves P env (requireExtension text).run :=
  .state_bind fun _ => .ite (fun _ => .pure) fun _ =>
    .note (fun _ => rfl) (fun s => ⟨rfl, rfl, rfl, rfl, rfl, rfl, rfl, rfl, rfl,
      by grind [Module.mem_preamble, Instr.plain]⟩) (fun _ => rfl)
      (fun _ _ _ kept => { kept with }) (fun _ => rfl) fun _ => .of_eq rfl

@[grind ←]
theorem requireExtensionBefore_leaves (major minor : UInt8) (text : String) :
    Leaves P env (requireExtensionBefore major minor text).run :=
  .read_bind <| .ite (fun _ => .pure) fun _ => requireExtension_leaves text

@[grind ←]
theorem decorate_supplies (id : Id) {d : Decoration} (plain : d.isSpecial = false)
    (args : List Arg) : Supplies H env b (decorate id d args).run :=
  (decorate_plain id plain args).supplies

@[grind ←]
theorem requireCapability_supplies (c : Capability) :
    Supplies H env b (requireCapability c).run :=
  (requireCapability_leaves c).supplies

@[grind ←]
theorem requireExtensionBefore_supplies (major minor : UInt8) (text : String) :
    Supplies H env b (requireExtensionBefore major minor text).run :=
  (requireExtensionBefore_leaves major minor text).supplies

end Lower

/-- A step after which nothing else is accounted for. -/
def IsQuiet {α : Type} (env : Environment)
    (run : Environment → State → Except CompileError α × State) : Prop :=
  ∀ s a t, run env s = (.ok a, t) → t.accounts = s.accounts

namespace IsQuiet

variable {α β : Type} {e : Emission α} {f : α → Emission β}

theorem of_leaves {P : Instr → Prop}
    {run : Environment → State → Except CompileError α × State} (h : Leaves P env run) :
    IsQuiet env run := by
  intro s a t ran
  obtain ⟨_, _, accounts, _⟩ := h s a t ran
  exact accounts

@[grind ←]
protected theorem pure {a : α} : IsQuiet env (pure a : Emission α).run := by
  intro s a t ran
  cases ran
  rfl

@[grind ←]
protected theorem bind (first : IsQuiet env e.run) (later : ∀ a, IsQuiet env (f a).run) :
    IsQuiet env (e >>= f).run := by
  intro s b u ran
  obtain ⟨a, t, ran, ran'⟩ := Emission.run_bind_eq_ok.1 ran
  exact (later a t b u ran').trans (first s a t ran)

@[grind ←]
theorem read_bind {f : Environment → Emission β} (h : IsQuiet env (f env).run) :
    IsQuiet env (read >>= f : Emission β).run :=
  fun s d t ran => h s d t ran

@[grind ←]
theorem state_bind {f : State → Emission β} (h : ∀ s, IsQuiet env (f s).run) :
    IsQuiet env (Emission.state >>= f).run :=
  fun s d t ran => h s s d t ran

@[grind ←]
theorem declare (key : Key) : IsQuiet env (Emission.declare key).run := by
  intro s a t ran
  cases ran
  rfl

@[grind ←]
theorem declareNew (op : Op) (type? : Option Id) (args : List Arg) :
    IsQuiet env (Emission.declareNew op type? args).run := by
  intro s a t ran
  cases ran
  rfl

@[grind ←]
theorem annotate (i : Instr) : IsQuiet env (Emission.annotate i).run := by
  intro s a t ran
  cases ran
  rfl

theorem note {run : Environment → State → Except CompileError Unit × State} {g : State → State}
    (is : ∀ s, run env s = (.ok (), g s)) (accounts : ∀ s : State, (g s).accounts = s.accounts) :
    IsQuiet env run := by
  intro s a t ran
  rw [is] at ran
  cases ran
  exact accounts s

end IsQuiet

/-- A run from a given state consists of acts, and what it gives is as promised. -/
def Runs {α : Type} (H : Limits) (env : Environment) (s : State)
    (run : Environment → State → Except CompileError α × State) (post : α → State → Prop) : Prop :=
  ∀ a t, Ready H s → run env s = (.ok a, t) → Acts H env s t ∧ post a t

namespace Runs

variable {α β : Type} {e : Emission α} {f : α → Emission β} {q : α → State → Prop}
  {post : β → State → Prop}

/-- A step that leaves the accounts alone. -/
theorem of_quiet {run : Environment → State → Except CompileError α × State}
    {fact : α → Builder → Prop} (does : Does H env b run fact) (quiet : IsQuiet env run)
    (outgrown : b.Within s.builder) :
    Runs H env s run fun a t => fact a t.builder ∧ t.accounts = s.accounts := by
  intro a t ready ran
  obtain ⟨acts, is⟩ := does s a t ready outgrown ran
  exact ⟨acts, is, quiet s a t ran⟩

protected theorem bind (first : Runs H env s e.run q)
    (later : ∀ a t, s.builder.Within t.builder → q a t → Runs H env t (f a).run post) :
    Runs H env s (e >>= f).run post := by
  intro a u ready ran
  obtain ⟨a, t, ran, ran'⟩ := Emission.run_bind_eq_ok.1 ran
  obtain ⟨acts, is⟩ := first a t ready ran
  obtain ⟨acts', is'⟩ := later a t acts.within is _ u (acts.ready ready) ran'
  exact ⟨acts.trans acts', is'⟩

protected theorem pure {a : α} {post : α → State → Prop} (h : post a s) :
    Runs H env s (pure a : Emission α).run post := by
  intro a t _ ran
  cases ran
  exact ⟨.refl, h⟩

theorem imp {run : Environment → State → Except CompileError α × State} {post : α → State → Prop}
    (h : Runs H env s run q) (weaker : ∀ a t, q a t → post a t) : Runs H env s run post := by
  intro a t ready ran
  obtain ⟨acts, is⟩ := h a t ready ran
  exact ⟨acts, weaker a t is⟩

theorem read_bind {f : Environment → Emission β} (h : Runs H env s (f env).run post) :
    Runs H env s (read >>= f : Emission β).run post :=
  fun d t ready ran => h d t ready ran

theorem state_bind {f : State → Emission β} (h : Runs H env s (f s).run post) :
    Runs H env s (Emission.state >>= f).run post :=
  fun d t ready ran => h d t ready ran

theorem ite {p : Prop} [Decidable p] {yes no : Emission α} {post : α → State → Prop}
    (hyes : p → Runs H env s yes.run post) (hno : ¬p → Runs H env s no.run post) :
    Runs H env s (if p then yes else no).run post := by
  split
  · next h => exact hyes h
  · next h => exact hno h

/-- One step or another, and what comes after it in any case. -/
theorem choose {p : Prop} [Decidable p] {yes no : Emission α}
    (first : Runs H env s (if p then yes else no).run q)
    (later : ∀ a t, s.builder.Within t.builder → q a t → Runs H env t (f a).run post) :
    Runs H env s (if p then yes >>= f else no >>= f).run post := by
  split
  · next h =>
    rw [if_pos h] at first
    exact first.bind later
  · next h =>
    rw [if_neg h] at first
    exact first.bind later

/-- A step that leaves the accounts alone, and what comes after it. -/
theorem quiet {fact : α → Builder → Prop} (does : Does H env s.builder e.run fact)
    (quiet : IsQuiet env e.run)
    (later : ∀ a t, s.builder.Within t.builder → fact a t.builder → t.accounts = s.accounts →
      Runs H env t (f a).run post) : Runs H env s (e >>= f).run post :=
  .bind (of_quiet does quiet (.refl _)) fun a t within is => later a t within is.1 is.2

theorem of_supplies [Refers α] {run : Environment → State → Except CompileError α × State}
    (supplies : Supplies H env s.builder run) :
    Runs H env s run fun a t => Known H t.builder a :=
  fun a t ready ran => supplies s a t ready (.refl _) ran

/-- A step that gives no register a shape, and what comes after it. -/
theorem shapeless {fact : α → Builder → Prop} (does : Does H env s.builder e.run fact)
    (shapeless : IsShapeless e)
    (later : ∀ a t, s.builder.Within t.builder → fact a t.builder → t.shape? = s.shape? →
      Runs H env t (f a).run post) : Runs H env s (e >>= f).run post := by
  refine .bind (q := fun a t => fact a t.builder ∧ t.shape? = s.shape?) (fun a t ready ran => ?_)
    fun a t within is => later a t within is.1 is.2
  obtain ⟨acts, is⟩ := does s a t ready (.refl _) ran
  exact ⟨acts, is, shapeless env s a t ran⟩

/-- A change of tables that are not accounted for. -/
theorem note {g : State → State} {same : ∀ s : State, s.SameOutline (g s)}
    {keeps : ∀ s : State, s.SameInterface (g s)} (builder : (g s).builder = s.builder)
    (kept : s.Kept H s.builder → (g s).Kept H s.builder) (accounts : (g s).accounts = s.accounts)
    (remembers : s.Remembers (g s)) :
    Runs H env s (Emission.note g same keeps).run fun _ _ => True := by
  intro a t _ ran
  cases ran
  refine ⟨.single (.note ?_ ?_ kept accounts remembers), trivial⟩
  · rw [builder]
    exact .refl _
  · rw [builder]

theorem does {run : Environment → State → Except CompileError α × State}
    {fact : α → Builder → Prop}
    (h : ∀ s, Ready H s → b.Within s.builder → Runs H env s run fun a t => fact a t.builder) :
    Does H env b run fact :=
  fun s a t ready outgrown ran => h s ready outgrown a t ready ran

end Runs

end ShaderLowering
