import ShaderLowering.Proofs.Decoration.Marks
import ShaderLowering.Proofs.Naming.Steps

/-!
What is asked of all steps, said once of each. A neat step complains of nothing but what it may
complain of, marks nothing but what it makes itself or is told to mark, and does not go by debug
names. The rules here say that neat steps make neat steps, of whatever kind they are, so that one
statement about each step of the lowering is enough for the errors of a compile, the decorations of
a module and the stripping of its names.
-/

namespace ShaderLowering

open Spirv (Id Arg Instr Op StorageClass Annotation Decoration)

/-- A kind of steps, with what running them comes to. -/
class Stepping (m : Type → Type) [Monad m] [MonadReader Environment m] where
  run {α : Type} : m α → Environment → State → Except CompileError α × State
  run_pure {α : Type} (a : α) (env : Environment) (s : State) : run (pure a) env s = (.ok a, s)
  run_bind {α β : Type} (e : m α) (f : α → m β) (env : Environment) (s : State) :
    run (e >>= f) env s = Lower.andThen (run e env s) fun a t => run (f a) env t
  run_read (env : Environment) (s : State) : run read env s = (.ok env, s)

instance : Stepping Emission where
  run e := e.run
  run_pure _ _ _ := rfl
  run_bind _ _ _ _ := rfl
  run_read _ _ := rfl

instance : Stepping InterfaceStep where
  run e := e.run
  run_pure _ _ _ := rfl
  run_bind _ _ _ _ := rfl
  run_read _ _ := rfl

instance : Stepping Lower where
  run := Lower.result
  run_pure _ _ _ := rfl
  run_bind e f env s := Lower.result_bind env s e f
  run_read _ _ := rfl

section

variable {m : Type → Type} [Monad m] [MonadReader Environment m] [Stepping m] {α : Type}

/-- A step that complains of nothing but `ok`, and does not go by debug names. -/
structure Modest (ok : CompileError → Prop) (e : m α) : Prop where
  reports : Reports ok (Stepping.run e)
  blind : Blind (Stepping.run e)

/-- A modest step that puts at most the marks `old` on ids that it has not taken itself. -/
structure Neat (ok : CompileError → Prop) (old : List Annotation) (e : m α) : Prop
    extends Modest ok e where
  decorates : ∀ env, Decorates old env (Stepping.run e)

/-- A modest step that takes an id, and marks it with nothing but the decorations `ds`. -/
structure Makes (ok : CompileError → Prop) (ds : List Decoration) (out : α → Id) (e : m α) : Prop
    extends Modest ok e where
  takes : ∀ env, Takes ds out env (Stepping.run e)

end

section Rules

variable {m : Type → Type} [Monad m] [MonadReader Environment m] [Stepping m] {α β γ : Type}
  {ok : CompileError → Prop} {old old' : List Annotation} {e : m α} {f : α → m β}

theorem Stepping.run_bind_eq (e : m α) (f : α → m β) : Stepping.run (e >>= f) =
    fun env s => Lower.andThen (Stepping.run e env s) fun a t => Stepping.run (f a) env t :=
  funext fun env => funext fun s => Stepping.run_bind e f env s

namespace Modest

/-- What comes after a step may rely on what the step yields. -/
theorem bind_of (first : Modest ok e) (later : ∀ a, MayYield (Stepping.run e) a → Modest ok (f a)) :
    Modest ok (e >>= f) := by
  constructor
  · rw [Stepping.run_bind_eq]
    exact first.reports.andThen fun a given => (later a given).reports
  · rw [Stepping.run_bind_eq]
    exact first.blind.andThen fun a given => (later a given).blind

protected theorem bind (first : Modest ok e) (later : ∀ a, Modest ok (f a)) :
    Modest ok (e >>= f) :=
  first.bind_of fun a _ => later a

theorem ite {p : Prop} [Decidable p] {e e' : m α} (yes : Modest ok e) (no : Modest ok e') :
    Modest ok (if p then e else e') := by
  split
  · exact yes
  · exact no

/-- What looks at something looks at something else than the names. -/
theorem look {e : m α} {f : Environment → State → m α}
    (is : ∀ env s, Stepping.run e env s = Stepping.run (f env s) env s)
    (same : ∀ env s, f env.unnamed s.unnamed = f env s) (later : ∀ env s, Modest ok (f env s)) :
    Modest ok e where
  reports env s err failed := (later env s).reports env s err (is env s ▸ failed)
  blind.same env s := by
    rw [is, is, same]
    exact (later env s).blind.same env s
  blind.apart env s h := by
    rw [is]
    exact (later env s).blind.apart env s h

theorem state_bind {f : State → Emission β} (later : ∀ s, Modest ok (f s))
    (same : ∀ s : State, f s.unnamed = f s) : Modest ok (Emission.state >>= f) :=
  look (f := fun _ => f) (fun _ _ => rfl) (fun _ => same) fun _ => later

theorem get_bind {f : State → Lower β} (later : ∀ s, Modest ok (f s))
    (same : ∀ s : State, f s.unnamed = f s) : Modest ok (get >>= f) :=
  look (f := fun _ => f) (fun _ _ => rfl) (fun _ => same) fun _ => later

end Modest

/-- A change of the builder that leaves declarations and marks alone. -/
def Spirv.Builder.Around (b c : Spirv.Builder) : Prop :=
  b.nextId ≤ c.nextId ∧ c.module.annotations = b.module.annotations ∧
    c.module.globals = b.module.globals

namespace Neat

/-- Fewer marks than a step is told to put on. -/
theorem mono (h : Neat ok old e) (fewer : old.Sublist old') : Neat ok old' e :=
  ⟨h.toModest, fun env => (h.decorates env).mono fewer⟩

@[grind ←]
protected theorem pure (a : α) : Neat ok [] (pure a : m α) where
  reports := .of_ok fun env s => ⟨a, congrArg Prod.fst (Stepping.run_pure a env s)⟩
  blind.same env s := by rw [Stepping.run_pure, Stepping.run_pure]
  blind.apart env s h := by rwa [Stepping.run_pure]
  decorates env := .of_same fun s b t ran => by
    rw [Stepping.run_pure] at ran
    cases ran
    rfl

/-- Marks of one step and marks of another. -/
theorem bind_marks (first : Neat ok old e) (later : ∀ a, Neat ok old' (f a)) :
    Neat ok (old ++ old') (e >>= f) where
  toModest := first.toModest.bind fun a => (later a).toModest
  decorates env := by
    rw [Stepping.run_bind_eq]
    exact (first.decorates env).andThen fun a _ _ _ => (later a).decorates env

/-- What comes after a step may rely on what the step yields. -/
theorem bind_of (first : Neat ok [] e)
    (later : ∀ a, MayYield (Stepping.run e) a → Neat ok old (f a)) : Neat ok old (e >>= f) where
  toModest := first.toModest.bind_of fun a given => (later a given).toModest
  decorates env := by
    rw [Stepping.run_bind_eq]
    exact (first.decorates env).andThen fun a s t ran => (later a ⟨env, s, t, ran⟩).decorates env

@[grind ←]
protected theorem bind (first : Neat ok [] e) (later : ∀ a, Neat ok old (f a)) :
    Neat ok old (e >>= f) :=
  first.bind_of fun a _ => later a

theorem pure_bind {a : α} (later : Neat ok old (f a)) : Neat ok old (pure a >>= f) := by
  refine .bind_of (.pure a) fun b given => ?_
  obtain ⟨env, s, t, ran⟩ := given
  rw [Stepping.run_pure] at ran
  cases ran
  exact later

theorem ite {p : Prop} [Decidable p] {e e' : m α} (yes : Neat ok old e) (no : Neat ok old e') :
    Neat ok old (if p then e else e') := by
  split
  · exact yes
  · exact no

/-- A step that is only taken under a condition, and what comes after it in any case. -/
theorem optional_marks {p : Prop} [Decidable p] {e : m PUnit} {f : PUnit → m β}
    (first : Neat ok old e) (later : Neat ok old' (f ⟨⟩)) :
    Neat ok (old ++ old') (if p then e >>= f else f ⟨⟩) :=
  .ite (first.bind_marks fun _ => later) (later.mono (List.sublist_append_right old old'))

/-- A step that is taken unless a condition holds, and what comes after it in any case. -/
theorem skip_marks {p : Prop} [Decidable p] {e : m PUnit} {f : PUnit → m β}
    (first : Neat ok old e) (later : Neat ok old' (f ⟨⟩)) :
    Neat ok (old ++ old') (if p then f ⟨⟩ else e >>= f) :=
  .ite (later.mono (List.sublist_append_right old old')) (first.bind_marks fun _ => later)

theorem optional {p : Prop} [Decidable p] {e : m PUnit} {f : PUnit → m β} (first : Neat ok [] e)
    (later : Neat ok old (f ⟨⟩)) : Neat ok old (if p then e >>= f else f ⟨⟩) :=
  first.optional_marks later

/-- One step or another, and what comes after it in any case. -/
theorem choose {p : Prop} [Decidable p] {e e' : m α} {f : α → m β} (yes : Neat ok [] e)
    (no : Neat ok [] e') (later : ∀ a, Neat ok old (f a)) :
    Neat ok old (if p then e >>= f else e' >>= f) :=
  .ite (.bind yes later) (.bind no later)

/-- What looks at something looks at something else than the names. -/
theorem look {e : m α} {f : Environment → State → m α}
    (is : ∀ env s, Stepping.run e env s = Stepping.run (f env s) env s)
    (same : ∀ env s, f env.unnamed s.unnamed = f env s) (later : ∀ env s, Neat ok old (f env s)) :
    Neat ok old e where
  toModest := .look is same fun env s => (later env s).toModest
  decorates env s a t bare older ran :=
    (later env s).decorates env s a t bare older (is env s ▸ ran)

@[grind ←]
theorem read_bind {f : Environment → m β} (later : ∀ env, Neat ok old (f env))
    (same : ∀ env : Environment, f env.unnamed = f env) : Neat ok old (read >>= f) := by
  refine look (f := fun env _ => f env) (fun env s => ?_) (fun env _ => same env) fun env _ =>
    later env
  rw [Stepping.run_bind, Stepping.run_read]
  rfl

@[grind ←]
theorem state_bind {f : State → Emission β} (later : ∀ s, Neat ok old (f s))
    (same : ∀ s : State, f s.unnamed = f s) : Neat ok old (Emission.state >>= f) :=
  look (f := fun _ => f) (fun _ _ => rfl) (fun _ => same) fun _ => later

/-- The state, looked at by a step that may declare registers. -/
@[grind ←]
theorem stateInterface_bind {f : State → InterfaceStep β} (later : ∀ s, Neat ok old (f s))
    (same : ∀ s : State, f s.unnamed = f s) : Neat ok old (liftM Emission.state >>= f) :=
  look (f := fun _ => f) (fun _ _ => rfl) (fun _ => same) fun _ => later

@[grind ←]
theorem get_bind {f : State → Lower β} (later : ∀ s, Neat ok old (f s))
    (same : ∀ s : State, f s.unnamed = f s) : Neat ok old (get >>= f) :=
  look (f := fun _ => f) (fun _ _ => rfl) (fun _ => same) fun _ => later

theorem forInMem {f : γ → β → m (ForInStep β)} {list : List γ} {b : β}
    (each : ∀ c ∈ list, ∀ b, Neat ok [] (f c b)) : Neat ok [] (ForIn.forIn list b f) := by
  induction list generalizing b with
  | nil => exact .pure b
  | cons c rest ih =>
    rw [List.forIn_cons]
    refine .bind (each c List.mem_cons_self b) fun r => ?_
    cases r with
    | done b => exact .pure b
    | yield b => exact ih fun c mem => each c (List.mem_cons_of_mem _ mem)

@[grind ←]
theorem forIn {f : γ → β → m (ForInStep β)} (each : ∀ c b, Neat ok [] (f c b)) (list : List γ)
    (b : β) : Neat ok [] (ForIn.forIn list b f) :=
  forInMem fun c _ => each c

theorem mapMMem {f : α → Emission β} {list : List α} (each : ∀ a ∈ list, Neat ok [] (f a)) :
    Neat ok [] (list.mapM f) := by
  induction list with
  | nil =>
    rw [List.mapM_nil]
    exact .pure []
  | cons a rest ih =>
    rw [List.mapM_cons]
    refine .bind (each a List.mem_cons_self) fun _ => ?_
    exact .bind (ih fun b mem => each b (List.mem_cons_of_mem _ mem)) fun _ => .pure _

@[grind ←]
theorem mapM {f : α → Emission β} (each : ∀ a, Neat ok [] (f a)) (list : List α) :
    Neat ok [] (list.mapM f) :=
  mapMMem fun a _ => each a

@[grind ←]
theorem mapM? {f : α → Emission β} (each : ∀ a, Neat ok [] (f a)) (a? : Option α) :
    Neat ok [] (a?.mapM f) := by
  cases a? with
  | none => exact .pure none
  | some a => exact .bind (each a) fun _ => .pure _

/-- An ordinary step among those that may declare registers. -/
@[grind ←]
theorem liftInterface {e : Emission α} (h : Neat ok old e) :
    Neat ok old (liftM e : InterfaceStep α) :=
  ⟨⟨h.reports, h.blind⟩, h.decorates⟩

/-- An ordinary step among steps of any kind. -/
@[grind ←]
theorem lift {e : Emission α} (h : Neat ok old e) : Neat ok old (liftM e : Lower α) :=
  ⟨⟨h.reports, h.blind⟩, h.decorates⟩

/-- A step that may declare registers among steps of any kind. -/
@[grind ←]
theorem liftDeclaring {e : InterfaceStep α} (h : Neat ok old e) :
    Neat ok old (liftM e : Lower α) :=
  ⟨⟨h.reports, h.blind⟩, h.decorates⟩

/-- A change that has nothing to do with the builder, nor with the block of dwords. -/
theorem of_change {e : m Unit} {g : State → State}
    (is : ∀ env s, Stepping.run e env s = (.ok (), g s))
    (aside : ∀ s b, g { s with builder := b } = { g s with builder := b })
    (block : ∀ s, (g s).storageBlock? = s.storageBlock?) : Neat ok [] e := by
  have builder (s : State) : (g s).builder = s.builder := by
    have same := congrArg State.builder (aside s s.builder)
    exact same
  refine ⟨⟨.of_ok fun env s => ⟨(), congrArg Prod.fst (is env s)⟩, ?_, ?_⟩, fun env => ?_⟩
  · intro env s
    rw [is, is]
    refine Prod.ext rfl ((aside s s.builder.unnamed).trans ?_)
    rw [← builder]
    rfl
  · intro env s h
    rw [is]
    change (g s).builder.module.NamesApart
    rw [builder]
    exact h
  · refine .of_change (g := g) (fun s a t ran => ?_) (fun s => ?_) (fun s => ?_) (fun s => ?_) block
    · rw [is] at ran
      cases ran
      rfl
    all_goals rw [builder]

@[grind ←]
theorem note {g : State → State} {outline : ∀ s : State, s.SameOutline (g s)}
    {keeps : ∀ s : State, s.SameInterface (g s)}
    (aside : ∀ s b, g { s with builder := b } = { g s with builder := b })
    (block : ∀ s, (g s).storageBlock? = s.storageBlock?) :
    Neat ok [] (Emission.note g outline keeps) :=
  .of_change (fun _ _ => rfl) aside block

@[grind ←]
theorem modify {g : State → State}
    (aside : ∀ s b, g { s with builder := b } = { g s with builder := b })
    (block : ∀ s, (g s).storageBlock? = s.storageBlock?) : Neat ok [] (modify g : Lower Unit) :=
  .of_change (fun _ _ => rfl) aside block

/-- A change of the builder that leaves declarations and marks alone. -/
theorem of_build {e : m Unit} {g : State → State}
    (is : ∀ env s, Stepping.run e env s = (.ok (), g s))
    (same : ∀ s : State, g s.unnamed = (g s).unnamed)
    (apart : ∀ s : State, s.NamesApart → (g s).NamesApart)
    (around : ∀ s : State, s.builder.Around (g s).builder)
    (block : ∀ s, (g s).storageBlock? = s.storageBlock?) : Neat ok [] e where
  reports := .of_ok fun env s => ⟨(), congrArg Prod.fst (is env s)⟩
  blind.same env s := by
    rw [is, is, same]
  blind.apart env s h := by
    rw [is]
    exact apart s h
  decorates env := .of_run fun s a t ran => by
    rw [is] at ran
    cases ran
    obtain ⟨nextId, annotations, globals⟩ := around s
    rw [globals]
    exact ⟨⟨nextId, annotations, block s⟩, fun _ h => h, fun _ => .inl⟩

/-- Something put down in the module that is neither a declaration nor a mark. -/
theorem noteModule {g : State → State} {outline : ∀ s : State, s.SameOutline (g s)}
    {keeps : ∀ s : State, s.SameInterface (g s)}
    (same : ∀ s : State, g s.unnamed = (g s).unnamed)
    (apart : ∀ s : State, s.NamesApart → (g s).NamesApart)
    (block : ∀ s, (g s).storageBlock? = s.storageBlock?) :
    Neat ok [] (Emission.note g outline keeps) :=
  .of_build (fun _ _ => rfl) same apart (fun s => ⟨Nat.le_of_eq (outline s).nextId.symm,
    (outline s).annotations, (outline s).globals⟩) block

@[grind ←]
theorem setStage (stage : StageState) (notHull : stage.hull? = none) :
    Neat ok [] (Emission.setStage stage notHull) :=
  .of_change (g := fun s => { s with stage := s.stage.become stage }) (fun _ _ => rfl)
    (fun _ _ => rfl) fun _ => rfl

@[grind ←]
theorem fresh : Neat ok [] Emission.fresh :=
  ⟨⟨.of_ok fun _ _ => ⟨_, rfl⟩, fun _ _ => rfl, fun _ _ h => h⟩, fun _ => .fresh⟩

theorem declare {key : Spirv.Key} (other : key.op.isUnsized = false) :
    Neat ok [] (Emission.declare key) :=
  ⟨⟨.of_ok fun _ _ => ⟨_, rfl⟩, .declare key⟩, fun _ => .declare other⟩

@[grind ←]
theorem newTemp (pointer : Id) : Neat ok [] (Emission.newTemp pointer) :=
  ⟨⟨.of_ok fun _ _ => ⟨_, rfl⟩, .newTemp pointer⟩, fun _ => .newTemp pointer⟩

theorem annotate {i : Instr} {k : Annotation} (is : i.mark? = some k)
    (other : i.isName = false) : Neat ok [k] (Emission.annotate i) :=
  ⟨⟨.of_ok fun _ _ => ⟨_, rfl⟩, fun _ _ => rfl,
    fun _ _ h => Spirv.Builder.namesApart_annotate h other⟩, fun _ => .annotate is⟩

@[grind ←]
theorem push [Refusing ok] {op : Op} (type? result? : Option Id) (args : List Arg)
    (other : op.isName = false) : Neat ok [] (Emission.push op type? result? args) :=
  ⟨⟨.push op type? result? args, .push type? result? args other⟩,
    fun _ => .push op type? result? args⟩

theorem fail {err : CompileError} {own : ∀ b, err ≠ .builder b} (h : ok err) :
    Neat ok [] (Emission.fail err own : Emission α) where
  reports := .fail h
  blind := ⟨fun _ _ => rfl, fun _ _ h => h⟩
  decorates _ _ _ _ _ _ ran := by cases ran

theorem failWith_of {fault : Fault} (h : ok (.fault fault)) :
    Neat ok [] (Lower.failWith fault : Emission α) :=
  .fail h

theorem orFault_of {a? : Option α} {fault : Fault} (h : a? = none → ok (.fault fault)) :
    Neat ok [] (Lower.orFault a? fault) := by
  cases a? with
  | none => exact failWith_of (h rfl)
  | some a => exact .pure a

@[grind ←]
theorem failWith [Reporting ok] {fault : Fault} (plain : fault.isShortage = false) :
    Neat ok [] (Lower.failWith fault : Emission α) :=
  failWith_of (Reporting.fault fault plain)

@[grind ←]
theorem orFault [Reporting ok] {a? : Option α} {fault : Fault} (plain : fault.isShortage = false) :
    Neat ok [] (Lower.orFault a? fault) :=
  orFault_of fun _ => Reporting.fault fault plain

@[grind ←]
theorem unsupported [Reporting ok] (inst : Instruction) :
    Neat ok [] (Lower.unsupported inst : Emission α) :=
  .read_bind (fun _ => .fail (Reporting.unsupported _ _ _)) fun _ => rfl

theorem tryBuild [Refusing ok] {f : Spirv.Builder → Except Spirv.BuildError Spirv.Builder}
    (h : Spirv.Builder.Blind f) (around : ∀ b c, f b = .ok c → b.Around c) :
    Neat ok [] (Lower.tryBuild f) where
  reports := .tryBuild f
  blind := .tryBuild h
  decorates env := .of_run fun s a t ran => by
    rw [show Stepping.run (Lower.tryBuild f) = Lower.result (Lower.tryBuild f) from rfl,
      Lower.result_tryBuild] at ran
    split at ran
    · next c built =>
      cases ran
      obtain ⟨nextId, annotations, globals⟩ := around _ _ built
      dsimp only
      rw [globals]
      exact ⟨⟨nextId, annotations, rfl⟩, fun _ h => h, fun _ => .inl⟩
    · cases ran

end Neat

namespace Makes

variable {ds ds' : List Decoration} {out : α → Id} {out' : β → Id}

theorem neat (h : Makes ok ds out e) : Neat ok [] e :=
  ⟨h.toModest, fun env => (h.takes env).decorates⟩

theorem mono (h : Makes ok ds out e) (fewer : ds.Sublist ds') : Makes ok ds' out e :=
  ⟨h.toModest, fun env => (h.takes env).mono fewer⟩

/-- What is made may be decorated, in each way once. -/
protected theorem bind (first : Makes ok ds out e) (ds' : List Decoration)
    (once : (ds ++ ds').Nodup) (loose : .noContraction ∉ ds')
    (later : ∀ a, Neat ok (ds'.map (·.on (out a))) (f a)) : Neat ok [] (e >>= f) where
  toModest := first.toModest.bind fun a => (later a).toModest
  decorates env := by
    rw [Stepping.run_bind_eq]
    exact (first.takes env).andThen once loose fun a => (later a).decorates env

/-- What is made, handed on by a step that decorates it. -/
theorem onward (first : Makes ok ds out e) (ds' : List Decoration) (once : (ds ++ ds').Nodup)
    (loose : .noContraction ∉ ds') (later : ∀ a, Neat ok (ds'.map (·.on (out a))) (f a))
    (same : ∀ a env s b t, Stepping.run (f a) env s = (.ok b, t) → out' b = out a) :
    Makes ok (ds ++ ds') out' (e >>= f) where
  toModest := first.toModest.bind fun a => (later a).toModest
  takes env := by
    rw [Stepping.run_bind_eq]
    exact (first.takes env).onward once loose (fun a => (later a).decorates env) fun a => same a env

/-- An id that is taken behind another step. -/
theorem after (first : Neat ok [] e) (later : ∀ a, Makes ok ds out' (f a)) :
    Makes ok ds out' (e >>= f) where
  toModest := first.toModest.bind fun a => (later a).toModest
  takes env := by
    rw [Stepping.run_bind_eq]
    exact .after (first.decorates env) fun a => (later a).takes env

theorem read_bind {f : Environment → m β} (later : ∀ env, Makes ok ds out' (f env))
    (same : ∀ env : Environment, f env.unnamed = f env) : Makes ok ds out' (read >>= f) where
  toModest := by
    refine .look (f := fun env _ => f env) (fun env s => ?_) (fun env _ => same env) fun env _ =>
      (later env).toModest
    rw [Stepping.run_bind, Stepping.run_read]
    rfl
  takes env s a t bare ran := by
    rw [Stepping.run_bind, Stepping.run_read] at ran
    exact (later env).takes env s a t bare ran

theorem declareNew {op : Op} (other : op.isUnsized = false) (named : op.isName = false)
    (type? : Option Id) (args : List Arg) :
    Makes ok [] id (Emission.declareNew op type? args) :=
  ⟨⟨.of_ok fun _ _ => ⟨_, rfl⟩, fun _ _ => rfl,
    fun _ _ h => Spirv.Builder.namesApart_declareNew h named type? args⟩,
    fun _ => .declareNew other type? args⟩

theorem newVariable (pointer : Id) (storage : StorageClass) (initial? : Option Id) :
    Makes ok [] id (Emission.newVariable pointer storage initial?) :=
  ⟨⟨.of_ok fun _ _ => ⟨_, rfl⟩, .newVariable pointer storage initial?⟩,
    fun _ => .newVariable pointer storage initial?⟩

end Makes

end Rules

end ShaderLowering
