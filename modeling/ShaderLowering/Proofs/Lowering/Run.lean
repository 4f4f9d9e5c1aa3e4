import ShaderLowering.Compile

/-!
Running lowering steps. `result` is what a step gives from a state, and the lemmas here say what it
is for each way of putting steps together, so that a run of a handler can be taken apart, and put
together, without looking into the monad.
-/

namespace ShaderLowering.Lower

variable {α β : Type}

/-- What a step gives, and the state it leaves behind. -/
def result (m : Lower α) (env : Environment) (s : State) : Except CompileError α × State :=
  (m env).run s

/-- What follows on a step that has run. -/
def andThen (first : Except CompileError α × State)
    (next : α → State → Except CompileError β × State) : Except CompileError β × State :=
  match first with
  | (.ok a, t) => next a t
  | (.error e, t) => (.error e, t)

theorem andThen_eq_ok {first : Except CompileError α × State}
    {next : α → State → Except CompileError β × State} {b : β} {u : State} :
    andThen first next = (.ok b, u) ↔ ∃ a t, first = (.ok a, t) ∧ next a t = (.ok b, u) := by
  obtain ⟨result, t⟩ := first
  cases result with
  | error e =>
    constructor
    · intro h
      cases h
    · rintro ⟨a, t', h, _⟩
      cases h
  | ok a =>
    constructor
    · intro h
      exact ⟨a, t, rfl, h⟩
    · rintro ⟨a', t', h, next⟩
      cases h
      exact next

variable (env : Environment) (s : State)

theorem result_bind (m : Lower α) (f : α → Lower β) :
    result (m >>= f) env s = andThen (result m env s) fun a t => result (f a) env t := by
  have unfolded : result (m >>= f) env s =
      ExceptT.bindCont (fun a => f a env) ((m env).run s).1 ((m env).run s).2 := rfl
  rw [unfolded]
  unfold result andThen
  rcases (m env).run s with ⟨e | a, t⟩ <;> rfl

theorem result_bind_eq_ok {m : Lower α} {f : α → Lower β} {env : Environment} {s u : State}
    {b : β} : result (m >>= f) env s = (.ok b, u) ↔
      ∃ a t, result m env s = (.ok a, t) ∧ result (f a) env t = (.ok b, u) := by
  rw [result_bind]
  exact andThen_eq_ok

theorem result_lift (m : Emission α) : result (liftM m) env s = m.run env s := rfl

theorem result_get : result get env s = (.ok s, s) := rfl

theorem result_get_bind (k : State → Lower β) :
    result (get >>= k) env s = result (k s) env s := rfl

theorem result_read_bind (k : Environment → Lower β) :
    result (read >>= k) env s = result (k env) env s := rfl

theorem result_modify_bind (f : State → State) (k : Unit → Lower β) :
    result (modify f >>= k) env s = result (k ()) env (f s) := rfl

theorem result_modify (f : State → State) : result (modify f) env s = (.ok (), f s) := rfl

theorem result_modifyGet (f : State → α × State) :
    result (modifyGet f) env s = (.ok (f s).1, (f s).2) := rfl

theorem result_tryBuild (f : Spirv.Builder → Except Spirv.BuildError Spirv.Builder) :
    result (tryBuild f) env s =
      match f s.builder with
      | .ok builder => (.ok (), { s with builder })
      | .error e => (.error (.builder e), s) := by
  rw [tryBuild, result_bind, result_get]
  unfold andThen
  dsimp only
  cases f s.builder <;> rfl

/-- A builder step changes nothing but the builder. -/
theorem state_of_tryBuild {env : Environment} {s t : State}
    {f : Spirv.Builder → Except Spirv.BuildError Spirv.Builder}
    (run : result (tryBuild f) env s = (.ok (), t)) : ∃ builder, t = { s with builder } := by
  rw [result_tryBuild] at run
  split at run
  · cases run
    exact ⟨_, rfl⟩
  · cases run

theorem result_tryBuild_bind {f : Spirv.Builder → Except Spirv.BuildError Spirv.Builder}
    {c : Spirv.Builder} (h : f s.builder = .ok c) (k : Unit → Lower β) :
    result (tryBuild f >>= k) env s = result (k ()) env { s with builder := c } := by
  rw [result_bind, result_tryBuild, h]
  rfl

end ShaderLowering.Lower

namespace ShaderLowering.InterfaceStep

variable {α β : Type} {env : Environment}

theorem run_bind_eq_ok {m : InterfaceStep α} {f : α → InterfaceStep β} {s u : State} {b : β} :
    (m >>= f).run env s = (.ok b, u) ↔
      ∃ a t, m.run env s = (.ok a, t) ∧ (f a).run env t = (.ok b, u) :=
  Lower.andThen_eq_ok

/-- What a step leaves behind is reached by additions. -/
theorem emits_of_run {m : InterfaceStep α} {s t : State} {r : Except CompileError α}
    (h : m.run env s = (r, t)) : Emits s t := by
  have := m.emits env s
  rwa [h] at this

end ShaderLowering.InterfaceStep

namespace ShaderLowering.Emission

variable {α β : Type} (env : Environment) (s : State)

theorem run_bind (m : Emission α) (f : α → Emission β) :
    (m >>= f).run env s = Lower.andThen (m.run env s) fun a t => (f a).run env t := rfl

theorem run_bind_eq_ok {m : Emission α} {f : α → Emission β} {env : Environment} {s u : State}
    {b : β} : (m >>= f).run env s = (.ok b, u) ↔
      ∃ a t, m.run env s = (.ok a, t) ∧ (f a).run env t = (.ok b, u) := by
  rw [run_bind]
  exact Lower.andThen_eq_ok

theorem emits_of_run {m : Emission α} {env : Environment} {s t : State}
    {r : Except CompileError α} (h : m.run env s = (r, t)) : Emits s t :=
  InterfaceStep.emits_of_run h

theorem run_push_eq_ok {op : Spirv.Op} {type? result? : Option Spirv.Id} {args : List Spirv.Arg}
    {env : Environment} {s t : State} :
    (push op type? result? args).run env s = (.ok (), t) ↔
      ∃ b, s.builder.push ⟨.ordinary op, type?, result?, args⟩ = .ok b ∧
        t = { s with builder := b } := by
  change (match s.builder.push _ with
    | .ok builder => (Except.ok (), { s with builder })
    | .error e => (Except.error (CompileError.builder e), s)) = _ ↔ _
  cases s.builder.push ⟨.ordinary op, type?, result?, args⟩ with
  | ok b =>
    constructor
    · intro h
      cases h
      exact ⟨b, rfl, rfl⟩
    · rintro ⟨b', h, rfl⟩
      cases h
      rfl
  | error e =>
    constructor
    · intro h
      cases h
    · rintro ⟨b', h, _⟩
      cases h

theorem run_read : (read : Emission Environment).run env s = (.ok env, s) := rfl

/-- Steps that run alike are the same. -/
theorem ext_run {m n : Emission α} (h : ∀ env s, m.run env s = n.run env s) : m = n := by
  obtain ⟨⟨run, _, _⟩, _⟩ := m
  obtain ⟨⟨run', _, _⟩, _⟩ := n
  obtain rfl : run = run' := funext fun env => funext fun s => h env s
  rfl

theorem map_id (m : Emission α) : id <$> m = m := by
  apply ext_run
  intro env s
  change Lower.andThen (m.run env s) (fun a t => (.ok a, t)) = m.run env s
  rcases m.run env s with ⟨e | a, t⟩ <;> rfl

theorem bind_assoc {γ : Type} (m : Emission α) (f : α → Emission β) (g : β → Emission γ) :
    m >>= f >>= g = m >>= fun a => f a >>= g := by
  apply ext_run
  intro env s
  rw [run_bind, run_bind, run_bind]
  rcases m.run env s with ⟨e | a, t⟩ <;> rfl

instance : LawfulMonad Emission :=
  LawfulMonad.mk' Emission map_id (fun _ _ => rfl) bind_assoc

end ShaderLowering.Emission

namespace ShaderLowering.Lowering

variable {env : Environment} {l m n : Lowering} {inst : Instruction} {rest : List Instruction}

theorem run_eq_ok {step : Lower Unit} : l.run step = (.ok (), m) ↔
    Lower.result step l.environment l.state = (.ok (), m.state) ∧
      m.environment = l.environment := by
  have unfolded : l.run step = ((Lower.result step l.environment l.state).1,
    { l with state := (Lower.result step l.environment l.state).2 }) := rfl
  rw [unfolded]
  obtain ⟨env, s⟩ := m
  rcases Lower.result step l.environment l.state with ⟨r, t⟩
  constructor
  · intro h
    cases h
    exact ⟨rfl, rfl⟩
  · rintro ⟨h, same⟩
    cases h
    cases same
    rfl

theorem start_eq_ok : start env = .ok l ↔
    ∃ stage, StageState.initial? env.stage = some stage ∧
      Lower.result Lower.begin env (.initial env.options.version stage) = (.ok (), l.state) ∧
        l.environment = env := by
  unfold start
  cases StageState.initial? env.stage with
  | none =>
    constructor
    · intro h
      cases h
    · rintro ⟨_, h, _⟩
      cases h
  | some stage =>
    have opened : run ⟨env, .initial env.options.version stage⟩ Lower.begin = (.ok (), l) ↔ _ :=
      run_eq_ok
    dsimp only at opened ⊢
    generalize run ⟨env, .initial env.options.version stage⟩ Lower.begin = begun at opened ⊢
    obtain ⟨r, t⟩ := begun
    constructor
    · intro h
      cases r with
      | error e => cases h
      | ok u =>
        cases h
        exact ⟨stage, rfl, opened.1 rfl⟩
    · rintro ⟨_, h, begun⟩
      cases h
      cases opened.2 begun
      rfl

theorem step_eq_ok : l.step inst = (.ok (), m) ↔
    Lower.result (Lower.lowerInstruction inst) l.environment l.state = (.ok (), m.state) ∧
      m.environment = l.environment :=
  run_eq_ok

theorem steps_cons : l.steps (inst :: rest) = .ok n ↔
    ∃ m, l.step inst = (.ok (), m) ∧ m.steps rest = .ok n := by
  rw [steps]
  rcases l.step inst with ⟨r, m⟩
  cases r with
  | error e =>
    constructor
    · intro h
      cases h
    · rintro ⟨_, h, _⟩
      cases h
  | ok u =>
    constructor
    · intro h
      exact ⟨m, rfl, h⟩
    · rintro ⟨_, h, more⟩
      cases h
      exact more

theorem steps_append {later : List Instruction} :
    l.steps (rest ++ later) = .ok n ↔ ∃ m, l.steps rest = .ok m ∧ m.steps later = .ok n := by
  induction rest generalizing l with
  | nil =>
    constructor
    · intro h
      exact ⟨l, rfl, h⟩
    · rintro ⟨_, h, more⟩
      cases h
      exact more
  | cons inst rest ih =>
    rw [List.cons_append]
    constructor
    · intro h
      obtain ⟨k, stepped, more⟩ := steps_cons.1 h
      obtain ⟨m, ran, more⟩ := ih.1 more
      exact ⟨m, steps_cons.2 ⟨k, stepped, ran⟩, more⟩
    · rintro ⟨m, h, more⟩
      obtain ⟨k, stepped, ran⟩ := steps_cons.1 h
      exact steps_cons.2 ⟨k, stepped, ih.2 ⟨m, ran, more⟩⟩

/-- What a program is lowered with stays the same. -/
theorem steps_environment (ran : l.steps rest = .ok n) : n.environment = l.environment := by
  induction rest generalizing l with
  | nil =>
    cases ran
    rfl
  | cons inst rest ih =>
    obtain ⟨m, stepped, ran⟩ := steps_cons.1 ran
    exact (ih ran).trans (step_eq_ok.1 stepped).2

theorem close_eq_ok : l.close = .ok m ↔ l.run Lower.finish = (.ok (), m) := by
  unfold close
  rcases l.run Lower.finish with ⟨r, t⟩
  cases r with
  | error e =>
    constructor
    · intro h
      cases h
    · intro h
      cases h
  | ok u =>
    constructor
    · intro h
      cases h
      rfl
    · intro h
      cases h
      rfl

end ShaderLowering.Lowering

namespace ShaderLowering

theorem lowerInstructions_eq_ok {env : Environment} {insts : List Instruction} {l : Lowering} :
    lowerInstructions env insts = .ok l ↔
      ∃ first last, Lowering.start env = .ok first ∧ first.steps insts = .ok last ∧
        last.close = .ok l := by
  unfold lowerInstructions
  cases Lowering.start env with
  | error e =>
    constructor
    · intro h
      cases h
    · rintro ⟨_, _, h, _⟩
      cases h
  | ok first =>
    change (first.steps insts >>= Lowering.close) = _ ↔ _
    cases stepped : first.steps insts with
    | error e =>
      constructor
      · intro h
        cases h
      · rintro ⟨_, _, h, more, _⟩
        cases h
        rw [stepped] at more
        cases more
    | ok last =>
      constructor
      · intro h
        exact ⟨first, last, rfl, stepped, h⟩
      · rintro ⟨_, _, h, more, closed⟩
        cases h
        rw [stepped] at more
        cases more
        exact closed

/-- A program compiles when its instructions can be decoded and lowered. -/
theorem compile_eq_ok {program : Program} {entries : SignatureEntries} {options : Options}
    {artifact : Artifact} : compile program entries options = .ok artifact ↔
      ∃ insts l, program.instructions = .ok insts ∧
        lowerInstructions (program.environment insts entries options) insts = .ok l ∧
          artifact = l.artifact := by
  unfold compile
  cases program.instructions with
  | error e =>
    constructor
    · intro h
      cases h
    · rintro ⟨_, _, h, _⟩
      cases h
  | ok insts =>
    dsimp only
    cases lowered : lowerInstructions (program.environment insts entries options) insts with
    | error e =>
      constructor
      · intro h
        cases h
      · rintro ⟨_, _, h, more, _⟩
        cases h
        rw [lowered] at more
        cases more
    | ok l =>
      constructor
      · intro h
        cases h
        exact ⟨insts, l, rfl, lowered, rfl⟩
      · rintro ⟨_, _, h, more, rfl⟩
        cases h
        rw [lowered] at more
        cases more
        rfl

end ShaderLowering
