import ShaderLowering.Proofs.Lowering.Run

/-!
Steps that may be repeated. A step is idempotent if, once it has succeeded, it succeeds again and
changes nothing. A step that only asks for what is fixed is; so is one that looks for something and
makes it where it is missing, as long as it finds from then on what it has made.
-/

namespace ShaderLowering

variable {α β : Type} {env : Environment} {s t : State}

/-- A step that does no more than ask for what is fixed: it leaves the state as it is and does not
go by it. -/
def InterfaceStep.Asks (m : InterfaceStep α) : Prop :=
  ∀ env s t, (m.run env s).2 = s ∧ (m.run env t).1 = (m.run env s).1

/-- Another instruction may have been remembered as the last. -/
def State.remember (s : State) (last? : Option UInt32) : State :=
  { s with lastOpcode? := last? }

/-- The shader may know something else of its stage. -/
def State.inStage (s : State) (stage : StageState) : State :=
  { s with stage }

/-- A step that has succeeded succeeds again and changes nothing, whichever instruction is
remembered as the last. -/
def InterfaceStep.Idempotent (m : InterfaceStep Unit) : Prop :=
  ∀ env s t last?, m.run env s = (.ok (), t) →
    m.run env (t.remember last?) = (.ok (), t.remember last?)

namespace InterfaceStep

variable {m : InterfaceStep α} {f : α → InterfaceStep β}

namespace Asks

protected theorem pure (a : α) : Asks (Pure.pure a : InterfaceStep α) :=
  fun _ _ _ => ⟨rfl, rfl⟩

/-- What a step asks for is the same everywhere. -/
theorem run_eq (asks : m.Asks) {r : Except CompileError α} (ran : m.run env s = (r, t)) :
    t = s ∧ ∀ u, m.run env u = (r, u) := by
  have here := asks env s
  rw [ran] at here
  exact ⟨(here s).1, fun u => Prod.ext (here u).2 (asks env u u).1⟩

protected theorem bind (asks : m.Asks) (later : ∀ a, (f a).Asks) : Asks (m >>= f) := by
  intro env s t
  change (Lower.andThen (m.run env s) fun a t => (f a).run env t).2 = s ∧
    (Lower.andThen (m.run env t) fun a t => (f a).run env t).1 =
      (Lower.andThen (m.run env s) fun a t => (f a).run env t).1
  cases ran : m.run env s with
  | mk r u =>
    obtain ⟨rfl, everywhere⟩ := asks.run_eq ran
    rw [everywhere t]
    cases r with
    | error e => exact ⟨rfl, rfl⟩
    | ok a => exact later a env u t

end Asks

namespace Idempotent

variable {m n : InterfaceStep Unit}

/-- A step that only asks. -/
theorem of_asks (asks : m.Asks) : m.Idempotent := by
  intro env s t last? ran
  exact (asks.run_eq ran).2 _

protected theorem pure : Idempotent (Pure.pure ()) :=
  .of_asks (.pure ())

theorem bind {m : InterfaceStep α} {f : α → InterfaceStep Unit} (asks : m.Asks)
    (later : ∀ a, (f a).Idempotent) : Idempotent (m >>= f) := by
  intro env s t last? ran
  obtain ⟨a, u, asked, rest⟩ := run_bind_eq_ok.1 ran
  obtain ⟨rfl, everywhere⟩ := asks.run_eq asked
  exact run_bind_eq_ok.2 ⟨a, _, everywhere _, later a env u t last? rest⟩

theorem ite {p : Prop} [Decidable p] (yes : p → m.Idempotent) (no : ¬p → n.Idempotent) :
    (if p then m else n).Idempotent := by
  split
  · next h => exact yes h
  · next h => exact no h

/-- A step that goes by the stage. -/
theorem of_stages (each : ∀ stage env (s : State) t last?,
    m.run env (s.inStage stage) = (.ok (), t) →
      m.run env (t.remember last?) = (.ok (), t.remember last?)) : m.Idempotent :=
  fun env s => each s.stage env s

end Idempotent

end InterfaceStep

namespace Emission

/-- An ordinary step that does no more than ask. -/
abbrev Asks (m : Emission α) : Prop := m.toInterfaceStep.Asks

/-- An ordinary step that may be repeated. -/
abbrev Idempotent (m : Emission Unit) : Prop := m.toInterfaceStep.Idempotent

variable {m : Emission α}

protected theorem Asks.pure (a : α) : Asks (Pure.pure a) := InterfaceStep.Asks.pure a

theorem Asks.fail (e : CompileError) (own : ∀ b, e ≠ .builder b) :
    Asks (fail e own : Emission α) :=
  fun _ _ _ => ⟨rfl, rfl⟩

protected theorem Asks.bind {f : α → Emission β} (asks : m.Asks) (later : ∀ a, (f a).Asks) :
    Asks (m >>= f) :=
  InterfaceStep.Asks.bind asks later

theorem Asks.read_bind {f : Environment → Emission β} (later : ∀ env, (f env).Asks) :
    Asks (read >>= f) :=
  Asks.bind (fun _ _ _ => ⟨rfl, rfl⟩) later

theorem Asks.ite {p : Prop} [Decidable p] {m n : Emission α} (yes : m.Asks) (no : n.Asks) :
    (if p then m else n).Asks := by
  split
  · exact yes
  · exact no

theorem Idempotent.bind {f : α → Emission Unit} (asks : m.Asks) (later : ∀ a, (f a).Idempotent) :
    Idempotent (m >>= f) :=
  InterfaceStep.Idempotent.bind asks later

/-- A step behind a condition under which it fails. -/
theorem Idempotent.guard {p : Prop} [Decidable p] {fault : Fault} {k : Unit → Emission Unit}
    (later : ¬p → (k ()).Idempotent) :
    (if p then Lower.failWith fault >>= k else k ()).Idempotent := by
  split
  · intro env s t last? ran
    cases ran
  · next h => exact later h

theorem run_state_bind (f : State → Emission β) (env : Environment) (s : State) :
    (state >>= f).run env s = (f s).run env s := rfl

/-- A step that looks for something and only checks what it finds; where it finds nothing it makes
something that it finds from then on and that passes the check. -/
theorem Idempotent.of_find {m : Emission Unit} (find : State → Option β) (check : β → Emission Unit)
    (remembered : ∀ s last?, find (s.remember last?) = find s) (asks : ∀ b, (check b).Asks)
    (checks : ∀ env s b, find s = some b → m.run env s = (check b).run env s)
    (creates : ∀ env s t, find s = none → m.run env s = (.ok (), t) →
      ∃ b, find t = some b ∧ (check b).run env t = (.ok (), t)) : m.Idempotent := by
  intro env s t last? ran
  have again {b : β} (found : find t = some b) (passes : (check b).run env t = (.ok (), t)) :
      m.run env (t.remember last?) = (.ok (), t.remember last?) := by
    rw [checks env _ b ((remembered t last?).trans found)]
    exact ((asks b).run_eq passes).2 _
  cases found : find s with
  | some b =>
    rw [checks env s b found] at ran
    obtain ⟨rfl, everywhere⟩ := (asks b).run_eq ran
    exact again found (everywhere t)
  | none =>
    obtain ⟨b, found, passes⟩ := creates env s t found ran
    exact again found passes

end Emission

end ShaderLowering
