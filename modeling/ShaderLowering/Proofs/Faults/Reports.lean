import ShaderLowering.Proofs.Lowering.Run

/-!
What steps complain of. A step reports only certain errors if, from whatever state, it gives no
other; put together, such steps report only those errors again. A step made of declarations and
notes cannot be refused by the builder, and a step that asks for no operand cannot miss one.
-/

namespace ShaderLowering

open Spirv (Id Arg Op)

/-- An instruction was found to have fewer operands than it is lowered with. -/
@[grind unfold]
def Fault.isShortage : Fault → Bool
  | missingSource _ _ | missingSourceOperand _ _ | missingDestinationOperand _ _
  | needsSources _ _ => true
  | declarationWithoutRegister name => Opcode.all.any (·.name = name)
  | _ => false

def CompileError.isShortage : CompileError → Bool
  | fault f => f.isShortage
  | _ => false

/-- Whatever may be said of a program counts, apart from operands that an instruction lacks. -/
class Reporting (ok : CompileError → Prop) : Prop where
  fault : ∀ f : Fault, f.isShortage = false → ok (.fault f)
  unsupported : ∀ opcode position stage, ok (.unsupportedInstruction opcode position stage)
  slot : ∀ slotClass slot, ok (.slotOutOfRange slotClass slot)
  stage : ∀ stage, ok (.unsupportedStage stage)

/-- The builder's own errors count as well. -/
class Refusing (ok : CompileError → Prop) : Prop extends Reporting ok where
  builder : ∀ e, ok (.builder e)

/-- Nothing is ruled out. -/
def CompileError.IsAny (_ : CompileError) : Prop :=
  True

instance : Refusing CompileError.IsAny where
  fault _ _ := trivial
  unsupported _ _ _ := trivial
  slot _ _ := trivial
  stage _ := trivial
  builder _ := trivial

variable {α β : Type} {ok : CompileError → Prop}

/-- What a run can give. -/
def MayYield (run : Environment → State → Except CompileError α × State) (a : α) : Prop :=
  ∃ env s t, run env s = (.ok a, t)

/-- A run that fails only with certain errors. -/
def Reports (ok : CompileError → Prop) (run : Environment → State → Except CompileError α × State) :
    Prop :=
  ∀ env s e, (run env s).1 = .error e → ok e

namespace Reports

variable {run : Environment → State → Except CompileError α × State}

theorem of_ok (h : ∀ env s, ∃ a, (run env s).1 = .ok a) : Reports ok run := by
  intro env s e failed
  obtain ⟨a, ran⟩ := h env s
  cases ran.symm.trans failed

/-- What comes after a run may rely on what it yields. -/
theorem andThen {next : α → Environment → State → Except CompileError β × State}
    (first : Reports ok run) (later : ∀ a, MayYield run a → Reports ok (next a)) :
    Reports ok fun env s => Lower.andThen (run env s) fun a t => next a env t := by
  intro env s e failed
  rcases ran : run env s with ⟨e' | a, t⟩
  · have failed : Except.error (α := β) e' = .error e := by
      simpa only [ran, Lower.andThen] using failed
    cases failed
    exact first env s e (by rw [ran])
  · refine later a ⟨env, s, t, ran⟩ env t e ?_
    simpa only [ran, Lower.andThen] using failed

theorem push [Refusing ok] (op : Op) (type? result? : Option Id) (args : List Arg) :
    Reports ok (Emission.push op type? result? args).run := by
  intro env s e failed
  unfold Emission.push at failed
  dsimp only at failed
  split at failed
  · cases failed
  · cases failed
    exact Refusing.builder _

theorem fail {e : CompileError} {own : ∀ b, e ≠ .builder b} (h : ok e) :
    Reports ok (Emission.fail e own : Emission α).run := by
  intro env s e' failed
  cases failed
  exact h

theorem tryBuild [Refusing ok] (f : Spirv.Builder → Except Spirv.BuildError Spirv.Builder) :
    Reports ok (Lower.result (Lower.tryBuild f)) := by
  intro env s e failed
  rw [Lower.result_tryBuild] at failed
  split at failed
  · cases failed
  · cases failed
    exact Refusing.builder _

/-- One result comes back for every element. -/
theorem length_mapM {f : α → Emission β} {list : List α} {env : Environment} {s t : State}
    {bs : List β} (ran : (list.mapM f).run env s = (.ok bs, t)) : bs.length = list.length := by
  induction list generalizing s bs with
  | nil =>
    rw [List.mapM_nil] at ran
    cases ran
    rfl
  | cons a rest ih =>
    rw [List.mapM_cons] at ran
    obtain ⟨b, u, _, ran⟩ := Emission.run_bind_eq_ok.1 ran
    obtain ⟨more, v, others, ran⟩ := Emission.run_bind_eq_ok.1 ran
    cases ran
    rw [List.length_cons, List.length_cons, ih others]

end Reports

end ShaderLowering
