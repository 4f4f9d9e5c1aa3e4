import ShaderLowering.Lowering.Types
import ShaderLowering.Proofs.Faults.Reports
import ShaderLowering.Proofs.Naming.Module

/-!
Blind steps. A step is blind if it does the same where debug names are stripped: it succeeds or
fails alike, and the states it leaves behind differ in the names only. Nor does it put a name
anywhere but into their section. What steps are made of is blind, and so is what comes of putting
blind steps together; only what looks at the options or at the whole state has to show that the
names are not what it looks at.
-/

namespace ShaderLowering

open Spirv (Id Arg Op StorageClass)

/-- What is fixed for the shader if debug names are stripped. -/
def Environment.unnamed (env : Environment) : Environment :=
  { env with options := { env.options with stripNames := true } }

/-- A state without the debug names. -/
def State.unnamed (s : State) : State :=
  { s with builder := s.builder.unnamed }

@[grind norm]
theorem Environment.unnamed_eq (env : Environment) :
    env.unnamed = { env with options := { env.options with stripNames := true } } :=
  rfl

@[grind norm]
theorem State.unnamed_eq (s : State) : s.unnamed = { s with builder := s.builder.unnamed } :=
  rfl

/-- The debug names of a state stand in their section only. -/
def State.NamesApart (s : State) : Prop :=
  s.builder.module.NamesApart

variable {α β : Type}

/-- A run that goes the same where debug names are stripped, and keeps them apart. -/
structure Blind (run : Environment → State → Except CompileError α × State) : Prop where
  same : ∀ env s, run env.unnamed s.unnamed = ((run env s).1, (run env s).2.unnamed)
  apart : ∀ env s, s.NamesApart → (run env s).2.NamesApart

namespace Blind

variable {run : Environment → State → Except CompileError α × State}

theorem andThen {next : α → Environment → State → Except CompileError β × State}
    (first : Blind run) (later : ∀ a, MayYield run a → Blind (next a)) :
    Blind fun env s => Lower.andThen (run env s) fun a t => next a env t where
  same env s := by
    rw [first.same]
    cases ran : run env s with
    | mk r t =>
      cases r with
      | error e => rfl
      | ok a => exact (later a ⟨env, s, t, ran⟩).same env t
  apart env s h := by
    have kept := first.apart env s h
    cases ran : run env s with
    | mk r t =>
      rw [ran] at kept
      cases r with
      | error e => exact kept
      | ok a => exact (later a ⟨env, s, t, ran⟩).apart env t kept

/-- A type or constant is found, or declared, in the same place. -/
theorem declare (key : Spirv.Key) : Blind (Emission.declare key).run where
  same env s := by
    change (Except.ok (s.builder.unnamed.declare key).1,
      { s with builder := (s.builder.unnamed.declare key).2 }) = _
    rw [s.builder.declare_unnamed]
    rfl
  apart env s h := Spirv.Builder.namesApart_declare h key

theorem newVariable (pointerType : Id) (storage : StorageClass) (initial? : Option Id) :
    Blind (Emission.newVariable pointerType storage initial?).run where
  same env s := by
    change (Except.ok (s.builder.unnamed.variable_ pointerType storage initial?).1,
      { s with builder := (s.builder.unnamed.variable_ pointerType storage initial?).2 }) = _
    rw [s.builder.variable_unnamed]
    rfl
  apart env s h := Spirv.Builder.namesApart_variable h pointerType storage initial?

theorem newTemp (pointerType : Id) : Blind (Emission.newTemp pointerType).run where
  same env s := by
    change (Except.ok (s.builder.unnamed.variable_ pointerType .priv none).1,
      { s with
        builder := (s.builder.unnamed.variable_ pointerType .priv none).2
        temps := s.temps.push (s.builder.unnamed.variable_ pointerType .priv none).1 }) = _
    rw [s.builder.variable_unnamed]
    rfl
  apart env s h := Spirv.Builder.namesApart_variable h pointerType .priv none

theorem push {op : Op} (type? result? : Option Id) (args : List Arg)
    (other : op.isName = false) : Blind (Emission.push op type? result? args).run where
  same env s := by
    unfold Emission.push
    dsimp only [State.unnamed]
    rw [s.builder.push_unnamed]
    cases s.builder.push _ <;> rfl
  apart env s h := by
    unfold Emission.push
    dsimp only
    split
    · next b pushed =>
      have placed : Spirv.Instr.isName ⟨.ordinary op, type?, result?, args⟩ = false := other
      exact Spirv.Builder.namesApart_push h placed pushed
    · exact h

theorem tryBuild {f : Spirv.Builder → Except Spirv.BuildError Spirv.Builder}
    (h : Spirv.Builder.Blind f) : Blind (Lower.result (Lower.tryBuild f)) where
  same env s := by
    rw [Lower.result_tryBuild, Lower.result_tryBuild]
    dsimp only [State.unnamed]
    rw [h.same]
    cases f s.builder <;> rfl
  apart env s apart := by
    rw [Lower.result_tryBuild]
    cases built : f s.builder with
    | ok b => exact h.apart _ b apart built
    | error e => exact apart

end Blind

end ShaderLowering
