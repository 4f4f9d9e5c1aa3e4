import ShaderLowering.Lowering.State

/-!
Lowering steps. A step reads what is fixed for the whole shader, changes the state, and may fail;
a step that fails keeps the changes it made before, so what is left open can still be asked for.

There are three kinds. An `Emission` is an ordinary step: it adds declarations, annotations and
instructions to the open block, and its type says that it does nothing else. It neither opens nor
ends blocks, and it leaves the open constructs and the declared interface registers alone. An
`InterfaceStep` may declare interface registers as well. A `Lower` step may do anything; only
control flow, function bodies and hull shader phases need it.
-/

namespace ShaderLowering

open Spirv (Id Instr Op Arg Key)

/-- Two states that differ only in names, capabilities, extensions and the tables of registers and
variables. -/
structure State.SameOutline (s t : State) : Prop where
  nextId : t.builder.nextId = s.builder.nextId
  function? : t.builder.function? = s.builder.function?
  block? : t.builder.block? = s.builder.block?
  functions : t.builder.module.functions = s.builder.module.functions
  globals : t.builder.module.globals = s.builder.module.globals
  annotations : t.builder.module.annotations = s.builder.module.annotations
  types : t.builder.tables.types = s.builder.tables.types
  constants : t.builder.tables.constants = s.builder.tables.constants
  constructs : t.constructs = s.constructs
  inFunction : t.inFunction = s.inFunction
  lastOpcode? : t.lastOpcode? = s.lastOpcode?
  temps : t.temps = s.temps
  extendedSet : t.extendedSet = s.extendedSet
  entryPoint : t.entryPoint = s.entryPoint
  body? : t.body? = s.body?
  hull? : t.stage.hull?.isSome = s.stage.hull?.isSome

/-- Two states with the same interface registers, in the same place of a hull shader. -/
structure State.SameInterface (s t : State) : Prop where
  inputs : t.inputs = s.inputs
  outputs : t.outputs = s.outputs
  patchInputs : t.patchInputs = s.patchInputs
  patchOutputs : t.patchOutputs = s.patchOutputs
  phase? : t.stage.phase? = s.stage.phase?

namespace State.SameInterface

variable {s t u : State}

theorem refl (s : State) : s.SameInterface s :=
  ⟨rfl, rfl, rfl, rfl, rfl⟩

theorem trans (first : s.SameInterface t) (second : t.SameInterface u) : s.SameInterface u :=
  ⟨second.inputs.trans first.inputs, second.outputs.trans first.outputs,
    second.patchInputs.trans first.patchInputs, second.patchOutputs.trans first.patchOutputs,
    second.phase?.trans first.phase?⟩

end State.SameInterface

/-- What a single addition to a state may be. -/
inductive Adds : State → State → Prop
  | fresh (s : State) : Adds s { s with builder := s.builder.fresh.2 }
  | declare (s : State) (key : Key) : Adds s { s with builder := (s.builder.declare key).2 }
  | declareNew (s : State) (op : Op) (type? : Option Id) (args : List Arg) :
    Adds s { s with builder := (s.builder.declareNew op type? args).2 }
  | newVariable (s : State) (pointerType : Id) (storage : Spirv.StorageClass)
    (initial? : Option Id) :
    Adds s { s with builder := (s.builder.variable_ pointerType storage initial?).2 }
  /-- A variable of its own that becomes the next temporary. -/
  | temp (s : State) (pointerType : Id) :
    Adds s { s with
      builder := (s.builder.variable_ pointerType .priv none).2
      temps := s.temps.push (s.builder.variable_ pointerType .priv none).1 }
  | annotate (s : State) (i : Instr) : Adds s { s with builder := s.builder.annotate i }
  | push (s : State) (op : Op) (type? result? : Option Id) (args : List Arg)
    (b : Spirv.Builder) (placed : s.builder.push ⟨.ordinary op, type?, result?, args⟩ = .ok b) :
    Adds s { s with builder := b }
  /-- Stages other than hull change what they know of themselves. -/
  | stage (s : State) (stage : StageState) (notHull : stage.hull? = none) :
    Adds s { s with stage := s.stage.become stage }
  | note (s t : State) (same : s.SameOutline t) : Adds s t

/-- Any number of additions, one after the other. -/
inductive Emits : State → State → Prop
  | refl (s : State) : Emits s s
  | step {s t u : State} : Emits s t → Adds t u → Emits s u

namespace Emits

theorem single {s t : State} (h : Adds s t) : Emits s t :=
  .step (.refl s) h

theorem trans {s t u : State} (first : Emits s t) (second : Emits t u) : Emits s u := by
  induction second with
  | refl => exact first
  | step _ last ih => exact .step ih last

end Emits

namespace Adds

variable {s t : State}

theorem function? (h : Adds s t) : t.builder.function? = s.builder.function? := by
  cases h with
  | fresh | declareNew | annotate | stage => rfl
  | declare key => exact s.builder.function?_declare key
  | newVariable p storage initial? => exact s.builder.function?_variable p storage initial?
  | temp p => exact s.builder.function?_variable p .priv none
  | push _ _ _ _ _ placed => exact Spirv.Builder.function?_of_push placed
  | note _ same => exact same.function?

theorem block? (h : Adds s t) : t.builder.block? = s.builder.block? := by
  cases h with
  | fresh | declareNew | annotate | stage => rfl
  | declare key => exact s.builder.block?_declare key
  | newVariable p storage initial? => exact s.builder.block?_variable p storage initial?
  | temp p => exact s.builder.block?_variable p .priv none
  | push _ _ _ _ _ placed => exact Spirv.Builder.block?_of_push placed
  | note _ same => exact same.block?

end Adds

/-- Ordinary steps leave the open function open. -/
theorem Emits.function? {s t : State} (h : Emits s t) :
    t.builder.function? = s.builder.function? := by
  induction h with
  | refl => rfl
  | step _ last ih => exact last.function?.trans ih

/-- Ordinary steps leave the open block open. -/
theorem Emits.block? {s t : State} (h : Emits s t) :
    t.builder.block? = s.builder.block? := by
  induction h with
  | refl => rfl
  | step _ last ih => exact last.block?.trans ih

/-- Whether the builder has a place for an instruction. -/
def State.HasPlace (s : State) : Prop :=
  s.builder.function?.isSome ∧ s.builder.block?.isSome

theorem Emits.hasPlace_iff {s t : State} (h : Emits s t) : t.HasPlace ↔ s.HasPlace := by
  rw [State.HasPlace, State.HasPlace, h.function?, h.block?]

/-- A lowering step that adds to the state and does nothing else. The builder refuses it only
where no block is open. -/
structure InterfaceStep (α : Type) where
  run : Environment → State → Except CompileError α × State
  emits : ∀ env s, Emits s (run env s).2
  refused : ∀ env s e, (run env s).1 = .error (.builder e) → ¬ s.HasPlace

namespace InterfaceStep

variable {α β : Type}

def pure (a : α) : InterfaceStep α where
  run _ s := (.ok a, s)
  emits _ s := .refl s
  refused _ _ _ h := by cases h

/-- Runs a step, and on success another that may use its result. -/
def bind (m : InterfaceStep α) (f : α → InterfaceStep β) : InterfaceStep β where
  run env s :=
    match m.run env s with
    | (.ok a, t) => (f a).run env t
    | (.error e, t) => (.error e, t)
  emits env s := by
    have first := m.emits env s
    split
    · next a t h => exact (by simpa only [h] using first : Emits s t).trans ((f a).emits env t)
    · next e t h => simpa only [h] using first
  refused env s e := by
    have first := m.emits env s
    split
    · next a t h =>
      intro fails
      rw [← (by simpa only [h] using first : Emits s t).hasPlace_iff]
      exact (f a).refused env t e fails
    · next e' t h =>
      intro fails
      exact m.refused env s e (by rw [h]; cases fails; rfl)

instance : Monad InterfaceStep where
  pure := InterfaceStep.pure
  bind := InterfaceStep.bind

/-- What is fixed for the shader. -/
instance : MonadReader Environment InterfaceStep where
  read :=
    { run := fun env s => (.ok env, s)
      emits := fun _ s => .refl s
      refused := fun _ _ _ h => by cases h }

/-- Changes names, capabilities, extensions or tables. -/
def note (f : State → State)
    (same : ∀ s : State, s.SameOutline (f s) := by intro s; constructor <;> rfl) :
    InterfaceStep Unit where
  run _ s := (.ok (), f s)
  emits _ s := .single (.note s (f s) (same s))
  refused _ _ _ h := by cases h

end InterfaceStep

/-- An ordinary lowering step. It leaves the interface registers as they are declared. -/
structure Emission (α : Type) extends InterfaceStep α where
  keeps : ∀ env (s : State), s.SameInterface (run env s).2

namespace Emission

variable {α β : Type}

def pure (a : α) : Emission α where
  toInterfaceStep := .pure a
  keeps _ s := .refl s

/-- Runs a step, and on success another that may use its result. -/
def bind (m : Emission α) (f : α → Emission β) : Emission β where
  toInterfaceStep := m.toInterfaceStep.bind fun a => (f a).toInterfaceStep
  keeps env s := by
    have first := m.keeps env s
    unfold InterfaceStep.bind
    dsimp only
    split
    · next a t h =>
      exact (by simpa only [h] using first : s.SameInterface t).trans ((f a).keeps env t)
    · next e t h => simpa only [h] using first

instance : Monad Emission where
  pure := Emission.pure
  bind := Emission.bind

/-- What is fixed for the shader. -/
instance : MonadReader Environment Emission where
  read :=
    { run := fun env s => (.ok env, s)
      emits := fun _ s => .refl s
      refused := fun _ _ _ h => by cases h
      keeps := fun _ s => .refl s }

/-- The state as it is. -/
def state : Emission State where
  run _ s := (.ok s, s)
  emits _ s := .refl s
  refused _ _ _ h := by cases h
  keeps _ s := .refl s

/-- Gives up. The builder has its own errors. -/
def fail (e : CompileError) (own : ∀ b, e ≠ .builder b := by intro _ h; cases h) : Emission α where
  run _ s := (.error e, s)
  emits _ s := .refl s
  refused _ _ b h := absurd (Except.error.inj h) (own b)
  keeps _ s := .refl s

/-- Changes names, capabilities, extensions or tables other than those of interface registers. -/
def note (f : State → State)
    (same : ∀ s : State, s.SameOutline (f s) := by intro s; constructor <;> rfl)
    (keeps : ∀ s : State, s.SameInterface (f s) := by intro s; constructor <;> rfl) :
    Emission Unit where
  toInterfaceStep := .note f same
  keeps _ s := keeps s

/-- Takes a new id. -/
def fresh : Emission Id where
  run _ s := (.ok s.builder.fresh.1, { s with builder := s.builder.fresh.2 })
  emits _ s := .single (.fresh s)
  refused _ _ _ h := by cases h
  keeps _ _ := ⟨rfl, rfl, rfl, rfl, rfl⟩

/-- A type or constant, which is declared if it is not yet. -/
def declare (key : Key) : Emission Id where
  run _ s :=
    let (id, builder) := s.builder.declare key
    (.ok id, { s with builder })
  emits _ s := .single (.declare s key)
  refused _ _ _ h := by cases h
  keeps _ _ := ⟨rfl, rfl, rfl, rfl, rfl⟩

/-- A type that is declared anew even if there is one that looks the same. -/
def declareNew (op : Op) (type? : Option Id) (args : List Arg) : Emission Id where
  run _ s :=
    let (id, builder) := s.builder.declareNew op type? args
    (.ok id, { s with builder })
  emits _ s := .single (.declareNew s op type? args)
  refused _ _ _ h := by cases h
  keeps _ _ := ⟨rfl, rfl, rfl, rfl, rfl⟩

/-- A variable: in the open block, if there is one, else among the globals. -/
def newVariable (pointerType : Id) (storage : Spirv.StorageClass) (initial? : Option Id) :
    Emission Id where
  run _ s :=
    let (id, builder) := s.builder.variable_ pointerType storage initial?
    (.ok id, { s with builder })
  emits _ s := .single (.newVariable s pointerType storage initial?)
  refused _ _ _ h := by cases h
  keeps _ _ := ⟨rfl, rfl, rfl, rfl, rfl⟩

/-- A variable that becomes the next temporary. -/
def newTemp (pointerType : Id) : Emission Id where
  run _ s :=
    let (id, builder) := s.builder.variable_ pointerType .priv none
    (.ok id, { s with builder, temps := s.temps.push id })
  emits _ s := .single (.temp s pointerType)
  refused _ _ _ h := by cases h
  keeps _ _ := ⟨rfl, rfl, rfl, rfl, rfl⟩

def annotate (i : Instr) : Emission Unit where
  run _ s := (.ok (), { s with builder := s.builder.annotate i })
  emits _ s := .single (.annotate s i)
  refused _ _ _ h := by cases h
  keeps _ _ := ⟨rfl, rfl, rfl, rfl, rfl⟩

/-- Appends an ordinary instruction to the open block. -/
def push (op : Op) (type? result? : Option Id) (args : List Arg) : Emission Unit where
  run _ s :=
    match s.builder.push ⟨.ordinary op, type?, result?, args⟩ with
    | .ok builder => (.ok (), { s with builder })
    | .error e => (.error (.builder e), s)
  emits _ s := by
    split
    · next b placed => exact .single (.push s op type? result? args b placed)
    · exact .refl s
  refused _ s e := by
    split
    · intro h; cases h
    · next e' h => exact fun _ => Spirv.Builder.not_placed_of_push h
  keeps _ s := by
    split <;> exact ⟨rfl, rfl, rfl, rfl, rfl⟩

/-- Sets what a stage other than hull knows of itself. -/
def setStage (stage : StageState) (notHull : stage.hull? = none := by rfl) : Emission Unit where
  run _ s := (.ok (), { s with stage := s.stage.become stage })
  emits _ s := .single (.stage s stage notHull)
  refused _ _ _ h := by cases h
  keeps _ s := ⟨rfl, rfl, rfl, rfl, s.stage.phase?_become notHull⟩

end Emission

instance : MonadLift Emission InterfaceStep where
  monadLift m := m.toInterfaceStep

/-- Any lowering step. -/
abbrev Lower := ReaderT Environment (ExceptT CompileError (StateM State))

instance : MonadLift InterfaceStep Lower where
  monadLift m := fun env => ExceptT.mk fun s => m.run env s

instance : MonadLift Emission Lower where
  monadLift m := fun env => ExceptT.mk fun s => m.run env s

namespace Lower

def failWith {α : Type} (f : Fault) : Emission α :=
  .fail (.fault f)

/-- The value of an option, or a fault where there is none. -/
def orFault {α : Type} (a? : Option α) (f : Fault) : Emission α :=
  match a? with
  | some a => pure a
  | none => failWith f

def unsupported {α : Type} (inst : Instruction) : Emission α := do
  .fail (.unsupportedInstruction inst.opcode inst.position (← read).stage)

/-- Source operand `n` of an instruction. -/
def source (inst : Instruction) (n : Nat) : Emission Operand :=
  orFault inst.src[n]? (.missingSourceOperand inst.name n)

/-- Destination operand `n` of an instruction. -/
def destination (inst : Instruction) (n : Nat) : Emission Operand :=
  orFault inst.dst[n]? (.missingDestinationOperand inst.name n)

/-- Runs a builder step that may be refused. -/
def tryBuild (f : Spirv.Builder → Except Spirv.BuildError Spirv.Builder) : Lower Unit := do
  match f (← get).builder with
  | .ok builder => modify fun s => { s with builder }
  | .error e => throw (.builder e)

end Lower

end ShaderLowering
