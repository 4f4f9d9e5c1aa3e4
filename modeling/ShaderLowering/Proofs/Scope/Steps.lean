import Mathlib.Logic.Relation
import ShaderLowering.Proofs.Interface.Declarations
import ShaderLowering.Proofs.Lowering.Steps
import ShaderLowering.Proofs.Scope.Module
import ShaderLowering.Proofs.Scope.Shapes
import ShaderLowering.Proofs.Typing.Invariant

/-!
The steps that lowering is made of. An `Act` is one addition to a state together with what makes it
sound: what it refers to is there. A variable with a special decoration is one act with the entry
that keeps its id, so that tables and decorations never disagree between two acts. `Acts` are acts
one after the other, and every ordinary step of the lowering consists of acts.

Some ids may be hidden: tables do not hold them, and acts do not refer to those that are hidden from
operands as well. So variables can be left alone. Calls and barriers may be ruled out with them.
-/

namespace ShaderLowering

open Spirv (Id Instr Arg Op Module StorageClass Builder BuiltIn Decoration)

/-- Instructions that other invocations or functions take part in. -/
def Spirv.Op.isEvent : Op → Bool
  | controlBarrier | functionCall => true
  | _ => false

/-- Instructions that neither declare anything nor are events. -/
@[grind =]
def Spirv.Op.isPlain : Op → Bool
  | controlBarrier | functionCall | var => false
  | op => !op.isGlobal

/-- The types that blocks with a layout are made of. -/
def Spirv.Op.isAggregate : Op → Bool
  | typeArray | typeStruct => true
  | _ => false

theorem Spirv.Op.isInterned_of_isAggregate {op : Op} (aggregate : op.isAggregate = true) :
    op.isInterned = false := by
  unfold isAggregate at aggregate
  split at aggregate
  · rfl
  · rfl
  · cases aggregate

/-- A register that is bound to a descriptor. -/
structure Descriptor where
  slotClass : BindingClass
  slot : UInt32
  kind : ResourceKind
  dimension : ViewDimension
  stride : UInt32
deriving DecidableEq, Repr

/-- The counter of an unordered access view. -/
def Descriptor.counter (slot : UInt32) : Descriptor :=
  ⟨.uavCounter, slot, .uavCounter, .buffer, 0⟩

/-- What limits a step: ids that tables do not hold, some of which are not referred to either, the
events, and what may be bound. -/
structure Limits where
  fromTables : Id → Prop
  fromOperands : Id → Prop
  operands : ∀ id, fromOperands id → fromTables id
  /-- Whether there may be calls and barriers. -/
  events : Prop
  binds : Descriptor → Prop

/-- What leaves an instruction of the program free to do as it should. -/
structure Allowance where
  /-- Ids that tables do not hold. -/
  hidden : Id → Prop
  /-- What it may bind. -/
  binds : Descriptor → Prop

namespace Limits

/-- Ids are hidden from tables only. -/
def tables (T : Allowance) : Limits :=
  ⟨T.hidden, fun _ => False, nofun, True, T.binds⟩

/-- Nothing refers to the ids, there are no events, and nothing is bound. -/
def all (ids : Id → Prop) : Limits :=
  ⟨ids, ids, fun _ => id, False, fun _ => False⟩

/-- Whether an instruction may be appended. -/
def Emits (H : Limits) (op : Op) : Prop :=
  op.isPlain = true ∨ op.isEvent = true ∧ H.events

theorem Emits.plain {H : Limits} {op : Op} (h : op.isPlain = true) : H.Emits op :=
  .inl h

theorem Emits.ne_var {H : Limits} {op : Op} (h : H.Emits op) : op ≠ .var := by
  rintro rfl
  rcases h with h | ⟨h, _⟩ <;> cases h

end Limits

namespace Spirv.Builder

variable {H : Limits} {b c : Builder} {id : Id}

/-- A type or constant that is not hidden. -/
def Global (H : Limits) (b : Builder) (id : Id) : Prop :=
  ¬H.fromTables id ∧ b.module.IsGlobal id

/-- What every function may refer to, unless it is hidden. -/
def Standing (H : Limits) (b : Builder) (id : Id) : Prop :=
  ¬H.fromTables id ∧ b.module.Stands id

/-- What the open block may refer to, unless it is hidden. -/
def Available (H : Limits) (b : Builder) (id : Id) : Prop :=
  ¬H.fromOperands id ∧ (b.module.Stands id ∨ b.Computes id)

theorem Global.standing (h : b.Global H id) : b.Standing H id :=
  ⟨h.1, .inl h.2⟩

@[grind →]
theorem Standing.available (h : b.Standing H id) : b.Available H id :=
  ⟨fun hidden => h.1 (H.operands id hidden), .inl h.2⟩

@[grind →]
theorem Global.available (h : b.Global H id) : b.Available H id :=
  h.standing.available

theorem Global.extend (h : b.Global H id) (more : b.module.Extends c.module) : c.Global H id :=
  ⟨h.1, more.isGlobal h.2⟩

theorem Standing.extend (h : b.Standing H id) (more : b.module.Extends c.module) :
    c.Standing H id :=
  ⟨h.1, more.stands h.2⟩

@[grind →]
theorem Global.mono (h : b.Global H id) (within : b.Within c) : c.Global H id :=
  h.extend within.extends_

@[grind →]
theorem Standing.mono (h : b.Standing H id) (within : b.Within c) : c.Standing H id :=
  h.extend within.extends_

@[grind →]
theorem Available.mono (h : b.Available H id) (within : b.Within c) : c.Available H id :=
  ⟨h.1, h.2.imp within.extends_.stands within.computes⟩

end Spirv.Builder

/-- The variables that are of use outside of the module, and what they are for. -/
structure Accounts where
  /-- All variables, latest first. -/
  listed : List (Id × StorageClass)
  builtins : List ((BuiltIn × StorageClass) × BuiltinVariable)
  /-- The variables that carry interface registers. -/
  located : Side → UInt32 → Option Id
  /-- The variables that stand for resource registers. -/
  bound : BindingClass → UInt32 → Option Id
  slots : Table ResourceSlot
  stage : StageState

def State.located (s : State) (side : Side) (reg : UInt32) : Option Id :=
  let t := match side with
    | .input => s.inputs
    | .output => s.outputs
    | .patchInput => s.patchInputs
    | .patchOutput => s.patchOutputs
  ((t.find? reg).bind (·.location?)).map (·.id)

def State.bound (s : State) (slotClass : BindingClass) (slot : UInt32) : Option Id :=
  match slotClass with
  | .constantBuffer => (s.constantBuffers.find? slot).map (·.variable_)
  | .sampler => s.samplers.find? slot
  | .shaderResource => (s.textures.find? slot).map (·.variable_)
  | .unorderedAccess => (s.uavs.find? slot).map (·.variable_)
  | .uavCounter => (s.uavs.find? slot).bind (·.counter?)

def State.accounts (s : State) : Accounts :=
  { listed := s.globals, builtins := s.builtins, located := s.located, bound := s.bound
    slots := s.slots, stage := s.stage }

/-- What the tables of a state hold is there for the whole module. -/
structure State.Kept (H : Limits) (b : Builder) (s : State) : Prop where
  extendedSet : b.Standing H s.extendedSet
  temps : ∀ id ∈ s.temps.toList, b.Standing H id
  indexableTemps : s.indexableTemps.All fun _ t => b.Standing H t.variable_
  groupMemory : s.groupMemory.All fun _ g => b.Standing H g.variable_
  immediates : ∀ id, s.immediateConstants? = some id → b.Standing H id
  inputArray : ∀ id, s.inputArray? = some id → b.Standing H id
  outputArray : ∀ id, s.outputArray? = some id → b.Standing H id
  patchArray : ∀ id, s.patchArray? = some id → b.Standing H id
  inputs : s.inputs.All fun _ r => ∀ l, r.location? = some l → b.Standing H l.id
  outputs : s.outputs.All fun _ r => ∀ l, r.location? = some l → b.Standing H l.id
  patchInputs : s.patchInputs.All fun _ r => ∀ l, r.location? = some l → b.Standing H l.id
  patchOutputs : s.patchOutputs.All fun _ r => ∀ l, r.location? = some l → b.Standing H l.id
  builtins : ∀ e ∈ s.builtins, b.Standing H e.2.id
  constantBuffers : s.constantBuffers.All fun _ c => b.Standing H c.variable_
  samplers : s.samplers.All fun _ id => b.Standing H id
  textures : s.textures.All fun _ r => b.Standing H r.variable_
  uavs : s.uavs.All fun _ r =>
    b.Standing H r.variable_ ∧ ∀ id, r.counter? = some id → b.Standing H id
  uniformBlocks : ∀ e ∈ s.uniformBlocks, b.Global H e.2
  storageBlock : ∀ id, s.storageBlock? = some id → b.Global H id
  counterBlock : ∀ id, s.counterBlock? = some id → b.Global H id
  body : ∀ id, s.body? = some id → b.Standing H id
  hull : ∀ h, s.stage.hull? = some h →
    (∀ id, h.controlPoint? = some id → b.Standing H id) ∧
    ∀ phase ∈ h.fork ++ h.join, b.Standing H phase.function ∧ b.module.Stands phase.instanceId

theorem State.Kept.extend {H : Limits} {b c : Builder} {s : State} (h : s.Kept H b)
    (more : b.module.Extends c.module) : s.Kept H c where
  extendedSet := h.extendedSet.extend more
  temps id hid := (h.temps id hid).extend more
  indexableTemps := h.indexableTemps.imp fun _ _ h => h.extend more
  groupMemory := h.groupMemory.imp fun _ _ h => h.extend more
  immediates id hid := (h.immediates id hid).extend more
  inputArray id hid := (h.inputArray id hid).extend more
  outputArray id hid := (h.outputArray id hid).extend more
  patchArray id hid := (h.patchArray id hid).extend more
  inputs := h.inputs.imp fun _ _ h l hl => (h l hl).extend more
  outputs := h.outputs.imp fun _ _ h l hl => (h l hl).extend more
  patchInputs := h.patchInputs.imp fun _ _ h l hl => (h l hl).extend more
  patchOutputs := h.patchOutputs.imp fun _ _ h l hl => (h l hl).extend more
  builtins e he := (h.builtins e he).extend more
  constantBuffers := h.constantBuffers.imp fun _ _ h => h.extend more
  samplers := h.samplers.imp fun _ _ h => h.extend more
  textures := h.textures.imp fun _ _ h => h.extend more
  uavs := h.uavs.imp fun _ _ h => ⟨h.1.extend more, fun id hid => (h.2 id hid).extend more⟩
  uniformBlocks e he := (h.uniformBlocks e he).extend more
  storageBlock id hid := (h.storageBlock id hid).extend more
  counterBlock id hid := (h.counterBlock id hid).extend more
  body id hid := (h.body id hid).extend more
  hull state is := ⟨fun id hid => ((h.hull state is).1 id hid).extend more, fun phase mem =>
    ⟨((h.hull state is).2 phase mem).1.extend more,
      more.stands ((h.hull state is).2 phase mem).2⟩⟩

theorem State.Kept.mono {H : Limits} {b c : Builder} {s : State} (h : s.Kept H b)
    (within : b.Within c) : s.Kept H c :=
  h.extend within.extends_

/-- The decorations that put a variable into an interface. -/
@[grind =]
def Spirv.Decoration.isSpecial : Decoration → Bool
  | binding | builtIn | descriptorSet | location | patch => true
  | _ => false

/-- An annotation that says nothing of the interfaces of the module. -/
structure Spirv.Instr.IsPlainMark (i : Instr) : Prop where
  result? : i.result? = none
  isSpecial : ∀ id (d : Decoration) args, i = .plain .decorate (.id id :: .word d.code :: args) →
    d.isSpecial = false

/-- What stands in front of the globals, imports apart. -/
def Spirv.Module.preamble (m : Module) : List Instr :=
  m.capabilities.toList ++ m.extensions.toList ++ m.memoryModel.toList ++ m.entryPoints.toList ++
  m.executionModes.toList ++ m.names.toList ++ m.annotations.toList

theorem Spirv.Module.mem_preamble {m : Module} {i : Instr} :
    i ∈ m.preamble ↔ i ∈ m.capabilities ∨ i ∈ m.extensions ∨ i ∈ m.memoryModel ∨
      i ∈ m.entryPoints ∨ i ∈ m.executionModes ∨ i ∈ m.names ∨ i ∈ m.annotations := by
  simp only [preamble, List.mem_append, Array.mem_toList_iff, or_assoc]

/-- Builders that differ in names, annotations and the like at most. -/
structure Spirv.Builder.Like (b c : Builder) : Prop where
  nextId : c.nextId = b.nextId
  function? : c.function? = b.function?
  block? : c.block? = b.block?
  functions : c.module.functions = b.module.functions
  globals : c.module.globals = b.module.globals
  imports : c.module.imports = b.module.imports
  entryPoints : c.module.entryPoints = b.module.entryPoints
  types : c.tables.types = b.tables.types
  constants : c.tables.constants = b.tables.constants
  preamble : ∀ i ∈ c.module.preamble, i ∈ b.module.preamble ∨ i.result? = none

/-- A new variable and what it is decorated with. -/
structure Creates (H : Limits) (s t : State) (id : Id) (storage : StorageClass)
    (marks : List Instr) : Prop where
  built : ∃ pointer initial?, (∀ a ∈ pointer :: initial?.toList, s.builder.Global H a) ∧
    (s.builder.variable_ pointer storage initial?).2.Like t.builder
  fresh : id = s.builder.nextId
  marks : t.builder.module.annotations.toList = s.builder.module.annotations.toList ++ marks
  kept : ∀ b : Builder, s.Kept H b → b.Standing H id → t.Kept H b
  remembers : s.Remembers t

/-- The entry of a descriptor. -/
def Descriptor.entry (d : Descriptor) (stage : ShaderStage) (binding : Nat) : ResourceSlot :=
  { slot := d.slot, kind := d.kind, dimension := d.dimension, stride := d.stride
    stages := .ofStage stage, binding }

/-- Changes a function at one register. -/
def Function.updateAt {κ ι α : Type} [DecidableEq κ] [DecidableEq ι] (f : κ → ι → α) (k : κ)
    (i : ι) (a : α) : κ → ι → α :=
  fun k' i' => if k' = k ∧ i' = i then a else f k' i'

/-- The table of slots after a descriptor has been entered. -/
def enterSlot (slots : Table ResourceSlot) (stage : ShaderStage) (d : Descriptor) (binding : Nat) :
    Table ResourceSlot :=
  slots.insert (.ofNat binding) <|
    match slots.find? (.ofNat binding) with
    | some existing => { existing with stages := existing.stages.union (.ofStage stage) }
    | none => d.entry stage binding

/-- A register gets its variable and its binding. -/
structure Binds (H : Limits) (env : Environment) (s t : State) (d : Descriptor) : Prop where
  unbound : s.bound d.slotClass d.slot = none
  made : ∃ id storage binding marks, bindingOf env.stage d.slotClass d.slot = .ok binding ∧
    Creates H s t id storage (marks ++
      [.plain .decorate [.id id, .word Decoration.descriptorSet.code, .word 0],
        .plain .decorate [.id id, .word Decoration.binding.code, .word (.ofNat binding)]]) ∧
    (∀ i ∈ marks, i.IsPlainMark) ∧
    t.accounts =
      { s.accounts with
        listed := (id, storage) :: s.globals
        bound := Function.updateAt s.bound d.slotClass d.slot (some id)
        slots := enterSlot s.slots env.stage d binding }

/-- One sound addition to a state. -/
inductive Act (H : Limits) (env : Environment) : State → State → Prop
  | declare {s : State} {key : Spirv.Key}
    (known : ∀ id ∈ key.type?.toList ++ key.args.filterMap Arg.id?, s.builder.Global H id)
    (proper : key.IsProper s.builder.tables) :
    Act H env s { s with builder := (s.builder.declare key).2 }
  | declareNew {s : State} {op : Op} {type? : Option Id} {args : List Arg}
    (global : op.isGlobal = true) (aggregate : op.isAggregate = true)
    (known : ∀ id ∈ type?.toList ++ args.filterMap Arg.id?, s.builder.Global H id) :
    Act H env s { s with builder := (s.builder.declareNew op type? args).2 }
  | compute {s : State} {op : Op} {type : Id} {args : List Arg} {c : Builder}
    (emits : H.Emits op)
    (placed : s.builder.fresh.2.push ⟨.ordinary op, some type, some s.builder.nextId, args⟩ = .ok c)
    (known : ∀ id ∈ type :: args.filterMap Arg.id?, s.builder.Available H id) :
    Act H env s { s with builder := c }
  | emit {s : State} {op : Op} {args : List Arg} {c : Builder}
    (emits : H.Emits op)
    (placed : s.builder.push ⟨.ordinary op, none, none, args⟩ = .ok c)
    (known : ∀ id ∈ args.filterMap Arg.id?, s.builder.Available H id) :
    Act H env s { s with builder := c }
  /-- A variable without a special decoration. -/
  | create {s t : State} {id : Id} {storage : StorageClass} (creates : Creates H s t id storage [])
    (accounts : t.accounts = { s.accounts with listed := (id, storage) :: s.globals }) :
    Act H env s t
  | annotate {s : State} {i : Instr} (plain : i.IsPlainMark) :
    Act H env s { s with builder := s.builder.annotate i }
  | note {s t : State} (like : s.builder.Like t.builder)
    (annotations : t.builder.module.annotations = s.builder.module.annotations)
    (kept : s.Kept H s.builder → t.Kept H s.builder) (accounts : t.accounts = s.accounts)
    (remembers : s.Remembers t) : Act H env s t
  | builtin {s t : State} {key : BuiltIn × StorageClass} {made : BuiltinVariable}
    {marks : List Instr} (missing : s.builtins.lookup key = none)
    (creates : Creates H s t made.id key.2
      (.plain .decorate [.id made.id, .word Decoration.builtIn.code, .word key.1.code] :: marks))
    (others : ∀ i ∈ marks, i.IsPlainMark ∨
      i = .plain .decorate [.id made.id, .word Decoration.patch.code])
    (accounts : t.accounts =
      { s.accounts with
        listed := (made.id, key.2) :: s.globals
        builtins := (key, made) :: s.builtins }) :
    Act H env s t
  /-- A variable that carries an interface register. -/
  | locate {s t : State} {side : Side} {reg : UInt32} {id : Id} {marks : List Instr}
    (missing : s.located side reg = none) (small : reg.toNat < maxInterfaceRegisters)
    (creates : Creates H s t id side.storage
      ((if side.isPatch then [.plain .decorate [.id id, .word Decoration.patch.code]] else []) ++
        .plain .decorate
          [.id id, .word Decoration.location.code, .word (side.locationOf reg)] :: marks))
    (others : ∀ i ∈ marks, i.IsPlainMark)
    (accounts : t.accounts =
      { s.accounts with
        listed := (id, side.storage) :: s.globals
        located := Function.updateAt s.located side reg (some id) }) :
    Act H env s t
  | bind {s t : State} {d : Descriptor} (may : H.binds d) (binds : Binds H env s t d) :
    Act H env s t

def Acts (H : Limits) (env : Environment) : State → State → Prop :=
  Relation.ReflTransGen (Act H env)

/-- What acts need of the state they start from. -/
structure Ready (H : Limits) (s : State) : Prop where
  sound : s.builder.Sound
  kept : s.Kept H s.builder
  /-- Hidden ids are old, and they are those of variables. -/
  hidden : ∀ id, H.fromTables id → id < s.builder.nextId ∧
    ∀ i ∈ s.builder.module.globals.toList, i.result? = some id → i.op = .ordinary .var

namespace Spirv.Builder

variable {b c d : Builder}

theorem Like.within (h : b.Like c) : b.Within c :=
  ⟨.of_globals (h.globals ▸ List.prefix_rfl) h.imports h.functions, h.function?, h.block?,
    Nat.le_of_eq h.nextId.symm, .of_eq h.types h.constants⟩

theorem Like.sound (h : b.Like c) (sound : b.Sound) : c.Sound := by
  have definitions : c.module.definitions = b.module.definitions := by
    rw [Module.definitions, Module.bodies, h.globals, h.functions]
    rfl
  refine ⟨?_, ?_, ?_, ?_, ?_, ?_⟩
  · rw [h.function?, h.functions]
    exact sound.function
  · rw [h.block?, h.function?, h.functions]
    exact sound.block
  · rw [definitions, h.nextId]
    exact sound.below
  · rw [Module.Distinct, definitions]
    exact sound.distinct
  · intro op interned type? args p q
    rw [Module.Declares, Module.Declares, h.globals]
    exact sound.interned op interned type? args p q
  · rw [h.globals]
    exact sound.named

theorem like_annotate (b : Builder) {i : Instr} (result : i.result? = none) :
    b.Like (b.annotate i) := by
  refine ⟨rfl, rfl, rfl, rfl, rfl, rfl, rfl, rfl, rfl, fun j hj => ?_⟩
  simp only [Module.preamble, annotate, Array.toList_push, ← List.append_assoc] at hj ⊢
  rcases List.mem_append.1 hj with hj | hj
  · exact .inl hj
  · exact .inr (List.mem_singleton.1 hj ▸ result)

theorem Sound.variable_ (h : b.Sound) (pointer : Id) (storage : StorageClass)
    (initial? : Option Id) : (b.variable_ pointer storage initial?).2.Sound := by
  unfold Builder.variable_
  dsimp only [Builder.fresh]
  split
  · next c placed =>
    refine h.fresh.push placed (fun id result => ?_) ?_
    · cases result
      exact Nat.lt_succ_self _
    · exact h.apart_fresh fun id result => (Option.some.inj result).symm
  · exact h.addGlobal fun interned => absurd interned Bool.false_ne_true

end Spirv.Builder

section

variable {H : Limits} {env : Environment} {s t u : State} {id : Id} {storage : StorageClass}
  {marks : List Instr}

theorem Creates.within (h : Creates H s t id storage marks) : s.builder.Within t.builder := by
  obtain ⟨pointer, initial?, _, like⟩ := h.built
  exact (s.builder.within_variable pointer storage initial?).trans like.within

theorem Creates.sound (h : Creates H s t id storage marks) (sound : s.builder.Sound) :
    t.builder.Sound := by
  obtain ⟨pointer, initial?, _, like⟩ := h.built
  exact like.sound (sound.variable_ pointer storage initial?)

theorem Creates.stands (h : Creates H s t id storage marks) (sound : s.builder.Sound) :
    t.builder.module.Stands id := by
  obtain ⟨pointer, initial?, _, like⟩ := h.built
  rw [h.fresh]
  exact like.within.extends_.stands (sound.stands_variable pointer storage initial?)

theorem Act.within (h : Act H env s t) : s.builder.Within t.builder := by
  cases h with
  | declare => exact s.builder.within_declare _
  | declareNew => exact s.builder.within_declareNew _ _ _
  | compute _ placed => exact s.builder.within_fresh.trans (Spirv.Builder.within_push placed)
  | emit _ placed => exact Spirv.Builder.within_push placed
  | create creates | builtin _ creates | locate _ _ creates => exact creates.within
  | annotate plain => exact (s.builder.like_annotate plain.result?).within
  | note like => exact like.within
  | bind _ binds =>
    obtain ⟨_, _, _, _, _, creates, _⟩ := binds.made
    exact creates.within

/-- Hidden ids stay hidden: what is declared gets another id. -/
theorem hidden_addGlobal {b : Builder} {i : Instr} (result : i.result? = some b.nextId)
    (h : ∀ id, H.fromTables id → id < b.nextId ∧
      ∀ i ∈ b.module.globals.toList, i.result? = some id → i.op = .ordinary .var) :
    ∀ id, H.fromTables id → id < (b.fresh.2.addGlobal i).nextId ∧
      ∀ j ∈ (b.fresh.2.addGlobal i).module.globals.toList, j.result? = some id →
        j.op = .ordinary .var := by
  intro id hidden
  refine ⟨Nat.lt_succ_of_lt (h id hidden).1, fun j hj result' => ?_⟩
  rw [Builder.addGlobal, Array.toList_push] at hj
  rcases List.mem_append.1 hj with hj | hj
  · exact (h id hidden).2 j hj result'
  · rw [List.mem_singleton.1 hj, result] at result'
    cases result'
    exact absurd (h _ hidden).1 (Nat.lt_irrefl _)

/-- The new variable is entered in a table. -/
theorem Creates.note (h : Creates H s t id storage marks) (builder : u.builder = t.builder)
    (kept : ∀ b : Builder, t.Kept H b → b.Standing H id → u.Kept H b)
    (remembers : t.Remembers u) : Creates H s u id storage marks where
  built := builder ▸ h.built
  fresh := h.fresh
  marks := builder ▸ h.marks
  kept b before stands := kept b (h.kept b before stands) stands
  remembers := h.remembers.trans remembers

theorem Creates.standing (h : Creates H s t id storage marks) (ready : Ready H s) :
    t.builder.Standing H id := by
  refine ⟨fun hidden => ?_, h.stands ready.sound⟩
  have := (ready.hidden id hidden).1
  rw [h.fresh] at this
  exact Nat.lt_irrefl _ this

theorem Creates.ready (h : Creates H s t id storage marks) (ready : Ready H s) : Ready H t := by
  refine ⟨h.sound ready.sound, h.kept _ (ready.kept.mono h.within) (h.standing ready), ?_⟩
  · obtain ⟨pointer, initial?, _, like⟩ := h.built
    rw [like.nextId, like.globals]
    unfold Builder.variable_
    dsimp only [Builder.fresh]
    split
    · next c placed =>
      obtain ⟨_, _, _, _, rfl⟩ := Spirv.Builder.push_eq_ok.1 placed
      exact fun id hidden => ⟨Nat.lt_succ_of_lt (ready.hidden id hidden).1,
        (ready.hidden id hidden).2⟩
    · exact hidden_addGlobal rfl ready.hidden

theorem Act.ready (h : Act H env s t) (ready : Ready H s) : Ready H t := by
  have kept := ready.kept.mono h.within
  have later {c : Builder} {i : Instr} (placed : s.builder.fresh.2.push i = .ok c) :
      ∀ id, H.fromTables id → id < c.nextId ∧
        ∀ i ∈ c.module.globals.toList, i.result? = some id → i.op = .ordinary .var := by
    obtain ⟨_, _, _, _, rfl⟩ := Spirv.Builder.push_eq_ok.1 placed
    exact fun id hidden => ⟨Nat.lt_succ_of_lt (ready.hidden id hidden).1,
      (ready.hidden id hidden).2⟩
  cases h with
  | @declare key =>
    refine ⟨ready.sound.declare key, { kept with }, ?_⟩
    dsimp only
    obtain ⟨_, _, _, same⟩ | ⟨_, new⟩ := s.builder.declare_eq key
    · rw [same]
      exact ready.hidden
    · rw [new]
      exact hidden_addGlobal rfl ready.hidden
  | declareNew _ aggregate =>
    refine ⟨ready.sound.addGlobal fun interned => ?_, { kept with },
      hidden_addGlobal rfl ready.hidden⟩
    rw [Spirv.Op.isInterned_of_isAggregate aggregate] at interned
    cases interned
  | compute _ placed =>
    refine ⟨ready.sound.fresh.push placed (fun id result => ?_) ?_, { kept with }, later placed⟩
    · cases result
      exact Nat.lt_succ_self _
    · exact ready.sound.apart_fresh fun id result => (Option.some.inj result).symm
  | emit _ placed =>
    refine ⟨ready.sound.push placed nofun fun _ _ _ _ => nofun, { kept with }, ?_⟩
    obtain ⟨_, _, _, _, rfl⟩ := Spirv.Builder.push_eq_ok.1 placed
    exact ready.hidden
  | create creates | builtin _ creates | locate _ _ creates => exact creates.ready ready
  | annotate plain =>
    exact ⟨(s.builder.like_annotate plain.result?).sound ready.sound, { kept with }, ready.hidden⟩
  | note like _ keeps =>
    refine ⟨like.sound ready.sound, (keeps ready.kept).mono like.within, ?_⟩
    rw [like.nextId, like.globals]
    exact ready.hidden
  | bind _ binds =>
    obtain ⟨_, _, _, _, _, creates, _⟩ := binds.made
    exact creates.ready ready

/-- No act takes the shape of a register away. -/
theorem Act.remembers (h : Act H env s t) : s.Remembers t := by
  cases h with
  | declare | declareNew | compute | emit | annotate => exact .of_eq rfl
  | create creates | builtin _ creates | locate _ _ creates => exact creates.remembers
  | note _ _ _ _ remembers => exact remembers
  | bind _ binds =>
    obtain ⟨_, _, _, _, _, creates, _⟩ := binds.made
    exact creates.remembers

namespace Acts

theorem within (h : Acts H env s t) : s.builder.Within t.builder := by
  induction h with
  | refl => exact .refl _
  | tail _ last ih => exact ih.trans last.within

theorem ready (h : Acts H env s t) (ready : Ready H s) : Ready H t := by
  induction h with
  | refl => exact ready
  | tail _ last ih => exact last.ready ih

theorem remembers (h : Acts H env s t) : s.Remembers t := by
  induction h with
  | refl => exact .refl _
  | tail _ last ih => exact ih.trans last.remembers

theorem single (h : Act H env s t) : Acts H env s t :=
  Relation.ReflTransGen.single h

end Acts

end

end ShaderLowering
