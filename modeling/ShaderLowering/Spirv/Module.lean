import ShaderLowering.Options
import ShaderLowering.Spirv.Types

/-!
Modules and their construction. A module is a number of sections and a list of functions; a
function is a list of blocks. The builder appends to them. It hands out ids, knows which function
and which block are open, and refuses what has no place: an instruction outside a block, a block
inside a block, a function inside a function.

The builder keeps tables of the types and of the constants that it was asked for. A request that is
in its table gets the id that is there. Any other constant is declared anew. Any other type is
looked for among the globals first, by opcode and arguments, and declared if it is not there. A
declaration may also be forced; it is then always new and goes into no table, and a later request
for a type may find it.
-/

namespace ShaderLowering.Spirv

structure Block where
  label : Id
  body : Array Instr
deriving Repr

/-- A block without instructions. -/
def Block.start (label : Id) : Block := ⟨label, #[]⟩

structure Function where
  definition : Instr
  blocks : Array Block
deriving Repr

structure Module where
  version : SpirvVersion
  capabilities : Array Instr
  extensions : Array Instr
  imports : Array Instr
  memoryModel : Array Instr
  entryPoints : Array Instr
  executionModes : Array Instr
  names : Array Instr
  annotations : Array Instr
  /-- Types, constants and module-scope variables. -/
  globals : Array Instr
  functions : Array Function
deriving Repr

namespace Module

def empty (version : SpirvVersion) : Module :=
  { version, capabilities := #[], extensions := #[], imports := #[], memoryModel := #[],
    entryPoints := #[], executionModes := #[], names := #[], annotations := #[], globals := #[],
    functions := #[] }

end Module

def Block.instructions (b : Block) : List Instr :=
  ⟨.ordinary .label, none, some b.label, []⟩ :: b.body.toList

def Function.instructions (f : Function) : List Instr :=
  f.definition :: f.blocks.toList.flatMap Block.instructions ++ [.plain .functionEnd []]

/-- All instructions in the order of the binary. -/
def Module.instructions (m : Module) : List Instr :=
  m.capabilities.toList ++ m.extensions.toList ++ m.imports.toList ++ m.memoryModel.toList ++
  m.entryPoints.toList ++ m.executionModes.toList ++ m.names.toList ++ m.annotations.toList ++
  m.globals.toList ++ m.functions.toList.flatMap Function.instructions

/-- The five words in front of the instructions; `bound` is greater than every id. -/
def Module.header (m : Module) (bound : Id) : List UInt32 :=
  [0x07230203, m.version.major.toUInt32 <<< 16 ||| m.version.minor.toUInt32 <<< 8, 0x000f0000,
    .ofNat bound, 0]

def Module.words (m : Module) (bound : Id) : List UInt32 :=
  m.header bound ++ m.instructions.flatMap Instr.words

/-- Why the builder refuses a step. -/
inductive BuildError
  | detachedInstruction
  | mismatchedTerminator
  | detachedBlock
  | nestedBlock
  | nestedFunction
  | mismatchedFunctionEnd
  | blockNotFound
deriving DecidableEq, Repr, Inhabited

def BuildError.name : BuildError → String
  | detachedInstruction => "DetachedInstruction"
  | mismatchedTerminator => "MismatchedTerminator"
  | detachedBlock => "DetachedBlock"
  | nestedBlock => "NestedBlock"
  | nestedFunction => "NestedFunction"
  | mismatchedFunctionEnd => "MismatchedFunctionEnd"
  | blockNotFound => "BlockNotFound"

/-- The types and constants that were asked for, latest first. Each is among the globals. -/
structure Tables (globals : List Instr) where
  types : List (TypeKey × Id)
  constants : List (ConstantKey × Id)
  typesHeld : ∀ e ∈ types, (Key.type e.1).declaration e.2 ∈ globals
  constantsHeld : ∀ e ∈ constants, (Key.constant e.1).declaration e.2 ∈ globals
deriving Repr

namespace Tables

variable {globals : List Instr}

def empty : Tables globals :=
  { types := [], constants := [], typesHeld := nofun, constantsHeld := nofun }

/-- The same tables of more globals. -/
def extend (t : Tables globals) {more : List Instr} (subset : globals ⊆ more) : Tables more :=
  { t with
    typesHeld := fun e mem => subset (t.typesHeld e mem)
    constantsHeld := fun e mem => subset (t.constantsHeld e mem) }

def lookup (t : Tables globals) : Key → Option Id
  | .type key => t.types.lookup key
  | .constant key => t.constants.lookup key

/-- Enters what is among the globals. -/
def enter (t : Tables globals) (key : Key) (id : Id) (held : key.declaration id ∈ globals) :
    Tables globals :=
  match key with
  | .type key =>
    { t with
      types := (key, id) :: t.types
      typesHeld := List.forall_mem_cons.2 ⟨held, t.typesHeld⟩ }
  | .constant key =>
    { t with
      constants := (key, id) :: t.constants
      constantsHeld := List.forall_mem_cons.2 ⟨held, t.constantsHeld⟩ }

theorem mem_of_lookup {κ : Type} [BEq κ] [LawfulBEq κ] {table : List (κ × Id)} {key : κ} {id : Id}
    (found : table.lookup key = some id) : (key, id) ∈ table := by
  obtain ⟨_, _, rfl, _⟩ := List.lookup_eq_some_iff.1 found
  exact List.mem_append_right _ List.mem_cons_self

theorem held_of_lookup {t : Tables globals} {key : Key} {id : Id}
    (found : t.lookup key = some id) : key.declaration id ∈ globals := by
  cases key with
  | type key => exact t.typesHeld _ (mem_of_lookup found)
  | constant key => exact t.constantsHeld _ (mem_of_lookup found)

end Tables

structure Builder where
  module : Module
  /-- The id that is handed out next. -/
  nextId : Id
  /-- Position of the open function. -/
  function? : Option Nat
  /-- Position of the open block in the open function. -/
  block? : Option Nat
  tables : Tables module.globals.toList
deriving Repr

namespace Builder

def empty (version : SpirvVersion) : Builder :=
  { module := .empty version, nextId := 1, function? := none, block? := none, tables := .empty }

/-- Takes the next id. -/
def fresh (b : Builder) : Id × Builder :=
  (b.nextId, { b with nextId := b.nextId + 1 })

def addGlobal (b : Builder) (i : Instr) : Builder :=
  { b with
    module := { b.module with globals := b.module.globals.push i }
    tables := b.tables.extend (Array.toList_push ▸ List.subset_append_left _ _) }

def annotate (b : Builder) (i : Instr) : Builder :=
  { b with module := { b.module with annotations := b.module.annotations.push i } }

/-- The id of the first global with given opcode, type and arguments. -/
def findGlobal? (b : Builder) (op : Op) (type? : Option Id) (args : List Arg) : Option Id :=
  (b.module.globals.find? fun g =>
    g.op = .ordinary op && g.resultType? = type? && g.args = args).bind
    (·.result?)

/-- Declares a type or constant under a new id. -/
def declareNew (b : Builder) (op : Op) (type? : Option Id) (args : List Arg) : Id × Builder :=
  let (id, b) := b.fresh
  (id, b.addGlobal ⟨.ordinary op, type?, some id, args⟩)

theorem mem_declareNew (b : Builder) (op : Op) (type? : Option Id) (args : List Arg) :
    ⟨.ordinary op, type?, some (b.declareNew op type? args).1, args⟩ ∈
      (b.declareNew op type? args).2.module.globals.toList := by
  change _ ∈ (b.module.globals.push _).toList
  rw [Array.toList_push]
  exact List.mem_append_right _ List.mem_cons_self

/-- The id of a type that looks as asked for. It is declared if there is none. -/
def findOrDeclare (b : Builder) (op : Op) (args : List Arg) : Id × Builder :=
  match b.findGlobal? op none args with
  | some id => (id, b)
  | none => b.declareNew op none args

theorem mem_of_findGlobal {b : Builder} {op : Op} {type? : Option Id} {args : List Arg} {id : Id}
    (found : b.findGlobal? op type? args = some id) :
    ⟨.ordinary op, type?, some id, args⟩ ∈ b.module.globals.toList := by
  obtain ⟨g, first, result⟩ := Option.bind_eq_some_iff.1 found
  have looks := Array.find?_some first
  simp only [Bool.and_eq_true, decide_eq_true_eq] at looks
  have mem := Array.mem_toList_iff.2 (Array.mem_of_find?_eq_some first)
  obtain ⟨_, _, _, _⟩ := g
  obtain ⟨⟨rfl, rfl⟩, rfl⟩ := looks
  cases result
  exact mem

theorem mem_findOrDeclare (b : Builder) (op : Op) (args : List Arg) :
    ⟨.ordinary op, none, some (b.findOrDeclare op args).1, args⟩ ∈
      (b.findOrDeclare op args).2.module.globals.toList := by
  unfold findOrDeclare
  split
  · next id found => exact mem_of_findGlobal found
  · exact b.mem_declareNew op none args

/-- The id of a type or constant that is in no table. A constant is always declared. -/
def make (b : Builder) : Key → Id × Builder
  | .type key => b.findOrDeclare key.op key.args
  | .constant key => b.declareNew key.op (some key.type) key.args

theorem mem_make (b : Builder) (key : Key) :
    key.declaration (b.make key).1 ∈ (b.make key).2.module.globals.toList := by
  cases key with
  | type key => exact b.mem_findOrDeclare key.op key.args
  | constant key => exact b.mem_declareNew key.op (some key.type) key.args

/-- The id of a type or constant. -/
def declare (b : Builder) (key : Key) : Id × Builder :=
  match b.tables.lookup key with
  | some id => (id, b)
  | none =>
    let made := b.make key
    (made.1, { made.2 with tables := made.2.tables.enter key made.1 (b.mem_make key) })

/-- Appends to the open block of the open function. -/
def pushTo (b : Builder) (function block : Nat) (i : Instr) : Builder :=
  { b with
    module := { b.module with
      functions := b.module.functions.modify function fun f =>
        { f with blocks := f.blocks.modify block fun k => { k with body := k.body.push i } } } }

/-- Appends an ordinary instruction. -/
def push (b : Builder) (i : Instr) : Except BuildError Builder :=
  match b.function?, b.block? with
  | some function, some block => .ok (b.pushTo function block i)
  | _, _ => .error .detachedInstruction

/-- Appends the instruction that ends a block, and closes the block. -/
def terminate (b : Builder) (i : Instr) : Except BuildError Builder :=
  match b.block? with
  | none => .error .mismatchedTerminator
  | some _ =>
    match b.push i with
    | .ok b => .ok { b with block? := none }
    | .error e => .error e

/-- Declares a variable: in the open block, if there is one, else among the globals. -/
def variable_ (b : Builder) (pointerType : Id) (storage : StorageClass) (initial? : Option Id) :
    Id × Builder :=
  let (id, b) := b.fresh
  let i : Instr :=
    ⟨.ordinary .var, some pointerType, some id, .word storage.code :: initial?.toList.map .id⟩
  match b.push i with
  | .ok b => (id, b)
  | .error _ => (id, b.addGlobal i)

/-- Opens a function under a given id or a new one. -/
def beginFunction (b : Builder) (returnType functionType : Id) (id? : Option Id) :
    Except BuildError (Id × Builder) :=
  match b.function? with
  | some _ => .error .nestedFunction
  | none =>
    let (id, b) := match id? with
      | some id => (id, b)
      | none => b.fresh
    let definition : Instr :=
      ⟨.ordinary .function, some returnType, some id, [.word 0, .id functionType]⟩
    .ok (id, { b with
      function? := some b.module.functions.size
      module := { b.module with functions := b.module.functions.push ⟨definition, #[]⟩ } })

def endFunction (b : Builder) : Except BuildError Builder :=
  match b.function? with
  | some _ => .ok { b with function? := none }
  | none => .error .mismatchedFunctionEnd

/-- Opens a block of the open function under a given label or a new one. -/
def beginBlock (b : Builder) (label? : Option Id) : Except BuildError (Id × Builder) :=
  match b.function?, b.block? with
  | none, _ => .error .detachedBlock
  | some _, some _ => .error .nestedBlock
  | some function, none =>
    let (label, b) := match label? with
      | some label => (label, b)
      | none => b.fresh
    let size := (b.module.functions[function]?).elim 0 (·.blocks.size)
    .ok (label, { b with
      block? := some size
      module := { b.module with
        functions := b.module.functions.modify function fun f =>
          { f with blocks := f.blocks.push (.start label) } } })

/-- Leaves the open block without ending it. -/
def leaveBlock (b : Builder) : Builder :=
  { b with block? := none }

/-- Opens a block of the open function again. -/
def reopenBlock (b : Builder) (block : Nat) : Except BuildError Builder :=
  match b.function? with
  | none => .error .blockNotFound
  | some function =>
    let size := (b.module.functions[function]?).elim 0 (·.blocks.size)
    if block < size then .ok { b with block? := some block } else .error .blockNotFound

def words (b : Builder) : List UInt32 :=
  b.module.words b.nextId

theorem push_eq_ok {b c : Builder} {i : Instr} :
    b.push i = .ok c ↔
      ∃ function block, b.function? = some function ∧ b.block? = some block ∧
        c = b.pushTo function block i := by
  unfold push
  constructor
  · intro h
    split at h
    · next function block hf hb =>
      cases h
      exact ⟨function, block, hf, hb, rfl⟩
    · cases h
  · rintro ⟨function, block, hf, hb, rfl⟩
    rw [hf, hb]

theorem function?_of_push {b c : Builder} {i : Instr} (h : b.push i = .ok c) :
    c.function? = b.function? := by
  obtain ⟨_, _, _, _, rfl⟩ := push_eq_ok.1 h
  rfl

theorem block?_of_push {b c : Builder} {i : Instr} (h : b.push i = .ok c) :
    c.block? = b.block? := by
  obtain ⟨_, _, _, _, rfl⟩ := push_eq_ok.1 h
  rfl

theorem not_placed_of_push {b : Builder} {i : Instr} {e : BuildError} (h : b.push i = .error e) :
    ¬ (b.function?.isSome ∧ b.block?.isSome) := by
  unfold push at h
  split at h
  · cases h
  · next absent =>
    rintro ⟨hf, hb⟩
    obtain ⟨function, hf⟩ := Option.isSome_iff_exists.1 hf
    obtain ⟨block, hb⟩ := Option.isSome_iff_exists.1 hb
    exact absent function block hf hb

theorem make_eq (b : Builder) (key : Key) :
    (∃ id, key.declaration id ∈ b.module.globals.toList ∧ b.make key = (id, b)) ∨
      b.make key = b.declareNew key.op key.type? key.args := by
  cases key with
  | constant key => exact .inr rfl
  | type key =>
    change (∃ id, _ ∧ b.findOrDeclare key.op key.args = (id, b)) ∨
      b.findOrDeclare key.op key.args = _
    unfold findOrDeclare
    split
    · next id found => exact .inl ⟨id, mem_of_findGlobal found, rfl⟩
    · exact .inr rfl

/-- A request changes no more than the tables, or it is answered by a new declaration. -/
theorem declare_eq (b : Builder) (key : Key) :
    (∃ id tables, key.declaration id ∈ b.module.globals.toList ∧
      b.declare key = (id, { b with tables })) ∨
      ∃ tables, b.declare key =
        (b.nextId, { (b.declareNew key.op key.type? key.args).2 with tables }) := by
  unfold declare
  cases known : b.tables.lookup key with
  | some id => exact .inl ⟨id, b.tables, Tables.held_of_lookup known, rfl⟩
  | none =>
    dsimp only
    generalize b.mem_make key = held
    obtain ⟨id, mem, same⟩ | new := b.make_eq key
    · generalize b.make key = made at held same
      subst same
      exact .inl ⟨id, _, mem, rfl⟩
    · generalize b.make key = made at held new
      subst new
      exact .inr ⟨_, rfl⟩

theorem function?_declare (b : Builder) (key : Key) :
    (b.declare key).2.function? = b.function? := by
  obtain ⟨id, _, _, same⟩ | ⟨_, new⟩ := b.declare_eq key
  · rw [same]
  · rw [new]
    rfl

theorem block?_declare (b : Builder) (key : Key) : (b.declare key).2.block? = b.block? := by
  obtain ⟨id, _, _, same⟩ | ⟨_, new⟩ := b.declare_eq key
  · rw [same]
  · rw [new]
    rfl

theorem function?_variable (b : Builder) (pointerType : Id) (storage : StorageClass)
    (initial? : Option Id) :
    (b.variable_ pointerType storage initial?).2.function? = b.function? := by
  unfold variable_
  dsimp only
  split
  · next h => exact (function?_of_push h).trans rfl
  · rfl

theorem block?_variable (b : Builder) (pointerType : Id) (storage : StorageClass)
    (initial? : Option Id) :
    (b.variable_ pointerType storage initial?).2.block? = b.block? := by
  unfold variable_
  dsimp only
  split
  · next h => exact (block?_of_push h).trans rfl
  · rfl

theorem globals_variable (b : Builder) (pointerType : Id) (storage : StorageClass)
    (initial? : Option Id) :
    b.module.globals.toList <+:
      (b.variable_ pointerType storage initial?).2.module.globals.toList := by
  unfold variable_
  dsimp only
  split
  · next h =>
    obtain ⟨_, _, _, _, rfl⟩ := push_eq_ok.1 h
    exact List.prefix_rfl
  · change _ <+: (b.module.globals.push _).toList
    rw [Array.toList_push]
    exact List.prefix_append _ _

end Builder

end ShaderLowering.Spirv
