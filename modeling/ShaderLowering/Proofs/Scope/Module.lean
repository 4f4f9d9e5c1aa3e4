import ShaderLowering.Proofs.Graph.Node
import ShaderLowering.Proofs.Typing.Construction

/-!
What an instruction may refer to. Types, constants, the extended instruction set, functions and
variables stand for the whole module; any other value is there behind the instruction that computes
it, to the end of its block. All of this stays true as the module is extended.
-/

namespace ShaderLowering.Spirv

namespace Instr

/-- The ids that an instruction refers to, its result type first. -/
def uses (i : Instr) : List Id :=
  i.resultType?.toList ++ i.args.filterMap Arg.id?

/-- The ids that an instruction refers to, other than labels. -/
def reads (i : Instr) : List Id :=
  match i.op with
  | .ordinary _ => i.uses
  | .control .branchConditional | .control .switch => (i.args.take 1).filterMap Arg.id?
  | .control _ => []

end Instr

theorem Exit.uses_instr (e : Exit) : e.instr.uses = e.instr.reads ++ e.instr.labels := by
  cases e <;> rfl

namespace Module

variable {m n o : Module} {f k j : Nat} {i : Instr} {id : Id}

def block? (m : Module) (f k : Nat) : Option Block :=
  (m.functions[f]?).bind (·.blocks[k]?)

/-- Instruction `j` of block `k` of function `f`. -/
def At (m : Module) (f k j : Nat) (i : Instr) : Prop :=
  ∃ b, m.block? f k = some b ∧ b.body[j]? = some i

def LabelAt (m : Module) (f k : Nat) (label : Id) : Prop :=
  ∃ b, m.block? f k = some b ∧ b.label = label

def IsGlobal (m : Module) (id : Id) : Prop :=
  ∃ i ∈ m.globals.toList, i.result? = some id

def IsImport (m : Module) (id : Id) : Prop :=
  ∃ i ∈ m.imports.toList, i.result? = some id

def IsFunction (m : Module) (id : Id) : Prop :=
  ∃ (f : Nat) (e : Function), m.functions[f]? = some e ∧ e.definition.result? = some id

/-- The id of a variable that was declared in a block. -/
def IsVariable (m : Module) (id : Id) : Prop :=
  ∃ f k j i, m.At f k j i ∧ i.op = .ordinary .var ∧ i.result? = some id

/-- What every function may refer to. -/
def Stands (m : Module) (id : Id) : Prop :=
  m.IsGlobal id ∨ m.IsImport id ∨ m.IsFunction id ∨ m.IsVariable id

/-- An id is that of a value computed in a block, in front of instruction `j`. -/
def Before (m : Module) (f k j : Nat) (id : Id) : Prop :=
  ∃ l < j, ∃ i, m.At f k l i ∧ i.result? = some id

/-- An id is that of a value computed in a block that goes on to block `k`. -/
def Handed (m : Module) (f k : Nat) (id : Id) : Prop :=
  ∃ label k' j, m.LabelAt f k label ∧ m.At f k' j (Exit.branch label).instr ∧ m.Before f k' j id

/-- One module has all that another has, in the same places. -/
structure Extends (m n : Module) : Prop where
  globals : m.globals.toList <+: n.globals.toList
  imports : n.imports = m.imports
  functions : ∀ (f : Nat) (e : Function), m.functions[f]? = some e →
    ∃ e', n.functions[f]? = some e' ∧ e'.definition = e.definition
  blocks : ∀ f k b, m.block? f k = some b →
    ∃ c, n.block? f k = some c ∧ c.label = b.label ∧ b.body.toList <+: c.body.toList

namespace Extends

theorem refl (m : Module) : m.Extends m :=
  ⟨List.prefix_rfl, rfl, fun _ e h => ⟨e, h, rfl⟩, fun _ _ b h => ⟨b, h, rfl, List.prefix_rfl⟩⟩

theorem trans (first : m.Extends n) (second : n.Extends o) : m.Extends o := by
  refine ⟨first.globals.trans second.globals, second.imports.trans first.imports,
    fun f e h => ?_, fun f k b h => ?_⟩
  · obtain ⟨e', h', same⟩ := first.functions f e h
    obtain ⟨e'', h'', same'⟩ := second.functions f e' h'
    exact ⟨e'', h'', same'.trans same⟩
  · obtain ⟨c, h', label, longer⟩ := first.blocks f k b h
    obtain ⟨d, h'', label', longer'⟩ := second.blocks f k c h'
    exact ⟨d, h'', label'.trans label, longer.trans longer'⟩

/-- Other globals, behind those that are there. -/
theorem of_globals (globals : m.globals.toList <+: n.globals.toList)
    (imports : n.imports = m.imports) (functions : n.functions = m.functions) : m.Extends n := by
  refine ⟨globals, imports, fun f e h => ⟨e, functions ▸ h, rfl⟩, fun f k b h => ?_⟩
  exact ⟨b, by rwa [block?, functions], rfl, List.prefix_rfl⟩

variable (h : m.Extends n)
include h

theorem at_ (is : m.At f k j i) : n.At f k j i := by
  obtain ⟨b, hb, hi⟩ := is
  obtain ⟨c, hc, -, more, longer⟩ := h.blocks f k b hb
  refine ⟨c, hc, ?_⟩
  rw [← Array.getElem?_toList] at hi ⊢
  rw [← longer, List.getElem?_append_left (List.getElem?_eq_some_iff.1 hi).1, hi]

theorem labelAt {label : Id} (is : m.LabelAt f k label) : n.LabelAt f k label := by
  obtain ⟨b, hb, rfl⟩ := is
  obtain ⟨c, hc, same, -⟩ := h.blocks f k b hb
  exact ⟨c, hc, same⟩

theorem isGlobal (is : m.IsGlobal id) : n.IsGlobal id := by
  obtain ⟨i, hi, result⟩ := is
  exact ⟨i, h.globals.mem hi, result⟩

theorem stands (is : m.Stands id) : n.Stands id := by
  rcases is with is | ⟨i, hi, result⟩ | ⟨f, e, he, result⟩ | ⟨f, k, j, i, hi, op, result⟩
  · exact .inl (h.isGlobal is)
  · exact .inr (.inl ⟨i, h.imports ▸ hi, result⟩)
  · obtain ⟨e', he', same⟩ := h.functions f e he
    exact .inr (.inr (.inl ⟨f, e', he', same ▸ result⟩))
  · exact .inr (.inr (.inr ⟨f, k, j, i, h.at_ hi, op, result⟩))

theorem before (is : m.Before f k j id) : n.Before f k j id := by
  obtain ⟨l, earlier, i, hi, result⟩ := is
  exact ⟨l, earlier, i, h.at_ hi, result⟩

theorem handed (is : m.Handed f k id) : n.Handed f k id := by
  obtain ⟨label, k', j, label_, branch, before⟩ := is
  exact ⟨label, k', j, h.labelAt label_, h.at_ branch, h.before before⟩

end Extends

end Module

namespace Tables

variable {globals more : List Instr} {t : Tables globals} {u : Tables more} {key key' : Key}
  {id id' : Id}

/-- What was in a table is there still. -/
def Grows (t : Tables globals) (u : Tables more) : Prop :=
  ∀ key id, t.lookup key = some id → u.lookup key = some id

theorem Grows.of_eq (types : u.types = t.types) (constants : u.constants = t.constants) :
    t.Grows u := by
  intro key id found
  cases key with
  | type key => exact (congrArg (List.lookup key) types).trans found
  | constant key => exact (congrArg (List.lookup key) constants).trans found

theorem lookup_enter_self (held : key.declaration id ∈ globals) :
    (t.enter key id held).lookup key = some id := by
  cases key <;> exact List.lookup_cons_self

/-- What is in a table was there before or has been entered. -/
theorem lookup_enter (held : key.declaration id ∈ globals)
    (found : (t.enter key id held).lookup key' = some id') :
    key' = key ∨ t.lookup key' = some id' := by
  cases key with
  | type key =>
    cases key' with
    | constant key' => exact .inr found
    | type key' =>
      change ((key, id) :: t.types).lookup key' = some id' at found
      rw [List.lookup_cons] at found
      split at found
      · next same => exact .inl (congrArg Key.type (eq_of_beq same))
      · exact .inr found
  | constant key =>
    cases key' with
    | type key' => exact .inr found
    | constant key' =>
      change ((key, id) :: t.constants).lookup key' = some id' at found
      rw [List.lookup_cons] at found
      split at found
      · next same => exact .inl (congrArg Key.constant (eq_of_beq same))
      · exact .inr found

/-- Entering a key that is not there changes nothing for the others. -/
theorem grows_enter (held : key.declaration id ∈ globals) (missing : t.lookup key = none) :
    t.Grows (t.enter key id held) := by
  intro key' id' found
  have other : key' ≠ key := by
    rintro rfl
    cases missing.symm.trans found
  cases key with
  | type key =>
    cases key' with
    | type key' =>
      have apart : (key' == key) = false := beq_false_of_ne fun same => other (congrArg _ same)
      refine Eq.trans ?_ found
      simp only [lookup, enter, List.lookup_cons, apart]
    | constant key' => exact found
  | constant key =>
    cases key' with
    | type key' => exact found
    | constant key' =>
      have apart : (key' == key) = false := beq_false_of_ne fun same => other (congrArg _ same)
      refine Eq.trans ?_ found
      simp only [lookup, enter, List.lookup_cons, apart]

/-- A word is in the tables as a constant. -/
def Numbers (t : Tables globals) (word : UInt32) (id : Id) : Prop :=
  ∃ type, t.lookup (.type (.scalar .u32)) = some type ∧
    t.lookup (.constant (.scalar .u32 type word)) = some id

end Tables

/-- The ids in a key that follow from the rest of it are those in the tables, and truth values are
zero or one. -/
def Key.IsProper {globals : List Instr} (t : Tables globals) : Key → Prop
  | .type (.vector scalar _ component) => t.lookup (.type (.scalar scalar)) = some component
  | .type (.array _ length count) => t.Numbers length count
  | .type (.image i component) => t.lookup (.type (.scalar i.sampled)) = some component
  | .constant (.scalar component c bits) =>
    t.lookup (.type (.scalar component)) = some c ∧ (component = .bool → bits ≤ 1)
  | _ => True

theorem Key.IsProper.mono {globals more : List Instr} {t : Tables globals} {u : Tables more}
    {key : Key} (h : key.IsProper t) (grows : t.Grows u) : key.IsProper u := by
  match key with
  | .type (.vector ..) | .type (.image ..) => exact grows _ _ h
  | .type (.array ..) =>
    obtain ⟨word, typed, numbered⟩ := h
    exact ⟨word, grows _ _ typed, grows _ _ numbered⟩
  | .constant (.scalar ..) => exact ⟨grows _ _ h.1, h.2⟩
  | .type .void | .type (.scalar _) | .type (.runtimeArray _) | .type (.pointer ..)
  | .type (.function ..) | .type (.struct _) | .type .sampler | .type (.sampledImage _)
  | .constant (.composite ..) | .constant (.null _) => trivial

namespace Builder

variable {b c d : Builder} {i : Instr} {id : Id}

/-- An id is that of a value computed in the open block. -/
def Computes (b : Builder) (id : Id) : Prop :=
  ∃ f k j, b.function? = some f ∧ b.block? = some k ∧ b.module.Before f k j id

/-- One builder has come to be from another without leaving the open block. -/
structure Within (b c : Builder) : Prop where
  extends_ : b.module.Extends c.module
  function? : c.function? = b.function?
  block? : c.block? = b.block?
  nextId : b.nextId ≤ c.nextId
  tables : b.tables.Grows c.tables

namespace Within

theorem refl (b : Builder) : b.Within b :=
  ⟨.refl _, rfl, rfl, Nat.le_refl _, fun _ _ => id⟩

theorem trans (first : b.Within c) (second : c.Within d) : b.Within d :=
  ⟨first.extends_.trans second.extends_, second.function?.trans first.function?,
    second.block?.trans first.block?, Nat.le_trans first.nextId second.nextId,
    fun key id found => second.tables key id (first.tables key id found)⟩

theorem computes (h : b.Within c) (is : b.Computes id) : c.Computes id := by
  obtain ⟨f, k, j, hf, hk, before⟩ := is
  exact ⟨f, k, j, h.function?.trans hf, h.block?.trans hk, h.extends_.before before⟩

end Within

variable {f k : Nat} {block : Block}

theorem block?_pushTo (b : Builder) (f k : Nat) (i : Instr) (f' k' : Nat) :
    (b.pushTo f k i).module.block? f' k' =
      if f = f' ∧ k = k' then (b.module.block? f' k').map fun e => { e with body := e.body.push i }
      else b.module.block? f' k' := by
  unfold pushTo Module.block?
  rw [Array.getElem?_modify]
  by_cases same : f = f'
  · subst same
    rw [if_pos rfl]
    cases b.module.functions[f]? with
    | none => simp
    | some e =>
      simp only [Option.map_some, Option.bind_some, Array.getElem?_modify, true_and]
  · rw [if_neg same, if_neg fun h => same h.1]

/-- What is where after an instruction has been appended to a block. -/
theorem at_pushTo (hb : b.module.block? f k = some block) {f' k' j : Nat} {i' : Instr} :
    (b.pushTo f k i).module.At f' k' j i' ↔
      b.module.At f' k' j i' ∨ f' = f ∧ k' = k ∧ j = block.body.size ∧ i' = i := by
  unfold Module.At
  rw [block?_pushTo]
  by_cases place : f = f' ∧ k = k'
  · obtain ⟨rfl, rfl⟩ := place
    simp only [hb, and_self, if_true, Option.map_some, Option.some.injEq, exists_eq_left',
      Array.getElem?_push, true_and]
    by_cases last : j = block.body.size
    · subst last
      simp [eq_comm]
    · simp [last]
  · rw [if_neg place]
    constructor
    · exact .inl
    · rintro (h | ⟨rfl, rfl, -⟩)
      · exact h
      · exact absurd ⟨rfl, rfl⟩ place

theorem extends_pushTo (b : Builder) (f k : Nat) (i : Instr) :
    b.module.Extends (b.pushTo f k i).module := by
  refine ⟨List.prefix_rfl, rfl, fun f' e he => ?_, fun f' k' block hb => ?_⟩
  · unfold pushTo
    rw [Array.getElem?_modify, he]
    split
    · exact ⟨_, rfl, rfl⟩
    · exact ⟨e, rfl, rfl⟩
  · rw [block?_pushTo, hb]
    split
    · refine ⟨_, rfl, rfl, ?_⟩
      rw [Array.toList_push]
      exact List.prefix_append _ _
    · exact ⟨block, rfl, rfl, List.prefix_rfl⟩

theorem within_push (placed : b.push i = .ok c) : b.Within c := by
  obtain ⟨f, k, hf, hk, rfl⟩ := push_eq_ok.1 placed
  exact ⟨b.extends_pushTo f k i, rfl, rfl, Nat.le_refl _, fun _ _ => id⟩

theorem extends_addGlobal (b : Builder) (i : Instr) :
    b.module.Extends (b.addGlobal i).module := by
  refine .of_globals ?_ rfl rfl
  rw [addGlobal, Array.toList_push]
  exact List.prefix_append _ _

theorem isGlobal_addGlobal (b : Builder) (result : i.result? = some id) :
    (b.addGlobal i).module.IsGlobal id := by
  refine ⟨i, ?_, result⟩
  rw [addGlobal, Array.toList_push]
  exact List.mem_append_right _ List.mem_cons_self

theorem within_fresh (b : Builder) : b.Within b.fresh.2 :=
  ⟨.refl _, rfl, rfl, Nat.le_succ _, fun _ _ => id⟩

theorem within_declareNew (b : Builder) (op : Op) (type? : Option Id) (args : List Arg) :
    b.Within (b.declareNew op type? args).2 :=
  ⟨b.fresh.2.extends_addGlobal _, rfl, rfl, Nat.le_succ _, fun _ _ => id⟩

theorem lookup_make (b : Builder) (key key' : Key) :
    (b.make key).2.tables.lookup key' = b.tables.lookup key' := by
  obtain ⟨id, _, same⟩ | new := b.make_eq key
  · rw [same]
  · rw [new]
    cases key' <;> rfl

theorem within_make (b : Builder) (key : Key) : b.Within (b.make key).2 := by
  obtain ⟨id, _, same⟩ | new := b.make_eq key
  · rw [same]
    exact .refl b
  · rw [new]
    exact b.within_declareNew key.op key.type? key.args

theorem within_declare (b : Builder) (key : Key) : b.Within (b.declare key).2 := by
  unfold declare
  cases known : b.tables.lookup key with
  | some id => exact .refl b
  | none =>
    have made := b.within_make key
    have missing : (b.make key).2.tables.lookup key = none := by
      rw [b.lookup_make]
      exact known
    exact ⟨made.extends_, made.function?, made.block?, made.nextId, fun key' id found =>
      Tables.grows_enter _ missing key' id (made.tables key' id found)⟩

theorem within_variable (b : Builder) (pointer : Id) (storage : StorageClass)
    (initial? : Option Id) : b.Within (b.variable_ pointer storage initial?).2 := by
  unfold variable_
  dsimp only
  split
  · next c placed => exact b.within_fresh.trans (within_push placed)
  · exact b.within_fresh.trans
      ⟨b.fresh.2.extends_addGlobal _, rfl, rfl, Nat.le_refl _, fun _ _ => id⟩

namespace Sound

variable (h : b.Sound)
include h

/-- The open block. -/
theorem opened_block (hf : b.function? = some f) (hk : b.block? = some k) :
    ∃ block, b.module.block? f k = some block := by
  obtain ⟨function, block, at_, inside⟩ := h.opened hf hk
  exact ⟨block, by rw [Module.block?, at_, Option.bind_some, inside]⟩

/-- What is appended to the open block is computed there. -/
theorem computes_of_push (placed : b.push i = .ok c) (result : i.result? = some id) :
    c.Computes id := by
  obtain ⟨f, k, hf, hk, rfl⟩ := push_eq_ok.1 placed
  obtain ⟨block, hb⟩ := h.opened_block hf hk
  exact ⟨f, k, block.body.size + 1, hf, hk, block.body.size, Nat.lt_succ_self _, i,
    (at_pushTo hb).2 (.inr ⟨rfl, rfl, rfl, rfl⟩), result⟩

theorem stands_of_push (placed : b.push i = .ok c) (op : i.op = .ordinary .var)
    (result : i.result? = some id) : c.module.Stands id := by
  obtain ⟨f, k, hf, hk, rfl⟩ := push_eq_ok.1 placed
  obtain ⟨block, hb⟩ := h.opened_block hf hk
  exact .inr (.inr (.inr ⟨f, k, block.body.size, i, (at_pushTo hb).2 (.inr ⟨rfl, rfl, rfl, rfl⟩),
    op, result⟩))

/-- A variable stands, wherever it was put. -/
theorem stands_variable (pointer : Id) (storage : StorageClass) (initial? : Option Id) :
    (b.variable_ pointer storage initial?).2.module.Stands b.nextId := by
  unfold variable_
  dsimp only [Builder.fresh]
  split
  · next c placed => exact h.fresh.stands_of_push placed rfl rfl
  · exact .inl (b.fresh.2.isGlobal_addGlobal rfl)

end Sound

theorem isGlobal_declareNew (b : Builder) (op : Op) (type? : Option Id) (args : List Arg) :
    (b.declareNew op type? args).2.module.IsGlobal (b.declareNew op type? args).1 :=
  b.fresh.2.isGlobal_addGlobal rfl

/-- A request is answered alike from then on. -/
theorem lookup_declare (b : Builder) (key : Key) :
    (b.declare key).2.tables.lookup key = some (b.declare key).1 := by
  unfold declare
  cases known : b.tables.lookup key with
  | some id => exact known
  | none => exact Tables.lookup_enter_self _

theorem isGlobal_declare (b : Builder) (key : Key) :
    (b.declare key).2.module.IsGlobal (b.declare key).1 := by
  obtain ⟨id, _, mem, same⟩ | ⟨_, new⟩ := b.declare_eq key
  · rw [same]
    exact ⟨_, mem, rfl⟩
  · rw [new]
    exact b.isGlobal_declareNew key.op key.type? key.args

end Builder

end ShaderLowering.Spirv
