import ShaderLowering.Proofs.Graph.Node
import ShaderLowering.Proofs.Lowering.Run

/-!
The function under construction, seen as a list of nodes. The open node, if there is one, is the
last; all before it are done, except that a switch leaves its header without an exit until the
switch is closed. `Draft.Describes` ties a draft to the builder, and the lemmas say what each step
on blocks does to it: it reaches a state with a known draft, or it fails.
-/

namespace ShaderLowering

open Spirv (Id Instr Node Merge Exit)

namespace Spirv

theorem modify_concat {α : Type} (xs : List α) (x : α) (f : α → α) :
    (xs ++ [x]).modify xs.length f = xs ++ [f x] := by
  induction xs with
  | nil => rfl
  | cons y rest ih =>
    rw [List.cons_append, List.length_cons, List.modify_succ_cons, ih, List.cons_append]

theorem modify_last {α : Type} (xs : Array α) (x : α) (f : α → α) :
    (xs.push x).modify xs.size f = xs.push (f x) := by
  apply Array.ext'
  rw [Array.toList_modify, Array.toList_push, Array.toList_push, ← Array.length_toList,
    modify_concat]

theorem modify_map {α β : Type} {b : α → β} {f : β → β} {g : α → α} (h : ∀ a, f (b a) = b (g a))
    (xs : List α) (j : Nat) : (xs.map b).modify j f = (xs.modify j g).map b := by
  induction xs generalizing j with
  | nil => rw [List.map_nil, List.modify_nil, List.modify_nil, List.map_nil]
  | cons x rest ih =>
    cases j with
    | zero => rw [List.map_cons, List.modify_zero_cons, List.modify_zero_cons, List.map_cons, h]
    | succ j => rw [List.map_cons, List.modify_succ_cons, List.modify_succ_cons, List.map_cons, ih]

/-- Changing a node of the last function. -/
theorem modify_ofNodes (earlier : Array Function) (definition : Instr) (nodes : List Node)
    {f : Block → Block} {g : Node → Node} (h : ∀ n, f n.block = (g n).block) (j : Nat) :
    (earlier.push (.ofNodes definition nodes)).modify earlier.size
        (fun e => { e with blocks := e.blocks.modify j f }) =
      earlier.push (.ofNodes definition (nodes.modify j g)) := by
  rw [modify_last]
  unfold Function.ofNodes
  rw [List.modify_toArray, modify_map h]

theorem Function.ofNodes_start (definition : Instr) (nodes : List Node) (label : Id) :
    { Function.ofNodes definition nodes with
      blocks := (Function.ofNodes definition nodes).blocks.push (.start label) } =
      .ofNodes definition (nodes ++ [.start label]) := by
  unfold Function.ofNodes
  rw [List.push_toArray, List.map_append]
  rfl

end Spirv

structure Draft where
  /-- The functions that are already closed. -/
  earlier : Array Spirv.Function
  definition : Instr
  done : List Node
  open? : Option Node
  next : Id
  globals : Array Instr
  constructs : List Construct
  /-- The opcode of the instruction lowered last. -/
  last? : Option Opcode

namespace Draft

def nodes (d : Draft) : List Node :=
  d.done ++ d.open?.toList

/-- The functions of the module, the open one last. -/
def functions (d : Draft) : Array Spirv.Function :=
  d.earlier.push (.ofNodes d.definition d.nodes)

/-- What a draft says of the builder. -/
structure Outlines (d : Draft) (b : Spirv.Builder) : Prop where
  function? : b.function? = some d.earlier.size
  functions : b.module.functions = d.functions
  block? : b.block? = d.open?.map fun _ => d.done.length
  nextId : b.nextId = d.next
  globals : b.module.globals = d.globals

structure Describes (d : Draft) (s : State) : Prop where
  builder : d.Outlines s.builder
  constructs : s.constructs = d.constructs
  last? : s.lastOpcode?.bind Opcode.ofCode? = d.last?

/-- Closes the open node with an exit. -/
def exit (d : Draft) (n : Node) (e : Exit) : Draft :=
  { d with done := d.done ++ [n.exit e], open? := none }

/-- Opens a node. -/
def enter (d : Draft) (label : Id) : Draft :=
  { d with open? := some (.start label) }

def take (d : Draft) (n : Nat) : Draft :=
  { d with next := d.next + n }

variable {d : Draft} {b : Spirv.Builder} {n : Node}

theorem nodes_of_open (h : d.open? = some n) : d.nodes = d.done ++ [n] := by
  rw [nodes, h]
  rfl

theorem nodes_of_none (h : d.open? = none) : d.nodes = d.done := by
  rw [nodes, h]
  exact List.append_nil _

/-- Changing one block changes one node. -/
theorem functions_pushTo (h : b.module.functions = d.functions) (j : Nat) {i : Instr}
    {g : Node → Node}
    (hl : ∀ m, (g m).label = m.label) (hi : ∀ m, (g m).body = m.body ++ [i]) :
    (b.pushTo d.earlier.size j i).module.functions =
      d.earlier.push (.ofNodes d.definition (d.nodes.modify j g)) := by
  let f (k : Spirv.Block) : Spirv.Block := { k with body := k.body.push i }
  have blocks (m : Node) : f m.block = (g m).block := by
    change Spirv.Block.mk m.label (m.body.toArray.push i) = _
    rw [Node.block, hl, hi, List.push_toArray]
  have pushed : (b.pushTo d.earlier.size j i).module.functions =
      b.module.functions.modify d.earlier.size
        (fun e => { e with blocks := e.blocks.modify j f }) := rfl
  rw [pushed, h, Draft.functions, Spirv.modify_ofNodes _ _ _ blocks]

namespace Outlines

theorem block?_of_open (hb : d.Outlines b) (ho : d.open? = some n) :
    b.block? = some d.done.length := by
  rw [hb.block?, ho]
  rfl

theorem block?_of_none (hb : d.Outlines b) (ho : d.open? = none) : b.block? = none := by
  rw [hb.block?, ho]
  rfl

/-- Appending an instruction to the open block. -/
theorem push (hb : d.Outlines b) (ho : d.open? = some n) {i : Instr} {g : Node → Node}
    (hl : ∀ m, (g m).label = m.label) (hi : ∀ m, (g m).body = m.body ++ [i]) :
    ∃ c, b.push i = .ok c ∧ Outlines { d with open? := some (g n) } c := by
  have place := hb.block?_of_open ho
  refine ⟨_, Spirv.Builder.push_eq_ok.2 ⟨_, _, hb.function?, place, rfl⟩, ?_⟩
  refine ⟨hb.function?, ?_, place, hb.nextId, hb.globals⟩
  rw [functions_pushTo hb.functions _ hl hi, nodes_of_open ho, Spirv.modify_concat]
  rfl

theorem push_none (hb : d.Outlines b) (ho : d.open? = none) (i : Instr) :
    b.push i = .error .detachedInstruction := by
  rw [Spirv.Builder.push, hb.function?, hb.block?_of_none ho]

theorem withConstructs (hb : d.Outlines b) (constructs : List Construct) :
    Outlines { d with constructs } b :=
  ⟨hb.function?, hb.functions, hb.block?, hb.nextId, hb.globals⟩

theorem withLast (hb : d.Outlines b) (last? : Option Opcode) : Outlines { d with last? } b :=
  ⟨hb.function?, hb.functions, hb.block?, hb.nextId, hb.globals⟩

/-- Taking ids. -/
theorem take (hb : d.Outlines b) (k : Nat) :
    (d.take k).Outlines { b with nextId := b.nextId + k } :=
  ⟨hb.function?, hb.functions, hb.block?, congrArg (· + k) hb.nextId, hb.globals⟩

/-- Ending the open block. -/
theorem terminate (hb : d.Outlines b) (ho : d.open? = some n) (e : Exit) :
    ∃ c, b.terminate e.instr = .ok c ∧ (d.exit n e).Outlines c := by
  obtain ⟨c, hc, outlines⟩ := hb.push ho (g := (·.exit e)) (fun m => m.label_exit e)
    (fun m => m.body_exit e)
  refine ⟨{ c with block? := none }, ?_, ?_⟩
  · rw [Spirv.Builder.terminate, hb.block?_of_open ho]
    dsimp only
    rw [hc]
  · refine ⟨outlines.function?, outlines.functions.trans ?_, rfl, outlines.nextId,
      outlines.globals⟩
    rw [Draft.functions, Draft.functions, nodes_of_open rfl, nodes_of_none rfl]
    rfl

theorem terminate_none (hb : d.Outlines b) (ho : d.open? = none) (i : Instr) :
    b.terminate i = .error .mismatchedTerminator := by
  rw [Spirv.Builder.terminate, hb.block?_of_none ho]

theorem size_eq (hb : d.Outlines b) :
    (b.module.functions[d.earlier.size]?).elim 0 (·.blocks.size) = d.nodes.length := by
  rw [hb.functions, Draft.functions, Array.getElem?_push_size, Option.elim_some,
    Spirv.Function.ofNodes, List.size_toArray, List.length_map]

/-- Opening a block under a given label. -/
theorem beginBlock (hb : d.Outlines b) (ho : d.open? = none) (label : Id) :
    ∃ c, b.beginBlock (some label) = .ok (label, c) ∧ (d.enter label).Outlines c := by
  refine ⟨_, by rw [Spirv.Builder.beginBlock, hb.function?, hb.block?_of_none ho], ?_⟩
  refine ⟨rfl, ?_, ?_, hb.nextId, hb.globals⟩
  · have entered : (d.earlier.push (.ofNodes d.definition d.nodes)).modify d.earlier.size
        (fun f => { f with blocks := f.blocks.push (.start label) }) =
        (d.enter label).functions := by
      rw [Spirv.modify_last, Draft.functions, nodes_of_none ho, nodes_of_open rfl,
        Spirv.Function.ofNodes_start]
      rfl
    rw [← entered, ← Draft.functions, ← hb.functions]
  · change some ((b.module.functions[d.earlier.size]?).elim 0 (·.blocks.size)) =
      some d.done.length
    rw [hb.size_eq, nodes_of_none ho]

/-- Opening a block under a new label. -/
theorem beginFreshBlock (hb : d.Outlines b) (ho : d.open? = none) :
    ∃ c, b.beginBlock none = .ok (d.next, c) ∧ ((d.take 1).enter d.next).Outlines c := by
  obtain ⟨c, hc, outlines⟩ := (hb.take 1).beginBlock ho d.next
  refine ⟨c, ?_, outlines⟩
  have numbered : b.beginBlock none =
      Spirv.Builder.beginBlock { b with nextId := b.nextId + 1 } (some b.nextId) := by
    have function? := hb.function?
    have block? := hb.block?_of_none ho
    obtain ⟨module, next, _, _⟩ := b
    subst function? block?
    rfl
  rw [numbered, hb.nextId]
  rw [hb.nextId] at hc
  exact hc

/-- Leaving the open block without an exit. -/
theorem leaveBlock (hb : d.Outlines b) :
    Outlines { d with done := d.nodes, open? := none } b.leaveBlock :=
  ⟨hb.function?, hb.functions.trans (by
    rw [Draft.functions, Draft.functions,
      nodes_of_none (d := { d with done := d.nodes, open? := none }) rfl]), rfl, hb.nextId,
    hb.globals⟩

/-- Going back to a block to end it. -/
theorem close (hb : d.Outlines b) (ho : d.open? = none) {j : Nat} (hj : j < d.done.length)
    (m : Merge) (e : Exit) :
    ∃ c₁ c₂ c₃, b.reopenBlock j = .ok c₁ ∧ c₁.push m.instr = .ok c₂ ∧
      c₂.terminate e.instr = .ok c₃ ∧
      Outlines { d with done := d.done.modify j fun n => (n.announce m).exit e } c₃ := by
  let c₂ : Spirv.Builder := { b.pushTo d.earlier.size j m.instr with block? := some j }
  let d₂ : Draft := { d with done := d.done.modify j (·.announce m) }
  have announced : c₂.module.functions = d₂.functions := by
    refine (functions_pushTo hb.functions j (g := (·.announce m)) (fun _ => rfl)
      (fun n => n.body_announce m)).trans ?_
    rw [nodes_of_none ho, Draft.functions, nodes_of_none (d := d₂) ho]
  refine ⟨{ b with block? := some j }, c₂,
    { c₂.pushTo d.earlier.size j e.instr with block? := none },
    ?_, ?_, ?_, ?_⟩
  · rw [Spirv.Builder.reopenBlock, hb.function?]
    dsimp only
    rw [hb.size_eq, nodes_of_none ho, if_pos hj]
  · exact Spirv.Builder.push_eq_ok.2 ⟨_, _, hb.function?, rfl, rfl⟩
  · have pushed : c₂.push e.instr = .ok (c₂.pushTo d.earlier.size j e.instr) :=
      Spirv.Builder.push_eq_ok.2 ⟨_, _, hb.function?, rfl, rfl⟩
    unfold Spirv.Builder.terminate
    rw [pushed]
  · refine ⟨hb.function?, ?_, by rw [ho]; rfl, hb.nextId, hb.globals⟩
    refine (functions_pushTo announced j (g := (·.exit e)) (fun n => n.label_exit e)
      (fun n => n.body_exit e)).trans ?_
    let d₃ : Draft := { d with done := d.done.modify j fun n => (n.announce m).exit e }
    rw [nodes_of_none (d := d₂) ho, Draft.functions, nodes_of_none (d := d₃) ho]
    change d.earlier.push (.ofNodes d.definition ((d.done.modify j _).modify j _)) = _
    rw [List.modify_modify_eq]
    rfl

end Outlines

/-- A draft that differs by code in the open node, by later ids and by further globals. -/
def Writes (d e : Draft) : Prop :=
  ∃ code next globals, (∀ i ∈ code, i.IsOrdinary) ∧ d.next ≤ next ∧
    d.globals.toList <+: globals.toList ∧
    e = { d with open? := d.open?.map (·.write code), next, globals }

theorem Writes.refl (d : Draft) : d.Writes d := by
  refine ⟨[], d.next, d.globals, fun _ h => absurd h List.not_mem_nil, Nat.le_refl _,
    List.prefix_rfl, ?_⟩
  obtain ⟨_, _, _, open?, _, _, _, _⟩ := d
  cases open? <;> rfl

/-- Writing keeps the label of the open node. -/
theorem Writes.label {d e : Draft} (w : d.Writes e) {n m : Node} (hd : d.open? = some n)
    (he : e.open? = some m) : m.label = n.label := by
  obtain ⟨code, _, _, _, _, _, rfl⟩ := w
  have written : d.open?.map (·.write code) = some m := he
  rw [hd] at written
  cases written
  exact n.label_write code

theorem Writes.trans {d e f : Draft} (first : d.Writes e) (second : e.Writes f) : d.Writes f := by
  obtain ⟨code, next, globals, ordinary, later, longer, rfl⟩ := first
  obtain ⟨code', next', globals', ordinary', later', longer', rfl⟩ := second
  refine ⟨code ++ code', next', globals', fun i hi => ?_, Nat.le_trans later later',
    longer.trans longer', ?_⟩
  · exact (List.mem_append.1 hi).elim (ordinary i) (ordinary' i)
  · simp only [Option.map_map]
    congr 1
    exact congrArg (d.open?.map ·) (funext fun n => n.write_append code code')

end Draft

namespace Draft

variable {d : Draft} {b : Spirv.Builder}

/-- The code of the open node, later ids and further globals are all that a draft needs to keep
up with. -/
theorem Writes.of (code : List Instr) (next : Id) (globals : Array Instr)
    (ordinary : ∀ i ∈ code, i.IsOrdinary) (later : d.next ≤ next)
    (longer : d.globals.toList <+: globals.toList) :
    d.Writes { d with open? := d.open?.map (·.write code), next, globals } :=
  ⟨code, next, globals, ordinary, later, longer, rfl⟩

/-- No code, later ids and further globals. -/
theorem Writes.grow (next : Id) (globals : Array Instr) (later : d.next ≤ next)
    (longer : d.globals.toList <+: globals.toList) : d.Writes { d with next, globals } := by
  refine ⟨[], next, globals, fun _ h => absurd h List.not_mem_nil, later, longer, ?_⟩
  obtain ⟨_, _, _, open?, _, _, _, _⟩ := d
  cases open? <;> rfl

theorem prefix_push (globals : Array Instr) (i : Instr) :
    globals.toList <+: (globals.push i).toList := by
  rw [Array.toList_push]
  exact List.prefix_append _ _

namespace Outlines

theorem addGlobal (hb : d.Outlines b) (i : Instr) :
    ∃ e, d.Writes e ∧ e.Outlines (b.addGlobal i) :=
  ⟨_, .grow d.next (d.globals.push i) (Nat.le_refl _) (prefix_push _ _), hb.function?,
    hb.functions, hb.block?, hb.nextId, congrArg (·.push i) hb.globals⟩

theorem declareNew (hb : d.Outlines b) (op : Spirv.Op) (type? : Option Id)
    (args : List Spirv.Arg) : ∃ e, d.Writes e ∧ e.Outlines (b.declareNew op type? args).2 := by
  have later : d.Writes (d.take 1) := .grow _ _ (Nat.le_succ _) List.prefix_rfl
  obtain ⟨e, writes, outlines⟩ := (hb.take 1).addGlobal ⟨.ordinary op, type?, some b.nextId, args⟩
  exact ⟨e, later.trans writes, outlines⟩

theorem retable (hb : d.Outlines b) (tables : Spirv.Tables b.module.globals.toList) :
    d.Outlines { b with tables } :=
  ⟨hb.function?, hb.functions, hb.block?, hb.nextId, hb.globals⟩

theorem declare (hb : d.Outlines b) (key : Spirv.Key) :
    ∃ e, d.Writes e ∧ e.Outlines (b.declare key).2 := by
  obtain ⟨id, tables, _, same⟩ | ⟨tables, new⟩ := b.declare_eq key
  · rw [same]
    exact ⟨d, .refl d, hb.retable tables⟩
  · obtain ⟨e, writes, outlines⟩ := hb.declareNew key.op key.type? key.args
    rw [new]
    exact ⟨e, writes, outlines.retable tables⟩

/-- An ordinary instruction that finds a place. -/
theorem writes_of_push {c : Spirv.Builder} (hb : d.Outlines b) {op : Spirv.Op}
    {type? result? : Option Id} {args : List Spirv.Arg}
    (placed : b.push ⟨.ordinary op, type?, result?, args⟩ = .ok c) :
    ∃ e, d.Writes e ∧ e.Outlines c := by
  let i : Instr := ⟨.ordinary op, type?, result?, args⟩
  have ordinary : ∀ j ∈ [i], j.IsOrdinary := by
    intro j hj
    rw [List.mem_singleton.1 hj]
    exact ⟨op, rfl⟩
  cases ho : d.open? with
  | none =>
    rw [hb.push_none ho] at placed
    cases placed
  | some n =>
    obtain ⟨c', hc', outlines⟩ := hb.push ho (g := (·.write [i])) (fun m => m.label_write [i])
      (fun m => m.body_write [i])
    rw [placed] at hc'
    cases hc'
    refine ⟨_, .of [i] d.next d.globals ordinary (Nat.le_refl _) List.prefix_rfl, ?_⟩
    rw [ho]
    exact outlines

theorem newVariable (hb : d.Outlines b) (pointerType : Id) (storage : Spirv.StorageClass)
    (initial? : Option Id) :
    ∃ e, d.Writes e ∧ e.Outlines (b.variable_ pointerType storage initial?).2 := by
  have taken := hb.take 1
  have later : d.Writes (d.take 1) := .grow _ _ (Nat.le_succ _) List.prefix_rfl
  unfold Spirv.Builder.variable_
  dsimp only [Spirv.Builder.fresh]
  split
  · next c placed =>
    obtain ⟨e, writes, outlines⟩ := taken.writes_of_push placed
    exact ⟨e, later.trans writes, outlines⟩
  · obtain ⟨e, writes, outlines⟩ := taken.addGlobal _
    exact ⟨e, later.trans writes, outlines⟩

end Outlines

end Draft

namespace Adds

variable {d : Draft} {s t : State}

theorem outlines (h : Adds s t) (hb : d.Outlines s.builder) :
    ∃ e, d.Writes e ∧ e.Outlines t.builder := by
  cases h with
  | fresh => exact ⟨d.take 1, .grow _ _ (Nat.le_succ _) List.prefix_rfl, hb.take 1⟩
  | declare key => exact hb.declare key
  | declareNew op type? args => exact hb.declareNew op type? args
  | newVariable pointerType storage initial? => exact hb.newVariable pointerType storage initial?
  | temp pointerType => exact hb.newVariable pointerType .priv none
  | annotate i =>
    exact ⟨d, .refl d, hb.function?, hb.functions, hb.block?, hb.nextId, hb.globals⟩
  | push _ _ _ _ _ placed => exact hb.writes_of_push placed
  | stage => exact ⟨d, .refl d, hb⟩
  | note _ same =>
    exact ⟨d, .refl d, same.function?.trans hb.function?, same.functions.trans hb.functions,
      same.block?.trans hb.block?, same.nextId.trans hb.nextId, same.globals.trans hb.globals⟩

theorem constructs (h : Adds s t) : t.constructs = s.constructs := by
  cases h with
  | note _ same => exact same.constructs
  | _ => rfl

theorem lastOpcode? (h : Adds s t) : t.lastOpcode? = s.lastOpcode? := by
  cases h with
  | note _ same => exact same.lastOpcode?
  | _ => rfl

theorem inFunction (h : Adds s t) : t.inFunction = s.inFunction := by
  cases h with
  | note _ same => exact same.inFunction
  | _ => rfl

theorem body? (h : Adds s t) : t.body? = s.body? := by
  cases h with
  | note _ same => exact same.body?
  | _ => rfl

theorem hull? (h : Adds s t) (notHull : s.stage.hull? = none) : t.stage.hull? = none := by
  cases h with
  | note _ same =>
    have := same.hull?
    rw [notHull] at this
    exact Option.isSome_eq_false_iff.1 this |> Option.isNone_iff_eq_none.1
  | stage _ stays => exact StageState.hull?_become stays notHull
  | _ => exact notHull

end Adds

namespace Emits

variable {d : Draft} {s t : State}

/-- Ordinary steps write to the open node and do nothing else to the draft. -/
theorem describes (h : Emits s t) (hd : d.Describes s) : ∃ e, d.Writes e ∧ e.Describes t := by
  induction h with
  | refl => exact ⟨d, .refl d, hd⟩
  | step _ last ih =>
    obtain ⟨e, writes, described⟩ := ih
    obtain ⟨f, more, outlines⟩ := last.outlines described.builder
    refine ⟨f, writes.trans more, outlines, ?_, ?_⟩
    all_goals obtain ⟨code, next, globals, _, _, _, rfl⟩ := more
    · exact last.constructs.trans described.constructs
    · rw [last.lastOpcode?]
      exact described.last?

theorem constructs (h : Emits s t) : t.constructs = s.constructs := by
  induction h with
  | refl => rfl
  | step _ last ih => exact last.constructs.trans ih

theorem inFunction (h : Emits s t) : t.inFunction = s.inFunction := by
  induction h with
  | refl => rfl
  | step _ last ih => exact last.inFunction.trans ih

theorem body? (h : Emits s t) : t.body? = s.body? := by
  induction h with
  | refl => rfl
  | step _ last ih => exact last.body?.trans ih

theorem hull? (h : Emits s t) (notHull : s.stage.hull? = none) : t.stage.hull? = none := by
  induction h with
  | refl => exact notHull
  | step _ last ih => exact last.hull? ih

end Emits

end ShaderLowering
