import Mathlib.Data.List.Basic
import ShaderLowering.Spirv.Module

/-!
Function bodies as graphs of blocks: which instructions end a block, which labels an instruction
names, and what it means for a function to be well formed.

A back edge of a loop header is a jump to it from the header itself or from a block behind it.
Blocks stand in the order in which control reaches them first, so these are the jumps that go
around the loop.

A node is a block as the lowering writes it: ordinary code, then at most one merge, then at most one
exit. A node without an exit is still being written. `Node.block` gives the instructions back, and
the lemmas here say how what a block names can be read off the node.
-/

namespace ShaderLowering.Spirv

namespace ControlOp

/-- Whether an instruction ends its block. The others announce where paths meet again. -/
def isTerminator : ControlOp → Bool
  | branch | branchConditional | kill | ret | switch | unreachable => true
  | loopMerge | selectionMerge => false

end ControlOp

namespace Arg

def id? : Arg → Option Id
  | id n => some n
  | _ => none

def word? : Arg → Option UInt32
  | word w => some w
  | _ => none

end Arg

namespace Instr

def isTerminator (i : Instr) : Bool :=
  match i.op with
  | .control op => op.isTerminator
  | .ordinary _ => false

def isMerge (i : Instr) : Bool :=
  match i.op with
  | .control op => !op.isTerminator
  | .ordinary _ => false

/-- The labels that an instruction names. A condition or a selector comes first and is none. -/
def labels (i : Instr) : List Id :=
  match i.op with
  | .control .branch | .control .selectionMerge | .control .loopMerge => i.args.filterMap Arg.id?
  | .control .branchConditional | .control .switch => i.args.tail.filterMap Arg.id?
  | _ => []

/-- The label where the paths of a selection or loop meet again. -/
def mergeLabel? (i : Instr) : Option Id :=
  if i.isMerge then i.labels.head? else none

/-- The label of the block that closes a loop. -/
def continueLabel? (i : Instr) : Option Id :=
  if i.op = .control .loopMerge then i.labels[1]? else none

/-- The literals of a switch, in order. -/
def literals (i : Instr) : List UInt32 :=
  (i.args.drop 2).filterMap Arg.word?

end Instr

namespace Block

/-- The labels that a block may jump to. -/
def targets (b : Block) : List Id :=
  (b.body.toList.filter Instr.isTerminator).flatMap Instr.labels

/-- The switch instructions of a block. -/
def switches (b : Block) : List Instr :=
  b.body.toList.filter fun i => i.op = .control .switch

end Block

namespace Function

def labels (f : Function) : List Id :=
  f.blocks.toList.map Block.label

/-- The labels of all merge instructions. -/
def mergeLabels (f : Function) : List Id :=
  f.blocks.toList.flatMap fun b => b.body.toList.filterMap Instr.mergeLabel?

/-- The blocks from which control comes back to the block at position `h`, once for each jump. -/
def backEdges (f : Function) (h : Nat) : List Id :=
  (f.blocks.toList.drop h).flatMap fun b =>
    (b.targets.filter fun l => some l = (f.blocks[h]?).map Block.label).map fun _ => b.label

/-- The switch instructions of a function in the order of its blocks. -/
def switches (f : Function) : List Instr :=
  f.blocks.toList.flatMap Block.switches

/-- What is asked of the body of a function. -/
structure WellFormed (f : Function) : Prop where
  /-- A block has one terminator, and it is the last instruction. -/
  terminated : ∀ b ∈ f.blocks, ∃ code last, b.body.toList = code ++ [last] ∧
    last.isTerminator = true ∧ ∀ i ∈ code, i.isTerminator = false
  /-- Merges stand directly before the terminator. -/
  merges : ∀ b ∈ f.blocks, ∀ n i, b.body[n]? = some i → i.isMerge = true → n + 2 = b.body.size
  /-- A label that is named belongs to exactly one block of the function. -/
  placed : ∀ b ∈ f.blocks, ∀ i ∈ b.body, ∀ l ∈ i.labels, f.labels.count l = 1
  mergedOnce : f.mergeLabels.Nodup
  /-- A loop header has exactly one back edge, and it comes from its continue block. -/
  looped : ∀ h b, f.blocks[h]? = some b → ∀ i ∈ b.body, ∀ c, i.continueLabel? = some c →
    f.backEdges h = [c]

end Function

/-- The switch instructions of a module in the order of its functions and blocks. -/
def Module.switches (m : Module) : List Instr :=
  m.functions.toList.flatMap Function.switches

/-- How control leaves a block. -/
inductive Exit
  | branch (label : Id)
  | test (condition ifTrue ifFalse : Id)
  | switch (selector default_ : Id) (cases : List (UInt32 × Id))
  | ret
  | kill
  | unreachable
deriving DecidableEq, Repr

/-- What a block announces in front of its exit. -/
inductive Merge
  | selection (label : Id)
  | loop (breakLabel continueLabel : Id)
deriving DecidableEq, Repr

namespace Exit

def caseArgs (cases : List (UInt32 × Id)) : List Arg :=
  cases.flatMap fun c => [.word c.1, .id c.2]

def instr : Exit → Instr
  | branch label => .control .branch [.id label]
  | test condition ifTrue ifFalse =>
    .control .branchConditional [.id condition, .id ifTrue, .id ifFalse]
  | switch selector default_ cases =>
    .control .switch (.id selector :: .id default_ :: caseArgs cases)
  | ret => .control .ret []
  | kill => .control .kill []
  | unreachable => .control .unreachable []

/-- The labels that control may go to. -/
def targets : Exit → List Id
  | branch label => [label]
  | test _ ifTrue ifFalse => [ifTrue, ifFalse]
  | switch _ default_ cases => default_ :: cases.map (·.2)
  | ret | kill | unreachable => []

theorem caseArgs_ids (cases : List (UInt32 × Id)) :
    (caseArgs cases).filterMap Arg.id? = cases.map (·.2) := by
  induction cases with
  | nil => rfl
  | cons c rest ih =>
    change c.2 :: (caseArgs rest).filterMap Arg.id? = _
    rw [ih, List.map_cons]

theorem caseArgs_words (cases : List (UInt32 × Id)) :
    (caseArgs cases).filterMap Arg.word? = cases.map (·.1) := by
  induction cases with
  | nil => rfl
  | cons c rest ih =>
    change c.1 :: (caseArgs rest).filterMap Arg.word? = _
    rw [ih, List.map_cons]

theorem isTerminator_instr (e : Exit) : e.instr.isTerminator = true := by
  cases e <;> rfl

theorem isMerge_instr (e : Exit) : e.instr.isMerge = false := by
  cases e <;> rfl

theorem labels_instr (e : Exit) : e.instr.labels = e.targets := by
  cases e with
  | switch selector default_ cases =>
    change default_ :: (caseArgs cases).filterMap Arg.id? = _
    rw [caseArgs_ids]
    rfl
  | branch | test | ret | kill | unreachable => rfl

theorem mergeLabel?_instr (e : Exit) : e.instr.mergeLabel? = none := by
  rw [Instr.mergeLabel?, isMerge_instr, if_neg Bool.false_ne_true]

theorem continueLabel?_instr (e : Exit) : e.instr.continueLabel? = none := by
  cases e <;> rfl

theorem literals_instr (selector default_ : Id) (cases : List (UInt32 × Id)) :
    (switch selector default_ cases).instr.literals = cases.map (·.1) :=
  caseArgs_words cases

end Exit

namespace Merge

def instr : Merge → Instr
  | selection label => .control .selectionMerge [.id label, .word 0]
  | loop breakLabel continueLabel =>
    .control .loopMerge [.id breakLabel, .id continueLabel, .word 0]

/-- Where the paths meet again. -/
def label : Merge → Id
  | selection label => label
  | loop breakLabel _ => breakLabel

def continueLabel? : Merge → Option Id
  | selection _ => none
  | loop _ continueLabel => some continueLabel

/-- All labels that are announced. -/
def labels (m : Merge) : List Id :=
  m.label :: m.continueLabel?.toList

theorem isTerminator_instr (m : Merge) : m.instr.isTerminator = false := by
  cases m <;> rfl

theorem labels_instr (m : Merge) : m.instr.labels = m.labels := by
  cases m <;> rfl

theorem mergeLabel?_instr (m : Merge) : m.instr.mergeLabel? = some m.label := by
  cases m <;> rfl

theorem continueLabel?_instr (m : Merge) : m.instr.continueLabel? = m.continueLabel? := by
  cases m <;> rfl

end Merge

namespace Instr

/-- Whether an instruction leaves control alone. -/
def IsOrdinary (i : Instr) : Prop :=
  ∃ op, i.op = .ordinary op

namespace IsOrdinary

variable {i : Instr}

theorem isTerminator (h : i.IsOrdinary) : i.isTerminator = false := by
  obtain ⟨op, h⟩ := h
  rw [Instr.isTerminator, h]

theorem isMerge (h : i.IsOrdinary) : i.isMerge = false := by
  obtain ⟨op, h⟩ := h
  rw [Instr.isMerge, h]

theorem labels (h : i.IsOrdinary) : i.labels = [] := by
  obtain ⟨op, h⟩ := h
  rw [Instr.labels, h]

theorem mergeLabel? (h : i.IsOrdinary) : i.mergeLabel? = none := by
  rw [Instr.mergeLabel?, h.isMerge, if_neg Bool.false_ne_true]

theorem continueLabel? (h : i.IsOrdinary) : i.continueLabel? = none := by
  obtain ⟨op, h⟩ := h
  rw [Instr.continueLabel?, h]
  rfl

theorem not_switch (h : i.IsOrdinary) : i.op ≠ .control .switch := by
  obtain ⟨op, h⟩ := h
  rw [h]
  exact OpCode.noConfusion

end IsOrdinary

end Instr

structure Node where
  label : Id
  code : List Instr
  merge? : Option Merge
  exit? : Option Exit
deriving Repr

namespace Node

def start (label : Id) : Node := ⟨label, [], none, none⟩

def body (n : Node) : List Instr :=
  n.code ++ (n.merge?.map Merge.instr).toList ++ (n.exit?.map Exit.instr).toList

def block (n : Node) : Block := ⟨n.label, n.body.toArray⟩

/-- Appends code. What was announced before counts as code then. -/
def write (n : Node) : List Instr → Node
  | [] => n
  | code => ⟨n.label, n.body ++ code, none, none⟩

/-- Appends a merge. -/
def announce (n : Node) (merge : Merge) : Node :=
  ⟨n.label, n.body, some merge, none⟩

/-- Appends an exit. -/
def exit (n : Node) (exit : Exit) : Node :=
  match n.exit? with
  | none => { n with exit? := some exit }
  | some _ => ⟨n.label, n.body, none, some exit⟩

/-- All labels that the node names. -/
def names (n : Node) : List Id :=
  n.merge?.toList.flatMap Merge.labels ++ n.exit?.toList.flatMap Exit.targets

def targets (n : Node) : List Id :=
  n.exit?.toList.flatMap Exit.targets

/-- A node with nothing but ordinary code so far. -/
structure IsOpen (n : Node) : Prop where
  code : ∀ i ∈ n.code, i.IsOrdinary
  merge? : n.merge? = none
  exit? : n.exit? = none

/-- A node that control leaves. -/
structure IsEnded (n : Node) : Prop where
  code : ∀ i ∈ n.code, i.IsOrdinary
  exit? : n.exit?.isSome

theorem isOpen_start (label : Id) : (start label).IsOpen :=
  ⟨fun _ h => absurd h List.not_mem_nil, rfl, rfl⟩

variable {n : Node}

theorem IsOpen.body_eq (h : n.IsOpen) : n.body = n.code := by
  rw [body, h.merge?, h.exit?]
  simp only [Option.map_none, Option.toList_none, List.append_nil]

theorem label_write (n : Node) (code : List Instr) : (n.write code).label = n.label := by
  cases code <;> rfl

theorem body_write (n : Node) (code : List Instr) : (n.write code).body = n.body ++ code := by
  cases code with
  | nil => exact (List.append_nil _).symm
  | cons i rest =>
    simp only [write, body, Option.map_none, Option.toList_none, List.append_nil]

theorem write_append (n : Node) (first second : List Instr) :
    (n.write first).write second = n.write (first ++ second) := by
  cases first with
  | nil => rfl
  | cons i rest =>
    cases second with
    | nil => rw [List.append_nil]; rfl
    | cons j more =>
      change Node.mk (n.write (i :: rest)).label ((n.write (i :: rest)).body ++ j :: more) none none
        = ⟨n.label, n.body ++ (i :: rest ++ j :: more), none, none⟩
      rw [body_write, label_write, List.append_assoc]

theorem IsOpen.write_eq (h : n.IsOpen) (code : List Instr) :
    n.write code = ⟨n.label, n.code ++ code, none, none⟩ := by
  cases code with
  | nil =>
    obtain ⟨label, code, merge?, exit?⟩ := n
    rw [show merge? = none from h.merge?, show exit? = none from h.exit?, List.append_nil]
    rfl
  | cons i rest =>
    rw [← h.body_eq]
    rfl

theorem IsOpen.write (h : n.IsOpen) {code : List Instr} (ordinary : ∀ i ∈ code, i.IsOrdinary) :
    (n.write code).IsOpen := by
  rw [h.write_eq]
  exact ⟨fun i hi => (List.mem_append.1 hi).elim (h.code i) (ordinary i), rfl, rfl⟩

theorem IsOpen.exit_eq (h : n.IsOpen) (exit : Exit) :
    n.exit exit = ⟨n.label, n.code, none, some exit⟩ := by
  rw [Node.exit, h.exit?]
  dsimp only
  rw [h.merge?]

theorem IsOpen.announce_exit_eq (h : n.IsOpen) (merge : Merge) (exit : Exit) :
    (n.announce merge).exit exit = ⟨n.label, n.code, some merge, some exit⟩ := by
  rw [announce, h.body_eq]
  rfl

theorem IsOpen.names_eq (h : n.IsOpen) : n.names = [] := by
  rw [names, h.merge?, h.exit?]
  rfl

theorem label_exit (n : Node) (exit : Exit) : (n.exit exit).label = n.label := by
  unfold Node.exit
  split <;> rfl

theorem body_announce (n : Node) (merge : Merge) :
    (n.announce merge).body = n.body ++ [merge.instr] := by
  simp only [announce, body, Option.map_none, Option.toList_none, List.append_nil,
    Option.map_some, Option.toList_some]

theorem body_exit (n : Node) (exit : Exit) : (n.exit exit).body = n.body ++ [exit.instr] := by
  unfold Node.exit
  split
  · next h =>
    simp only [body, h, Option.map_none, Option.toList_none, List.append_nil, Option.map_some,
      Option.toList_some]
  · simp only [body, Option.map_none, Option.toList_none, List.append_nil, Option.map_some,
      Option.toList_some]

theorem IsEnded.body_eq (h : n.IsEnded) :
    ∃ exit, n.exit? = some exit ∧
      n.body = n.code ++ (n.merge?.map Merge.instr).toList ++ [exit.instr] := by
  obtain ⟨exit, he⟩ := Option.isSome_iff_exists.1 h.exit?
  refine ⟨exit, he, ?_⟩
  rw [body, he]
  rfl

theorem mem_merge_instr {merge? : Option Merge} {i : Instr} :
    i ∈ (merge?.map Merge.instr).toList ↔ ∃ m, merge? = some m ∧ i = m.instr := by
  cases merge? with
  | none =>
    simp only [Option.map_none, Option.toList_none, List.not_mem_nil, reduceCtorEq, false_and,
      exists_false]
  | some m =>
    simp only [Option.map_some, Option.toList_some, List.mem_singleton, Option.some.injEq,
      exists_eq_left']

theorem IsEnded.mem_body (h : n.IsEnded) {i : Instr} (hi : i ∈ n.body) :
    i.IsOrdinary ∨ (∃ m, n.merge? = some m ∧ i = m.instr) ∨
      ∃ exit, n.exit? = some exit ∧ i = exit.instr := by
  obtain ⟨exit, he, hb⟩ := h.body_eq
  rw [hb, List.mem_append, List.mem_append, mem_merge_instr, List.mem_singleton] at hi
  rcases hi with (hi | hi) | hi
  · exact .inl (h.code i hi)
  · exact .inr (.inl hi)
  · exact .inr (.inr ⟨exit, he, hi⟩)

variable (h : n.IsEnded)

include h

theorem IsEnded.terminated : ∃ code last, n.block.body.toList = code ++ [last] ∧
    last.isTerminator = true ∧ ∀ i ∈ code, i.isTerminator = false := by
  obtain ⟨exit, _, hb⟩ := h.body_eq
  refine ⟨_, _, hb, exit.isTerminator_instr, fun i hi => ?_⟩
  rcases List.mem_append.1 hi with hi | hi
  · exact (h.code i hi).isTerminator
  · obtain ⟨m, _, rfl⟩ := mem_merge_instr.1 hi
    exact m.isTerminator_instr

theorem IsEnded.merges (k : Nat) (i : Instr) (hk : n.block.body[k]? = some i)
    (hi : i.isMerge = true) : k + 2 = n.block.body.size := by
  obtain ⟨exit, _, hb⟩ := h.body_eq
  have hk : n.body[k]? = some i := by simpa only [block, List.getElem?_toArray] using hk
  rw [block, List.size_toArray]
  rw [hb, List.append_assoc] at hk ⊢
  rw [List.length_append]
  by_cases inCode : k < n.code.length
  · rw [List.getElem?_append_left inCode] at hk
    have := (h.code i (List.mem_of_getElem? hk)).isMerge
    rw [hi] at this
    cases this
  · rw [List.getElem?_append_right (Nat.not_lt.1 inCode)] at hk
    have notExit : i ≠ exit.instr := by
      rintro rfl
      rw [exit.isMerge_instr] at hi
      cases hi
    cases hm : n.merge? with
    | none =>
        rw [hm] at hk
        have := List.mem_of_getElem? hk
        simp only [Option.map_none, Option.toList_none, List.nil_append,
          List.mem_singleton] at this
        exact absurd this notExit
    | some m =>
        rw [hm] at hk
        simp only [Option.map_some, Option.toList_some, List.cons_append, List.nil_append] at hk ⊢
        match hc : k - n.code.length with
        | 0 =>
            simp only [List.length_cons, List.length_nil]
            omega
        | 1 =>
            rw [hc] at hk
            exact absurd (Option.some.inj hk).symm notExit
        | c + 2 =>
            rw [hc] at hk
            cases hk

theorem IsEnded.labels {i : Instr} (hi : i ∈ n.block.body) : ∀ l ∈ i.labels, l ∈ n.names := by
  intro l hl
  rcases h.mem_body (List.mem_toArray.1 hi) with ho | ⟨m, hm, rfl⟩ | ⟨exit, he, rfl⟩
  · rw [ho.labels] at hl
    exact absurd hl List.not_mem_nil
  · rw [m.labels_instr] at hl
    rw [names, hm]
    exact List.mem_append_left _ (by simpa using hl)
  · rw [exit.labels_instr] at hl
    rw [names, he]
    exact List.mem_append_right _ (by simpa using hl)

theorem IsEnded.targets_block : n.block.targets = n.targets := by
  obtain ⟨exit, he, hb⟩ := h.body_eq
  have code : n.code.filter Instr.isTerminator = [] :=
    List.filter_eq_nil_iff.2 fun i hi => by
      rw [(h.code i hi).isTerminator]
      exact Bool.false_ne_true
  have merge : (n.merge?.map Merge.instr).toList.filter Instr.isTerminator = [] :=
    List.filter_eq_nil_iff.2 fun i hi => by
      obtain ⟨m, _, rfl⟩ := mem_merge_instr.1 hi
      rw [m.isTerminator_instr]
      exact Bool.false_ne_true
  rw [Block.targets, block, targets, he, hb, List.filter_append, List.filter_append, code, merge,
    List.filter_cons_of_pos exit.isTerminator_instr]
  simp only [List.nil_append, List.filter_nil, List.flatMap_cons, List.flatMap_nil,
    List.append_nil, Option.toList_some]
  exact exit.labels_instr

theorem IsEnded.mergeLabels_block :
    n.block.body.toList.filterMap Instr.mergeLabel? = n.merge?.toList.map Merge.label := by
  obtain ⟨exit, _, hb⟩ := h.body_eq
  have code : n.code.filterMap Instr.mergeLabel? = [] :=
    List.filterMap_eq_nil_iff.2 fun i hi => (h.code i hi).mergeLabel?
  rw [block, hb, List.filterMap_append, List.filterMap_append, code,
    List.filterMap_cons_none exit.mergeLabel?_instr]
  cases n.merge? with
  | none => rfl
  | some m =>
      simp only [Option.map_some, Option.toList_some, List.nil_append, List.filterMap_nil,
        List.append_nil, List.map_cons, List.map_nil]
      rw [List.filterMap_cons_some m.mergeLabel?_instr]
      rfl

theorem IsEnded.continueLabel? {i : Instr} {c : Id} (hi : i ∈ n.block.body)
    (hc : i.continueLabel? = some c) : n.merge?.bind Merge.continueLabel? = some c := by
  rcases h.mem_body (List.mem_toArray.1 hi) with ho | ⟨m, hm, rfl⟩ | ⟨exit, he, rfl⟩
  · rw [ho.continueLabel?] at hc
    cases hc
  · rw [m.continueLabel?_instr] at hc
    rw [hm]
    exact hc
  · rw [exit.continueLabel?_instr] at hc
    cases hc

omit h

/-- The switch that ends a node, if one does. -/
def switches (n : Node) : List (List UInt32) :=
  match n.exit? with
  | some (.switch _ _ cases) => [cases.map (·.1)]
  | _ => []

theorem IsEnded.switches_block (h : n.IsEnded) :
    n.block.switches.map Instr.literals = n.switches := by
  obtain ⟨exit, he, hb⟩ := h.body_eq
  have code : n.code.filter (fun i => i.op = .control .switch) = [] :=
    List.filter_eq_nil_iff.2 fun i hi => by
      simpa only [decide_eq_true_eq] using (h.code i hi).not_switch
  have merge : (n.merge?.map Merge.instr).toList.filter (fun i => i.op = .control .switch) = [] :=
    List.filter_eq_nil_iff.2 fun i hi => by
      obtain ⟨m, _, rfl⟩ := mem_merge_instr.1 hi
      cases m <;> exact Bool.false_ne_true
  rw [Block.switches, block, hb, List.filter_append, List.filter_append, code, merge, switches, he]
  cases exit with
  | switch selector default_ cases =>
      change [(Exit.switch selector default_ cases).instr.literals] = _
      rw [Exit.literals_instr]
  | branch | test | ret | kill | unreachable => rfl

end Node

/-- The nodes that jump to a label, once for each jump. -/
def jumpsTo (label : Id) (nodes : List Node) : List Id :=
  nodes.flatMap fun n => (n.targets.filter (· = label)).map fun _ => n.label

theorem jumpsTo_append (label : Id) (xs ys : List Node) :
    jumpsTo label (xs ++ ys) = jumpsTo label xs ++ jumpsTo label ys :=
  List.flatMap_append

def mergeLabels (nodes : List Node) : List Id :=
  nodes.flatMap fun n => n.merge?.toList.map Merge.label

/-- A list of nodes that makes a well-formed body. -/
structure Complete (nodes : List Node) : Prop where
  ended : ∀ n ∈ nodes, n.IsEnded
  placed : ∀ n ∈ nodes, ∀ l ∈ n.names, (nodes.map Node.label).count l = 1
  mergedOnce : (mergeLabels nodes).Nodup
  looped : ∀ h n, nodes[h]? = some n → ∀ c, n.merge?.bind Merge.continueLabel? = some c →
    jumpsTo n.label (nodes.drop h) = [c]

def Function.ofNodes (definition : Instr) (nodes : List Node) : Function :=
  ⟨definition, (nodes.map Node.block).toArray⟩

theorem Complete.wellFormed {nodes : List Node} (complete : Complete nodes) (definition : Instr) :
    (Function.ofNodes definition nodes).WellFormed := by
  have mem {b : Block} (hb : b ∈ (Function.ofNodes definition nodes).blocks) :
      ∃ n ∈ nodes, n.block = b := List.mem_map.1 (List.mem_toArray.1 hb)
  have labels : (Function.ofNodes definition nodes).labels = nodes.map Node.label := by
    rw [Function.labels, Function.ofNodes, List.map_map]
    rfl
  constructor
  case terminated =>
    intro b hb
    obtain ⟨n, hn, rfl⟩ := mem hb
    exact (complete.ended n hn).terminated
  case merges =>
    intro b hb
    obtain ⟨n, hn, rfl⟩ := mem hb
    exact (complete.ended n hn).merges
  case placed =>
    intro b hb i hi l hl
    obtain ⟨n, hn, rfl⟩ := mem hb
    rw [labels]
    exact complete.placed n hn l ((complete.ended n hn).labels hi l hl)
  case mergedOnce =>
    have : (Function.ofNodes definition nodes).mergeLabels = mergeLabels nodes := by
      rw [Function.mergeLabels, Function.ofNodes, List.flatMap_map]
      exact List.flatMap_congr fun n hn => (complete.ended n hn).mergeLabels_block
    rw [this]
    exact complete.mergedOnce
  case looped =>
    intro h b hb i hi c hc
    rw [Function.ofNodes, List.getElem?_toArray, List.getElem?_map] at hb
    obtain ⟨n, hn, rfl⟩ := Option.map_eq_some_iff.1 hb
    have ended := complete.ended n (List.mem_of_getElem? hn)
    rw [← complete.looped h n hn c (ended.continueLabel? hi hc), Function.backEdges,
      Function.ofNodes, ← List.map_drop, List.flatMap_map, jumpsTo]
    refine List.flatMap_congr fun m hm => ?_
    rw [(complete.ended m (List.mem_of_mem_drop hm)).targets_block, List.getElem?_toArray,
      List.getElem?_map, hn]
    simp only [Option.map_some, Option.some.injEq]
    rfl

end ShaderLowering.Spirv
