import ShaderLowering.Proofs.Control.Points
import ShaderLowering.Proofs.WellFormed.Bodies

/-!
What a finished body does at the blocks that a run of the lowering has written. A block that is
done is left as its node says, and a label leads to the block that was opened under it.
-/

namespace ShaderLowering

open Spirv (Id Instr Node Exit)

/-- The body that a run of the lowering has written. -/
structure Body.Realizes (b : Body) (f : Draft) (all : List Mark) : Prop where
  sound : f.IsSound
  constructs : f.constructs = []
  blocks : b.function.blocks.toList = f.ended.nodes.map Node.block
  globals : f.globals.toList <+: b.globals.toList
  events : b.events = eventsAt all

/-- In a list of nodes with different labels a node is found by its label. -/
theorem findIdx?_label {nodes : List Node} (once : (nodes.map Node.label).Nodup) {j : Nat}
    {n : Node}
    (hn : nodes[j]? = some n) :
    (nodes.map Node.block).findIdx? (fun k => decide (k.label = n.label)) = some j := by
  obtain ⟨inside, here⟩ := List.getElem?_eq_some_iff.1 hn
  rw [List.findIdx?_map]
  refine List.findIdx?_eq_some_iff_getElem.2 ⟨inside, ?_, fun i hi => ?_⟩
  · rw [here]
    exact decide_eq_true rfl
  · have earlier := Nat.lt_trans hi inside
    intro same
    have label : nodes[i].label = n.label := of_decide_eq_true same
    have positions := (List.nodup_iff_injective_get.1 once)
    have : (⟨i, by simpa using earlier⟩ : Fin (nodes.map Node.label).length) =
        ⟨j, by simpa using inside⟩ := by
      apply positions
      simp only [List.get_eq_getElem, List.getElem_map]
      rw [label, here]
    have := congrArg Fin.val this
    dsimp only at this
    omega

namespace Draft

variable {d : Draft}

theorem labels_ended (d : Draft) : d.ended.nodes.map Node.label = d.nodes.map Node.label := by
  unfold ended
  split
  · next n ho =>
    rw [nodes_of_open ho, nodes_of_none (d := d.exit n .ret) rfl]
    change (d.done ++ [n.exit .ret]).map Node.label = _
    rw [List.map_append, List.map_append, List.map_singleton, List.map_singleton, n.label_exit]
  · rfl

theorem done_ended {j : Nat} {n : Node} (hn : d.done[j]? = some n) :
    d.ended.nodes[j]? = some n := by
  have inside := (List.getElem?_eq_some_iff.1 hn).1
  unfold ended
  split
  · next m _ =>
    rw [nodes_of_none (d := d.exit m .ret) rfl]
    exact (List.getElem?_append_left inside).trans hn
  · next ho =>
    rw [nodes_of_none ho]
    exact hn

end Draft

namespace Spirv.Node

/-- A node that has an exit ends with it. -/
theorem exit?_block {n : Node} {leave : Exit} (h : n.exit? = some leave) :
    n.block.exit? = some leave := by
  rw [Block.exit?, block, body, h]
  simp only [Option.map_some, Option.toList_some, List.getLast?_append, List.getLast?_singleton,
    Option.some_or, Option.bind_some]
  exact leave.exit?_instr

end Spirv.Node

variable {b : Body} {f d e : Draft} {all past todo : List Mark} {inst : Instruction}
  {rest : List Instruction} {id : Id}

namespace Body.Realizes

variable (real : b.Realizes f all)

include real

theorem distinct : (f.ended.nodes.map Node.label).Nodup := by
  rw [f.labels_ended]
  exact (List.nodup_append.1 real.sound.placed.distinct).1

/-- A label leads to the block that has it. -/
theorem goto (h : Point f all d rest past todo) {j : Nat} {n : Node} (hn : d.nodes[j]? = some n)
    (asked : Nat) : b.goto asked n.label = .next none (b.enter asked j) := by
  obtain ⟨more, labels⟩ := (h.runs.grows h.sound).labels
  have kept : (f.nodes.map Node.label)[j]? = some n.label := by
    have inside := (List.getElem?_eq_some_iff.1 hn).1
    rw [← labels, List.getElem?_append_left (by simpa using inside), List.getElem?_map, hn]
    rfl
  rw [← f.labels_ended, List.getElem?_map] at kept
  obtain ⟨m, hm, same⟩ := Option.map_eq_some_iff.1 kept
  have found := findIdx?_label real.distinct hm
  rw [same, ← real.blocks] at found
  unfold Body.goto
  rw [found]

/-- A block that is done is left as its node says. -/
theorem step_exit (h : Point f all d rest past todo) {j : Nat} {n : Node}
    (hn : d.done[j]? = some n) {leave : Exit} (hl : n.exit? = some leave) (oracle : Nat → UInt32)
    (asked : Nat) : b.step oracle ⟨j, [], asked⟩ = b.leave oracle asked n.block leave := by
  have kept := (h.runs.grows h.sound).settled j n hn (by rw [hl]; rfl)
  have block : b.function.blocks[j]? = some n.block := by
    rw [← Array.getElem?_toList, real.blocks, List.getElem?_map, Draft.done_ended kept]
    rfl
  unfold Body.step
  dsimp only
  rw [block]
  dsimp only
  rw [Node.exit?_block hl]
  rfl

end Body.Realizes

/-- A block without events that only leads on to another. -/
def Body.Forwards (b : Body) (label target : Id) : Prop :=
  ∃ j, (∀ asked, b.goto asked label = .next none ⟨j, [], asked⟩) ∧
    ∀ oracle asked, b.step oracle ⟨j, [], asked⟩ = b.goto asked target

/-- A point whose block is open under a label and holds no event yet. -/
structure Enters (f : Draft) (all : List Mark) (label : Id) (rest : List Instruction)
    (d : Draft) : Prop where
  point : ∃ past todo, Point f all d rest past todo ∧ Below past d.done.length
  opened : ∃ n, d.open? = some n ∧ n.label = label
  live : Lower.isJump d.last? = false

namespace Crossing

variable (h : Crossing f all inst rest id d e past todo)

include h

/-- The node at a position behind a crossing. -/
theorem goto (real : b.Realizes f all) {j : Nat} {n : Node} (hn : e.nodes[j]? = some n)
    (asked : Nat) : b.goto asked n.label = .next none (b.enter asked j) :=
  real.goto h.after hn asked

theorem step_exit (real : b.Realizes f all) {j : Nat} {n : Node} (hn : e.done[j]? = some n)
    {leave : Exit} (hl : n.exit? = some leave) (oracle : Nat → UInt32) (asked : Nat) :
    b.step oracle ⟨j, [], asked⟩ = b.leave oracle asked n.block leave :=
  real.step_exit h.after hn hl oracle asked

/-- Blocks that a crossing opens and leaves hold no events. -/
theorem enter_eq (real : b.Realizes f all) {j : Nat} (opened : d.nodes.length ≤ j)
    (left : j < e.done.length) (asked : Nat) : b.enter asked j = ⟨j, [], asked⟩ := by
  have later : eventsAt todo j = [] := by
    refine List.filterMap_eq_nil_iff.2 fun m hm => if_neg fun hj => ?_
    have := h.after.runs.later h.after.sound m hm j hj
    dsimp only at this
    omega
  unfold Body.enter
  rw [real.events, h.after.marks, eventsAt_append, h.below.eventsAt opened, later]
  rfl

/-- Going to a block that a crossing opens and leaves. -/
theorem goto_passed (real : b.Realizes f all) {j : Nat} {n : Node} (opened : d.nodes.length ≤ j)
    (hn : e.done[j]? = some n) (asked : Nat) :
    b.goto asked n.label = .next none ⟨j, [], asked⟩ := by
  have left := (List.getElem?_eq_some_iff.1 hn).1
  have node : e.nodes[j]? = some n := (List.getElem?_append_left left).trans hn
  rw [h.goto real node, h.enter_eq real opened left]

/-- A block that a crossing opens and ends with a branch. -/
theorem forwards (real : b.Realizes f all) {j : Nat} {n : Node} {target : Id}
    (opened : d.nodes.length ≤ j) (hn : e.done[j]? = some n)
    (hl : n.exit? = some (.branch target)) : b.Forwards n.label target :=
  ⟨j, fun asked => h.goto_passed real opened hn asked,
    fun oracle asked => h.step_exit real hn hl oracle asked⟩

/-- The point behind a crossing. -/
theorem enters {n : Node} (opened : e.open? = some n) (live : Lower.isJump inst.op? = false) :
    Enters f all n.label rest { e with last? := inst.op? } :=
  ⟨⟨past, todo, h.after, h.fresh⟩, ⟨n, opened, rfl⟩, live⟩

end Crossing

end ShaderLowering
