import ShaderLowering.Proofs.Control.Machine
import ShaderLowering.Proofs.Lowering.Growth

/-!
Points of a program while it is lowered: the draft at a point, the instructions that are still to
come, and the marks that those in front and those to come leave. A block that an instruction has
just opened holds no event yet, so whoever goes there finds all events of the block ahead.
-/

namespace ShaderLowering

open Spirv (Id Instr Node Exit)

namespace Draft

def openBlock? (d : Draft) : Option Nat := d.open?.map fun _ => d.done.length

/-- The drafts before and after instructions that are lowered one after the other, and the marks
that these leave. -/
inductive Runs : Draft → List Instruction → List Mark → Draft → Prop
  | nil (d : Draft) : Runs d [] [] d
  | event {d e f : Draft} {inst : Instruction} {rest : List Instruction} {marks : List Mark}
    (family : inst.family ≠ .controlFlow) (lowers : d.Lowers inst e)
    (later : Runs e rest marks f) : Runs d (inst :: rest) ((d.openBlock?, inst) :: marks) f
  | control {d e f : Draft} {inst : Instruction} {rest : List Instruction} {marks : List Mark}
    (family : inst.family = .controlFlow) (lowers : d.Lowers inst e)
    (later : Runs e rest marks f) : Runs d (inst :: rest) marks f

variable {d e f : Draft} {insts : List Instruction} {marks : List Mark}

theorem Runs.sound (h : d.Runs insts marks f) (sound : d.IsSound) : f.IsSound := by
  induction h with
  | nil => exact sound
  | event _ lowers _ ih => exact ih (sound.lowers lowers)
  | control _ lowers _ ih => exact ih (sound.lowers lowers)

theorem Runs.grows (h : d.Runs insts marks f) (sound : d.IsSound) : d.Grows f := by
  induction h with
  | nil => exact .refl _
  | event _ lowers _ ih => exact (sound.grows lowers).trans (ih (sound.lowers lowers))
  | control _ lowers _ ih => exact (sound.grows lowers).trans (ih (sound.lowers lowers))

/-- Blocks that are done get no more marks. -/
theorem Runs.later (h : d.Runs insts marks f) (sound : d.IsSound) :
    ∀ m ∈ marks, ∀ j, m.1 = some j → d.done.length ≤ j := by
  induction h with
  | nil => exact fun _ hm => absurd hm List.not_mem_nil
  | @event d e f inst rest marks _ lowers _ ih =>
    intro m hm j hj
    rcases List.mem_cons.1 hm with rfl | hm
    · obtain ⟨n, _, rfl⟩ := Option.map_eq_some_iff.1 hj
      exact Nat.le_refl _
    · exact Nat.le_trans (sound.grows lowers).length (ih (sound.lowers lowers) m hm j hj)
  | control _ lowers _ ih =>
    intro m hm j hj
    exact Nat.le_trans (sound.grows lowers).length (ih (sound.lowers lowers) m hm j hj)

/-- The open node belongs to the label lowered last. -/
def AtLabel (d : Draft) : Prop :=
  ∃ s rest n, d.constructs = .switch s :: rest ∧ d.open? = some n ∧ s.currentLabel? = some n.label

theorem AtLabel.writes (h : d.AtLabel) (w : d.Writes e) : e.AtLabel := by
  obtain ⟨s, rest, n, hc, ho, hl⟩ := h
  obtain ⟨code, _, _, _, _, _, rfl⟩ := w
  refine ⟨s, rest, n.write code, hc, ?_, ?_⟩
  · change d.open?.map _ = _
    rw [ho]
    rfl
  · rw [n.label_write]
    exact hl

theorem atLabel_of_addLabel {g : Id → Switch → Switch} (he : d.addLabel? g = some e)
    (keeps : ∀ label s, (g label s).currentLabel? = s.currentLabel?)
    (labelled : Lower.isLabel d.last? = true → d.AtLabel) : e.AtLabel := by
  obtain ⟨s, rest, hc, ⟨label, behind, current, rfl⟩ | rfl⟩ := addLabel_eq he
  · obtain ⟨s', rest', n, hc', ho, hl⟩ := labelled behind
    rw [hc] at hc'
    cases hc'
    exact ⟨_, rest, n, rfl, ho, (keeps label s).trans hl⟩
  · exact ⟨_, rest, .start d.next, rfl, rfl, keeps _ _⟩

theorem divides_of_isLabel {op : Opcode} (h : Lower.isLabel (some op) = true) :
    op.divides = true := by
  unfold Lower.isLabel at h
  split at h
  · next same => cases same; rfl
  · next same => cases same; rfl
  · cases h

/-- Behind a label its block is open. -/
theorem Directs.atLabel {inst : Instruction} {id : Id} (h : Directs inst id d e)
    (labelled : Lower.isLabel d.last? = true → d.AtLabel)
    (op : Lower.isLabel inst.op? = true) : e.AtLabel := by
  cases h with
  | case _ he =>
    refine atLabel_of_addLabel he (fun label s => ?_) labelled
    unfold Lower.Switch.addCase
    split <;> rfl
  | default _ he => exact atLabel_of_addLabel he (fun _ _ => rfl) labelled
  | openIf is | «else» is | endIf is | loop is | endLoop is | openSwitch is | endSwitch is =>
    rw [is] at op
    cases op
  | jump is isJump =>
    rw [is] at op
    exact absurd ((divides_of_isLabel op).symm.trans (plain_of_isJump isJump).2.2) nofun
  | jumpOn is isJump =>
    rw [is] at op
    exact absurd ((divides_of_isLabel op).symm.trans (plain_of_isJumpOn isJump).2.2) nofun

end Draft

/-- Marks of blocks in front of a given one. -/
def Below (marks : List Mark) (block : Nat) : Prop :=
  ∀ m ∈ marks, ∀ j, m.1 = some j → j < block

namespace Below

variable {marks : List Mark} {j k : Nat}

theorem mono (h : Below marks j) (le : j ≤ k) : Below marks k :=
  fun m hm i hi => Nat.lt_of_lt_of_le (h m hm i hi) le

theorem eventsAt (h : Below marks j) (le : j ≤ k) : eventsAt marks k = [] := by
  refine List.filterMap_eq_nil_iff.2 fun m hm => if_neg fun hk => ?_
  have := h m hm k hk
  omega

end Below

theorem eventsAt_append (first second : List Mark) (j : Nat) :
    eventsAt (first ++ second) j = eventsAt first j ++ eventsAt second j :=
  List.filterMap_append

/-- A point in a run that ends with the draft `f` and leaves the marks `all`. -/
structure Point (f : Draft) (all : List Mark) (d : Draft) (rest : List Instruction)
    (past todo : List Mark) : Prop where
  sound : d.IsSound
  runs : d.Runs rest todo f
  marks : all = past ++ todo
  below : Below past d.nodes.length
  labelled : Lower.isLabel d.last? = true → d.AtLabel ∧ Below past d.done.length
  classified : ∀ i ∈ rest, i.Classified

/-- What is known where a control-flow instruction stands. -/
structure Crossing (f : Draft) (all : List Mark) (inst : Instruction) (rest : List Instruction)
    (id : Id) (d e : Draft) (past todo : List Mark) : Prop where
  family : inst.family = .controlFlow
  sound : d.IsSound
  tests : Draft.isTest inst = true → d.Tests inst.zeroTest id
  directs : Draft.Directs inst id d e
  below : Below past d.nodes.length
  labelled : Lower.isLabel d.last? = true → d.AtLabel
  fresh : Below past e.done.length
  after : Point f all { e with last? := inst.op? } rest past todo

/-- The opcodes that the lowering remembers direct control. -/
theorem controlFlow_of_isJump {op? : Option Opcode} (h : Lower.isJump op? = true) :
    ∃ op, op? = some op ∧ op.format.family = .controlFlow := by
  unfold Lower.isJump at h
  split at h
  · exact ⟨_, rfl, rfl⟩
  · exact ⟨_, rfl, rfl⟩
  · exact ⟨_, rfl, rfl⟩
  · cases h

theorem controlFlow_of_isLabel {op? : Option Opcode} (h : Lower.isLabel op? = true) :
    ∃ op, op? = some op ∧ op.format.family = .controlFlow := by
  unfold Lower.isLabel at h
  split at h
  · exact ⟨_, rfl, rfl⟩
  · exact ⟨_, rfl, rfl⟩
  · cases h

theorem Instruction.Classified.plain {inst : Instruction} (h : inst.Classified)
    (family : inst.family ≠ .controlFlow) :
    Lower.isJump inst.op? = false ∧ Lower.isLabel inst.op? = false := by
  constructor
  · rw [← Bool.not_eq_true]
    intro isJump
    obtain ⟨op, hop, control⟩ := controlFlow_of_isJump isJump
    exact family (h op hop control)
  · rw [← Bool.not_eq_true]
    intro isLabel
    obtain ⟨op, hop, control⟩ := controlFlow_of_isLabel isLabel
    exact family (h op hop control)

theorem Draft.Writes.length_nodes {d e : Draft} (w : d.Writes e) :
    e.nodes.length = d.nodes.length := by
  obtain ⟨_, _, _, _, _, _, rfl⟩ := w
  simp only [Draft.nodes, List.length_append, Option.length_toList, Option.isSome_map]

namespace Point

variable {f d : Draft} {all past todo : List Mark} {inst : Instruction} {rest : List Instruction}

/-- Past an instruction that leaves control alone. -/
theorem event (h : Point f all d (inst :: rest) past todo) (family : inst.family ≠ .controlFlow) :
    ∃ e todo', d.Writes e ∧ todo = (d.openBlock?, inst) :: todo' ∧
      Lower.isJump inst.op? = false ∧
      Point f all { e with last? := inst.op? } rest (past ++ [(d.openBlock?, inst)]) todo' := by
  obtain ⟨notJump, notLabel⟩ := (h.classified inst List.mem_cons_self).plain family
  cases h.runs with
  | control control => exact absurd control family
  | @event _ _ _ _ _ todo' _ lowers later =>
    cases lowers with
    | control control => exact absurd control family
    | @ordinary e _ writes =>
      have length := writes.length_nodes
      have sound : e.IsSound := h.sound.writes writes
      refine ⟨e, todo', writes, rfl, notJump, ⟨sound, later, ?_, ?_, ?_, ?_⟩⟩
      · rw [h.marks, List.append_assoc]
        rfl
      · intro m hm j hj
        change j < e.nodes.length
        rw [length]
        rcases List.mem_append.1 hm with hm | hm
        · exact h.below m hm j hj
        · rw [List.mem_singleton.1 hm] at hj
          obtain ⟨n, ho, rfl⟩ := Option.map_eq_some_iff.1 hj
          rw [Draft.nodes_of_open ho, List.length_append]
          exact Nat.lt_succ_self _
      · intro isLabel
        rw [notLabel] at isLabel
        cases isLabel
      · exact fun i hi => h.classified i (List.mem_cons_of_mem _ hi)

/-- Past one that directs it. -/
theorem cross (h : Point f all d (inst :: rest) past todo) (family : inst.family = .controlFlow) :
    ∃ id e g, d.Writes e ∧ Crossing f all inst rest id e g past todo := by
  cases h.runs with
  | event notControl => exact absurd family notControl
  | @control _ _ _ _ _ _ _ lowers later =>
    cases lowers with
    | ordinary notControl => exact absurd family notControl
    | @control e g id _ writes tests directed =>
      have directs := Draft.directs_of_control directed
      have sound := h.sound.writes writes
      have below : Below past e.nodes.length := writes.length_nodes ▸ h.below
      have labelled (behind : Lower.isLabel e.last? = true) :
          e.AtLabel ∧ Below past e.done.length := by
        have same : e.last? = d.last? ∧ e.done = d.done := by
          obtain ⟨_, _, _, _, _, _, rfl⟩ := writes
          exact ⟨rfl, rfl⟩
        rw [same.1] at behind
        rw [same.2]
        exact ⟨(h.labelled behind).1.writes writes, (h.labelled behind).2⟩
      have fresh : Below past g.done.length := by
        obtain leaves | ⟨_, behind, _, rfl⟩ := sound.leaves directs
        · exact below.mono leaves.left
        · exact (labelled behind).2
      have grown : g.done.length ≤ g.nodes.length := by
        rw [Draft.nodes, List.length_append]
        exact Nat.le_add_right _ _
      have sound' : g.IsSound := sound.control directed
      refine ⟨id, e, g, writes, family, sound, tests, directs, below,
        fun behind => (labelled behind).1, fresh, ⟨sound', later, h.marks,
          fresh.mono grown, fun behind => ⟨?_, fresh⟩, fun i hi => ?_⟩⟩
      · exact directs.atLabel (fun behind => (labelled behind).1) behind
      · exact h.classified i (List.mem_cons_of_mem _ hi)

end Point

end ShaderLowering
