import ShaderLowering.Proofs.Control.Simulation
import ShaderLowering.Proofs.WellFormed.Entry

/-!
Lowered bodies do what programs say. Where a cursor and a place belong together, each step of the
program is some steps of the body, so the two cannot be told apart; and they belong together at the
start.
-/

namespace ShaderLowering

open Spirv (Id Instr Node Exit)

variable {b : Body} {f d e : Draft} {n : Node} {all past todo : List Mark} {inst : Instruction}
  {rest : List Instruction} {frames : List Frame} {asked : Nat}

theorem eventsAt_cons_self (j : Nat) (inst : Instruction) (marks : List Mark) :
    eventsAt ((some j, inst) :: marks) j = inst :: eventsAt marks j := by
  simp [eventsAt]

/-- A body makes the next event of its block. -/
theorem Body.step_event (b : Body) (oracle : Nat → UInt32) (j : Nat) (inst : Instruction)
    (ahead : List Instruction) (asked : Nat) :
    b.step oracle ⟨j, inst :: ahead, asked⟩ = .next (some inst) ⟨j, ahead, asked⟩ :=
  rfl

/-- Writing leaves all in place but the code of the open node. -/
theorem Draft.Writes.around {d e : Draft} (w : d.Writes e) (opened : d.open? = some n) :
    e.done = d.done ∧ e.constructs = d.constructs ∧ e.last? = d.last? ∧
      ∃ m, e.open? = some m := by
  obtain ⟨code, _, _, _, _, _, rfl⟩ := w
  refine ⟨rfl, rfl, rfl, n.write code, ?_⟩
  change d.open?.map _ = _
  rw [opened]
  rfl

theorem Instruction.isLabel_eq (family : inst.family = .controlFlow) :
    inst.isLabel = Lower.isLabel inst.op? := by
  have control : inst.control? = inst.op? := if_pos family
  rw [Instruction.isLabel, Instruction.isDefault, control]
  unfold Lower.isLabel
  split
  · next same => rw [same]; rfl
  · next same => rw [same]; rfl
  · next notCase notDefault =>
    rw [Bool.or_eq_false_iff]
    exact ⟨decide_eq_false notCase, decide_eq_false notDefault⟩

namespace Related

/-- Past an instruction that leaves control alone, which is an event on both sides. -/
theorem past_event (oracle : Nat → UInt32) {p : Place}
    (h : Related b f all ⟨inst :: rest, frames, asked⟩ d n past todo p)
    (family : inst.family ≠ .controlFlow) :
    ∃ p', b.step oracle p = .next (some inst) p' ∧
      Together b f all ⟨rest, frames, asked⟩ p' := by
  obtain ⟨e, todo', writes, same, notJump, after⟩ := h.point.event family
  obtain ⟨done, constructs, _, m, opened⟩ := writes.around h.opened
  have block : d.openBlock? = some d.done.length := by
    rw [Draft.openBlock?, h.opened]
    rfl
  rw [block] at same
  refine ⟨⟨d.done.length, eventsAt todo' d.done.length, asked⟩, ?_, ?_⟩
  · rw [h.place, same, eventsAt_cons_self]
    exact b.step_event oracle _ _ _ _
  · refine ⟨_, m, _, todo', after, opened, notJump, ?_, ?_⟩
    · change Matches b f all frames e.constructs
      rw [constructs]
      exact h.around
    · rw [← done]

/-- A control-flow instruction that is no label. -/
theorem agrees (oracle : Nat → UInt32) {p : Place}
    (h : Related b f all ⟨inst :: rest, frames, asked⟩ d n past todo p)
    (real : b.Realizes f all) (family : inst.family = .controlFlow)
    (notLabel : inst.isLabel = false) :
    Agrees b f all oracle (b.step oracle p)
      (Cursor.execute ⟨rest, frames, asked⟩ inst (oracle asked)) := by
  obtain ⟨id, e, g, writes, crossing⟩ := h.point.cross family
  obtain ⟨done, constructs, last?, m, opened⟩ := writes.around h.opened
  have around : Matches b f all frames e.constructs := by
    rw [constructs]
    exact h.around
  have leaves : e.Leaves g := by
    obtain leaves | ⟨isLabel, _⟩ := crossing.sound.leaves crossing.directs
    · exact leaves
    · rw [Instruction.isLabel_eq family] at notLabel
      rw [notLabel] at isLabel
      cases isLabel
  rw [h.place, ← done, crossing.ahead leaves opened]
  exact crossing.agrees real opened around (last? ▸ h.live) notLabel

/-- A label. -/
theorem past_label (oracle : Nat → UInt32) {p : Place}
    (h : Related b f all ⟨inst :: rest, frames, asked⟩ d n past todo p)
    (real : b.Realizes f all) (isLabel : inst.isLabel = true) :
    ∃ k p', (b.step oracle).Leads k p [] p' ∧ Together b f all ⟨rest, frames, asked⟩ p' := by
  have family : inst.family = .controlFlow := by
    by_contra other
    have none_ : inst.control? = none := if_neg other
    rw [Instruction.isLabel, Instruction.isDefault, none_] at isLabel
    cases isLabel
  obtain ⟨id, e, g, writes, crossing⟩ := h.point.cross family
  obtain ⟨done, constructs, last?, m, opened⟩ := writes.around h.opened
  have around : Matches b f all frames e.constructs := by
    rw [constructs]
    exact h.around
  rw [h.place, ← done]
  exact crossing.past_label real opened around (last? ▸ h.live) isLabel

/-- The end of the program, where the body returns. -/
theorem at_end (oracle : Nat → UInt32) {p : Place}
    (h : Related b f all ⟨[], frames, asked⟩ d n past todo p) (real : b.Realizes f all) :
      b.step oracle p = .stop .returned := by
  have runs := h.point.runs
  cases runs
  have node : f.ended.nodes[f.done.length]? = some (n.exit .ret) := by
    unfold Draft.ended
    rw [h.opened]
    dsimp only
    rw [Draft.nodes_of_none (d := f.exit n .ret) rfl]
    exact List.getElem?_concat_length
  have block : b.function.blocks[f.done.length]? = some (n.exit .ret).block := by
    rw [← Array.getElem?_toList, real.blocks, List.getElem?_map, node]
    rfl
  have exit? := Node.exit?_block (Node.exit?_exit n .ret)
  rw [h.place]
  unfold Body.step
  dsimp only [eventsAt, List.filterMap_nil]
  rw [block]
  dsimp only
  rw [exit?]
  rfl

end Related

namespace Together

variable {s : Cursor} {p : Place}

/-- Labels do nothing in the program, and in the body at most lead on to the next block. -/
theorem past_labels (oracle : Nat → UInt32) (h : Together b f all s p)
    (real : b.Realizes f all) :
    ∃ k p', (b.step oracle).Leads k p [] p' ∧
      Together b f all { s with rest := s.rest.dropWhile Instruction.isLabel } p' := by
  obtain ⟨insts, frames, asked⟩ := s
  induction insts generalizing p with
  | nil => exact ⟨0, p, .refl p, h⟩
  | cons inst rest ih =>
    cases isLabel : inst.isLabel with
    | true =>
      obtain ⟨d, n, past, todo, related⟩ := h
      obtain ⟨j, q, leads, together⟩ := related.past_label oracle real isLabel
      obtain ⟨k, p', more, together'⟩ := ih together
      refine ⟨k + j, p', leads.trans more, ?_⟩
      simpa [isLabel] using together'
    | false =>
      refine ⟨0, p, .refl p, ?_⟩
      simpa [isLabel] using h

/-- What is left of a program behind labels does not begin with one. -/
theorem not_isLabel {insts rest : List Instruction}
    (left : insts.dropWhile Instruction.isLabel = inst :: rest) : inst.isLabel = false := by
  have head := List.head?_dropWhile_not Instruction.isLabel insts
  rw [left] at head
  simpa using head

/-- A step of the program is some steps of the body. -/
theorem next {oracle : Nat → UInt32} {event? : Option Instruction} {s' : Cursor}
    (h : Together b f all s p) (real : b.Realizes f all)
    (step : Cursor.step oracle s = .next event? s') :
    ∃ k p', (b.step oracle).Leads (k + 1) p event?.toList p' ∧ Together b f all s' p' := by
  obtain ⟨j, q, leads, d, n, past, todo, related⟩ := h.past_labels oracle real
  have further {p' : Place} {k : Nat} {events : List Instruction}
      (more : (b.step oracle).Leads (k + 1) q events p') :
      (b.step oracle).Leads (k + j + 1) p events p' := by
    have all := leads.trans more
    rwa [List.nil_append, Nat.add_right_comm] at all
  unfold Cursor.step at step
  cases left : s.rest.dropWhile Instruction.isLabel with
  | nil =>
    rw [left] at step
    cases step
  | cons inst rest =>
    rw [left] at step related
    by_cases family : inst.family = .controlFlow
    · have agrees := related.agrees oracle real family (not_isLabel left)
      have same : Cursor.execute ⟨rest, s.frames, s.asked⟩ inst (oracle s.asked) =
          .next event? s' := step
      rw [same] at agrees
      obtain ⟨rfl, k, p', more, together⟩ := agrees.leads
      exact ⟨_, p', further more, together⟩
    · obtain ⟨p', made, together⟩ := related.past_event oracle family
      have same : Cursor.execute ⟨rest, s.frames, s.asked⟩ inst (oracle s.asked) =
          .next (some inst) ⟨rest, s.frames, s.asked⟩ := by
        have none_ : inst.control? = none := if_neg family
        unfold Cursor.execute
        rw [none_]
      have step : Outcome.next (some inst) ⟨rest, s.frames, s.asked⟩ = .next event? s' :=
        same.symm.trans step
      cases step
      exact ⟨_, p', further (.single made), together⟩

/-- Where the program stops the body does, after some steps that cannot be seen. -/
theorem stop {oracle : Nat → UInt32} {ending : Ending} (h : Together b f all s p)
    (real : b.Realizes f all) (step : Cursor.step oracle s = .stop ending) :
    ending ≠ .undefined ∧
      ∃ k p', (b.step oracle).Leads k p [] p' ∧ b.step oracle p' = .stop ending := by
  obtain ⟨j, q, leads, d, n, past, todo, related⟩ := h.past_labels oracle real
  unfold Cursor.step at step
  cases left : s.rest.dropWhile Instruction.isLabel with
  | nil =>
    rw [left] at step related
    cases step
    exact ⟨nofun, j, q, leads, related.at_end oracle real⟩
  | cons inst rest =>
    rw [left] at step related
    have same : Cursor.execute ⟨rest, s.frames, s.asked⟩ inst (oracle s.asked) = .stop ending :=
      step
    by_cases family : inst.family = .controlFlow
    · have agrees := related.agrees oracle real family (not_isLabel left)
      rw [same] at agrees
      obtain ⟨defined, k, p', more, stops⟩ := agrees.ends
      exact ⟨defined, k + j, p', leads.trans more, stops⟩
    · have none_ : inst.control? = none := if_neg family
      unfold Cursor.execute at same
      rw [none_] at same
      cases same

end Together

/-- A realized body simulates its program. -/
theorem Body.Realizes.simulates (real : b.Realizes f all) (oracle : Nat → UInt32) :
    Machine.Simulates (Cursor.step oracle) (b.step oracle) (Together b f all) :=
  ⟨fun _ _ _ _ related step => related.next real step,
    fun _ _ _ related step => (related.stop real step).2⟩

end ShaderLowering
