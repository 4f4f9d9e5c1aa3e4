import ShaderLowering.Proofs.WellFormed.Constructs

/-!
What later instructions leave as it is. Nodes are only added, a node keeps its label, and a node
that control leaves is never changed again. The stack of constructs changes at its top, in the way
that the structure of the program says.
-/

namespace ShaderLowering

open Spirv (Id Instr Node Exit)

namespace Draft

structure Grows (d e : Draft) : Prop where
  labels : d.nodes.map Node.label <+: e.nodes.map Node.label
  settled : ∀ (j : Nat) (n : Node), d.done[j]? = some n → n.exit?.isSome = true →
    e.done[j]? = some n
  length : d.done.length ≤ e.done.length
  globals : d.globals.toList <+: e.globals.toList

variable {d e : Draft} {n m : Node}

theorem label_announce_exit (n : Node) (merge : Spirv.Merge) (leave : Exit) :
    ((n.announce merge).exit leave).label = n.label :=
  (n.announce merge).label_exit leave

namespace Grows

theorem refl (d : Draft) : d.Grows d :=
  ⟨List.prefix_rfl, fun _ _ h _ => h, Nat.le_refl _, List.prefix_rfl⟩

theorem trans {f : Draft} (first : d.Grows e) (second : e.Grows f) : d.Grows f :=
  ⟨first.labels.trans second.labels,
    fun j n h ended => second.settled j n (first.settled j n h ended) ended,
    Nat.le_trans first.length second.length, first.globals.trans second.globals⟩

/-- Nodes, the open node and the globals are all that matters. -/
theorem of_eq (done : e.done = d.done) (open_ : e.open? = d.open?)
    (globals : e.globals = d.globals) :
    d.Grows e := by
  have nodes : e.nodes = d.nodes := by rw [Draft.nodes, Draft.nodes, done, open_]
  refine ⟨nodes ▸ List.prefix_rfl, fun j n h _ => ?_, ?_, globals ▸ List.prefix_rfl⟩
  · rwa [done]
  · exact Nat.le_of_eq (congrArg _ done.symm)

theorem enter (ho : d.open? = none) (done : e.done = d.done) (globals : e.globals = d.globals) :
    d.Grows e := by
  refine ⟨?_, fun j k h _ => done ▸ h, Nat.le_of_eq (congrArg _ done.symm),
    globals ▸ List.prefix_rfl⟩
  rw [nodes_of_none ho, Draft.nodes, done, List.map_append]
  exact List.prefix_append _ _

/-- A node without an exit may change. -/
theorem modify (ho : d.open? = none) {i : Nat} {g : Node → Node} (at_ : d.done[i]? = some n)
    (opened : n.exit? = none) (label : ∀ m, (g m).label = m.label)
    (done : e.done = d.done.modify i g) (open_ : e.open? = none) (globals : e.globals = d.globals) :
    d.Grows e := by
  obtain ⟨before, after, same, _, changed⟩ := modify_middle at_ g
  refine ⟨?_, fun j k h ended => ?_, ?_, globals ▸ List.prefix_rfl⟩
  · rw [nodes_of_none ho, nodes_of_none open_, done, changed, same]
    simp only [List.map_append, List.map_cons, label]
    exact List.prefix_rfl
  · have other : i ≠ j := by
      rintro rfl
      rw [at_] at h
      cases h
      rw [opened] at ended
      cases ended
    rw [done, List.getElem?_modify, h]
    exact congrArg some (if_neg other)
  · exact Nat.le_of_eq (by rw [done, List.length_modify])

theorem writes (w : d.Writes e) : d.Grows e := by
  obtain ⟨code, next, globals, _, _, longer, rfl⟩ := w
  refine ⟨?_, fun _ _ h _ => h, Nat.le_refl _, longer⟩
  rw [Draft.nodes, Draft.nodes, List.map_append, List.map_append]
  cases d.open? with
  | none => exact List.prefix_rfl
  | some n =>
    change _ <+: d.done.map Node.label ++ [(n.write code).label]
    rw [n.label_write]
    exact List.prefix_rfl

end Grows

/-- Growing so that the open node is left. -/
structure Leaves (d e : Draft) : Prop extends d.Grows e where
  left : d.nodes.length ≤ e.done.length

namespace Leaves

/-- The open node is left, and more nodes may follow. -/
theorem of_left {more : List Node} (ho : d.open? = some n) (label : m.label = n.label)
    (done : e.done = d.done ++ m :: more) (globals : e.globals = d.globals) : d.Leaves e := by
  refine ⟨⟨?_, fun j k h _ => ?_, ?_, globals ▸ List.prefix_rfl⟩, ?_⟩
  · rw [nodes_of_open ho, Draft.nodes, done]
    simp only [List.map_append, List.map_cons, List.map_nil, label, List.append_assoc,
      List.cons_append]
    apply (List.prefix_append_right_inj _).2
    exact List.prefix_append [n.label] _
  · have inside := (List.getElem?_eq_some_iff.1 h).1
    rw [done, List.getElem?_append_left inside]
    exact h
  · rw [done, List.length_append]
    exact Nat.le_add_right _ _
  · rw [nodes_of_open ho, done]
    simp only [List.length_append, List.length_cons, List.length_nil]
    omega

theorem of_none (ho : d.open? = none) (grows : d.Grows e) : d.Leaves e :=
  ⟨grows, nodes_of_none ho ▸ grows.length⟩

theorem grows_trans {f : Draft} (first : d.Leaves e) (second : e.Grows f) : d.Leaves f :=
  ⟨first.toGrows.trans second, Nat.le_trans first.left second.length⟩

end Leaves

/-- Ending the open node in front of a case. -/
theorem leaves_closeCase (label : Id) (done : e.done = d.done) (open_ : e.open? = d.open?)
    (globals : e.globals = d.globals) : d.Leaves (e.closeCase label) := by
  unfold closeCase
  split
  · next n ho =>
    exact .of_left (open_ ▸ ho) (n.label_exit _) (congrArg (· ++ [n.exit _]) done) globals
  · next ho => exact .of_none (open_ ▸ ho) (.of_eq done open_ globals)

/-- A label either shares the block of the label in front of it or opens one. -/
theorem addLabel_eq {f : Id → Switch → Switch} (he : d.addLabel? f = some e) :
    ∃ s rest, d.constructs = .switch s :: rest ∧
      ((∃ label, Lower.isLabel d.last? = true ∧ s.currentLabel? = some label ∧
        e = { d with constructs := .switch (f label s) :: rest }) ∨
      e = { ((d.take 1).closeCase d.next).enter d.next with
        constructs := .switch (f d.next { s with currentLabel? := some d.next }) :: rest }) := by
  obtain ⟨⟨label, c⟩, hl, rfl⟩ := Option.map_eq_some_iff.1 he
  unfold caseLabel? at hl
  split at hl
  · next s rest hc =>
    refine ⟨s, rest, hc, ?_⟩
    split at hl
    · next behind current =>
      cases hl
      refine .inl ⟨_, behind, current, ?_⟩
      dsimp only
      rw [modifySwitch, hc]
    · cases hl
      exact .inr rfl
  · cases hl

/-- The nodes stay as they are in front of a label that directly follows another. -/
def Shares (d e : Draft) : Prop :=
  Lower.isLabel d.last? = true ∧ ∃ constructs, e = { d with constructs }

theorem leaves_addLabel {f : Id → Switch → Switch} (he : d.addLabel? f = some e) :
    d.Leaves e ∨ d.Shares e := by
  obtain ⟨s, rest, _, ⟨label, behind, _, rfl⟩ | rfl⟩ := addLabel_eq he
  · exact .inr ⟨behind, _, rfl⟩
  · have left : d.Leaves ((d.take 1).closeCase d.next) := leaves_closeCase _ rfl rfl rfl
    exact .inl (left.grows_trans (.enter (open?_closeCase _ _) rfl rfl))

/-- What ends a switch ends the block in front of its end and then its header. -/
theorem IsSound.endSwitch_eq (h : d.IsSound) (he : d.endSwitch? = some e) :
    ∃ s rest header, d.constructs = .switch s :: rest ∧
      ({ d with constructs := rest }.closeCase s.breakLabel).done[s.header]? = some header ∧
      header.IsOpen ∧
      e = Draft.enter { { d with constructs := rest }.closeCase s.breakLabel with
        done := ({ d with constructs := rest }.closeCase s.breakLabel).done.modify s.header
          fun n => (n.announce (.selection s.breakLabel)).exit (switchExit s) } s.breakLabel := by
  unfold endSwitch? at he
  split at he
  · next s rest hc =>
    dsimp only at he
    split at he
    · cases he
      unfold IsSound at h
      rw [hc] at h
      have owed : Owes _ { d with constructs := rest } := h
      have closed := (owed.closeCase s.breakLabel List.mem_cons_self).sound_none
        (open?_closeCase s.breakLabel _)
      obtain ⟨header, at_, opened⟩ := closed.placed.kept s.header List.mem_cons_self
      exact ⟨s, rest, header, hc, at_, opened, rfl⟩
    · cases he
  · cases he

theorem IsSound.leaves_endSwitch (h : d.IsSound) (he : d.endSwitch? = some e) : d.Leaves e := by
  obtain ⟨s, rest, header, _, at_, opened, rfl⟩ := h.endSwitch_eq he
  let left : Draft := { d with constructs := rest }
  have closed : d.Leaves (left.closeCase s.breakLabel) := leaves_closeCase _ rfl rfl rfl
  have ended : (left.closeCase s.breakLabel).Grows { left.closeCase s.breakLabel with
      done := (left.closeCase s.breakLabel).done.modify s.header
        fun n => (n.announce (.selection s.breakLabel)).exit (switchExit s) } :=
    .modify (open?_closeCase _ _) at_ opened.exit? (fun m => label_announce_exit m _ _) rfl
      (open?_closeCase _ _) rfl
  apply (closed.grows_trans ended).grows_trans
  exact .enter (open?_closeCase s.breakLabel left) rfl rfl

/-- Whatever directs control leaves the open node, but for a label that shares it. -/
theorem IsSound.leaves {inst : Instruction} {id : Id} (h : d.IsSound)
    (he : Directs inst id d e) :
    d.Leaves e ∨ Lower.isLabel inst.op? = true ∧ d.Shares e := by
  cases he with
  | openIf _ he =>
    obtain ⟨n, ho, rfl⟩ := Option.map_eq_some_iff.1 he
    exact .inl (.of_left ho (label_announce_exit n _ _) rfl rfl)
  | «else» _ he =>
    unfold else? at he
    split at he
    · next n _ ho =>
      cases he
      exact .inl (.of_left ho (n.label_exit _) rfl rfl)
    · cases he
  | endIf _ he =>
    unfold endIf? at he
    split at he
    · next hadElse _ n _ ho =>
      cases he
      cases hadElse with
      | true => exact .inl (.of_left ho (n.label_exit _) rfl rfl)
      | false => exact .inl (.of_left ho (n.label_exit _) (List.append_assoc _ _ _) rfl)
    · cases he
  | loop _ he =>
    obtain ⟨n, ho, rfl⟩ := Option.map_eq_some_iff.1 he
    exact .inl (.of_left ho (n.label_exit _) (List.append_assoc _ _ _) rfl)
  | endLoop _ he =>
    unfold endLoop? at he
    split at he
    · next n _ ho =>
      cases he
      exact .inl (.of_left ho (n.label_exit _) (List.append_assoc _ _ _) rfl)
    · cases he
  | openSwitch _ he =>
    obtain ⟨n, ho, rfl⟩ := Option.map_eq_some_iff.1 he
    exact .inl (.of_left ho (n.label_exit _) (List.append_assoc _ _ _) rfl)
  | case is he => exact (leaves_addLabel he).imp_right fun shares => ⟨by rw [is]; rfl, shares⟩
  | default is he => exact (leaves_addLabel he).imp_right fun shares => ⟨by rw [is]; rfl, shares⟩
  | endSwitch _ he => exact .inl (h.leaves_endSwitch he)
  | jump _ _ _ he =>
    obtain ⟨n, ho, rfl⟩ := Option.map_eq_some_iff.1 he
    exact .inl (.of_left ho (n.label_exit _) rfl rfl)
  | jumpOn _ _ _ he =>
    obtain ⟨n, ho, rfl⟩ := Option.map_eq_some_iff.1 he
    exact .inl (.of_left ho (label_announce_exit n _ _) (List.append_assoc _ _ _) rfl)

theorem IsSound.grows_directs {inst : Instruction} {id : Id} (h : d.IsSound)
    (he : Directs inst id d e) : d.Grows e := by
  obtain leaves | ⟨_, _, _, rfl⟩ := h.leaves he
  · exact leaves.toGrows
  · exact .of_eq rfl rfl rfl

/-- Lowering an instruction leaves everything in place. -/
theorem IsSound.grows {inst : Instruction} (h : d.IsSound) (he : d.Lowers inst e) : d.Grows e := by
  cases he with
  | ordinary _ writes => exact (Grows.writes writes).trans (.of_eq rfl rfl rfl)
  | control _ writes _ directed =>
    have directs := directs_of_control directed
    have grown := (Grows.writes writes).trans ((h.writes writes).grows_directs directs)
    exact grown.trans (.of_eq rfl rfl rfl)

/-- How an instruction changes the stack of constructs. -/
inductive Reshapes (inst : Instruction) (before after : List Construct) : Prop
  | opens (op : inst.opens = true) (c : Construct) (h : after = c :: before)
  | closes (opens : inst.opens = false) (op : inst.closes = true) (c : Construct)
    (h : before = c :: after)
  | divides (opens : inst.opens = false) (closes : inst.closes = false) (op : inst.divides = true)
    (c c' : Construct) (rest : List Construct) (before_ : before = c :: rest)
    (after_ : after = c' :: rest)
  | keeps (opens : inst.opens = false) (closes : inst.closes = false)
    (divides : inst.divides = false) (h : after = before)

theorem reshapes_addLabel {inst : Instruction} {f : Id → Switch → Switch}
    (opens : inst.opens = false) (closes : inst.closes = false) (op : inst.divides = true)
    (he : d.addLabel? f = some e) : Reshapes inst d.constructs e.constructs := by
  obtain ⟨s, rest, hc, ⟨label, _, _, rfl⟩ | rfl⟩ := addLabel_eq he
  · exact .divides opens closes op _ _ rest hc rfl
  · exact .divides opens closes op _ _ rest hc rfl

theorem plain_of_isJump {op : Opcode} (h : Lower.isJump (some op) = true) :
    op.opens = false ∧ op.closes = false ∧ op.divides = false := by
  unfold Lower.isJump at h
  split at h
  · next same => cases same; exact ⟨rfl, rfl, rfl⟩
  · next same => cases same; exact ⟨rfl, rfl, rfl⟩
  · next same => cases same; exact ⟨rfl, rfl, rfl⟩
  · cases h

theorem plain_of_isJumpOn {op : Opcode} (h : op.isJumpOn = true) :
    op.opens = false ∧ op.closes = false ∧ op.divides = false := by
  unfold Opcode.isJumpOn at h
  split at h
  · exact ⟨rfl, rfl, rfl⟩
  · exact ⟨rfl, rfl, rfl⟩
  · exact ⟨rfl, rfl, rfl⟩
  · exact ⟨rfl, rfl, rfl⟩
  · cases h

theorem IsSound.reshapes_directs {inst : Instruction} {id : Id} (h : d.IsSound)
    (family : inst.family = .controlFlow) (he : Directs inst id d e) :
    Reshapes inst d.constructs e.constructs := by
  have control : inst.control? = inst.op? := if_pos family
  have is {p : Opcode → Bool} {op : Opcode} (hop : inst.op? = some op) :
      inst.control?.any p = p op := by
    rw [control, hop, Option.any_some]
  cases he with
  | openIf op he =>
    obtain ⟨n, ho, rfl⟩ := Option.map_eq_some_iff.1 he
    exact .opens (is op) _ rfl
  | «else» op he =>
    unfold else? at he
    split at he
    · next rest n hc ho =>
      cases he
      exact .divides (is op) (is op) (is op) _ _ rest hc rfl
    · cases he
  | endIf op he =>
    unfold endIf? at he
    split at he
    · next hadElse rest n hc ho =>
      cases he
      cases hadElse with
      | true => exact .closes (is op) (is op) _ hc
      | false => exact .closes (is op) (is op) _ hc
    · cases he
  | loop op he =>
    obtain ⟨n, ho, rfl⟩ := Option.map_eq_some_iff.1 he
    exact .opens (is op) _ rfl
  | endLoop op he =>
    unfold endLoop? at he
    split at he
    · next hc ho =>
      cases he
      exact .closes (is op) (is op) _ hc
    · cases he
  | openSwitch op he =>
    obtain ⟨n, ho, rfl⟩ := Option.map_eq_some_iff.1 he
    exact .opens (is op) _ rfl
  | case op he => exact reshapes_addLabel (is op) (is op) (is op) he
  | default op he => exact reshapes_addLabel (is op) (is op) (is op) he
  | endSwitch op he =>
    obtain ⟨s, rest, header, hc, _, _, rfl⟩ := h.endSwitch_eq he
    have around := constructs_closeCase s.breakLabel { d with constructs := rest }
    exact .closes (is op) (is op) (.switch s) (hc.trans (congrArg _ around.symm))
  | jump op isJump _ he =>
    obtain ⟨n, ho, rfl⟩ := Option.map_eq_some_iff.1 he
    obtain ⟨opens, closes, divides⟩ := plain_of_isJump isJump
    exact .keeps ((is op).trans opens) ((is op).trans closes) ((is op).trans divides) rfl
  | jumpOn op isJump _ he =>
    obtain ⟨n, ho, rfl⟩ := Option.map_eq_some_iff.1 he
    obtain ⟨opens, closes, divides⟩ := plain_of_isJumpOn isJump
    exact .keeps ((is op).trans opens) ((is op).trans closes) ((is op).trans divides) rfl

end Draft

end ShaderLowering
