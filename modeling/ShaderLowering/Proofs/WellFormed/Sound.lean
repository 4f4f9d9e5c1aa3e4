import Mathlib.Data.List.Nodup
import Mathlib.Data.List.Perm.Basic
import ShaderLowering.Proofs.Graph.Node

/-!
The invariant of a function body under construction. A body in the making owes something: labels
that are named before their blocks exist, merges that are still to be announced, nodes that are
still without an exit, and loops that are still to be closed. `Sound` says that what is there fits
together and that nothing is missing but what is owed; a body that owes nothing is complete.

There are three steps that matter: taking labels, opening a node, and closing one. Everything that
lowers control is made of them.
-/

namespace ShaderLowering

open Spirv (Id Instr Node Merge Exit jumpsTo mergeLabels)

/-- What a body in the making owes. -/
structure Obligations where
  /-- Labels that are handed out but not placed, in the order in which they will be placed. -/
  pending : List Id
  /-- Labels that merges are going to name. -/
  promised : List Id
  /-- Positions of nodes without an exit. -/
  held : List Nat
  /-- Placed labels that the exits of held nodes may still name. -/
  cases : List Id
  /-- Open loops: the labels of header and continue block. -/
  loops : List (Id × Id)

namespace Obligations

def nothing : Obligations := ⟨[], [], [], [], []⟩

end Obligations

/-- The label of the block that closes the loop of a header. -/
def Spirv.Node.continueLabel? (n : Node) : Option Id :=
  n.merge?.bind Merge.continueLabel?

/-- Labels and merges are used as they should, and every node that is not held has its exit. -/
structure Placed (o : Obligations) (nodes : List Node) (next : Id) : Prop where
  distinct : (nodes.map Node.label ++ o.pending).Nodup
  bounded : ∀ l ∈ nodes.map Node.label ++ o.pending, l < next
  named : ∀ n ∈ nodes, ∀ l ∈ n.names, l ∈ nodes.map Node.label ++ o.pending
  merged : (mergeLabels nodes ++ o.promised).Nodup
  promised : ∀ l ∈ o.promised, l < next
  ended : ∀ (i : Nat) n, nodes[i]? = some n → i ∈ o.held ∨ n.IsEnded
  held : o.held.Nodup
  kept : ∀ i ∈ o.held, ∃ n, nodes[i]? = some n ∧ n.IsOpen
  cases : ∀ l ∈ o.cases, l ∈ nodes.map Node.label

/-- Nothing goes back to the header of a loop but the end of the loop, once it is there. -/
structure Looped (o : Obligations) (nodes : List Node) : Prop where
  notHeader : ∀ l ∈ o.cases, ∀ n ∈ nodes, n.label = l → n.continueLabel? = none
  jumps : ∀ (i : Nat) n c, nodes[i]? = some n → n.continueLabel? = some c →
    jumpsTo n.label (nodes.drop i) = if (n.label, c) ∈ o.loops then [] else [c]
  loops : (o.loops.map Prod.fst).Nodup
  headers : ∀ p ∈ o.loops, ∃ n ∈ nodes, n.label = p.1 ∧ n.continueLabel? = some p.2

structure Sound (o : Obligations) (nodes : List Node) (next : Id) : Prop where
  placed : Placed o nodes next
  looped : Looped o nodes

variable {o : Obligations} {nodes : List Node} {next : Id}

/-- What a list with one more element has at a position. -/
theorem getElem?_concat {α : Type} {xs : List α} {x y : α} {i : Nat}
    (h : (xs ++ [x])[i]? = some y) : xs[i]? = some y ∨ i = xs.length ∧ y = x := by
  rcases Nat.lt_or_ge i xs.length with inside | outside
  · rw [List.getElem?_append_left inside] at h
    exact .inl h
  · rw [List.getElem?_append_right outside] at h
    have position := (List.getElem?_eq_some_iff.1 h).1
    rw [List.length_singleton] at position
    have : i - xs.length = 0 := by omega
    rw [this] at h
    exact .inr ⟨by omega, (Option.some.inj h).symm⟩

theorem getElem?_replace {α : Type} {before after : List α} {x y : α} {i : Nat}
    (place : i ≠ before.length) : (before ++ y :: after)[i]? = (before ++ x :: after)[i]? := by
  rw [List.getElem?_append, List.getElem?_append]
  split
  · rfl
  · obtain ⟨k, hk⟩ : ∃ k, i - before.length = k + 1 := ⟨i - before.length - 1, by omega⟩
    rw [hk, List.getElem?_cons_succ, List.getElem?_cons_succ]

/-- What changing an element amounts to. -/
theorem modify_middle {α : Type} {xs : List α} {x : α} {i : Nat} (h : xs[i]? = some x)
    (f : α → α) : ∃ before after, xs = before ++ x :: after ∧ before.length = i ∧
      xs.modify i f = before ++ f x :: after := by
  have inside := (List.getElem?_eq_some_iff.1 h).1
  obtain ⟨before, y, after, same, length, changed⟩ := List.exists_of_modify f inside
  have : x = y := by
    rw [same, ← length, List.getElem?_append_right (Nat.le_refl _), Nat.sub_self] at h
    exact (Option.some.inj h).symm
  rw [← this] at same changed
  exact ⟨before, after, same, length, changed⟩

theorem getElem?_middle {α : Type} (before after : List α) (x : α) :
    (before ++ x :: after)[before.length]? = some x := by
  rw [List.getElem?_append_right (Nat.le_refl _), Nat.sub_self]
  rfl

namespace Placed

/-- A merge label is among the names of its node. -/
theorem named_of_merge (h : Placed o nodes next) {l : Id} (hl : l ∈ mergeLabels nodes) :
    l ∈ nodes.map Node.label ++ o.pending := by
  obtain ⟨n, hn, hl⟩ := List.mem_flatMap.1 hl
  obtain ⟨m, hm, rfl⟩ := List.mem_map.1 hl
  refine h.named n hn m.label (List.mem_append_left _ ?_)
  exact List.mem_flatMap.2 ⟨m, hm, List.mem_cons_self⟩

/-- Taking the next labels, some of them for merges. -/
theorem take (h : Placed o nodes next) (k : Nat) {merges : List Id}
    (among : ∀ l ∈ merges, l ∈ List.range' next k) (once : merges.Nodup) :
    Placed { o with
      pending := List.range' next k ++ o.pending
      promised := merges ++ o.promised } nodes (next + k) := by
  have fresh {l : Id} (hl : l ∈ List.range' next k) : next ≤ l ∧ l < next + k :=
    List.mem_range'_1.1 hl
  have old {l : Id} (hl : l < next) : l < next + k := Nat.lt_of_lt_of_le hl (Nat.le_add_right _ _)
  constructor
  case distinct =>
    refine (List.perm_append_comm_assoc _ _ _).nodup_iff.2
      (List.Nodup.append List.nodup_range' h.distinct ?_)
    intro l hl hold
    exact absurd (h.bounded l hold) (Nat.not_lt.2 (fresh hl).1)
  case bounded =>
    intro l hl
    rcases List.mem_append.1 hl with hl | hl
    · exact old (h.bounded l (List.mem_append_left _ hl))
    · rcases List.mem_append.1 hl with hl | hl
      · exact (fresh hl).2
      · exact old (h.bounded l (List.mem_append_right _ hl))
  case named =>
    intro n hn l hl
    rcases List.mem_append.1 (h.named n hn l hl) with hl | hl
    · exact List.mem_append_left _ hl
    · exact List.mem_append_right _ (List.mem_append_right _ hl)
  case merged =>
    refine (List.perm_append_comm_assoc _ _ _).nodup_iff.2 (List.Nodup.append once h.merged ?_)
    intro l hl hold
    refine absurd ?_ (Nat.not_lt.2 (fresh (among l hl)).1)
    rcases List.mem_append.1 hold with hold | hold
    · exact h.bounded l (h.named_of_merge hold)
    · exact h.promised l hold
  case promised =>
    intro l hl
    rcases List.mem_append.1 hl with hl | hl
    · exact (fresh (among l hl)).2
    · exact old (h.promised l hl)
  case ended => exact h.ended
  case held => exact h.held
  case kept => exact h.kept
  case cases => exact h.cases

/-- Opening a node under the label that is due. -/
theorem enter {l : Id} {rest : List Id} (h : Placed { o with pending := l :: rest } nodes next) :
    Placed { o with pending := rest, held := nodes.length :: o.held } (nodes ++ [.start l])
      next := by
  have labels : (nodes ++ [Node.start l]).map Node.label ++ rest =
      nodes.map Node.label ++ (l :: rest) := by
    rw [List.map_append, List.append_assoc]
    rfl
  constructor
  case distinct => exact labels ▸ h.distinct
  case bounded => exact labels ▸ h.bounded
  case named =>
    rw [labels]
    intro n hn k hk
    rcases List.mem_append.1 hn with hn | hn
    · exact h.named n hn k hk
    · rw [List.mem_singleton.1 hn] at hk
      exact absurd hk List.not_mem_nil
  case merged =>
    have : mergeLabels (nodes ++ [Node.start l]) = mergeLabels nodes := by
      rw [mergeLabels, List.flatMap_append]
      exact List.append_nil _
    rw [this]
    exact h.merged
  case promised => exact h.promised
  case ended =>
    intro i n hi
    obtain hi | ⟨rfl, rfl⟩ := getElem?_concat hi
    · exact (h.ended i n hi).imp_left (List.mem_cons_of_mem _)
    · exact .inl List.mem_cons_self
  case held =>
    refine List.nodup_cons.2 ⟨fun hm => ?_, h.held⟩
    obtain ⟨n, hn, _⟩ := h.kept _ hm
    rw [List.getElem?_eq_none (Nat.le_refl _)] at hn
    cases hn
  case kept =>
    intro i hi
    rcases List.mem_cons.1 hi with rfl | hi
    · exact ⟨.start l, List.getElem?_concat_length, Node.isOpen_start l⟩
    · obtain ⟨n, hn, opened⟩ := h.kept i hi
      refine ⟨n, ?_, opened⟩
      rw [List.getElem?_append_left (List.getElem?_eq_some_iff.1 hn).1, hn]
  case cases =>
    intro k hk
    rw [List.map_append]
    exact List.mem_append_left _ (h.cases k hk)

variable {before after : List Node} {n : Node} {rest : List Nat} {promised : List Id}

/-- Closing the node that is due, with an exit to labels that are known. -/
theorem close (merge? : Option Merge) {e : Exit} {loops : List (Id × Id)}
    (h : Placed { o with
      held := before.length :: rest
      promised := merge?.toList.map Merge.label ++ promised } (before ++ n :: after) next)
    (known : ∀ l ∈ merge?.toList.flatMap Merge.labels ++ e.targets,
      l ∈ (before ++ n :: after).map Node.label ++ o.pending) :
    Placed { o with held := rest, promised, loops }
      (before ++ ⟨n.label, n.code, merge?, some e⟩ :: after) next := by
  have opened : n.IsOpen := by
    obtain ⟨m, hm, opened⟩ := h.kept _ List.mem_cons_self
    rw [getElem?_middle] at hm
    cases hm
    exact opened
  have labels : (before ++ ⟨n.label, n.code, merge?, some e⟩ :: after).map Node.label =
      (before ++ n :: after).map Node.label := by
    rw [List.map_append, List.map_append]
    rfl
  constructor
  case distinct => exact labels ▸ h.distinct
  case bounded => exact labels ▸ h.bounded
  case named =>
    rw [labels]
    intro m hm l hl
    rcases List.mem_append.1 hm with hm | hm
    · exact h.named m (List.mem_append_left _ hm) l hl
    · rcases List.mem_cons.1 hm with rfl | hm
      · exact known l (by simpa [Node.names] using hl)
      · exact h.named m (List.mem_append_right _ (List.mem_cons_of_mem _ hm)) l hl
  case merged =>
    have old : mergeLabels (before ++ n :: after) = mergeLabels before ++ mergeLabels after := by
      simp [mergeLabels, List.flatMap_append, opened.merge?]
    have new : mergeLabels (before ++ ⟨n.label, n.code, merge?, some e⟩ :: after) =
        mergeLabels before ++ (merge?.toList.map Merge.label ++ mergeLabels after) := by
      simp [mergeLabels, List.flatMap_append]
    have merged := h.merged
    rw [old] at merged
    rw [new]
    refine (List.perm_iff_count.2 fun l => ?_).nodup_iff.2 merged
    simp only [List.count_append]
    omega
  case promised =>
    intro l hl
    exact h.promised l (List.mem_append_right _ hl)
  case ended =>
    intro i m hi
    by_cases place : i = before.length
    · subst place
      rw [getElem?_middle] at hi
      cases hi
      exact .inr ⟨opened.code, rfl⟩
    · rw [getElem?_replace place] at hi
      refine (h.ended i m hi).imp_left fun hm => ?_
      exact (List.mem_cons.1 hm).resolve_left place
  case held => exact (List.nodup_cons.1 h.held).2
  case kept =>
    intro i hi
    have place : i ≠ before.length := by
      rintro rfl
      exact (List.nodup_cons.1 h.held).1 hi
    rw [getElem?_replace place]
    exact h.kept i (List.mem_cons_of_mem _ hi)
  case cases =>
    rw [labels]
    exact h.cases

/-- Writing code to a node. -/
theorem write (h : Placed o (before ++ n :: after) next) (opened : n.IsOpen)
    (held : before.length ∈ o.held) {code : List Instr} (ordinary : ∀ i ∈ code, i.IsOrdinary) :
    Placed o (before ++ n.write code :: after) next := by
  have written := opened.write ordinary
  have labels : (before ++ n.write code :: after).map Node.label =
      (before ++ n :: after).map Node.label := by
    rw [List.map_append, List.map_append, List.map_cons, List.map_cons, n.label_write]
  have mem {m : Node} (hm : m ∈ before ++ n.write code :: after) :
      m = n.write code ∨ m ∈ before ++ n :: after := by
    rcases List.mem_append.1 hm with hm | hm
    · exact .inr (List.mem_append_left _ hm)
    · exact (List.mem_cons.1 hm).imp_right fun hm =>
        List.mem_append_right _ (List.mem_cons_of_mem _ hm)
  constructor
  case distinct => exact labels ▸ h.distinct
  case bounded => exact labels ▸ h.bounded
  case named =>
    rw [labels]
    intro m hm l hl
    rcases mem hm with rfl | hm
    · rw [written.names_eq] at hl
      exact absurd hl List.not_mem_nil
    · exact h.named m hm l hl
  case merged =>
    have same : mergeLabels (before ++ n.write code :: after) =
        mergeLabels (before ++ n :: after) := by
      simp [mergeLabels, List.flatMap_append, opened.merge?, written.merge?]
    rw [same]
    exact h.merged
  case promised => exact h.promised
  case ended =>
    intro i m hi
    by_cases place : i = before.length
    · exact .inl (place ▸ held)
    · rw [getElem?_replace place] at hi
      exact h.ended i m hi
  case held => exact h.held
  case kept =>
    intro i hi
    by_cases place : i = before.length
    · exact ⟨n.write code, place ▸ getElem?_middle _ _ _, written⟩
    · rw [getElem?_replace place]
      exact h.kept i hi
  case cases =>
    rw [labels]
    exact h.cases

end Placed

namespace Looped

/-- Opening a node adds no jump. -/
theorem enter (h : Looped o nodes) {l : Id} {pending : List Id} {held : List Nat} :
    Looped { o with pending, held } (nodes ++ [.start l]) := by
  constructor
  case notHeader =>
    intro k hk n hn same
    rcases List.mem_append.1 hn with hn | hn
    · exact h.notHeader k hk n hn same
    · rw [List.mem_singleton.1 hn]
      rfl
  case jumps =>
    intro i n c hi hc
    obtain hi | ⟨rfl, rfl⟩ := getElem?_concat hi
    · rw [List.drop_append_of_le_length (Nat.le_of_lt (List.getElem?_eq_some_iff.1 hi).1),
        Spirv.jumpsTo_append, ← h.jumps i n c hi hc]
      exact List.append_nil _
    · cases hc
  case loops => exact h.loops
  case headers =>
    intro p hp
    obtain ⟨n, hn, same⟩ := h.headers p hp
    exact ⟨n, List.mem_append_left _ hn, same⟩

variable {before after : List Node} {n n' : Node}

/-- Replacing a node by one with the same label that jumps to `label` as often. -/
theorem jumpsTo_replace {label : Id} (same : jumpsTo label [n'] = jumpsTo label [n]) (i : Nat) :
    jumpsTo label ((before ++ n' :: after).drop i) =
      jumpsTo label ((before ++ n :: after).drop i) := by
  rw [List.drop_append, List.drop_append, Spirv.jumpsTo_append, Spirv.jumpsTo_append]
  cases i - before.length with
  | zero =>
    rw [List.drop_zero, List.drop_zero, ← List.singleton_append, Spirv.jumpsTo_append, same,
      ← Spirv.jumpsTo_append, List.singleton_append]
  | succ k => rw [List.drop_succ_cons, List.drop_succ_cons]

theorem jumpsTo_of_not_mem {label : Id} (absent : label ∉ n.targets) : jumpsTo label [n] = [] := by
  have : n.targets.filter (· = label) = [] := List.filter_eq_nil_iff.2 fun l hl => by
    simp only [decide_eq_true_eq]
    rintro rfl
    exact absent hl
  simp [jumpsTo, this]

/-- A label that no loop header has. -/
def NotHeader (nodes : List Node) (label : Id) : Prop :=
  ∀ n ∈ nodes, n.label = label → n.continueLabel? = none

/-- Changing an open node into one that is no loop header and has jumps forward only. -/
theorem replace (h : Looped o (before ++ n :: after)) (opened : n.IsOpen)
    (plain : n'.continueLabel? = none)
    (forward : ∀ l ∈ n'.targets, NotHeader (before ++ n :: after) l) {held : List Nat}
    {promised : List Id} : Looped { o with held, promised } (before ++ n' :: after) := by
  have mem {m : Node} (hm : m ∈ before ++ n' :: after) :
      m.continueLabel? = none ∨ m ∈ before ++ n :: after := by
    rcases List.mem_append.1 hm with hm | hm
    · exact .inr (List.mem_append_left _ hm)
    · rcases List.mem_cons.1 hm with rfl | hm
      · exact .inl plain
      · exact .inr (List.mem_append_right _ (List.mem_cons_of_mem _ hm))
  constructor
  case notHeader =>
    intro k hk m hm same
    exact (mem hm).elim id fun hm => h.notHeader k hk m hm same
  case jumps =>
    intro i m c hi hc
    have place : i ≠ before.length := by
      rintro rfl
      rw [getElem?_middle] at hi
      cases hi
      cases plain.symm.trans hc
    rw [getElem?_replace place] at hi
    rw [← h.jumps i m c hi hc]
    refine jumpsTo_replace ?_ i
    rw [jumpsTo_of_not_mem, jumpsTo_of_not_mem]
    · rw [Node.targets, opened.exit?]
      exact List.not_mem_nil
    · intro target
      rw [forward _ target m (List.mem_of_getElem? hi) rfl] at hc
      cases hc
  case loops => exact h.loops
  case headers =>
    intro p hp
    obtain ⟨m, hm, same, hc⟩ := h.headers p hp
    refine ⟨m, ?_, same, hc⟩
    rcases List.mem_append.1 hm with hm | hm
    · exact List.mem_append_left _ hm
    · rcases List.mem_cons.1 hm with rfl | hm
      · rw [Node.continueLabel?, opened.merge?] at hc
        cases hc
      · exact List.mem_append_right _ (List.mem_cons_of_mem _ hm)

/-- Writing code to a node adds no jump. -/
theorem write (h : Looped o (before ++ n :: after)) (opened : n.IsOpen) {code : List Instr} :
    Looped o (before ++ n.write code :: after) := by
  rw [opened.write_eq]
  exact h.replace opened rfl fun l hl => absurd hl List.not_mem_nil

/-- Closing a node with jumps forward, and after a selection merge at most. -/
theorem close (h : Looped o (before ++ n :: after)) (opened : n.IsOpen) {merge? : Option Merge}
    {e : Exit} (plain : merge?.bind Merge.continueLabel? = none)
    (forward : ∀ l ∈ e.targets, NotHeader (before ++ n :: after) l) {held : List Nat}
    {promised : List Id} :
    Looped { o with held, promised } (before ++ ⟨n.label, n.code, merge?, some e⟩ :: after) := by
  refine h.replace opened ?_ fun l hl => ?_
  · exact plain
  · exact forward l (by simpa [Node.targets] using hl)

/-- Closing the header of a loop. The loop is open then. -/
theorem close_header (h : Looped o (before ++ [n])) (opened : n.IsOpen) {b c : Id} {e : Exit}
    (new : ∀ m ∈ before, m.label ≠ n.label) (notCase : n.label ∉ o.cases)
    (forward : ∀ l ∈ e.targets, l ≠ n.label ∧ NotHeader (before ++ [n]) l) {held : List Nat}
    {promised : List Id} :
    Looped { o with held, promised, loops := (n.label, c) :: o.loops }
      (before ++ [⟨n.label, n.code, some (.loop b c), some e⟩]) := by
  have notYet : n.continueLabel? = none := by rw [Node.continueLabel?, opened.merge?]; rfl
  have header {m : Node} {c : Id} (hm : m ∈ before ++ [n]) (hc : m.continueLabel? = some c) :
      m ∈ before := by
    refine (List.mem_append.1 hm).resolve_right fun hm => ?_
    rw [List.mem_singleton.1 hm, notYet] at hc
    cases hc
  constructor
  case notHeader =>
    intro k hk m hm same
    rcases List.mem_append.1 hm with hm | hm
    · exact h.notHeader k hk m (List.mem_append_left _ hm) same
    · rw [List.mem_singleton.1 hm] at same
      exact absurd (same ▸ hk) notCase
  case jumps =>
    intro i m d hi hd
    obtain hi | ⟨rfl, rfl⟩ := getElem?_concat hi
    · have inside := (List.getElem?_eq_some_iff.1 hi).1
      have old : (before ++ [n])[i]? = some m := by rw [List.getElem?_append_left inside, hi]
      have other : (m.label, d) ∈ (n.label, c) :: o.loops ↔ (m.label, d) ∈ o.loops := by
        have := new m (List.mem_of_getElem? hi)
        simp [this]
      simp only [other]
      rw [← h.jumps i m d old hd]
      refine jumpsTo_replace ?_ i
      rw [jumpsTo_of_not_mem, jumpsTo_of_not_mem]
      · rw [Node.targets, opened.exit?]
        exact List.not_mem_nil
      · intro target
        have target : m.label ∈ e.targets := by simpa [Node.targets] using target
        rw [(forward _ target).2 m (List.mem_of_getElem? old) rfl] at hd
        cases hd
    · cases hd
      rw [List.drop_left, if_pos List.mem_cons_self]
      refine jumpsTo_of_not_mem fun target => ?_
      exact (forward n.label (by simpa [Node.targets] using target)).1 rfl
  case loops =>
    refine List.nodup_cons.2 ⟨fun hl => ?_, h.loops⟩
    obtain ⟨p, hp, same⟩ := List.mem_map.1 hl
    obtain ⟨m, hm, label, hc⟩ := h.headers p hp
    exact new m (header hm hc) (label.trans same)
  case headers =>
    intro p hp
    rcases List.mem_cons.1 hp with rfl | hp
    · exact ⟨_, List.mem_append_right _ List.mem_cons_self, rfl, rfl⟩
    · obtain ⟨m, hm, same, hc⟩ := h.headers p hp
      exact ⟨m, List.mem_append_left _ (header hm hc), same, hc⟩

/-- Going back to the header of the loop that is due, from its continue block. -/
theorem close_loop {label : Id} {loops : List (Id × Id)}
    (h : Looped { o with loops := (label, n.label) :: loops } (before ++ [n])) (opened : n.IsOpen)
    (distinct : ((before ++ [n]).map Node.label).Nodup) {held : List Nat} :
    Looped { o with held, loops } (before ++ [⟨n.label, n.code, none, some (.branch label)⟩]) := by
  have notYet : n.continueLabel? = none := by rw [Node.continueLabel?, opened.merge?]; rfl
  have header {m : Node} {c : Id} (hm : m ∈ before ++ [n]) (hc : m.continueLabel? = some c) :
      m ∈ before := by
    refine (List.mem_append.1 hm).resolve_right fun hm => ?_
    rw [List.mem_singleton.1 hm, notYet] at hc
    cases hc
  have once := List.nodup_cons.1 h.loops
  constructor
  case notHeader =>
    intro k hk m hm same
    rcases List.mem_append.1 hm with hm | hm
    · exact h.notHeader k hk m (List.mem_append_left _ hm) same
    · rw [List.mem_singleton.1 hm]
      rfl
  case jumps =>
    intro i m c hi hc
    obtain hi | ⟨rfl, rfl⟩ := getElem?_concat hi
    · have inside := (List.getElem?_eq_some_iff.1 hi).1
      have old : (before ++ [n])[i]? = some m := by rw [List.getElem?_append_left inside, hi]
      have jumps := h.jumps i m c old hc
      rw [List.drop_append_of_le_length (Nat.le_of_lt inside), Spirv.jumpsTo_append] at jumps ⊢
      by_cases same : m.label = label
      · -- This is the header itself, so the jump that is added is the one that was missing.
        obtain ⟨m', hm', label', hc'⟩ := h.headers _ List.mem_cons_self
        have : m = m' := List.inj_on_of_nodup_map distinct (List.mem_of_getElem? old) hm'
          (same.trans label'.symm)
        rw [← this, hc] at hc'
        obtain rfl := Option.some.inj hc'
        rw [if_pos (by rw [same]; exact List.mem_cons_self)] at jumps
        rw [(List.append_eq_nil_iff.1 jumps).1, if_neg, same]
        · simp [jumpsTo, Node.targets, Exit.targets]
        · rw [same]
          exact fun hl => once.1 (List.mem_map_of_mem hl)
      · have other : (m.label, c) ∈ (label, n.label) :: loops ↔ (m.label, c) ∈ loops := by
          simp [same]
        simp only [other] at jumps
        rw [← jumps, jumpsTo_of_not_mem (n := n), jumpsTo_of_not_mem]
        · simpa [Node.targets, Exit.targets] using same
        · rw [Node.targets, opened.exit?]
          exact List.not_mem_nil
    · cases hc
  case loops => exact once.2
  case headers =>
    intro p hp
    obtain ⟨m, hm, same, hc⟩ := h.headers p (List.mem_cons_of_mem _ hp)
    exact ⟨m, List.mem_append_left _ (header hm hc), same, hc⟩

end Looped

namespace Sound

open Looped (NotHeader)

theorem empty (next : Id) : Sound .nothing [] next := by
  constructor <;> constructor <;> simp [Obligations.nothing, mergeLabels]

/-- A body that owes nothing is complete. -/
theorem complete (h : Sound .nothing nodes next) : Spirv.Complete nodes := by
  have distinct : (nodes.map Node.label).Nodup := by
    have := h.placed.distinct
    rwa [Obligations.nothing, List.append_nil] at this
  constructor
  case ended =>
    intro n hn
    obtain ⟨i, hi⟩ := List.getElem?_of_mem hn
    exact (h.placed.ended i n hi).resolve_left List.not_mem_nil
  case placed =>
    intro n hn l hl
    have := h.placed.named n hn l hl
    rw [Obligations.nothing, List.append_nil] at this
    exact List.count_eq_one_of_mem distinct this
  case mergedOnce =>
    have := h.placed.merged
    rwa [Obligations.nothing, List.append_nil] at this
  case looped =>
    intro i n hn c hc
    exact (h.looped.jumps i n c hn hc).trans (if_neg List.not_mem_nil)

/-- Taking ids that are no labels. -/
theorem later (h : Sound o nodes next) {next' : Id} (later : next ≤ next') :
    Sound o nodes next' :=
  ⟨{ h.placed with
      bounded := fun l hl => Nat.lt_of_lt_of_le (h.placed.bounded l hl) later
      promised := fun l hl => Nat.lt_of_lt_of_le (h.placed.promised l hl) later }, h.looped⟩

/-- Other case labels, which have to be placed and must not be loop headers. -/
theorem recase (h : Sound o nodes next) {cases_ : List Id}
    (known : ∀ l ∈ cases_, l ∈ o.cases ∨ l ∈ nodes.map Node.label ∧ NotHeader nodes l) :
    Sound { o with cases := cases_ } nodes next :=
  ⟨{ h.placed with cases := fun l hl => (known l hl).elim (h.placed.cases l) And.left },
    { h.looped with
      notHeader := fun l hl => (known l hl).elim (h.looped.notHeader l) And.right }⟩

theorem take (h : Sound o nodes next) (k : Nat) {merges : List Id}
    (among : ∀ l ∈ merges, l ∈ List.range' next k) (once : merges.Nodup) :
    Sound { o with
      pending := List.range' next k ++ o.pending
      promised := merges ++ o.promised } nodes (next + k) :=
  ⟨h.placed.take k among once, h.looped.notHeader, h.looped.jumps, h.looped.loops,
    h.looped.headers⟩

theorem enter {l : Id} {rest : List Id} (h : Sound o nodes next) (due : o.pending = l :: rest) :
    Sound { o with pending := rest, held := nodes.length :: o.held } (nodes ++ [.start l])
      next := by
  obtain ⟨pending, promised, held, cases_, loops⟩ := o
  subst due
  exact ⟨h.placed.enter, h.looped.enter⟩

/-- A label that is not placed is no loop header. -/
theorem notHeader_of_pending (h : Sound o nodes next) {l : Id} (hl : l ∈ o.pending) :
    NotHeader nodes l := by
  intro n hn same
  have := (List.nodup_append.1 h.placed.distinct).2.2 n.label (List.mem_map_of_mem hn) l hl
  exact absurd same this

theorem forward (h : Sound o nodes next) {l : Id} (hl : l ∈ o.pending ∨ l ∈ o.cases) :
    NotHeader nodes l ∧ l ∈ nodes.map Node.label ++ o.pending := by
  rcases hl with hl | hl
  · exact ⟨h.notHeader_of_pending hl, List.mem_append_right _ hl⟩
  · exact ⟨h.looped.notHeader l hl, List.mem_append_left _ (h.placed.cases l hl)⟩

variable {done : List Node} {n : Node} {rest : List Nat} {e : Exit}

theorem isOpen_of_held (h : Sound o nodes next) {i : Nat} (held : i ∈ o.held)
    (at_ : nodes[i]? = some n) : n.IsOpen := by
  obtain ⟨m, hm, opened⟩ := h.placed.kept i held
  rw [at_] at hm
  cases hm
  exact opened

/-- Closing a node with jumps to labels that are not placed yet or belong to cases. -/
theorem close {i : Nat} (h : Sound o nodes next) (due : o.held = i :: rest)
    (at_ : nodes[i]? = some n)
    (targets : ∀ l ∈ e.targets, l ∈ o.pending ∨ l ∈ o.cases) :
    Sound { o with held := rest } (nodes.modify i (·.exit e)) next := by
  have opened := h.isOpen_of_held (due ▸ List.mem_cons_self) at_
  obtain ⟨before, after, same, length, changed⟩ := modify_middle at_ (·.exit e)
  rw [changed, opened.exit_eq]
  obtain ⟨pending, promised, held, cases_, loops⟩ := o
  subst due same length
  refine ⟨h.placed.close none fun l hl => ?_, h.looped.close opened rfl fun l hl => ?_⟩
  · exact (h.forward (targets l hl)).2
  · exact (h.forward (targets l hl)).1

/-- The same behind a selection merge. -/
theorem close_selection {i : Nat} {l : Id} {promised : List Id} (h : Sound o nodes next)
    (due : o.held = i :: rest) (at_ : nodes[i]? = some n) (merge : o.promised = l :: promised)
    (pending : l ∈ o.pending) (targets : ∀ l ∈ e.targets, l ∈ o.pending ∨ l ∈ o.cases) :
    Sound { o with held := rest, promised }
      (nodes.modify i fun n => (n.announce (.selection l)).exit e) next := by
  have opened := h.isOpen_of_held (due ▸ List.mem_cons_self) at_
  obtain ⟨before, after, same, length, changed⟩ :=
    modify_middle at_ fun n => (n.announce (.selection l)).exit e
  rw [changed, opened.announce_exit_eq]
  obtain ⟨_, _, held, cases_, loops⟩ := o
  subst due same length merge
  refine ⟨h.placed.close (some (.selection l)) fun k hk => ?_,
    h.looped.close opened rfl fun k hk => ?_⟩
  · rcases List.mem_cons.1 hk with rfl | hk
    · exact List.mem_append_right _ pending
    · exact (h.forward (targets k hk)).2
  · exact (h.forward (targets k hk)).1

/-- Closing the last node as the header of a loop. -/
theorem close_header {b c : Id} {promised : List Id} (h : Sound o (done ++ [n]) next)
    (due : o.held = done.length :: rest) (merge : o.promised = b :: promised)
    (pending : b ∈ o.pending ∧ c ∈ o.pending) (notCase : n.label ∉ o.cases)
    (targets : ∀ l ∈ e.targets, l ∈ o.pending) :
    Sound { o with held := rest, promised, loops := (n.label, c) :: o.loops }
      (done ++ [(n.announce (.loop b c)).exit e]) next := by
  have opened := h.isOpen_of_held (due ▸ List.mem_cons_self) (getElem?_middle done [] n)
  have distinct := List.nodup_append.1 h.placed.distinct
  have new : ∀ m ∈ done, m.label ≠ n.label := by
    intro m hm same
    have := (List.nodup_append.1 (List.map_append ▸ distinct.1)).2.2 m.label
      (List.mem_map_of_mem hm) n.label (List.mem_map_of_mem List.mem_cons_self)
    exact this same
  have other : ∀ l ∈ o.pending, l ≠ n.label := fun l hl same =>
    distinct.2.2 n.label (List.mem_map_of_mem (List.mem_append_right _ List.mem_cons_self)) l hl
      same.symm
  rw [opened.announce_exit_eq]
  obtain ⟨_, _, held, cases_, loops⟩ := o
  subst due merge
  refine ⟨h.placed.close (some (.loop b c)) fun k hk => ?_,
    h.looped.close_header opened new notCase fun k hk => ?_⟩
  · refine List.mem_append_right _ ?_
    rcases List.mem_cons.1 hk with rfl | hk
    · exact pending.1
    · rcases List.mem_cons.1 hk with rfl | hk
      · exact pending.2
      · exact targets k hk
  · exact ⟨other k (targets k hk), h.notHeader_of_pending (targets k hk)⟩

/-- Closing the last node, the continue block of the loop that is due, with the jump back. -/
theorem close_loop {label : Id} {loops : List (Id × Id)} (h : Sound o (done ++ [n]) next)
    (due : o.held = done.length :: rest) (loop : o.loops = (label, n.label) :: loops) :
    Sound { o with held := rest, loops } (done ++ [n.exit (.branch label)]) next := by
  have opened := h.isOpen_of_held (due ▸ List.mem_cons_self) (getElem?_middle done [] n)
  rw [opened.exit_eq]
  obtain ⟨_, promised, held, cases_, loops⟩ := o
  subst due loop
  refine ⟨h.placed.close none fun k hk => List.mem_append_left _ ?_,
    h.looped.close_loop opened (List.nodup_append.1 h.placed.distinct).1⟩
  obtain ⟨m, hm, same, _⟩ := h.looped.headers _ List.mem_cons_self
  have same : m.label = label := same
  rw [List.mem_singleton.1 hk, ← same]
  exact List.mem_map_of_mem hm

/-- Writing ordinary code to a node. -/
theorem write {i : Nat} {code : List Instr} (h : Sound o nodes next) (held : i ∈ o.held)
    (at_ : nodes[i]? = some n) (ordinary : ∀ i ∈ code, i.IsOrdinary) :
    Sound o (nodes.modify i (·.write code)) next := by
  have opened := h.isOpen_of_held held at_
  obtain ⟨before, after, same, length, changed⟩ := modify_middle at_ (·.write code)
  rw [changed]
  subst same length
  exact ⟨h.placed.write opened held ordinary, h.looped.write opened⟩

end Sound

end ShaderLowering
