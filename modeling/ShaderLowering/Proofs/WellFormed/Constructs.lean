import ShaderLowering.Proofs.Lowering.Steps
import ShaderLowering.Proofs.WellFormed.Sound

/-!
Control flow keeps bodies sound. What a body owes while constructs are open can be read off the
stack of constructs: each of them owes the labels that its end will place, a loop also its back
edge, and a switch the exit of its header. Every step on drafts pays what it owes, so the draft
after an instruction owes just what the constructs after it say.
-/

namespace ShaderLowering

open Spirv (Id Instr Node Merge Exit)

namespace Draft

/-- A draft that is sound up to what `o` says, apart from the exit of the open node. -/
def Owes (o : Obligations) (d : Draft) : Prop :=
  Sound { o with held := (d.open?.map fun _ => d.done.length).toList ++ o.held } d.nodes d.next

variable {o : Obligations} {d e : Draft} {n : Node}

namespace Owes

theorem sound_open (h : d.Owes o) (ho : d.open? = some n) :
    Sound { o with held := d.done.length :: o.held } (d.done ++ [n]) d.next := by
  unfold Owes at h
  rwa [nodes_of_open ho, ho] at h

theorem sound_none (h : d.Owes o) (ho : d.open? = none) : Sound o d.done d.next := by
  unfold Owes at h
  rwa [nodes_of_none ho, ho] at h

theorem of_open (ho : d.open? = some n)
    (h : Sound { o with held := d.done.length :: o.held } (d.done ++ [n]) d.next) : d.Owes o := by
  unfold Owes
  rwa [nodes_of_open ho, ho]

theorem of_none (ho : d.open? = none) (h : Sound o d.done d.next) : d.Owes o := by
  unfold Owes
  rwa [nodes_of_none ho, ho]

theorem isOpen (h : d.Owes o) (ho : d.open? = some n) : n.IsOpen :=
  (h.sound_open ho).isOpen_of_held List.mem_cons_self (getElem?_middle d.done [] n)

theorem writes (h : d.Owes o) (w : d.Writes e) : e.Owes o := by
  obtain ⟨code, next, globals, ordinary, later, _, rfl⟩ := w
  cases ho : d.open? with
  | none =>
    exact of_none rfl ((h.sound_none ho).later later)
  | some n =>
    have written := (h.sound_open ho).write List.mem_cons_self (getElem?_middle d.done [] n)
      ordinary
    rw [Spirv.modify_concat] at written
    exact of_open rfl (written.later later)

theorem take (h : d.Owes o) (k : Nat) (merges : List Id)
    (among : ∀ l ∈ merges, l ∈ List.range' d.next k) (once : merges.Nodup) :
    (d.take k).Owes { o with
      pending := List.range' d.next k ++ o.pending
      promised := merges ++ o.promised } :=
  Sound.take h k among once

theorem enter (h : d.Owes o) (ho : d.open? = none) {l : Id} {rest : List Id}
    (due : o.pending = l :: rest) : (d.enter l).Owes { o with pending := rest } :=
  of_open rfl ((h.sound_none ho).enter due)

theorem exit (h : d.Owes o) (ho : d.open? = some n) (leave : Exit)
    (targets : ∀ l ∈ leave.targets, l ∈ o.pending ∨ l ∈ o.cases) : (d.exit n leave).Owes o := by
  have closed := (h.sound_open ho).close rfl (getElem?_middle d.done [] n) targets
  rw [Spirv.modify_concat] at closed
  exact of_none rfl closed

theorem exit_selection (h : d.Owes o) (ho : d.open? = some n) (leave : Exit) {l : Id}
    {promised : List Id}
    (merge : o.promised = l :: promised) (pending : l ∈ o.pending)
    (targets : ∀ l ∈ leave.targets, l ∈ o.pending ∨ l ∈ o.cases) :
    (d.exit (n.announce (.selection l)) leave).Owes { o with promised } := by
  have closed := (h.sound_open ho).close_selection rfl (getElem?_middle d.done [] n) merge
    pending targets
  rw [Spirv.modify_concat] at closed
  exact of_none rfl closed

theorem exit_header (h : d.Owes o) (ho : d.open? = some n) (leave : Exit) {b c : Id}
    {promised : List Id}
    (merge : o.promised = b :: promised) (pending : b ∈ o.pending ∧ c ∈ o.pending)
    (notCase : n.label ∉ o.cases) (targets : ∀ l ∈ leave.targets, l ∈ o.pending) :
    (d.exit (n.announce (.loop b c)) leave).Owes
      { o with promised, loops := (n.label, c) :: o.loops } :=
  of_none rfl ((h.sound_open ho).close_header rfl merge pending notCase targets)

theorem exit_loop (h : d.Owes o) (ho : d.open? = some n) (label : Id) {loops : List (Id × Id)}
    (loop : o.loops = (label, n.label) :: loops) :
    (d.exit n (.branch label)).Owes { o with loops } :=
  of_none rfl ((h.sound_open ho).close_loop rfl loop)

/-- A node that is left without an exit is held. -/
theorem hold (h : d.Owes o) (ho : d.open? = some n) :
    Owes { o with held := d.done.length :: o.held } { d with done := d.nodes, open? := none } := by
  refine of_none rfl ?_
  have := h.sound_open ho
  rwa [← nodes_of_open ho] at this

/-- A node that is just opened is no loop header. -/
theorem enter_notHeader (h : d.Owes o) (ho : d.open? = none) {l : Id} (due : l ∈ o.pending) :
    l ∈ (d.enter l).nodes.map Node.label ∧ Looped.NotHeader (d.enter l).nodes l := by
  rw [nodes_of_open (d := d.enter l) rfl]
  refine ⟨List.mem_map_of_mem (List.mem_append_right _ List.mem_cons_self), fun n hn same => ?_⟩
  rcases List.mem_append.1 hn with hn | hn
  · exact (h.sound_none ho).notHeader_of_pending due n hn same
  · rw [List.mem_singleton.1 hn]
    rfl

/-- Labels that are due are not those of cases. -/
theorem not_case (h : d.Owes o) {l : Id} (hl : l ∈ o.pending) : l ∉ o.cases := by
  intro case_
  have distinct := List.nodup_append.1 h.placed.distinct
  exact distinct.2.2 l (h.placed.cases l case_) l hl rfl

/-- Going back to the header of a switch to end it. -/
theorem closeHeader (h : d.Owes o) (ho : d.open? = none) (leave : Exit) {i : Nat}
    {rest : List Nat} {l : Id} {promised : List Id} (due : o.held = i :: rest)
    (merge : o.promised = l :: promised)
    (pending : l ∈ o.pending) (targets : ∀ l ∈ leave.targets, l ∈ o.pending ∨ l ∈ o.cases) :
    Owes { o with held := rest, promised }
      { d with done := d.done.modify i fun n => (n.announce (.selection l)).exit leave } := by
  have sound := h.sound_none ho
  obtain ⟨n, at_, _⟩ := sound.placed.kept i (due ▸ List.mem_cons_self)
  exact of_none ho (sound.close_selection due at_ merge pending targets)

/-- The case labels may change to others that are placed and no loop headers. -/
theorem recase (h : d.Owes o) {cases_ : List Id}
    (known : ∀ l ∈ cases_, l ∈ o.cases ∨
      l ∈ d.nodes.map Node.label ∧ Looped.NotHeader d.nodes l) :
    d.Owes { o with cases := cases_ } :=
  Sound.recase h known

theorem fewerCases (h : d.Owes o) {cases_ : List Id} (fewer : cases_ ⊆ o.cases) :
    d.Owes { o with cases := cases_ } :=
  h.recase fun _ hl => .inl (fewer hl)

end Owes

end Draft

/-- The labels of blocks that a switch may still jump to. -/
def Switch.labels (s : Switch) : List Id :=
  s.cases.map SwitchCase.label ++ s.defaultLabel?.toList ++ s.currentLabel?.toList

/-- What a body owes for an open construct, on top of what it owes for those around it. -/
def Construct.owes : Construct → Obligations → Obligations
  | .branch elseLabel endLabel hadElse, o =>
    { o with pending := (if hadElse then [endLabel] else [elseLabel, endLabel]) ++ o.pending }
  | .loop headerLabel continueLabel breakLabel, o =>
    { o with
      pending := continueLabel :: breakLabel :: o.pending
      loops := (headerLabel, continueLabel) :: o.loops }
  | .switch s, o =>
    { o with
      pending := s.breakLabel :: o.pending
      promised := s.breakLabel :: o.promised
      held := s.header :: o.held
      cases := s.labels ++ o.cases }

def obligations (constructs : List Construct) : Obligations :=
  constructs.foldr Construct.owes .nothing

theorem break_pending {constructs : List Construct} {label : Id}
    (h : Lower.breakTarget? constructs = some label) :
      label ∈ (obligations constructs).pending := by
  induction constructs with
  | nil => cases h
  | cons c rest ih =>
    cases c with
    | branch elseLabel endLabel hadElse => exact List.mem_append_right _ (ih h)
    | loop headerLabel continueLabel breakLabel =>
      cases h
      exact List.mem_cons_of_mem _ List.mem_cons_self
    | switch s =>
      cases h
      exact List.mem_cons_self

theorem continue_pending {constructs : List Construct} {label : Id}
    (h : Lower.continueTarget? constructs = some label) :
    label ∈ (obligations constructs).pending := by
  induction constructs with
  | nil => cases h
  | cons c rest ih =>
    cases c with
    | branch elseLabel endLabel hadElse => exact List.mem_append_right _ (ih h)
    | loop headerLabel continueLabel breakLabel =>
      cases h
      exact List.mem_cons_self
    | switch s => exact List.mem_cons_of_mem _ (ih h)

namespace Draft

/-- A draft that owes what its constructs say. -/
def IsSound (d : Draft) : Prop :=
  d.Owes (obligations d.constructs)

variable {d e : Draft}

theorem IsSound.jump {leave : Exit} (h : d.IsSound)
    (targets : ∀ l ∈ leave.targets, l ∈ (obligations d.constructs).pending)
    (he : d.jump? leave = some e) : e.IsSound := by
  obtain ⟨n, ho, rfl⟩ := Option.map_eq_some_iff.1 he
  have left := h.exit ho leave fun l hl => .inl (targets l hl)
  have taken := left.take 1 [] (fun _ hl => absurd hl List.not_mem_nil) List.nodup_nil
  exact taken.enter rfl rfl

theorem IsSound.jumpOn {condition : Id} {leave : Exit} (h : d.IsSound)
    (targets : ∀ l ∈ leave.targets, l ∈ (obligations d.constructs).pending)
    (he : d.jumpOn? condition leave = some e) : e.IsSound := by
  obtain ⟨n, ho, rfl⟩ := Option.map_eq_some_iff.1 he
  have taken := h.take 2 [d.next + 1] (by simp [List.range']) (List.nodup_singleton _)
  have tested := taken.exit_selection ho (.test condition d.next (d.next + 1)) rfl
    (List.mem_cons_of_mem _ List.mem_cons_self) (by simp [Exit.targets, List.range'])
  have entered := tested.enter rfl (l := d.next) rfl
  have left := entered.exit rfl leave fun l hl => .inl (List.mem_cons_of_mem _ (targets l hl))
  exact left.enter rfl rfl

theorem IsSound.openIf {condition : Id} (h : d.IsSound) (he : d.openIf? condition = some e) :
    e.IsSound := by
  obtain ⟨n, ho, rfl⟩ := Option.map_eq_some_iff.1 he
  have taken := h.take 3 [d.next + 2] (by simp [List.range']) (List.nodup_singleton _)
  have tested := taken.exit_selection ho (.test condition d.next (d.next + 1)) rfl
    (by simp [List.range']) (by simp [Exit.targets, List.range'])
  exact tested.enter rfl (l := d.next) rfl

theorem IsSound.else (h : d.IsSound) (he : d.else? = some e) : e.IsSound := by
  unfold Draft.else? at he
  split at he
  · next elseLabel endLabel rest n hc ho =>
    cases he
    unfold IsSound at h
    rw [hc] at h
    have left := h.exit ho (.branch endLabel) fun l hl => .inl ?_
    · exact left.enter rfl (l := elseLabel) rfl
    · rw [List.mem_singleton.1 hl]
      exact List.mem_cons_of_mem _ List.mem_cons_self
  · cases he

theorem IsSound.endIf (h : d.IsSound) (he : d.endIf? = some e) : e.IsSound := by
  unfold Draft.endIf? at he
  split at he
  · next elseLabel endLabel hadElse rest n hc ho =>
    cases he
    unfold IsSound at h
    rw [hc] at h
    cases hadElse with
    | true =>
      have left := h.exit ho (.branch endLabel) fun l hl => .inl ?_
      · exact left.enter rfl (l := endLabel) rfl
      · rw [List.mem_singleton.1 hl]
        exact List.mem_cons_self
    | false =>
      have left := h.exit ho (.branch endLabel) fun l hl => .inl ?_
      · have entered := left.enter rfl (l := elseLabel) rfl
        have both := entered.exit rfl (.branch endLabel) fun l hl => .inl ?_
        · exact both.enter rfl (l := endLabel) rfl
        · rw [List.mem_singleton.1 hl]
          exact List.mem_cons_self
      · rw [List.mem_singleton.1 hl]
        exact List.mem_cons_of_mem _ List.mem_cons_self
  · cases he

theorem IsSound.loop (h : d.IsSound) (he : d.loop? = some e) : e.IsSound := by
  obtain ⟨n, ho, rfl⟩ := Option.map_eq_some_iff.1 he
  have taken := h.take 4 [d.next + 3] (by simp [List.range']) (List.nodup_singleton _)
  have notCase := taken.not_case (l := d.next) List.mem_cons_self
  have left := taken.exit ho (.branch d.next) (by simp [Exit.targets, List.range'])
  have header := left.enter rfl (l := d.next) rfl
  have announced := header.exit_header rfl (.branch (d.next + 1)) (b := d.next + 3)
    (c := d.next + 2) rfl (by simp [List.range']) notCase (by simp [Exit.targets, List.range'])
  exact announced.enter rfl (l := d.next + 1) rfl

theorem IsSound.endLoop (h : d.IsSound) (he : d.endLoop? = some e) : e.IsSound := by
  unfold Draft.endLoop? at he
  split at he
  · next headerLabel continueLabel breakLabel rest n hc ho =>
    cases he
    unfold IsSound at h
    rw [hc] at h
    have left := h.exit ho (.branch continueLabel) fun l hl => .inl ?_
    · have entered := left.enter rfl (l := continueLabel) rfl
      have repeated := entered.exit_loop rfl headerLabel rfl
      exact repeated.enter rfl (l := breakLabel) rfl
    · rw [List.mem_singleton.1 hl]
      exact List.mem_cons_self
  · cases he

theorem IsSound.openSwitch {selector : Id} (h : d.IsSound)
    (he : d.openSwitch? selector = some e) : e.IsSound := by
  obtain ⟨n, ho, rfl⟩ := Option.map_eq_some_iff.1 he
  have taken := h.take 2 [d.next + 1] (by simp [List.range']) (List.nodup_singleton _)
  have left := taken.exit ho (.branch d.next) (by simp [Exit.targets, List.range'])
  have header := left.enter rfl (l := d.next) rfl
  exact header.hold rfl

/-- In front of a case the open node ends, and nothing else changes. -/
theorem Owes.closeCase {o : Obligations} (h : d.Owes o) (label : Id)
    (pending : label ∈ o.pending) : (d.closeCase label).Owes o := by
  unfold Draft.closeCase
  split
  · next n ho =>
    refine h.exit ho _ fun l hl => .inl ?_
    split at hl
    · exact absurd hl List.not_mem_nil
    · rwa [List.mem_singleton.1 hl]
  · exact h

theorem IsSound.caseLabel {label : Id} (h : d.IsSound) (he : d.caseLabel? = some (label, e)) :
    e.IsSound ∧ ∃ s rest, e.constructs = .switch s :: rest ∧ s.currentLabel? = some label := by
  unfold Draft.caseLabel? at he
  split at he
  · next s rest hc =>
    split at he
    · next current _ hl =>
      cases he
      exact ⟨h, s, rest, hc, hl⟩
    · cases he
      refine ⟨?_, _, rest, rfl, rfl⟩
      unfold IsSound at h
      rw [hc] at h
      have taken := h.take 1 [] (fun _ hl => absurd hl List.not_mem_nil) List.nodup_nil
      have closed := taken.closeCase d.next List.mem_cons_self
      have none_ := open?_closeCase d.next (d.take 1)
      refine (closed.enter none_ rfl).recase fun l hl => ?_
      rcases List.mem_append.1 hl with hl | hl
      · rcases List.mem_append.1 hl with hl | hl
        · exact .inl (List.mem_append_left _ (List.mem_append_left _ hl))
        · rw [List.mem_singleton.1 hl]
          exact .inr (closed.enter_notHeader none_ List.mem_cons_self)
      · exact .inl (List.mem_append_right _ hl)
  · cases he

/-- A switch whose new labels are old ones. -/
theorem IsSound.modifySwitch {f : Switch → Switch} {s : Switch} {rest : List Construct}
    (h : d.IsSound) (hc : d.constructs = .switch s :: rest) (header : (f s).header = s.header)
    (break_ : (f s).breakLabel = s.breakLabel) (labels : ∀ l ∈ (f s).labels, l ∈ s.labels) :
    (d.modifySwitch f).IsSound := by
  unfold Draft.modifySwitch
  rw [hc]
  unfold IsSound at h ⊢
  rw [hc] at h
  dsimp only
  change Owes (Construct.owes (.switch (f s)) (obligations rest)) _
  rw [Construct.owes, header, break_]
  refine Owes.recase h fun l hl => .inl ?_
  rcases List.mem_append.1 hl with hl | hl
  · exact List.mem_append_left _ (labels l hl)
  · exact List.mem_append_right _ hl

theorem mem_labels_of_current {s : Switch} {label : Id} (h : s.currentLabel? = some label) :
    label ∈ s.labels := by
  rw [Switch.labels, h]
  exact List.mem_append_right _ List.mem_cons_self

/-- A switch may add the label of its open case to its labels. -/
theorem IsSound.addLabel {f : Id → Switch → Switch} (h : d.IsSound)
    (he : d.addLabel? f = some e) (header : ∀ l s, (f l s).header = s.header)
    (break_ : ∀ l s, (f l s).breakLabel = s.breakLabel)
    (labels : ∀ l s, s.currentLabel? = some l → ∀ k ∈ (f l s).labels, k ∈ s.labels) :
    e.IsSound := by
  obtain ⟨⟨label, f⟩, hl, rfl⟩ := Option.map_eq_some_iff.1 he
  obtain ⟨sound, s, rest, hc, current⟩ := h.caseLabel hl
  exact sound.modifySwitch hc (header label s) (break_ label s) (labels label s current)

theorem IsSound.case {literal : UInt32} (h : d.IsSound) (he : d.case? literal = some e) :
    e.IsSound := by
  refine h.addLabel he (fun l s => ?_) (fun l s => ?_) (fun l s current => ?_)
  all_goals rw [Lower.Switch.addCase]
  all_goals split
  · rfl
  · rfl
  · rfl
  · rfl
  · exact fun k hk => hk
  · intro k hk
    simp only [Switch.labels, List.map_append, List.map_cons, List.map_nil, List.mem_append,
      List.mem_singleton] at hk
    rcases hk with ((hk | rfl) | hk) | hk
    · exact List.mem_append_left _ (List.mem_append_left _ hk)
    · exact mem_labels_of_current current
    · exact List.mem_append_left _ (List.mem_append_right _ hk)
    · exact List.mem_append_right _ hk

theorem IsSound.default (h : d.IsSound) (he : d.default? = some e) : e.IsSound := by
  refine h.addLabel he (fun _ _ => rfl) (fun _ _ => rfl) fun l s current k hk => ?_
  simp only [Switch.labels, List.mem_append, Option.toList_some, List.mem_singleton] at hk
  rcases hk with (hk | rfl) | hk
  · exact List.mem_append_left _ (List.mem_append_left _ hk)
  · exact mem_labels_of_current current
  · exact List.mem_append_right _ hk

/-- The exit of a switch goes behind it or to its cases. -/
theorem switchExit_targets {s : Switch} {l : Id} (hl : l ∈ (switchExit s).targets) :
    l = s.breakLabel ∨ l ∈ s.labels := by
  rcases List.mem_cons.1 hl with hl | hl
  · cases default_ : s.defaultLabel? with
    | none =>
      rw [default_] at hl
      exact .inl hl
    | some label =>
      rw [default_] at hl
      rw [hl, Switch.labels, default_]
      exact .inr (List.mem_append_left _ (List.mem_append_right _ List.mem_cons_self))
  · rw [List.map_map] at hl
    exact .inr (List.mem_append_left _ (List.mem_append_left _ hl))

theorem IsSound.endSwitch (h : d.IsSound) (he : d.endSwitch? = some e) : e.IsSound := by
  unfold Draft.endSwitch? at he
  split at he
  · next s rest hc =>
    dsimp only at he
    split at he
    · cases he
      unfold IsSound at h
      rw [hc] at h
      let d' : Draft := { d with constructs := rest }
      have owed : d'.Owes _ := h
      have closed := owed.closeCase s.breakLabel List.mem_cons_self
      have none_ := open?_closeCase s.breakLabel d'
      have ended := closed.closeHeader none_ (switchExit s) (i := s.header) rfl
        (l := s.breakLabel) rfl List.mem_cons_self fun l hl => ?_
      · have entered := ended.enter none_ (l := s.breakLabel) rfl
        have fewer : (obligations rest).cases ⊆ s.labels ++ (obligations rest).cases :=
          List.subset_append_right _ _
        have around : (d'.closeCase s.breakLabel).constructs = rest := constructs_closeCase _ _
        change Owes (obligations (d'.closeCase s.breakLabel).constructs) _
        rw [around]
        exact entered.fewerCases fewer
      · rcases switchExit_targets hl with rfl | hl
        · exact .inl List.mem_cons_self
        · exact .inr (List.mem_append_left _ hl)
    · cases he
  · cases he

/-- Jumps go to labels that are still to be placed. -/
theorem leave_pending {constructs : List Construct} {op : Opcode} {leave : Exit}
    (h : leave? constructs op = some leave) :
    ∀ l ∈ leave.targets, l ∈ (obligations constructs).pending := by
  unfold leave? at h
  intro l hl
  split at h
  · obtain ⟨label, target, rfl⟩ := Option.map_eq_some_iff.1 h
    rw [List.mem_singleton.1 hl]
    exact break_pending target
  · obtain ⟨label, target, rfl⟩ := Option.map_eq_some_iff.1 h
    rw [List.mem_singleton.1 hl]
    exact break_pending target
  · obtain ⟨label, target, rfl⟩ := Option.map_eq_some_iff.1 h
    rw [List.mem_singleton.1 hl]
    exact continue_pending target
  · obtain ⟨label, target, rfl⟩ := Option.map_eq_some_iff.1 h
    rw [List.mem_singleton.1 hl]
    exact continue_pending target
  all_goals cases h
  all_goals exact absurd hl List.not_mem_nil

/-- Control-flow instructions keep a body sound. -/
theorem IsSound.control {inst : Instruction} {id : Id} (h : d.IsSound)
    (he : d.control? inst id = some e) : e.IsSound := by
  cases directs_of_control he with
  | openIf _ he => exact h.openIf he
  | «else» _ he => exact h.else he
  | endIf _ he => exact h.endIf he
  | loop _ he => exact h.loop he
  | endLoop _ he => exact h.endLoop he
  | openSwitch _ he => exact h.openSwitch he
  | case _ he => exact h.case he
  | default _ he => exact h.default he
  | endSwitch _ he => exact h.endSwitch he
  | jump _ _ leaves he => exact h.jump (leave_pending leaves) he
  | jumpOn _ _ leaves he => exact h.jumpOn (leave_pending leaves) he

theorem Writes.constructs (w : d.Writes e) : e.constructs = d.constructs := by
  obtain ⟨_, _, _, _, _, _, rfl⟩ := w
  rfl

theorem IsSound.writes (h : d.IsSound) (w : d.Writes e) : e.IsSound := by
  unfold IsSound
  rw [w.constructs]
  exact Owes.writes h w

/-- Lowering an instruction inside a body keeps the body sound. -/
theorem IsSound.lowers {inst : Instruction} (h : d.IsSound) (he : d.Lowers inst e) :
    e.IsSound := by
  cases he with
  | ordinary _ writes =>
    have sound := h.writes writes
    exact sound
  | control _ writes _ directed =>
    have sound := (h.writes writes).control directed
    exact sound

end Draft

end ShaderLowering
