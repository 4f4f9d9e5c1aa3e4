import ShaderLowering.Proofs.Control.Passages

/-!
The divisions of a construct, as the lowering passes them. Every division opens a block, and the
end of a construct leaves behind what its label needs: the way around a missing `else`, the way
back of a loop, and the exit of the header of a switch.
-/

namespace ShaderLowering

open Spirv (Id Instr Node Exit)

namespace Construct

/-- Where control goes on behind a construct. -/
def endLabel : Construct → Id
  | .branch _ endLabel _ => endLabel
  | .loop _ _ breakLabel => breakLabel
  | .switch s => s.breakLabel

/-- What the end of a construct leaves behind. -/
def Closed (b : Body) : Construct → Prop
  | .branch elseLabel endLabel false => b.Forwards elseLabel endLabel
  | .branch _ _ true => True
  | .loop headerLabel continueLabel _ => b.Forwards continueLabel headerLabel
  | .switch s => ∀ oracle asked, b.step oracle ⟨s.header, [], asked⟩ =
      b.goto (asked + 1) (Exit.select (s.defaultLabel?.getD s.breakLabel)
        (s.cases.map fun c => (c.literal, c.label)) (oracle asked))

end Construct

namespace Spirv.Node

theorem exit?_exit (n : Node) (leave : Exit) : (n.exit leave).exit? = some leave := by
  unfold Node.exit
  split <;> rfl

end Spirv.Node

/-- The divisions of a construct, given as it is in front of them, and the constructs around it. -/
inductive Divided (b : Body) (f : Draft) (all : List Mark) :
    Construct → List Construct → List (Instruction × List Instruction) → Prop
  | closes {inst : Instruction} {rest : List Instruction} {c : Construct} {around : List Construct}
    {d : Draft} (op : inst.closes = true) (stack : d.constructs = around)
    (enters : Enters f all c.endLabel rest d) (closed : c.Closed b) :
    Divided b f all c around [(inst, rest)]
  | otherwise {inst : Instruction} {rest : List Instruction} {elseLabel endLabel : Id}
    {around : List Construct} {more : List (Instruction × List Instruction)} {d : Draft}
    (op : inst.control? = some .elseOp)
    (stack : d.constructs = .branch elseLabel endLabel true :: around)
    (enters : Enters f all elseLabel rest d)
    (later : Divided b f all (.branch elseLabel endLabel true) around more) :
    Divided b f all (.branch elseLabel endLabel false) around ((inst, rest) :: more)
  | case {inst : Instruction} {rest : List Instruction} {s : Switch} {label : Id}
    {around : List Construct} {more : List (Instruction × List Instruction)} {d : Draft}
    (op : inst.control? = some .caseOp)
    (stack : d.constructs = .switch (Lower.Switch.addCase { s with currentLabel? := some label }
      inst.caseLiteral label) :: around)
    (enters : Enters f all label rest d)
    (later : Divided b f all (.switch (Lower.Switch.addCase { s with currentLabel? := some label }
      inst.caseLiteral label)) around more) :
    Divided b f all (.switch s) around ((inst, rest) :: more)
  | default {inst : Instruction} {rest : List Instruction} {s : Switch} {label : Id}
    {around : List Construct} {more : List (Instruction × List Instruction)} {d : Draft}
    (op : inst.control? = some .defaultOp)
    (stack : d.constructs =
      .switch { s with currentLabel? := some label, defaultLabel? := some label } :: around)
    (enters : Enters f all label rest d)
    (later : Divided b f all
      (.switch { s with currentLabel? := some label, defaultLabel? := some label }) around more) :
    Divided b f all (.switch s) around ((inst, rest) :: more)

variable {b : Body} {f d e : Draft} {all past todo : List Mark} {inst : Instruction}
  {insts rest : List Instruction} {id : Id}

theorem getElem?_second {α : Type} (xs : List α) (x y : α) :
    (xs ++ [x] ++ [y])[xs.length + 1]? = some y := by
  simp

namespace Crossing

/-- The opcode of an instruction at a crossing. -/
theorem op_eq (h : Crossing f all inst rest id d e past todo) : inst.control? = inst.op? :=
  if_pos h.family

theorem any_eq (h : Crossing f all inst rest id d e past todo) {op : Opcode}
    (is : inst.op? = some op) (p : Opcode → Bool) : inst.control?.any p = p op := by
  rw [h.op_eq, is, Option.any_some]

/-- What ends a construct. -/
theorem closes (h : Crossing f all inst rest id d e past todo) (real : b.Realizes f all)
    (op : inst.closes = true) {c : Construct} (stack : d.constructs = c :: e.constructs) :
    Enters f all c.endLabel rest { e with last? := inst.op? } ∧ c.Closed b := by
  have closing {o : Opcode} (is : inst.op? = some o) : o.closes = true :=
    (h.any_eq is Opcode.closes).symm.trans op
  cases h.directs with
  | openIf is | «else» is | loop is | openSwitch is | case is | default is =>
    have := closing is
    cases this
  | jump is isJump =>
    have := (Draft.plain_of_isJump isJump).2.1.symm.trans (closing is)
    cases this
  | jumpOn is isJump =>
    have := (Draft.plain_of_isJumpOn isJump).2.1.symm.trans (closing is)
    cases this
  | endIf is he =>
    unfold Draft.endIf? at he
    split at he
    · next elseLabel endLabel hadElse outer n hc ho =>
      have live : Lower.isJump inst.op? = false := by rw [is]; rfl
      cases he
      cases hadElse with
      | true =>
        cases hc.symm.trans stack
        exact ⟨h.enters rfl live, trivial⟩
      | false =>
        cases hc.symm.trans stack
        refine ⟨h.enters rfl live, ?_⟩
        refine h.forwards real (j := d.done.length + 1) ?_ ?_ (Node.exit?_exit (.start elseLabel) _)
        · rw [Draft.nodes_of_open ho, List.length_append]
          exact Nat.le_refl _
        · exact getElem?_second _ _ _
    · cases he
  | endLoop is he =>
    unfold Draft.endLoop? at he
    split at he
    · next headerLabel continueLabel breakLabel outer n hc ho =>
      have live : Lower.isJump inst.op? = false := by rw [is]; rfl
      cases he
      cases hc.symm.trans stack
      refine ⟨h.enters rfl live, ?_⟩
      refine h.forwards real (j := d.done.length + 1) ?_ ?_
        (Node.exit?_exit (.start continueLabel) _)
      · rw [Draft.nodes_of_open ho, List.length_append]
        exact Nat.le_refl _
      · exact getElem?_second _ _ _
    · cases he
  | endSwitch is he =>
    have live : Lower.isJump inst.op? = false := by rw [is]; rfl
    obtain ⟨s, outer, header, hc, at_, opened, rfl⟩ := h.sound.endSwitch_eq he
    cases (List.cons.inj (hc.symm.trans stack)).1
    refine ⟨h.enters rfl live, fun oracle asked => ?_⟩
    have ended : (({ d with constructs := outer }.closeCase s.breakLabel).done.modify s.header
        fun n => (n.announce (.selection s.breakLabel)).exit (Draft.switchExit s))[s.header]? =
          some ((header.announce (.selection s.breakLabel)).exit (Draft.switchExit s)) := by
      rw [List.getElem?_modify, at_]
      exact congrArg some (if_pos rfl)
    exact h.step_exit real ended (Node.exit?_exit _ _) oracle asked

/-- What divides one, if the divisions behind it are known. -/
theorem divides (h : Crossing f all inst rest id d e past todo) (op : inst.divides = true)
    {c c' : Construct} {around : List Construct} {more : List (Instruction × List Instruction)}
    (before : d.constructs = c :: around) (after : e.constructs = c' :: around)
    (later : Divided b f all c' around more) : Divided b f all c around ((inst, rest) :: more) := by
  have dividing {o : Opcode} (is : inst.op? = some o) : o.divides = true :=
    (h.any_eq is Opcode.divides).symm.trans op
  cases h.directs with
  | openIf is | endIf is | loop is | openSwitch is | endLoop is | endSwitch is =>
    have := dividing is
    cases this
  | jump is isJump =>
    have := (Draft.plain_of_isJump isJump).2.2.symm.trans (dividing is)
    cases this
  | jumpOn is isJump =>
    have := (Draft.plain_of_isJumpOn isJump).2.2.symm.trans (dividing is)
    cases this
  | «else» is he =>
    unfold Draft.else? at he
    split at he
    · next elseLabel endLabel outer n hc ho =>
      cases he
      cases hc.symm.trans before
      cases after
      exact .otherwise (h.op_eq.trans is) rfl (h.enters rfl (by rw [is]; rfl)) later
    · cases he
  | case is he =>
    obtain ⟨s, outer, hc, ⟨label, behind, current, rfl⟩ | rfl⟩ := Draft.addLabel_eq he
    · cases hc.symm.trans before
      cases after
      have same : { s with currentLabel? := some label } = s := by rw [← current]
      obtain ⟨s', outer', n, hc', ho, hl⟩ := h.labelled behind
      cases hc.symm.trans hc'
      have label_ : n.label = label := Option.some.inj (hl.symm.trans current)
      have enters : Enters f all label rest _ := label_ ▸ h.enters ho (by rw [is]; rfl)
      refine .case (h.op_eq.trans is) ?_ enters ?_
      · rw [same]
      · rw [same]
        exact later
    · cases hc.symm.trans before
      cases after
      exact .case (h.op_eq.trans is) rfl (h.enters rfl (by rw [is]; rfl)) later
  | default is he =>
    obtain ⟨s, outer, hc, ⟨label, behind, current, rfl⟩ | rfl⟩ := Draft.addLabel_eq he
    · cases hc.symm.trans before
      cases after
      have same : { s with currentLabel? := some label, defaultLabel? := some label } =
          { s with defaultLabel? := some label } := by rw [← current]
      obtain ⟨s', outer', n, hc', ho, hl⟩ := h.labelled behind
      cases hc.symm.trans hc'
      have label_ : n.label = label := Option.some.inj (hl.symm.trans current)
      have enters : Enters f all label rest _ := label_ ▸ h.enters ho (by rw [is]; rfl)
      refine .default (h.op_eq.trans is) ?_ enters ?_
      · rw [same]
      · rw [same]
        exact later
    · cases hc.symm.trans before
      cases after
      exact .default (h.op_eq.trans is) rfl (h.enters rfl (by rw [is]; rfl)) later

end Crossing

/-- The divisions of an open construct are found by counting. -/
theorem Point.divided (h : Point f all d insts past todo) (real : b.Realizes f all)
    {inner : List Construct} {c : Construct} {around : List Construct}
    (stack : d.constructs = inner ++ c :: around) :
    Divided b f all c around (divisions inner.length insts) := by
  induction insts generalizing d past todo inner c with
  | nil =>
    cases h.runs
    rw [real.constructs] at stack
    exact absurd (congrArg List.length stack) (by simp)
  | cons inst rest ih =>
    by_cases family : inst.family = .controlFlow
    · obtain ⟨id, e, g, writes, crossing⟩ := h.cross family
      rw [← writes.constructs] at stack
      cases crossing.sound.reshapes_directs family crossing.directs with
      | opens op x pushed =>
        rw [divisions_opens op]
        have stack : g.constructs = (x :: inner) ++ c :: around :=
          pushed.trans (congrArg _ stack)
        exact ih crossing.after stack
      | closes opens op x popped =>
        cases inner with
        | nil =>
          rw [List.length_nil, divisions_closes opens op]
          obtain ⟨rfl, around_⟩ := List.cons.inj (popped.symm.trans stack)
          obtain ⟨enters, closed⟩ := crossing.closes real op popped
          exact .closes (d := { g with last? := inst.op? }) op around_ enters closed
        | cons y inner =>
          rw [List.length_cons, divisions_closes_inner opens op]
          obtain ⟨rfl, around_⟩ := List.cons.inj (popped.symm.trans stack)
          exact ih crossing.after around_
      | divides opens closes op x x' outer before after =>
        cases inner with
        | nil =>
          rw [List.length_nil, divisions_divides opens closes op]
          obtain ⟨rfl, rfl⟩ := List.cons.inj (before.symm.trans stack)
          have stack : g.constructs = [] ++ x' :: outer := after
          exact crossing.divides op before after (ih crossing.after stack)
        | cons y inner =>
          rw [List.length_cons, divisions_divides_inner opens closes]
          obtain ⟨rfl, rfl⟩ := List.cons.inj (before.symm.trans stack)
          have stack : g.constructs = (x' :: inner) ++ c :: around := after
          exact ih crossing.after stack
      | keeps opens closes divides same =>
        rw [divisions_other opens closes divides]
        exact ih crossing.after (same.trans stack)
    · obtain ⟨e, todo', writes, _, _, after⟩ := h.event family
      have control : inst.control? = none := if_neg family
      have none_ (p : Opcode → Bool) : inst.control?.any p = false := by
        rw [control, Option.any_none]
      rw [divisions_other (none_ _) (none_ _) (none_ _)]
      exact ih after (writes.constructs.trans stack)

/-- The construct around is the innermost one. -/
theorem Point.divided_innermost (h : Point f all d insts past todo) (real : b.Realizes f all)
    {c : Construct} {around : List Construct} (stack : d.constructs = c :: around) :
    Divided b f all c around (divisions 0 insts) :=
  h.divided real (show d.constructs = [] ++ c :: around from stack)

namespace Switch

variable (s : Switch) (literal : UInt32) (label : Id)

theorem header_addCase : (Lower.Switch.addCase s literal label).header = s.header := by
  unfold Lower.Switch.addCase
  split <;> rfl

theorem breakLabel_addCase : (Lower.Switch.addCase s literal label).breakLabel = s.breakLabel := by
  unfold Lower.Switch.addCase
  split <;> rfl

theorem defaultLabel?_addCase :
    (Lower.Switch.addCase s literal label).defaultLabel? = s.defaultLabel? := by
  unfold Lower.Switch.addCase
  split <;> rfl

/-- The label of the case for a word. -/
def caseLabel? (word : UInt32) : Option Id :=
  (s.cases.find? fun c => c.literal = word).map (·.label)

/-- A case that is there comes before one that is added. -/
theorem caseLabel?_addCase (word : UInt32) :
    (Lower.Switch.addCase s literal label).caseLabel? word =
      (s.caseLabel? word).or (if literal = word then some label else none) := by
  unfold Lower.Switch.addCase caseLabel?
  split
  · next taken =>
    split
    · next same =>
      subst same
      have found : (s.cases.find? fun c => decide (c.literal = literal)).isSome = true := by
        rw [List.find?_isSome]
        exact List.any_eq_true.1 taken
      obtain ⟨c, hc⟩ := Option.isSome_iff_exists.1 found
      rw [hc]
      rfl
    · rw [Option.or_none]
  · rw [List.find?_append, Option.map_or]
    congr 1
    by_cases same : literal = word
    · rw [if_pos same, List.find?_cons_of_pos (by simpa using same)]
      rfl
    · rw [if_neg same, List.find?_cons_of_neg (by simpa using same)]
      rfl

/-- Where the header of a switch goes. -/
theorem select_eq (word : UInt32) :
    Exit.select (s.defaultLabel?.getD s.breakLabel)
        (s.cases.map fun c => (c.literal, c.label)) word =
      ((s.caseLabel? word).or s.defaultLabel?).getD s.breakLabel := by
  unfold Exit.select caseLabel?
  rw [List.find?_map, Option.map_map]
  change ((s.cases.find? fun c => decide (c.literal = word)).map (·.label)).getD _ = _
  cases (s.cases.find? fun c => decide (c.literal = word)).map (·.label) with
  | none => rw [Option.none_or]; rfl
  | some l => rfl

end Switch

namespace Divided

variable {c : Construct} {around : List Construct} {ds : List (Instruction × List Instruction)}

theorem ne_nil (h : Divided b f all c around ds) : ds ≠ [] := by
  cases h <;> exact List.cons_ne_nil _ _

/-- The last division is the end, and control goes on behind it. -/
theorem last (h : Divided b f all c around ds) :
    ∃ d : Draft, d.constructs = around ∧
      Enters f all c.endLabel ((ds.getLast?).elim [] (·.2)) d := by
  induction h with
  | closes _ stack enters _ => exact ⟨_, stack, enters⟩
  | otherwise _ _ _ later ih | default _ _ _ later ih =>
    obtain ⟨d, stack, enters⟩ := ih
    refine ⟨d, stack, ?_⟩
    rw [List.getLast?_cons_of_ne_nil later.ne_nil]
    exact enters
  | case _ _ _ later ih =>
    obtain ⟨d, stack, enters⟩ := ih
    refine ⟨d, stack, ?_⟩
    rw [List.getLast?_cons_of_ne_nil later.ne_nil]
    rw [Construct.endLabel, Switch.breakLabel_addCase] at enters
    exact enters

end Divided

/-- What is found under a label in a switch: a block, and behind a division the point at its
beginning; or nothing on either side. -/
def Lands (f : Draft) (all : List Mark) (around : List Construct) (label? : Option Id)
    (division? : Option (Instruction × List Instruction)) : Prop :=
  match label?, division? with
  | some label, some division =>
    ∃ (d : Draft) (t : Switch), d.constructs = .switch t :: around ∧
      Enters f all label division.2 d
  | none, none => True
  | _, _ => False

theorem Lands.or {around : List Construct} {label? label'? : Option Id}
    {division? division'? : Option (Instruction × List Instruction)}
    (h : Lands f all around label? division?) (h' : Lands f all around label'? division'?) :
    Lands f all around (label?.or label'?) (division?.or division'?) := by
  cases label? with
  | none =>
    cases division? with
    | none => exact h'
    | some _ => exact h.elim
  | some _ =>
    cases division? with
    | none => exact h.elim
    | some _ => exact h

/-- A division that has a property lands under its label. -/
theorem Lands.single {around : List Construct} {p : Instruction → Bool} {label : Id} {t : Switch}
    (stack : d.constructs = .switch t :: around) (enters : Enters f all label rest d) :
    Lands f all around (if p inst then some label else none)
      ([(inst, rest)].find? fun division => p division.1) := by
  rw [List.find?_singleton]
  cases p inst with
  | true => exact ⟨d, t, stack, enters⟩
  | false => exact trivial

theorem find?_cons_eq_or {α : Type} (p : α → Bool) (x : α) (xs : List α) :
    (x :: xs).find? p = ([x].find? p).or (xs.find? p) :=
  (List.find?_append : ([x] ++ xs).find? p = _)

/-- What becomes of a switch. Its cases are those in front of the divisions and those among them,
its default is the last. -/
theorem Divided.switch {s : Switch} {around : List Construct}
    {ds : List (Instruction × List Instruction)} (h : Divided b f all (.switch s) around ds) :
    ∃ t : Switch, t.header = s.header ∧ t.breakLabel = s.breakLabel ∧
      (Construct.switch t).Closed b ∧
      (∀ word, ∃ label?, Lands f all around label? (ds.find? (·.1.isCase word)) ∧
        t.caseLabel? word = (s.caseLabel? word).or label?) ∧
      ∃ label?, Lands f all around label? (ds.reverse.find? (·.1.isDefault)) ∧
        t.defaultLabel? = label?.or s.defaultLabel? := by
  generalize hc : Construct.switch s = c at h
  induction h generalizing s with
  | otherwise => cases hc
  | @closes inst rest _ _ _ op _ _ closed =>
    subst hc
    have none_ {o : Opcode} (other : o.closes = false) : inst.control? ≠ some o := by
      intro is
      rw [Instruction.closes, is, Option.any_some, other] at op
      cases op
    have notCase (word : UInt32) : inst.isCase word = false := by
      rw [Instruction.isCase, decide_eq_false (none_ rfl), Bool.false_and]
    have notDefault : inst.isDefault = false := decide_eq_false (none_ rfl)
    refine ⟨s, rfl, rfl, closed, fun word => ⟨none, ?_, ?_⟩, none, ?_, rfl⟩
    · rw [List.find?_cons_of_neg (by simp [notCase])]
      exact trivial
    · rw [Option.or_none]
    · rw [List.reverse_singleton, List.find?_cons_of_neg (by simp [notDefault])]
      exact trivial
  | @case inst rest s' label around more d op stack enters _ ih =>
    cases hc
    obtain ⟨t, header, break_, closed, cases_, default?, lands, default_⟩ := ih rfl
    rw [Switch.header_addCase] at header
    rw [Switch.breakLabel_addCase] at break_
    rw [Switch.defaultLabel?_addCase] at default_
    have notDefault : inst.isDefault = false := by rw [Instruction.isDefault, op]; rfl
    refine ⟨t, header, break_, closed, fun word => ?_, default?, ?_, default_⟩
    · obtain ⟨label?, lands, found⟩ := cases_ word
      have here : Lands f all around _ ([(inst, rest)].find? (·.1.isCase word)) :=
        .single stack enters
      refine ⟨_, (find?_cons_eq_or _ _ more) ▸ here.or lands, ?_⟩
      have same : inst.isCase word = decide (inst.caseLiteral = word) := by
        rw [Instruction.isCase, op]
        rfl
      rw [found, Switch.caseLabel?_addCase, Option.or_assoc, same]
      simp only [decide_eq_true_eq]
      rfl
    · rw [List.reverse_cons, List.find?_append, List.find?_cons_of_neg (by simp [notDefault]),
        List.find?_nil, Option.or_none]
      exact lands
  | @default inst rest s' label around more d op stack enters _ ih =>
    cases hc
    obtain ⟨t, header, break_, closed, cases_, default?, lands, default_⟩ := ih rfl
    have notCase (word : UInt32) : inst.isCase word = false := by
      rw [Instruction.isCase, op]
      rfl
    have isDefault : inst.isDefault = true := by rw [Instruction.isDefault, op]; rfl
    have here : Lands f all around _ ([(inst, rest)].find? (·.1.isDefault)) :=
      .single stack enters
    rw [isDefault, if_pos rfl] at here
    refine ⟨t, header, break_, closed, fun word => ?_, default?.or (some label), ?_, ?_⟩
    · obtain ⟨label?, lands, found⟩ := cases_ word
      refine ⟨label?, ?_, found⟩
      rw [List.find?_cons_of_neg (by simp [notCase])]
      exact lands
    · rw [List.reverse_cons, List.find?_append]
      exact lands.or here
    · rw [default_]
      cases default? <;> rfl

end ShaderLowering
