import ShaderLowering.Proofs.Control.Grammar
import ShaderLowering.Proofs.Lowering.Steps

/-!
The constructs of a draft as a stack of brackets. Directing control does to the constructs what the
machine of the grammar does to its stack, and it is refused where the machine is stuck. Between the
header of a switch and its first label there is no open node; everywhere else there is one.
-/

namespace ShaderLowering

open Spirv (Id Node Exit)

def Construct.bracket : Construct → Bracket
  | .branch _ _ hadElse => if hadElse then .elsePart else .thenPart
  | .loop .. => .loop
  | .switch s => if s.currentLabel?.isSome then .cases else .header

theorem Construct.bracket_switch (s : Switch) :
    (Construct.switch s).bracket = .header ∧ s.currentLabel? = none ∨
      (Construct.switch s).bracket = .cases ∧ ∃ label, s.currentLabel? = some label := by
  cases h : s.currentLabel? with
  | none => exact .inl ⟨by rw [bracket, h]; rfl, rfl⟩
  | some label => exact .inr ⟨by rw [bracket, h]; rfl, label, rfl⟩

namespace Bracket

variable {stack : List Bracket}

theorem isOpen_of_not_mem (h : header ∉ stack) : isOpen stack = true := by
  cases stack with
  | nil => rfl
  | cons b rest =>
    cases b with
    | header => exact absurd List.mem_cons_self h
    | _ => rfl

theorem not_mem_of_isOpen (opened : isOpen stack = true) (inner : header ∉ stack.tail) :
    header ∉ stack := by
  cases stack with
  | nil => exact List.not_mem_nil
  | cons b rest =>
    intro h
    obtain rfl | h := List.mem_cons.1 h
    · cases opened
    · exact inner h

end Bracket

namespace Draft

def brackets (d : Draft) : List Bracket :=
  d.constructs.map Construct.bracket

/-- What holds of every draft between two instructions. -/
structure Regular (d : Draft) : Prop where
  open? : d.open?.isSome = Bracket.isOpen d.brackets
  /-- Only the innermost switch can still be in front of its first label. -/
  inner : .header ∉ d.brackets.tail
  placed : ∀ s, .switch s ∈ d.constructs → s.header < d.done.length

/-- A draft that may be missing, and a stack that is missing with it. -/
inductive Mirrors : Option Draft → Option (List Bracket) → Prop
  | missing : Mirrors none none
  | there {e : Draft} (regular : e.Regular) : Mirrors (some e) (some e.brackets)

variable {d e : Draft} {n : Node} {stack : List Bracket} {c : Construct} {rest : List Construct}

theorem brackets_nil (hc : d.constructs = []) : d.brackets = [] := by
  rw [brackets, hc]
  rfl

theorem brackets_cons (hc : d.constructs = c :: rest) :
    d.brackets = c.bracket :: rest.map Construct.bracket := by
  rw [brackets, hc]
  rfl

theorem Mirrors.of_eq (regular : e.Regular) (same : e.brackets = stack) :
    Mirrors (some e) (some stack) := by
  rw [← same]
  exact .there regular

namespace Regular

theorem exists_open (h : d.Regular) (opened : Bracket.isOpen d.brackets = true) :
    ∃ n, d.open? = some n := by
  rw [← h.open?] at opened
  exact Option.isSome_iff_exists.1 opened

theorem not_header (h : d.Regular) (ho : d.open? = some n) : .header ∉ d.brackets := by
  have opened := h.open?
  rw [ho] at opened
  exact Bracket.not_mem_of_isOpen opened.symm h.inner

/-- A draft with an open node, among constructs that are regular as far as they go. -/
theorem of_open (open? : e.open?.isSome = true) (absent : .header ∉ e.brackets)
    (placed : ∀ s, .switch s ∈ e.constructs → s.header < e.done.length) : e.Regular :=
  ⟨open?.trans (Bracket.isOpen_of_not_mem absent).symm,
    fun mem => absent (List.mem_of_mem_tail mem), placed⟩

/-- Further nodes inside of the same constructs. -/
theorem same (h : d.Regular) (ho : d.open? = some n) (open? : e.open?.isSome = true)
    (longer : d.done.length ≤ e.done.length) (constructs : e.constructs = d.constructs) :
    e.Regular := by
  apply of_open open?
  · rw [brackets, constructs]
    exact h.not_header ho
  · intro s hs
    rw [constructs] at hs
    exact Nat.lt_of_lt_of_le (h.placed s hs) longer

/-- One more construct around the open node. -/
theorem enter (h : d.Regular) (ho : d.open? = some n) (open? : e.open?.isSome = true)
    (longer : d.done.length ≤ e.done.length) (constructs : e.constructs = c :: d.constructs)
    (notHeader : c.bracket ≠ .header) (notSwitch : ∀ s, c ≠ .switch s) : e.Regular := by
  apply of_open open?
  · intro mem
    rw [brackets, constructs] at mem
    obtain same | mem := List.mem_cons.1 mem
    · exact notHeader same.symm
    · exact h.not_header ho mem
  · intro s hs
    rw [constructs] at hs
    obtain same | mem := List.mem_cons.1 hs
    · exact absurd same.symm (notSwitch s)
    · exact Nat.lt_of_lt_of_le (h.placed s mem) longer

/-- An open node behind the innermost construct. -/
theorem leave (h : d.Regular) (hc : d.constructs = c :: rest) (open? : e.open?.isSome = true)
    (longer : d.done.length ≤ e.done.length) (constructs : e.constructs = rest) : e.Regular := by
  have inner := h.inner
  rw [brackets, hc] at inner
  apply of_open open?
  · rw [brackets, constructs]
    exact inner
  · intro s hs
    rw [constructs] at hs
    have mem : .switch s ∈ d.constructs := by
      rw [hc]
      exact List.mem_cons_of_mem _ hs
    exact Nat.lt_of_lt_of_le (h.placed s mem) longer

/-- What needs an open node, and nothing else. -/
theorem mirrors_open (h : d.Regular) {f : Node → Draft}
    (made : ∀ n, d.open? = some n → (f n).Regular) (same : ∀ n, (f n).brackets = stack) :
    Mirrors (d.open?.map f) (if Bracket.isOpen d.brackets then some stack else none) := by
  rw [← h.open?]
  cases ho : d.open? with
  | none => exact .missing
  | some n => exact .of_eq (made n ho) (same n)

/-- What needs a label, and then an open node. -/
theorem mirrors_bind {label? : Option Id} {f : Id → Option Draft} {found : Bool}
    (same : label?.isSome = found) (h : ∀ label, Mirrors (f label)
      (if Bracket.isOpen d.brackets then some stack else none)) :
    Mirrors (label?.bind f)
      (if Bracket.isOpen d.brackets && found then some stack else none) := by
  rw [← same]
  cases label? with
  | none =>
    rw [Option.isSome_none, Bool.and_false]
    exact .missing
  | some label =>
    rw [Option.isSome_some, Bool.and_true]
    exact h label

end Regular

theorem jump_mirrors (h : d.Regular) (leave : Exit) : Mirrors (d.jump? leave)
    (if Bracket.isOpen d.brackets then some d.brackets else none) := by
  apply h.mirrors_open
  · intro n ho
    exact h.same ho rfl (List.prefix_append _ _).length_le rfl
  · exact fun _ => rfl

theorem jumpOn_mirrors (h : d.Regular) (condition : Id) (leave : Exit) :
    Mirrors (d.jumpOn? condition leave)
      (if Bracket.isOpen d.brackets then some d.brackets else none) := by
  apply h.mirrors_open
  · intro n ho
    exact h.same ho rfl ((List.prefix_append _ _).trans (List.prefix_append _ _)).length_le rfl
  · exact fun _ => rfl

theorem openIf_mirrors (h : d.Regular) (condition : Id) : Mirrors (d.openIf? condition)
    (if Bracket.isOpen d.brackets then some (.thenPart :: d.brackets) else none) := by
  apply h.mirrors_open
  · intro n ho
    exact h.enter ho rfl (List.prefix_append _ _).length_le rfl Bracket.noConfusion
      fun _ => Construct.noConfusion
  · exact fun _ => rfl

theorem loop_mirrors (h : d.Regular) : Mirrors d.loop?
    (if Bracket.isOpen d.brackets then some (.loop :: d.brackets) else none) := by
  apply h.mirrors_open
  · intro n ho
    exact h.enter ho rfl ((List.prefix_append _ _).trans (List.prefix_append _ _)).length_le rfl
      Bracket.noConfusion fun _ => Construct.noConfusion
  · exact fun _ => rfl

theorem openSwitch_mirrors (h : d.Regular) (selector : Id) : Mirrors (d.openSwitch? selector)
    (if Bracket.isOpen d.brackets then some (.header :: d.brackets) else none) := by
  apply h.mirrors_open
  · intro n ho
    refine ⟨rfl, h.not_header ho, fun s hs => ?_⟩
    have length : (d.done ++ [n.exit (.branch d.next)] ++ [Node.start d.next]).length =
        d.done.length + 2 := by simp
    apply Nat.lt_of_lt_of_eq _ length.symm
    obtain same | mem := List.mem_cons.1 hs
    · cases same
      change (d.done ++ [n.exit (.branch d.next)]).length < d.done.length + 2
      simp
    · have placed := h.placed s mem
      omega
  · exact fun _ => rfl

theorem else_mirrors (h : d.Regular) : Mirrors d.else? (Bracket.step? d.brackets .elseOp) := by
  unfold else?
  cases hc : d.constructs with
  | nil =>
    rw [brackets_nil hc]
    exact .missing
  | cons c rest =>
    have top := brackets_cons hc
    rw [top]
    cases c with
    | branch elseLabel endLabel hadElse =>
      cases hadElse with
      | true => exact .missing
      | false =>
        obtain ⟨n, ho⟩ := h.exists_open (by rw [top]; rfl)
        rw [ho]
        have inner : .header ∉ rest.map Construct.bracket := by
          have := h.inner
          rwa [top] at this
        apply Mirrors.of_eq
        · apply Regular.of_open rfl
          · intro mem
            obtain same | mem := List.mem_cons.1 mem
            · cases same
            · exact inner mem
          · intro s hs
            obtain same | mem := List.mem_cons.1 hs
            · cases same
            · have placed := h.placed s (by rw [hc]; exact List.mem_cons_of_mem _ mem)
              exact Nat.lt_of_lt_of_le placed (List.prefix_append _ _).length_le
        · rfl
    | loop => exact .missing
    | switch s =>
      obtain ⟨top, _⟩ | ⟨top, _⟩ := Construct.bracket_switch s <;> rw [top] <;> exact .missing

theorem endIf_mirrors (h : d.Regular) : Mirrors d.endIf? (Bracket.step? d.brackets .endIf) := by
  unfold endIf?
  cases hc : d.constructs with
  | nil =>
    rw [brackets_nil hc]
    exact .missing
  | cons c rest =>
    have top := brackets_cons hc
    rw [top]
    cases c with
    | branch elseLabel endLabel hadElse =>
      obtain ⟨n, ho⟩ := h.exists_open (by rw [top]; cases hadElse <;> rfl)
      rw [ho]
      cases hadElse with
      | true =>
        exact .of_eq (h.leave hc rfl (List.prefix_append _ _).length_le rfl) rfl
      | false =>
        exact .of_eq (h.leave hc rfl
          ((List.prefix_append _ _).trans (List.prefix_append _ _)).length_le rfl) rfl
    | loop => exact .missing
    | switch s =>
      obtain ⟨top, _⟩ | ⟨top, _⟩ := Construct.bracket_switch s <;> rw [top] <;> exact .missing

theorem endLoop_mirrors (h : d.Regular) :
    Mirrors d.endLoop? (Bracket.step? d.brackets .endLoop) := by
  unfold endLoop?
  cases hc : d.constructs with
  | nil =>
    rw [brackets_nil hc]
    exact .missing
  | cons c rest =>
    have top := brackets_cons hc
    rw [top]
    cases c with
    | branch elseLabel endLabel hadElse => cases hadElse <;> exact .missing
    | loop headerLabel continueLabel breakLabel =>
      obtain ⟨n, ho⟩ := h.exists_open (by rw [top]; rfl)
      rw [ho]
      exact .of_eq (h.leave hc rfl
        ((List.prefix_append _ _).trans (List.prefix_append _ _)).length_le rfl) rfl
    | switch s =>
      obtain ⟨top, _⟩ | ⟨top, _⟩ := Construct.bracket_switch s <;> rw [top] <;> exact .missing

theorem length_closeCase (d : Draft) (label : Id) :
    d.done.length ≤ (d.closeCase label).done.length := by
  unfold closeCase
  split
  · exact (List.prefix_append _ _).length_le
  · exact Nat.le_refl _

theorem endSwitch_mirrors (h : d.Regular) :
    Mirrors d.endSwitch? (Bracket.step? d.brackets .endSwitch) := by
  unfold endSwitch?
  cases hc : d.constructs with
  | nil =>
    rw [brackets_nil hc]
    exact .missing
  | cons c rest =>
    have top := brackets_cons hc
    rw [top]
    cases c with
    | branch elseLabel endLabel hadElse => cases hadElse <;> exact .missing
    | loop => exact .missing
    | switch s =>
      have longer := length_closeCase { d with constructs := rest } s.breakLabel
      have placed := h.placed s (by rw [hc]; exact List.mem_cons_self)
      have constructs := constructs_closeCase s.breakLabel { d with constructs := rest }
      dsimp only
      rw [if_pos (Nat.lt_of_lt_of_le placed longer)]
      have popped : Bracket.step? ((Construct.switch s).bracket :: rest.map Construct.bracket)
          .endSwitch = some (rest.map Construct.bracket) := by
        obtain ⟨top, _⟩ | ⟨top, _⟩ := Construct.bracket_switch s <;> rw [top] <;> rfl
      rw [popped]
      apply Mirrors.of_eq
      · apply h.leave hc rfl
        · exact Nat.le_trans longer (Nat.le_of_eq (List.length_modify _ _ _).symm)
        · exact constructs
      · exact congrArg (List.map Construct.bracket) constructs

/-- A label makes sure that the switch has one, and that there is an open node behind it. -/
theorem exists_caseLabel {s : Switch} (h : d.Regular) (hc : d.constructs = .switch s :: rest) :
    ∃ label e s', d.caseLabel? = some (label, e) ∧ e.constructs = .switch s' :: rest ∧
      s'.currentLabel?.isSome = true ∧ s'.header = s.header ∧ e.open?.isSome = true ∧
        d.done.length ≤ e.done.length := by
  unfold caseLabel?
  rw [hc]
  dsimp only
  split
  · next label last current =>
    have opened : d.open?.isSome = true := by
      obtain ⟨_, none_⟩ | ⟨top, _⟩ := Construct.bracket_switch s
      · rw [current] at none_
        cases none_
      · rw [h.open?, brackets_cons hc, top]
        rfl
    exact ⟨label, d, s, rfl, hc, Option.isSome_iff_exists.2 ⟨label, current⟩, rfl, opened,
      Nat.le_refl _⟩
  · exact ⟨d.next, _, _, rfl, rfl, rfl, rfl, rfl, length_closeCase (d.take 1) d.next⟩

/-- Labels of cases, which leave the header of the switch and its open label as they are. -/
theorem addLabel_mirrors (h : d.Regular) {op : Opcode} (labels : op.labels = true)
    {f : Id → Switch → Switch} (header : ∀ label s, (f label s).header = s.header)
    (current : ∀ label s, (f label s).currentLabel? = s.currentLabel?) :
    Mirrors (d.addLabel? f) (Bracket.step? d.brackets op) := by
  unfold addLabel?
  cases hc : d.constructs with
  | nil =>
    rw [brackets_nil hc, caseLabel?, hc]
    obtain rfl | rfl := Opcode.eq_of_labels labels <;> exact .missing
  | cons c rest =>
    rw [brackets_cons hc]
    cases c with
    | branch elseLabel endLabel hadElse =>
      rw [caseLabel?, hc]
      obtain rfl | rfl := Opcode.eq_of_labels labels <;> cases hadElse <;> exact .missing
    | loop =>
      rw [caseLabel?, hc]
      obtain rfl | rfl := Opcode.eq_of_labels labels <;> exact .missing
    | switch s =>
      have labelled : Bracket.step?
          ((Construct.switch s).bracket :: rest.map Construct.bracket) op =
          some (.cases :: rest.map Construct.bracket) := by
        have step := Bracket.step_label labels (rest.map Construct.bracket)
        obtain ⟨top, _⟩ | ⟨top, _⟩ := Construct.bracket_switch s
        · rw [top]
          exact step.1
        · rw [top]
          exact step.2
      obtain ⟨label, e, s', found, constructs, some_, same, opened, longer⟩ :=
        exists_caseLabel h hc
      have inner := h.inner
      rw [brackets_cons hc] at inner
      have top : (Construct.switch (f label s')).bracket = .cases := by
        rw [Construct.bracket, current, some_]
        rfl
      have modified : e.modifySwitch (f label) =
          { e with constructs := .switch (f label s') :: rest } := by
        unfold modifySwitch
        rw [constructs]
      rw [labelled, found, Option.map_some]
      dsimp only
      rw [modified]
      apply Mirrors.of_eq
      · refine Regular.of_open opened ?_ ?_
        · intro mem
          obtain same | mem := List.mem_cons.1 mem
          · rw [top] at same
            cases same
          · exact inner mem
        · intro t ht
          obtain same' | mem := List.mem_cons.1 ht
          · cases same'
            rw [header, same]
            have placed := h.placed s (by rw [hc]; exact List.mem_cons_self)
            exact Nat.lt_of_lt_of_le placed longer
          · have placed := h.placed t (by rw [hc]; exact List.mem_cons_of_mem _ mem)
            exact Nat.lt_of_lt_of_le placed longer
      · exact congrArg (· :: rest.map Construct.bracket) top

theorem breakTarget_isSome (constructs : List Construct) :
    (Lower.breakTarget? constructs).isSome =
      (Bracket.scope (constructs.map Construct.bracket)).breaks := by
  induction constructs with
  | nil => rfl
  | cons c rest ih =>
    rw [List.map_cons]
    cases c with
    | branch elseLabel endLabel hadElse => cases hadElse <;> exact ih
    | loop => rfl
    | switch s =>
      obtain ⟨top, _⟩ | ⟨top, _⟩ := Construct.bracket_switch s <;> rw [top] <;> rfl

theorem continueTarget_isSome (constructs : List Construct) :
    (Lower.continueTarget? constructs).isSome =
      (Bracket.scope (constructs.map Construct.bracket)).continues := by
  induction constructs with
  | nil => rfl
  | cons c rest ih =>
    rw [List.map_cons]
    cases c with
    | branch elseLabel endLabel hadElse => cases hadElse <;> exact ih
    | loop => rfl
    | switch s =>
      obtain ⟨top, _⟩ | ⟨top, _⟩ := Construct.bracket_switch s <;> rw [top] <;> exact ih

/-- What a control-flow instruction does to a draft, it does to the stack of brackets. -/
theorem control_mirrors (h : d.Regular) {inst : Instruction} {op : Opcode}
    (known : inst.op? = some op) (id : Id) :
    Mirrors (d.control? inst id) (Bracket.step? d.brackets op) := by
  unfold control?
  rw [known]
  have breaks := breakTarget_isSome d.constructs
  have continues := continueTarget_isSome d.constructs
  have always (e? : Option Draft) {stack : List Bracket}
      (made : Mirrors e? (if Bracket.isOpen d.brackets then some stack else none)) :
      Mirrors e? (if Bracket.isOpen d.brackets && true then some stack else none) := by
    rwa [Bool.and_true]
  cases op
  case ifOp => exact openIf_mirrors h id
  case elseOp => exact else_mirrors h
  case endIf => exact endIf_mirrors h
  case loop => exact loop_mirrors h
  case endLoop => exact endLoop_mirrors h
  case switch => exact openSwitch_mirrors h id
  case caseOp => 
    exact addLabel_mirrors h rfl (fun _ _ => by unfold Lower.Switch.addCase; split <;> rfl)
      (fun _ _ => by unfold Lower.Switch.addCase; split <;> rfl)
  case defaultOp => exact addLabel_mirrors h rfl (fun _ _ => rfl) (fun _ _ => rfl)
  case endSwitch => exact endSwitch_mirrors h
  case breakOp => exact Regular.mirrors_bind breaks fun label => jump_mirrors h _
  case continueOp => exact Regular.mirrors_bind continues fun label => jump_mirrors h _
  case breakIf => exact Regular.mirrors_bind breaks fun label => jumpOn_mirrors h id _
  case continueIf => exact Regular.mirrors_bind continues fun label => jumpOn_mirrors h id _
  case ret => exact always _ (jump_mirrors h .ret)
  case retIf => exact always _ (jumpOn_mirrors h id .ret)
  case discard => exact always _ (jumpOn_mirrors h id .kill)
  all_goals
    change Mirrors none (if Bracket.isOpen d.brackets && false then _ else none)
    rw [Bool.and_false]
    exact .missing

end Draft

end ShaderLowering
