import ShaderLowering.Proofs.Control.Structure

/-!
The structured control-flow language. A grammar says which lists of opcodes are well nested, and a
machine with a stack of open constructs reads them from left to right. The machine empties its stack
on exactly the lists that the grammar derives.
-/

namespace ShaderLowering

/-- Whether an opcode labels a case of a switch. -/
def Opcode.labels : Opcode → Bool
  | .caseOp | .defaultOp => true
  | _ => false

theorem Opcode.eq_of_labels {op : Opcode} (h : op.labels = true) :
    op = .caseOp ∨ op = .defaultOp := by
  unfold labels at h
  split at h
  · exact .inl rfl
  · exact .inr rfl
  · cases h

/-- Which jumps a place in a program may make. -/
structure JumpScope where
  breaks : Bool
  continues : Bool

namespace JumpScope

/-- Outside of all loops and switches. -/
def outermost : JumpScope := ⟨false, false⟩

def inLoop : JumpScope := ⟨true, true⟩

/-- In a switch, a continue still belongs to a loop around it. -/
def inSwitch (s : JumpScope) : JumpScope := { s with breaks := true }

/-- The jumps, each where it has a target. -/
def allows (s : JumpScope) : Opcode → Bool
  | .breakOp | .breakIf => s.breaks
  | .continueOp | .continueIf => s.continues
  | .ret | .retIf | .discard => true
  | _ => false

end JumpScope

/-- What a stretch of a program is. -/
inductive Phrase
  | statement
  | body
  /-- What follows the first label of a switch. -/
  | cases

/-- The grammar. -/
inductive Derives : JumpScope → Phrase → List Opcode → Prop
  | jump {s : JumpScope} {op : Opcode} (allowed : s.allows op = true) : Derives s .statement [op]
  | ifThen {s : JumpScope} {ops : List Opcode} (h : Derives s .body ops) :
    Derives s .statement (.ifOp :: (ops ++ [.endIf]))
  | ifElse {s : JumpScope} {ops others : List Opcode} (h : Derives s .body ops)
    (h' : Derives s .body others) :
    Derives s .statement (.ifOp :: (ops ++ .elseOp :: (others ++ [.endIf])))
  | loop {s : JumpScope} {ops : List Opcode} (h : Derives .inLoop .body ops) :
    Derives s .statement (.loop :: (ops ++ [.endLoop]))
  | emptySwitch {s : JumpScope} : Derives s .statement [.switch, .endSwitch]
  | switch {s : JumpScope} {op : Opcode} {ops : List Opcode} (labels : op.labels = true)
    (h : Derives s.inSwitch .cases ops) :
    Derives s .statement (.switch :: op :: (ops ++ [.endSwitch]))
  | noStatement {s : JumpScope} : Derives s .body []
  | statement {s : JumpScope} {ops rest : List Opcode} (h : Derives s .statement ops)
    (h' : Derives s .body rest) : Derives s .body (ops ++ rest)
  | noCase {s : JumpScope} : Derives s .cases []
  | label {s : JumpScope} {op : Opcode} {rest : List Opcode} (labels : op.labels = true)
    (h : Derives s .cases rest) : Derives s .cases (op :: rest)
  | caseStatement {s : JumpScope} {ops rest : List Opcode} (h : Derives s .statement ops)
    (h' : Derives s .cases rest) : Derives s .cases (ops ++ rest)

/-- An open construct, with the part of it that is being read. -/
inductive Bracket
  | thenPart
  | elsePart
  | loop
  /-- A switch in front of its first label. -/
  | header
  | cases
deriving DecidableEq, Repr

namespace Bracket

/-- The scope inside of a stack of constructs, innermost first. -/
def scope : List Bracket → JumpScope
  | [] => .outermost
  | thenPart :: rest | elsePart :: rest => scope rest
  | loop :: _ => .inLoop
  | header :: rest | cases :: rest => (scope rest).inSwitch

/-- Whether a statement may follow. -/
def isOpen : List Bracket → Bool
  | header :: _ => false
  | _ => true

/-- What reading an opcode does to the stack. -/
def step? (stack : List Bracket) (op : Opcode) : Option (List Bracket) :=
  match op, stack with
  | .elseOp, thenPart :: rest => some (elsePart :: rest)
  | .endIf, thenPart :: rest | .endIf, elsePart :: rest => some rest
  | .endLoop, loop :: rest => some rest
  | .caseOp, header :: rest | .caseOp, cases :: rest => some (cases :: rest)
  | .defaultOp, header :: rest | .defaultOp, cases :: rest => some (cases :: rest)
  | .endSwitch, header :: rest | .endSwitch, cases :: rest => some rest
  | .ifOp, stack => if isOpen stack then some (thenPart :: stack) else none
  | .loop, stack => if isOpen stack then some (loop :: stack) else none
  | .switch, stack => if isOpen stack then some (header :: stack) else none
  | op, stack => if isOpen stack && (scope stack).allows op then some stack else none

/-- What reading a list of opcodes does to the stack. -/
def run? (stack : List Bracket) (ops : List Opcode) : Option (List Bracket) :=
  ops.foldlM step? stack

/-- What one step may do, one case for each way. -/
inductive Reads : Opcode → List Bracket → List Bracket → Prop
  | openIf {stack : List Bracket} (opened : isOpen stack = true) :
    Reads .ifOp stack (thenPart :: stack)
  | else {rest : List Bracket} : Reads .elseOp (thenPart :: rest) (elsePart :: rest)
  | endIf {rest : List Bracket} : Reads .endIf (thenPart :: rest) rest
  | endElse {rest : List Bracket} : Reads .endIf (elsePart :: rest) rest
  | openLoop {stack : List Bracket} (opened : isOpen stack = true) :
    Reads .loop stack (loop :: stack)
  | endLoop {rest : List Bracket} : Reads .endLoop (loop :: rest) rest
  | openSwitch {stack : List Bracket} (opened : isOpen stack = true) :
    Reads .switch stack (header :: stack)
  | firstLabel {rest : List Bracket} {op : Opcode} (labels : op.labels = true) :
    Reads op (header :: rest) (cases :: rest)
  | label {rest : List Bracket} {op : Opcode} (labels : op.labels = true) :
    Reads op (cases :: rest) (cases :: rest)
  | endEmpty {rest : List Bracket} : Reads .endSwitch (header :: rest) rest
  | endSwitch {rest : List Bracket} : Reads .endSwitch (cases :: rest) rest
  | jump {stack : List Bracket} {op : Opcode} (opened : isOpen stack = true)
    (allowed : (scope stack).allows op = true) : Reads op stack stack

theorem reads_of_step {stack next : List Bracket} {op : Opcode} (h : step? stack op = some next) :
    Reads op stack next := by
  unfold step? at h
  split at h
  case h_1 => cases h; exact .else
  case h_2 => cases h; exact .endIf
  case h_3 => cases h; exact .endElse
  case h_4 => cases h; exact .endLoop
  case h_5 | h_7 => cases h; exact .firstLabel rfl
  case h_6 | h_8 => cases h; exact .label rfl
  case h_9 => cases h; exact .endEmpty
  case h_10 => cases h; exact .endSwitch
  case h_11 =>
    obtain ⟨opened, h⟩ := Option.ite_none_right_eq_some.1 h
    cases h
    exact .openIf opened
  case h_12 =>
    obtain ⟨opened, h⟩ := Option.ite_none_right_eq_some.1 h
    cases h
    exact .openLoop opened
  case h_13 =>
    obtain ⟨opened, h⟩ := Option.ite_none_right_eq_some.1 h
    cases h
    exact .openSwitch opened
  case h_14 =>
    obtain ⟨both, h⟩ := Option.ite_none_right_eq_some.1 h
    obtain ⟨opened, allowed⟩ := Bool.and_eq_true_iff.1 both
    cases h
    exact .jump opened allowed

theorem step_jump {stack : List Bracket} {op : Opcode} (opened : isOpen stack = true)
    (allowed : (scope stack).allows op = true) : step? stack op = some stack := by
  have both : (isOpen stack && (scope stack).allows op) = true := by rw [opened, allowed]; rfl
  have jumps := allowed
  unfold JumpScope.allows at jumps
  split at jumps
  case h_8 => cases jumps
  all_goals exact if_pos both

theorem step_label {op : Opcode} (labels : op.labels = true) (rest : List Bracket) :
    step? (header :: rest) op = some (cases :: rest) ∧
      step? (cases :: rest) op = some (cases :: rest) := by
  obtain rfl | rfl := Opcode.eq_of_labels labels <;> exact ⟨rfl, rfl⟩

theorem run_cons (stack : List Bracket) (op : Opcode) (ops : List Opcode) :
    run? stack (op :: ops) = (step? stack op).bind fun next => run? next ops :=
  rfl

theorem run_append (stack : List Bracket) (ops rest : List Opcode) :
    run? stack (ops ++ rest) = (run? stack ops).bind fun next => run? next rest :=
  List.foldlM_append

/-- Reading a phrase and what follows it. -/
theorem run_after {stack next : List Bracket} {ops : List Opcode} (h : run? stack ops = some next)
    (rest : List Opcode) : run? stack (ops ++ rest) = run? next rest := by
  rw [run_append, h]
  rfl

end Bracket

open ShaderLowering.Bracket

/-- Where a phrase may stand. -/
def Phrase.Fits (phrase : Phrase) (stack : List Bracket) : Prop :=
  match phrase with
  | .statement | .body => isOpen stack = true
  | .cases => ∃ rest, stack = .cases :: rest

theorem Phrase.Fits.isOpen {phrase : Phrase} {stack : List Bracket} (h : phrase.Fits stack) :
    isOpen stack = true := by
  cases phrase with
  | statement | body => exact h
  | cases =>
    obtain ⟨rest, rfl⟩ := h
    rfl

/-- The machine reads derivable phrases and comes back to the stack it began with. -/
theorem Derives.run {s : JumpScope} {phrase : Phrase} {ops : List Opcode} (h : Derives s phrase ops)
    {stack : List Bracket} (place : scope stack = s) (fits : phrase.Fits stack) :
    run? stack ops = some stack := by
  have opened := fits.isOpen
  induction h generalizing stack with
  | jump allowed =>
    rw [← place] at allowed
    rw [run_cons, step_jump opened allowed]
    rfl
  | ifThen _ ih =>
    have inner : run? (.thenPart :: stack) _ = _ := ih place rfl rfl
    rw [run_cons, step?, if_pos opened, Option.bind_some, run_after inner]
    rfl
  | ifElse _ _ ih ih' =>
    have first : run? (.thenPart :: stack) _ = _ := ih place rfl rfl
    have second : run? (.elsePart :: stack) _ = _ := ih' place rfl rfl
    rw [run_cons, step?, if_pos opened, Option.bind_some, run_after first, run_cons, step?,
      Option.bind_some, run_after second]
    rfl
  | loop _ ih =>
    have inner : run? (.loop :: stack) _ = _ := ih rfl rfl rfl
    rw [run_cons, step?, if_pos opened, Option.bind_some, run_after inner]
    rfl
  | emptySwitch =>
    rw [run_cons, step?, if_pos opened]
    rfl
  | switch labels _ ih =>
    have inner : run? (.cases :: stack) _ = _ :=
      ih (congrArg JumpScope.inSwitch place) ⟨stack, rfl⟩ rfl
    rw [run_cons, step?, if_pos opened, Option.bind_some, run_cons, (step_label labels stack).1,
      Option.bind_some, run_after inner]
    rfl
  | noStatement | noCase => rfl
  | statement _ _ ih ih' =>
    rw [run_after (ih place opened opened)]
    exact ih' place opened opened
  | label labels _ ih =>
    obtain ⟨rest, rfl⟩ := fits
    rw [run_cons, (step_label labels rest).2]
    exact ih place ⟨rest, rfl⟩ opened
  | caseStatement _ _ ih ih' =>
    rw [run_after (ih place opened opened)]
    exact ih' place fits opened

/-- What may still follow while constructs are open, so that all of them get closed: the rest of the
innermost one, and then what follows it. -/
inductive Completes : List Bracket → List Opcode → Prop
  | outermost {ops : List Opcode} (h : Derives .outermost .body ops) : Completes [] ops
  | else {rest : List Bracket} {ops after : List Opcode} (h : Derives (scope rest) .body ops)
    (later : Completes (.elsePart :: rest) after) :
    Completes (.thenPart :: rest) (ops ++ .elseOp :: after)
  | endIf {rest : List Bracket} {ops after : List Opcode} (h : Derives (scope rest) .body ops)
    (later : Completes rest after) : Completes (.thenPart :: rest) (ops ++ .endIf :: after)
  | endElse {rest : List Bracket} {ops after : List Opcode} (h : Derives (scope rest) .body ops)
    (later : Completes rest after) : Completes (.elsePart :: rest) (ops ++ .endIf :: after)
  | endLoop {rest : List Bracket} {ops after : List Opcode} (h : Derives .inLoop .body ops)
    (later : Completes rest after) : Completes (.loop :: rest) (ops ++ .endLoop :: after)
  | endEmpty {rest : List Bracket} {after : List Opcode} (later : Completes rest after) :
    Completes (.header :: rest) (.endSwitch :: after)
  | firstLabel {rest : List Bracket} {op : Opcode} {after : List Opcode}
    (labels : op.labels = true) (later : Completes (.cases :: rest) after) :
    Completes (.header :: rest) (op :: after)
  | endSwitch {rest : List Bracket} {ops after : List Opcode}
    (h : Derives (scope rest).inSwitch .cases ops) (later : Completes rest after) :
    Completes (.cases :: rest) (ops ++ .endSwitch :: after)

namespace Completes

variable {stack next : List Bracket} {ops after : List Opcode}

/-- A statement may stand in front. -/
theorem statement (opened : isOpen stack = true) (h : Derives (scope stack) .statement ops)
    (later : Completes stack after) : Completes stack (ops ++ after) := by
  cases later with
  | outermost own => exact .outermost (.statement h own)
  | «else» own later =>
    rw [← List.append_assoc]
    exact .else (.statement h own) later
  | endIf own later =>
    rw [← List.append_assoc]
    exact .endIf (.statement h own) later
  | endElse own later =>
    rw [← List.append_assoc]
    exact .endElse (.statement h own) later
  | endLoop own later =>
    rw [← List.append_assoc]
    exact .endLoop (.statement h own) later
  | endEmpty | firstLabel => cases opened
  | endSwitch own later =>
    rw [← List.append_assoc]
    exact .endSwitch (.caseStatement h own) later

/-- A statement that begins with an opcode and ends with another. -/
theorem enclosed (opened : isOpen stack = true) {first last : Opcode}
    (h : Derives (scope stack) .statement (first :: (ops ++ [last])))
    (later : Completes stack after) : Completes stack (first :: (ops ++ last :: after)) := by
  have whole := statement opened h later
  rwa [List.cons_append, List.append_assoc, List.singleton_append] at whole

theorem openIf (opened : isOpen stack = true) (h : Completes (.thenPart :: stack) after) :
    Completes stack (.ifOp :: after) := by
  cases h with
  | endIf own later => exact enclosed opened (.ifThen own) later
  | «else» own other =>
    cases other with
    | endElse other later =>
      have whole := statement opened (.ifElse own other) later
      simpa only [List.append_assoc, List.cons_append, List.nil_append] using whole

theorem openSwitch (opened : isOpen stack = true) (h : Completes (.header :: stack) after) :
    Completes stack (.switch :: after) := by
  cases h with
  | endEmpty later => exact @enclosed _ [] _ opened _ _ .emptySwitch later
  | firstLabel labels rest =>
    cases rest with
    | endSwitch own later => exact @enclosed _ (_ :: _) _ opened _ _ (.switch labels own) later

/-- What completes the stack after a step completes it before, with the opcode in front. -/
theorem of_reads {op : Opcode} (h : Reads op stack next) (later : Completes next after) :
    Completes stack (op :: after) := by
  cases h with
  | openIf opened => exact openIf opened later
  | «else» => exact @Completes.else _ [] _ .noStatement later
  | endIf => exact @endIf _ [] _ .noStatement later
  | endElse => exact @endElse _ [] _ .noStatement later
  | openLoop opened =>
    cases later with
    | endLoop own later => exact enclosed opened (.loop own) later
  | endLoop => exact @endLoop _ [] _ .noStatement later
  | openSwitch opened => exact openSwitch opened later
  | firstLabel labels => exact .firstLabel labels later
  | label labels =>
    cases later with
    | endSwitch own later => exact @endSwitch _ (_ :: _) _ (.label labels own) later
  | endEmpty => exact .endEmpty later
  | endSwitch => exact @endSwitch _ [] _ .noCase later
  | jump opened allowed => exact statement opened (.jump allowed) later

theorem of_run (h : run? stack ops = some []) : Completes stack ops := by
  induction ops generalizing stack with
  | nil =>
    cases h
    exact .outermost .noStatement
  | cons op rest ih =>
    obtain ⟨next, stepped, run⟩ := Option.bind_eq_some_iff.1 h
    exact of_reads (reads_of_step stepped) (ih run)

end Completes

namespace Bracket

/-- The machine accepts what the grammar derives. -/
theorem run_iff_derives {ops : List Opcode} :
    run? [] ops = some [] ↔ Derives .outermost .body ops := by
  constructor
  · intro h
    cases Completes.of_run h with
    | outermost derives => exact derives
  · intro h
    exact h.run rfl rfl

/-- The height of the stack counts the constructs that are open. -/
theorem length_of_step {stack next : List Bracket} {op : Opcode} (h : step? stack op = some next) :
    next.length + [op].countP Opcode.closes =
      stack.length + [op].countP Opcode.opens := by
  cases reads_of_step h with
  | jump _ allowed =>
    unfold JumpScope.allows at allowed
    split at allowed <;> first | rfl | cases allowed
  | firstLabel labels | label labels =>
    obtain rfl | rfl := Opcode.eq_of_labels labels <;> rfl
  | _ => rfl

theorem length_of_run {stack next : List Bracket} {ops : List Opcode}
    (h : run? stack ops = some next) :
    next.length + ops.countP Opcode.closes =
      stack.length + ops.countP Opcode.opens := by
  induction ops generalizing stack with
  | nil =>
    cases h
    rfl
  | cons op rest ih =>
    obtain ⟨middle, stepped, run⟩ := Option.bind_eq_some_iff.1 h
    have first := length_of_step stepped
    have later := ih run
    have split (p : Opcode → Bool) : (op :: rest).countP p = [op].countP p + rest.countP p := by
      rw [← List.countP_append, List.singleton_append]
    rw [split, split]
    omega

end Bracket

end ShaderLowering
