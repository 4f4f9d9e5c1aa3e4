import ShaderLowering.Proofs.WellFormed.Constructs

/-!
The literals of switches. A switch instruction is written when its construct ends, but the block
that it ends is there from the start, so the switches of a function stand in the order in which the
program opens them. `Draft.forecast` says what literals they will have, given the instructions that
are still to come, and no instruction changes the forecast.
-/

namespace ShaderLowering

open Spirv (Id Node Exit Merge)

/-- The case literals that the innermost switch, or one `depth` switches further out, is still to
get. -/
def ownCases : Nat → List Instruction → List UInt32
  | _, [] => []
  | depth, inst :: rest =>
    match inst.control? with
    | some .switch => ownCases (depth + 1) rest
    | some .endSwitch => if depth = 0 then [] else ownCases (depth - 1) rest
    | some .caseOp =>
      if depth = 0 then inst.caseLiteral :: ownCases depth rest else ownCases depth rest
    | _ => ownCases depth rest

/-- The literals of every switch of a program, each once, in the order of their declaration. -/
def declaredLiterals : List Instruction → List (List UInt32)
  | [] => []
  | inst :: rest =>
    match inst.control? with
    | some .switch => (ownCases 0 rest).eraseDups :: declaredLiterals rest
    | _ => declaredLiterals rest

/-- The literals of a switch that is still to get some. -/
def Switch.literals (s : Switch) (more : List UInt32) : List UInt32 :=
  s.cases.map SwitchCase.literal ++ (more.removeAll (s.cases.map SwitchCase.literal)).eraseDups

namespace Switch

variable {s : Switch}

theorem literals_nil : s.literals [] = s.cases.map SwitchCase.literal := by
  unfold literals
  exact List.append_nil _

/-- A switch without cases gets each literal once. -/
theorem literals_of_no_cases (none_ : s.cases = []) (more : List UInt32) :
    s.literals more = more.eraseDups := by
  unfold literals
  rw [none_, List.map_nil, List.removeAll_nil, List.nil_append]

/-- It does not matter whether a literal is there already or comes next. -/
theorem literals_addCase (literal : UInt32) (label : Id) (more : List UInt32) :
    (Lower.Switch.addCase s literal label).literals more = s.literals (literal :: more) := by
  have taken : s.cases.any (·.literal = literal) =
      (s.cases.map SwitchCase.literal).contains literal := by
    rw [List.contains_eq_any_beq, List.any_map]
    refine congrArg s.cases.any (funext fun c => ?_)
    rw [Bool.eq_iff_iff, Function.comp_apply, beq_iff_eq, decide_eq_true_eq, eq_comm]
  unfold Lower.Switch.addCase literals
  rw [taken, List.cons_removeAll]
  cases (s.cases.map SwitchCase.literal).contains literal with
  | true => rfl
  | false =>
    have others : more.removeAll (s.cases.map SwitchCase.literal ++ [literal]) =
        (more.removeAll (s.cases.map SwitchCase.literal)).filter fun l => !l == literal := by
      unfold List.removeAll
      rw [List.filter_filter]
      refine List.filter_congr fun l _ => ?_
      simp [Bool.and_comm, beq_eq_decide]
    rw [if_neg Bool.false_ne_true, if_pos rfl, List.map_append, List.map_singleton, others,
      List.eraseDups_cons, List.append_assoc]
    rfl

end Switch

/-- What the open switches will end with: the positions of their headers and their literals. -/
def awaited (insts : List Instruction) : Nat → List Construct → List (Nat × List UInt32)
  | _, [] => []
  | depth, .switch s :: rest =>
    (s.header, s.literals (ownCases depth insts)) ::
      awaited insts (depth + 1) rest
  | depth, _ :: rest => awaited insts depth rest

/-- The literals of the switches that nodes end with or will end with. -/
def forecast (ends : List (List (List UInt32))) (open_ : List (Nat × List UInt32)) :
    List (List UInt32) :=
  ends.zipIdx.flatMap fun (literals, i) => literals ++ (open_.lookup i).toList

theorem lookup_eq_none {α : Type} {i : Nat} {xs : List (Nat × α)} (h : i ∉ xs.map Prod.fst) :
    xs.lookup i = none := by
  refine List.lookup_eq_none_iff.2 fun p hp => ?_
  rw [bne_iff_ne]
  rintro rfl
  exact h (List.mem_map_of_mem hp)

section Forecast

variable {ends more : List (List (List UInt32))} {open_ : List (Nat × List UInt32)}

theorem forecast_append (inside : ∀ i ∈ open_.map Prod.fst, i < ends.length)
    (none_ : ∀ l ∈ more, l = []) : forecast (ends ++ more) open_ = forecast ends open_ := by
  unfold forecast
  rw [List.zipIdx_append, List.flatMap_append]
  refine List.append_right_eq_self.2 (List.flatMap_eq_nil_iff.2 ?_)
  rintro ⟨literals, i⟩ hi
  have outside : i ∉ open_.map Prod.fst := by
    intro h
    have := inside i h
    have := (List.mem_zipIdx hi).1
    omega
  have mem := (List.mem_zipIdx hi).2.2
  have : literals = [] := none_ literals (mem ▸ List.getElem_mem _)
  dsimp only
  rw [this, lookup_eq_none outside]
  rfl

/-- Opening a switch behind all others. -/
theorem forecast_open (inside : ∀ i ∈ open_.map Prod.fst, i < ends.length)
    (literals : List UInt32) :
    forecast (ends ++ [[]]) ((ends.length, literals) :: open_) =
      forecast ends open_ ++ [literals] := by
  unfold forecast
  rw [List.zipIdx_append, List.flatMap_append]
  congr 1
  · refine List.flatMap_congr fun p hp => ?_
    obtain ⟨l, i⟩ := p
    have : (i == ends.length) = false := by
      have := (List.mem_zipIdx hp).2.1
      rw [beq_eq_false_iff_ne]
      omega
    dsimp only
    rw [List.lookup_cons, this]
  · have new : ends.length ∉ open_.map Prod.fst := fun h => Nat.lt_irrefl _ (inside _ h)
    simp [List.lookup_cons]

/-- A switch that ends as it was awaited to. -/
theorem forecast_close {before after : List (List (List UInt32))} {literals : List UInt32}
    (once : before.length ∉ open_.map Prod.fst) :
    forecast (before ++ [literals] :: after) open_ =
      forecast (before ++ [] :: after) ((before.length, literals) :: open_) := by
  have other {p : List (List UInt32) × Nat} (h : p.2 ≠ before.length) :
      p.1 ++ (open_.lookup p.2).toList =
        p.1 ++ (((before.length, literals) :: open_).lookup p.2).toList := by
    rw [List.lookup_cons, beq_eq_false_iff_ne.2 h]
  unfold forecast
  rw [List.zipIdx_append, List.zipIdx_append, List.flatMap_append, List.flatMap_append,
    List.zipIdx_cons, List.zipIdx_cons, List.flatMap_cons, List.flatMap_cons]
  congr 1
  · refine List.flatMap_congr fun p hp => other ?_
    have := (List.mem_zipIdx hp).2.1
    omega
  congr 1
  · simp [lookup_eq_none once]
  · refine List.flatMap_congr fun p hp => other ?_
    have := (List.mem_zipIdx hp).1
    omega

end Forecast

/-- The open switches wait for their headers, which are the nodes that are held. -/
theorem awaited_headers (insts : List Instruction) (depth : Nat) (constructs : List Construct) :
    (awaited insts depth constructs).map Prod.fst = (obligations constructs).held := by
  induction constructs generalizing depth with
  | nil => rfl
  | cons c rest ih =>
    cases c with
    | branch => exact ih depth
    | loop => exact ih depth
    | switch s => exact congrArg (s.header :: ·) (ih (depth + 1))

/-- The cases of open switches count, and nothing else. -/
theorem awaited_congr {insts insts' : List Instruction} {depth depth' : Nat}
    (same : ∀ k, ownCases (depth + k) insts = ownCases (depth' + k) insts')
    (constructs : List Construct) :
    awaited insts depth constructs = awaited insts' depth' constructs := by
  induction constructs generalizing depth depth' with
  | nil => rfl
  | cons c _ ih =>
    cases c with
    | branch => exact ih same
    | loop => exact ih same
    | switch s =>
      have inner : ownCases depth insts = ownCases depth' insts' := same 0
      have outer (k : Nat) : ownCases (depth + 1 + k) insts = ownCases (depth' + 1 + k) insts' := by
        rw [Nat.add_assoc, Nat.add_assoc]
        exact same (1 + k)
      rw [awaited, awaited, inner, ih outer]

section Next

variable {inst : Instruction} {rest : List Instruction}

/-- Whether an instruction says something about cases. -/
def Instruction.concernsCases (inst : Instruction) : Bool :=
  match inst.control? with
  | some .switch | some .endSwitch | some .caseOp => true
  | _ => false

theorem ownCases_other (h : inst.concernsCases = false) (depth : Nat) :
    ownCases depth (inst :: rest) = ownCases depth rest := by
  unfold Instruction.concernsCases at h
  rw [ownCases]
  split
  · next op => rw [op] at h; cases h
  · next op => rw [op] at h; cases h
  · next op => rw [op] at h; cases h
  · rfl

theorem declaredLiterals_other (h : inst.control? ≠ some .switch) :
    declaredLiterals (inst :: rest) = declaredLiterals rest := by
  rw [declaredLiterals]
  split
  · contradiction
  · rfl

theorem awaited_other (h : inst.concernsCases = false) (constructs : List Construct) :
    awaited (inst :: rest) 0 constructs = awaited rest 0 constructs :=
  awaited_congr (fun k => ownCases_other h (0 + k)) constructs

theorem awaited_switch (op : inst.control? = some .switch) (constructs : List Construct) :
    awaited (inst :: rest) 0 constructs = awaited rest 1 constructs := by
  refine awaited_congr (fun k => ?_) constructs
  rw [ownCases, op, Nat.zero_add, Nat.add_comm 1 k]

theorem awaited_endSwitch (op : inst.control? = some .endSwitch) (constructs : List Construct) :
    awaited (inst :: rest) 1 constructs = awaited rest 0 constructs := by
  refine awaited_congr (fun k => ?_) constructs
  rw [ownCases, op, Nat.zero_add, Nat.add_comm 1 k]
  rfl

/-- Only the innermost switch gets a case. -/
theorem awaited_case (op : inst.control? = some .caseOp) (constructs : List Construct) :
    awaited (inst :: rest) 1 constructs = awaited rest 1 constructs := by
  refine awaited_congr (fun k => ?_) constructs
  rw [ownCases, op, Nat.add_comm 1 k]
  rfl

end Next

/-- Whether an exit chooses among cases. -/
def Spirv.Exit.isSwitch : Exit → Bool
  | switch .. => true
  | _ => false

namespace Spirv.Node.IsOpen

variable {n : Node} {e : Exit}

theorem switches_eq (h : n.IsOpen) : n.switches = [] := by
  rw [Node.switches, h.exit?]

theorem switches_exit (h : n.IsOpen) (plain : e.isSwitch = false) : (n.exit e).switches = [] := by
  rw [h.exit_eq, Node.switches]
  cases e <;> first | rfl | cases plain

theorem switches_announce_exit (h : n.IsOpen) (m : Merge) (plain : e.isSwitch = false) :
    ((n.announce m).exit e).switches = [] := by
  rw [h.announce_exit_eq, Node.switches]
  cases e <;> first | rfl | cases plain

end Spirv.Node.IsOpen

namespace Draft

variable {d e : Draft} {n : Node}

/-- The literals of the switches that the nodes end with. -/
def switches (d : Draft) : List (List (List UInt32)) :=
  d.nodes.map Node.switches

/-- The literals of the switches of a body, when `insts` are still to come. -/
def forecast (insts : List Instruction) (d : Draft) : List (List UInt32) :=
  ShaderLowering.forecast d.switches (awaited insts 0 d.constructs)

theorem IsSound.awaited_inside (h : d.IsSound) (insts : List Instruction) (depth : Nat) :
    ∀ i ∈ (awaited insts depth d.constructs).map Prod.fst, i < d.switches.length := by
  rw [awaited_headers]
  intro i hi
  obtain ⟨n, hn, _⟩ := h.placed.kept i (List.mem_append_right _ hi)
  rw [switches, List.length_map]
  exact (List.getElem?_eq_some_iff.1 hn).1

/-- A draft with further nodes that end with no switch. -/
def Extends (d e : Draft) : Prop :=
  ∃ more, e.switches = d.switches ++ more ∧ ∀ l ∈ more, l = []

theorem Extends.trans {f : Draft} (first : d.Extends e) (second : e.Extends f) :
    d.Extends f := by
  obtain ⟨more, he, none_⟩ := first
  obtain ⟨more', hf, none'⟩ := second
  refine ⟨more ++ more', ?_, fun l hl => ?_⟩
  · rw [hf, he, List.append_assoc]
  · exact (List.mem_append.1 hl).elim (none_ l) (none' l)

theorem Extends.of_eq (h : e.switches = d.switches) : d.Extends e :=
  ⟨[], by rw [h, List.append_nil], fun _ hl => absurd hl List.not_mem_nil⟩

theorem Extends.enter (ho : d.open? = none) (label : Id) : d.Extends (d.enter label) := by
  refine ⟨[[]], ?_, fun l hl => List.mem_singleton.1 hl⟩
  rw [switches, switches, nodes_of_none ho, nodes_of_open (d := d.enter label) rfl,
    List.map_append]
  rfl

/-- Ending the open node in any way but with a switch. -/
theorem switches_leave {m : Node} (ho : d.open? = some n) (opened : n.switches = [])
    (plain : m.switches = []) :
    Draft.switches { d with done := d.done ++ [m], open? := none } = d.switches := by
  rw [switches, switches, nodes_of_open ho,
    nodes_of_none (d := { d with done := d.done ++ [m], open? := none }) rfl, List.map_append,
    List.map_append, List.map_singleton, List.map_singleton, opened, plain]

theorem IsSound.forecast_extends {insts rest : List Instruction} (h : d.IsSound)
    (more : d.Extends e)
    (same : awaited rest 0 e.constructs = awaited insts 0 d.constructs) :
    e.forecast rest = d.forecast insts := by
  obtain ⟨more, he, none_⟩ := more
  rw [forecast, forecast, same, he]
  exact forecast_append (h.awaited_inside insts 0) none_

theorem switches_exit (ho : d.open? = some n) (opened : n.IsOpen) {leave : Exit}
    (plain : leave.isSwitch = false) : (d.exit n leave).switches = d.switches :=
  switches_leave ho opened.switches_eq (opened.switches_exit plain)

theorem Extends.exit (ho : d.open? = some n) (opened : n.IsOpen) {leave : Exit}
    (plain : leave.isSwitch = false) : d.Extends (d.exit n leave) :=
  .of_eq (switches_exit ho opened plain)

theorem Extends.exit_announced (ho : d.open? = some n) (opened : n.IsOpen) (m : Merge)
    {leave : Exit} (plain : leave.isSwitch = false) :
    d.Extends (d.exit (n.announce m) leave) :=
  .of_eq (switches_leave ho opened.switches_eq (opened.switches_announce_exit m plain))

theorem IsSound.extends_jump {leave : Exit} (h : d.IsSound) (plain : leave.isSwitch = false)
    (he : d.jump? leave = some e) : d.Extends e ∧ e.constructs = d.constructs := by
  obtain ⟨n, ho, rfl⟩ := Option.map_eq_some_iff.1 he
  have left := Extends.exit ho (h.isOpen ho) plain
  have entered := Extends.enter (d := (d.exit n leave).take 1) rfl d.next
  exact ⟨left.trans entered, rfl⟩

theorem IsSound.extends_jumpOn {condition : Id} {leave : Exit} (h : d.IsSound)
    (plain : leave.isSwitch = false) (he : d.jumpOn? condition leave = some e) :
    d.Extends e ∧ e.constructs = d.constructs := by
  obtain ⟨n, ho, rfl⟩ := Option.map_eq_some_iff.1 he
  let tested := (d.take 2).exit (n.announce (.selection (d.next + 1)))
    (.test condition d.next (d.next + 1))
  have first : d.Extends tested := .exit_announced ho (h.isOpen ho) _ rfl
  have taken : tested.Extends (tested.enter d.next) := .enter rfl _
  have left : (tested.enter d.next).Extends ((tested.enter d.next).exit (.start d.next) leave) :=
    .exit rfl (Node.isOpen_start _) plain
  exact ⟨first.trans (taken.trans (left.trans (.enter rfl _))), rfl⟩

theorem IsSound.extends_openIf {condition : Id} (h : d.IsSound)
    (he : d.openIf? condition = some e) :
    d.Extends e ∧ ∃ l l', e.constructs = .branch l l' false :: d.constructs := by
  obtain ⟨n, ho, rfl⟩ := Option.map_eq_some_iff.1 he
  let tested := (d.take 3).exit (n.announce (.selection (d.next + 2)))
    (.test condition d.next (d.next + 1))
  have first : d.Extends tested := .exit_announced ho (h.isOpen ho) _ rfl
  have entered : tested.Extends (tested.enter d.next) := .enter rfl _
  exact ⟨first.trans entered, _, _, rfl⟩

theorem IsSound.extends_loop (h : d.IsSound) (he : d.loop? = some e) :
    d.Extends e ∧ ∃ l l' l'', e.constructs = .loop l l' l'' :: d.constructs := by
  obtain ⟨n, ho, rfl⟩ := Option.map_eq_some_iff.1 he
  let left := (d.take 4).exit n (.branch d.next)
  let header := left.enter d.next
  let merge := Merge.loop (d.next + 3) (d.next + 2)
  let entered := header.exit ((Node.start d.next).announce merge) (.branch (d.next + 1))
  have first : d.Extends left := .exit ho (h.isOpen ho) rfl
  have second : left.Extends header := .enter rfl _
  have third : header.Extends entered := .exit_announced rfl (Node.isOpen_start _) merge rfl
  have last : entered.Extends (entered.enter (d.next + 1)) := .enter rfl _
  exact ⟨first.trans (second.trans (third.trans last)), _, _, _, rfl⟩

theorem IsSound.extends_else (h : d.IsSound) (he : d.else? = some e) :
    d.Extends e ∧ ∃ l l' rest, d.constructs = .branch l l' false :: rest ∧
      e.constructs = .branch l l' true :: rest := by
  unfold Draft.else? at he
  split at he
  · next elseLabel endLabel rest n hc ho =>
    cases he
    have left : d.Extends (d.exit n (.branch endLabel)) := .exit ho (h.isOpen ho) rfl
    have entered := Extends.enter (d := d.exit n (.branch endLabel)) rfl elseLabel
    exact ⟨left.trans entered, _, _, _, hc, rfl⟩
  · cases he

theorem IsSound.extends_endIf (h : d.IsSound) (he : d.endIf? = some e) :
    d.Extends e ∧ ∃ l l' b, d.constructs = .branch l l' b :: e.constructs := by
  unfold Draft.endIf? at he
  split at he
  · next elseLabel endLabel hadElse rest n hc ho =>
    cases he
    have left : d.Extends (d.exit n (.branch endLabel)) := .exit ho (h.isOpen ho) rfl
    cases hadElse with
    | true =>
      have entered := Extends.enter (d := d.exit n (.branch endLabel)) rfl endLabel
      exact ⟨left.trans entered, _, _, _, hc⟩
    | false =>
      let other := (d.exit n (.branch endLabel)).enter elseLabel
      have second : (d.exit n (.branch endLabel)).Extends other := .enter rfl _
      have third : other.Extends (other.exit (.start elseLabel) (.branch endLabel)) :=
        .exit rfl (Node.isOpen_start _) rfl
      have entered := third.trans (.enter rfl endLabel)
      exact ⟨left.trans (second.trans entered), _, _, _, hc⟩
  · cases he

theorem IsSound.extends_endLoop (h : d.IsSound) (he : d.endLoop? = some e) :
    d.Extends e ∧ ∃ l l' l'', d.constructs = .loop l l' l'' :: e.constructs := by
  unfold Draft.endLoop? at he
  split at he
  · next headerLabel continueLabel breakLabel rest n hc ho =>
    cases he
    let left := d.exit n (.branch continueLabel)
    let entered := left.enter continueLabel
    let repeated := entered.exit (.start continueLabel) (.branch headerLabel)
    have first : d.Extends left := .exit ho (h.isOpen ho) rfl
    have second : left.Extends entered := .enter rfl _
    have third : entered.Extends repeated := .exit rfl (Node.isOpen_start _) rfl
    exact ⟨first.trans (second.trans (third.trans (.enter rfl breakLabel))), _, _, _, hc⟩
  · cases he

theorem Owes.extends_closeCase {o : Obligations} (h : d.Owes o) (label : Id) :
    d.Extends (d.closeCase label) := by
  unfold Draft.closeCase
  split
  · next n ho =>
    refine .exit ho (h.isOpen ho) ?_
    split <;> rfl
  · exact .of_eq rfl

theorem IsSound.extends_caseLabel {label : Id} (h : d.IsSound)
    (he : d.caseLabel? = some (label, e)) :
    d.Extends e ∧ ∃ s t rest, d.constructs = .switch s :: rest ∧
      e.constructs = .switch t :: rest ∧ t.header = s.header ∧ t.cases = s.cases := by
  unfold Draft.caseLabel? at he
  split at he
  · next s rest hc =>
    split at he
    · cases he
      exact ⟨.of_eq rfl, s, s, rest, hc, hc, rfl, rfl⟩
    · cases he
      have taken := h.take 1 [] (fun _ hl => absurd hl List.not_mem_nil) List.nodup_nil
      have closed : d.Extends ((d.take 1).closeCase d.next) := taken.extends_closeCase d.next
      have entered := Extends.enter (open?_closeCase d.next (d.take 1)) d.next
      exact ⟨closed.trans entered, s, { s with currentLabel? := some d.next }, rest, hc,
        rfl, rfl, rfl⟩
  · cases he

theorem switches_modifySwitch (f : Switch → Switch) (d : Draft) :
    (d.modifySwitch f).switches = d.switches := by
  unfold modifySwitch
  split <;> rfl

variable {inst : Instruction} {rest : List Instruction} {id : Id}

theorem IsSound.forecast_case (h : d.IsSound) (op : inst.control? = some .caseOp)
    (he : d.case? inst.caseLiteral = some e) :
    e.forecast rest = d.forecast (inst :: rest) := by
  obtain ⟨⟨label, f⟩, hl, rfl⟩ := Option.map_eq_some_iff.1 he
  obtain ⟨more, s, t, around, hd, hf, header, cases_⟩ := h.extends_caseLabel hl
  refine h.forecast_extends (more.trans (.of_eq (switches_modifySwitch _ f))) ?_
  have headers : (Lower.Switch.addCase t inst.caseLiteral label).header = s.header := by
    unfold Lower.Switch.addCase
    split <;> exact header
  have own : ownCases 0 (inst :: rest) = inst.caseLiteral :: ownCases 0 rest := by
    rw [ownCases, op]
    rfl
  have same (more : List UInt32) : t.literals more = s.literals more := by
    rw [Switch.literals, Switch.literals, cases_]
  dsimp only
  rw [Draft.modifySwitch, hd, hf]
  dsimp only
  rw [awaited, awaited, headers, awaited_case op, own, Switch.literals_addCase, same]

theorem IsSound.forecast_default (h : d.IsSound) (other : inst.concernsCases = false)
    (he : d.default? = some e) : e.forecast rest = d.forecast (inst :: rest) := by
  obtain ⟨⟨label, f⟩, hl, rfl⟩ := Option.map_eq_some_iff.1 he
  obtain ⟨more, s, t, around, hd, hf, header, cases_⟩ := h.extends_caseLabel hl
  refine h.forecast_extends (more.trans (.of_eq (switches_modifySwitch _ f))) ?_
  rw [awaited_other other]
  dsimp only
  rw [Draft.modifySwitch, hd, hf]
  dsimp only
  rw [awaited, awaited, Switch.literals, Switch.literals, header, cases_]

theorem IsSound.forecast_openSwitch {selector : Id} (h : d.IsSound)
    (op : inst.control? = some .switch) (he : d.openSwitch? selector = some e) :
    e.forecast rest = d.forecast (inst :: rest) ++ [(ownCases 0 rest).eraseDups] := by
  obtain ⟨n, ho, rfl⟩ := Option.map_eq_some_iff.1 he
  have opened := h.isOpen ho
  let left := d.exit n (.branch d.next)
  have plain : left.switches = d.switches := switches_exit ho opened rfl
  have ended : left.done.map Node.switches = d.switches := by
    rw [← plain, switches, nodes_of_none rfl]
  have header : left.done.length = d.switches.length := by
    rw [← ended, List.length_map]
  have ends : (left.done ++ [Node.start d.next]).map Node.switches = d.switches ++ [[]] := by
    rw [List.map_append, ended]
    rfl
  let s : Switch :=
    { header := left.done.length, selector, breakLabel := d.next + 1, defaultLabel? := none,
      currentLabel? := none, cases := [] }
  have opens : ShaderLowering.forecast ((left.done ++ [Node.start d.next]).map Node.switches)
      (awaited rest 0 (.switch s :: d.constructs)) =
        d.forecast (inst :: rest) ++ [(ownCases 0 rest).eraseDups] := by
    rw [ends, awaited, Switch.literals_of_no_cases rfl, forecast, awaited_switch op]
    change ShaderLowering.forecast _ ((left.done.length, _) :: _) = _
    rw [header]
    exact forecast_open (h.awaited_inside rest 1) _
  rw [← opens, forecast, switches, nodes_of_none rfl]
  rfl

/-- The literals of a switch that ends are the awaited ones. -/
theorem IsSound.forecast_endSwitch (h : d.IsSound) (op : inst.control? = some .endSwitch)
    (he : d.endSwitch? = some e) : e.forecast rest = d.forecast (inst :: rest) := by
  unfold Draft.endSwitch? at he
  split at he
  · next s around hc =>
    dsimp only at he
    split at he
    · cases he
      have insideBefore := h.awaited_inside (inst :: rest) 0
      unfold IsSound at h
      rw [hc] at h insideBefore
      let d' : Draft := { d with constructs := around }
      let c := d'.closeCase s.breakLabel
      have owed : d'.Owes _ := h
      have closed := (owed.closeCase s.breakLabel List.mem_cons_self).sound_none
        (open?_closeCase s.breakLabel d')
      obtain ⟨more, ends, none_⟩ := owed.extends_closeCase s.breakLabel
      obtain ⟨n, at_, opened⟩ := closed.placed.kept s.header List.mem_cons_self
      obtain ⟨before, after, same, length, changed⟩ := modify_middle at_ fun n =>
        (n.announce (.selection s.breakLabel)).exit (switchExit s)
      let open_ := awaited rest 0 around
      let literals := s.cases.map SwitchCase.literal
      have awaits : awaited (inst :: rest) 0 (.switch s :: around) =
          (s.header, literals) :: open_ := by
        have own : ownCases 0 (inst :: rest) = [] := by
          rw [ownCases, op]
          rfl
        rw [awaited, own, Switch.literals_nil, awaited_endSwitch op]
      have endsBefore : before.map Node.switches ++ [] :: after.map Node.switches =
          d.switches ++ more := by
        have : c.switches = d.switches ++ more := ends
        rw [← this, switches, nodes_of_none (open?_closeCase s.breakLabel d'), same,
          List.map_append, List.map_cons, opened.switches_eq]
      have endsAfter : (before ++ (n.announce (.selection s.breakLabel)).exit (switchExit s) ::
          after).map Node.switches =
            before.map Node.switches ++ [literals] :: after.map Node.switches := by
        have ended : ((n.announce (.selection s.breakLabel)).exit (switchExit s)).switches =
            [literals] := by
          rw [opened.announce_exit_eq, Node.switches, switchExit]
          dsimp only
          rw [List.map_map]
          rfl
        rw [List.map_append, List.map_cons, ended]
      have position : s.header = (before.map Node.switches).length := by
        rw [List.length_map, length]
      rw [awaits, List.map_cons] at insideBefore
      have once : s.header ∉ open_.map Prod.fst := by
        rw [awaited_headers]
        exact (List.nodup_cons.1 closed.placed.held).1
      have inside : ∀ i ∈ open_.map Prod.fst, i <
          (before.map Node.switches ++ [literals] :: after.map Node.switches).length := by
        intro i hi
        have longer := congrArg List.length endsBefore
        have := insideBefore i (List.mem_cons_of_mem _ hi)
        simp only [List.length_append, List.length_cons] at longer ⊢
        omega
      have entered : ((before ++ (n.announce (.selection s.breakLabel)).exit (switchExit s) ::
          after) ++ [Node.start s.breakLabel]).map Node.switches =
            before.map Node.switches ++ [literals] :: after.map Node.switches ++ [[]] := by
        rw [List.map_append, endsAfter]
        rfl
      have final : ShaderLowering.forecast (((before ++ (n.announce (.selection s.breakLabel)).exit
          (switchExit s) :: after) ++ [Node.start s.breakLabel]).map Node.switches) open_ =
            ShaderLowering.forecast d.switches ((s.header, literals) :: open_) := by
        rw [entered, forecast_append inside fun l hl => List.mem_singleton.1 hl,
          forecast_close (position ▸ once), ← position, endsBefore]
        exact forecast_append insideBefore none_
      rw [forecast, forecast, hc, awaits, ← final, ← changed]
      have around_ : c.constructs = around := constructs_closeCase s.breakLabel d'
      change ShaderLowering.forecast _ (awaited rest 0 c.constructs) = _
      rw [around_]
      rfl
    · cases he
  · cases he

/-- An instruction that says nothing about cases changes no open switch. -/
theorem IsSound.forecast_other (h : d.IsSound) (other : inst.concernsCases = false)
    (more : d.Extends e)
    (same : awaited rest 0 e.constructs = awaited rest 0 d.constructs) :
    e.forecast rest = d.forecast (inst :: rest) := by
  refine h.forecast_extends more ?_
  rw [awaited_other other, same]

theorem isSwitch_leave {constructs : List Construct} {op : Opcode} {leave : Exit}
    (h : leave? constructs op = some leave) : leave.isSwitch = false := by
  unfold leave? at h
  split at h
  · obtain ⟨_, _, rfl⟩ := Option.map_eq_some_iff.1 h
    rfl
  · obtain ⟨_, _, rfl⟩ := Option.map_eq_some_iff.1 h
    rfl
  · obtain ⟨_, _, rfl⟩ := Option.map_eq_some_iff.1 h
    rfl
  · obtain ⟨_, _, rfl⟩ := Option.map_eq_some_iff.1 h
    rfl
  all_goals cases h
  all_goals rfl

/-- No control-flow instruction changes the forecast but `switch`, which adds to it. -/
theorem IsSound.forecast_control (h : d.IsSound) (family : inst.family = .controlFlow)
    (he : d.control? inst id = some e) :
    e.forecast rest ++ declaredLiterals rest =
      d.forecast (inst :: rest) ++ declaredLiterals (inst :: rest) := by
  have control : inst.control? = inst.op? := if_pos family
  have only {o : Opcode} (op : inst.op? = some o) (notSwitch : o ≠ .switch)
      (same : e.forecast rest = d.forecast (inst :: rest)) :
      e.forecast rest ++ declaredLiterals rest =
        d.forecast (inst :: rest) ++ declaredLiterals (inst :: rest) := by
    rw [declaredLiterals_other, same]
    rw [control, op]
    exact fun h => notSwitch (Option.some.inj h)
  have other {o : Opcode} (op : inst.op? = some o)
      (none_ : o ≠ .switch ∧ o ≠ .endSwitch ∧ o ≠ .caseOp) (more : d.Extends e)
      (same : awaited rest 0 e.constructs = awaited rest 0 d.constructs) :
      e.forecast rest ++ declaredLiterals rest =
        d.forecast (inst :: rest) ++ declaredLiterals (inst :: rest) := by
    refine only op none_.1 (h.forecast_other ?_ more same)
    rw [Instruction.concernsCases, control, op]
    split
    · next h => exact absurd (Option.some.inj h) none_.1
    · next h => exact absurd (Option.some.inj h) none_.2.1
    · next h => exact absurd (Option.some.inj h) none_.2.2
    · rfl
  cases directs_of_control he with
  | openSwitch op he =>
    rw [h.forecast_openSwitch (control.trans op) he, declaredLiterals, control, op,
      List.append_assoc]
    rfl
  | case op he => exact only op Opcode.noConfusion (h.forecast_case (control.trans op) he)
  | endSwitch op he =>
    exact only op Opcode.noConfusion (h.forecast_endSwitch (control.trans op) he)
  | default op he =>
    refine only op Opcode.noConfusion (h.forecast_default ?_ he)
    rw [Instruction.concernsCases, control, op]
  | openIf op he =>
    obtain ⟨more, _, _, constructs⟩ := h.extends_openIf he
    exact other op (by decide) more (constructs ▸ rfl)
  | «else» op he =>
    obtain ⟨more, _, _, _, before, after⟩ := h.extends_else he
    exact other op (by decide) more (by rw [before, after]; rfl)
  | endIf op he =>
    obtain ⟨more, _, _, _, constructs⟩ := h.extends_endIf he
    exact other op (by decide) more (constructs ▸ rfl)
  | loop op he =>
    obtain ⟨more, _, _, _, constructs⟩ := h.extends_loop he
    exact other op (by decide) more (constructs ▸ rfl)
  | endLoop op he =>
    obtain ⟨more, _, _, _, constructs⟩ := h.extends_endLoop he
    exact other op (by decide) more (constructs ▸ rfl)
  | jump op isJump leaves he =>
    obtain ⟨more, constructs⟩ := h.extends_jump (isSwitch_leave leaves) he
    refine other op ⟨?_, ?_, ?_⟩ more (constructs ▸ rfl)
    all_goals rintro rfl
    all_goals cases isJump
  | jumpOn op isJump leaves he =>
    obtain ⟨more, constructs⟩ := h.extends_jumpOn (isSwitch_leave leaves) he
    refine other op ⟨?_, ?_, ?_⟩ more (constructs ▸ rfl)
    all_goals rintro rfl
    all_goals cases isJump

theorem Owes.extends_writes {o : Obligations} (h : d.Owes o) (w : d.Writes e) : d.Extends e := by
  refine .of_eq ?_
  obtain ⟨code, next, globals, ordinary, _, _, rfl⟩ := w
  rw [switches, switches, nodes, nodes, List.map_append, List.map_append]
  congr 1
  cases ho : d.open? with
  | none => rfl
  | some n =>
    have opened := h.isOpen ho
    change [(n.write code).switches] = [n.switches]
    rw [(opened.write ordinary).switches_eq, opened.switches_eq]

theorem IsSound.forecast_writes (h : d.IsSound) (w : d.Writes e) (insts : List Instruction) :
    e.forecast insts = d.forecast insts :=
  h.forecast_extends (h.extends_writes w) (w.constructs ▸ rfl)

/-- What the switches of a body come to is known from the start. -/
theorem IsSound.forecast_lowers (h : d.IsSound) (he : d.Lowers inst e) :
    e.forecast rest ++ declaredLiterals rest =
      d.forecast (inst :: rest) ++ declaredLiterals (inst :: rest) := by
  cases he with
  | ordinary family writes =>
    have control : inst.control? = none := if_neg family
    have none_ : inst.concernsCases = false := by
      rw [Instruction.concernsCases, control]
    have notSwitch : inst.control? ≠ some .switch := by
      rw [control]
      exact nofun
    have same : _ = d.forecast (inst :: rest) :=
      h.forecast_other none_ (h.extends_writes writes) (writes.constructs ▸ rfl)
    rw [declaredLiterals_other notSwitch, ← same]
    rfl
  | @control e f _ family writes _ directed =>
    have same : f.forecast rest ++ declaredLiterals rest = _ :=
      (h.writes writes).forecast_control family directed
    rw [← h.forecast_writes writes]
    exact same

end Draft

end ShaderLowering
