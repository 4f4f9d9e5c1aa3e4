import ShaderLowering.Proofs.Control.Divisions

/-!
A body follows its program. A cursor in the program and a place in the body belong together when
the place is in the block that is open at the cursor, with the events of the block that are still
to come, and when the constructs around the cursor are those that the lowering has open there.
Every step of the program keeps them together.
-/

namespace ShaderLowering

open Spirv (Id Instr Node Exit)

/-- The frames of a cursor, and the constructs that are open there. A loop is entered again by its
header. -/
inductive Matches (b : Body) (f : Draft) (all : List Mark) : List Frame → List Construct → Prop
  | nil : Matches b f all [] []
  | branch {frames : List Frame} {around : List Construct} {elseLabel endLabel : Id}
    {hadElse : Bool} (outer : Matches b f all frames around) :
    Matches b f all (.branch :: frames) (.branch elseLabel endLabel hadElse :: around)
  | switch {frames : List Frame} {around : List Construct} {s : Switch}
    (outer : Matches b f all frames around) :
    Matches b f all (.switch :: frames) (.switch s :: around)
  | loop {frames : List Frame} {around : List Construct} {body : List Instruction}
    {headerLabel continueLabel breakLabel label : Id} {d : Draft}
    (stack : d.constructs = .loop headerLabel continueLabel breakLabel :: around)
    (enters : Enters f all label body d) (forwards : b.Forwards headerLabel label)
    (outer : Matches b f all frames around) :
    Matches b f all (.loop body :: frames)
      (.loop headerLabel continueLabel breakLabel :: around)

/-- A cursor and a place that belong together. -/
structure Related (b : Body) (f : Draft) (all : List Mark) (s : Cursor) (d : Draft) (n : Node)
    (past todo : List Mark) (p : Place) : Prop where
  point : Point f all d s.rest past todo
  opened : d.open? = some n
  live : Lower.isJump d.last? = false
  around : Matches b f all s.frames d.constructs
  place : p = ⟨d.done.length, eventsAt todo d.done.length, s.asked⟩

def Together (b : Body) (f : Draft) (all : List Mark) (s : Cursor) (p : Place) : Prop :=
  ∃ d n past todo, Related b f all s d n past todo p

/-- What the body does agrees with what the program does: they stop together, or the body comes to
a place that belongs to the cursor. -/
inductive Agrees (b : Body) (f : Draft) (all : List Mark) (oracle : Nat → UInt32) :
    Outcome Place → Outcome Cursor → Prop
  | arrives {s : Cursor} {p : Place} (together : Together b f all s p) :
    Agrees b f all oracle (.next none p) (.next none s)
  | stops {ending : Ending} (defined : ending ≠ .undefined) :
    Agrees b f all oracle (.stop ending) (.stop ending)
  /-- The body may need further steps. -/
  | further {p : Place} {o : Outcome Cursor} (more : Agrees b f all oracle (b.step oracle p) o) :
    Agrees b f all oracle (.next none p) o

variable {b : Body} {f d e : Draft} {all past todo : List Mark} {inst : Instruction}
  {rest : List Instruction} {id : Id} {oracle : Nat → UInt32}

namespace Agrees

/-- Going to a label under which a point is entered. -/
theorem enters (real : b.Realizes f all) {label : Id} {s : Cursor}
    (h : Enters f all label s.rest d) (around : Matches b f all s.frames d.constructs) :
    Agrees b f all oracle (b.goto s.asked label) (.next none s) := by
  obtain ⟨past, todo, point, below⟩ := h.point
  obtain ⟨n, opened, rfl⟩ := h.opened
  have last : d.nodes[d.done.length]? = some n := by
    rw [Draft.nodes_of_open opened]
    exact List.getElem?_concat_length
  rw [real.goto point last]
  refine .arrives ⟨d, n, past, todo, point, opened, h.live, around, ?_⟩
  rw [Body.enter, real.events, point.marks, eventsAt_append, below.eventsAt (Nat.le_refl _)]
  rfl

/-- Going to a label that only leads on. -/
theorem forwards {label target : Id} {asked : Nat} {o : Outcome Cursor}
    (h : b.Forwards label target) (more : Agrees b f all oracle (b.goto asked target) o) :
    Agrees b f all oracle (b.goto asked label) o := by
  obtain ⟨j, goes, leads⟩ := h
  rw [goes]
  apply further
  rwa [leads]

/-- The body takes steps that lead to a place for what the program does next. -/
theorem leads {p : Place} {s : Cursor} {event? : Option Instruction}
    (h : Agrees b f all oracle (b.step oracle p) (.next event? s)) :
    event? = none ∧ ∃ k p', (b.step oracle).Leads (k + 1) p [] p' ∧ Together b f all s p' := by
  generalize ho : b.step oracle p = outcome at h
  generalize hs : Outcome.next event? s = source at h
  induction h generalizing p with
  | arrives together =>
    cases hs
    exact ⟨rfl, 0, _, .single ho, together⟩
  | stops => cases hs
  | further _ ih =>
    obtain ⟨none_, k, p', leads, together⟩ := ih rfl hs
    exact ⟨none_, k + 1, p', (Machine.Leads.single ho).trans leads, together⟩

theorem ends {p : Place} {ending : Ending}
    (h : Agrees b f all oracle (b.step oracle p) (.stop ending)) :
    ending ≠ .undefined ∧
      ∃ k p', (b.step oracle).Leads k p [] p' ∧ b.step oracle p' = .stop ending := by
  generalize ho : b.step oracle p = outcome at h
  generalize hs : Outcome.stop ending = source at h
  induction h generalizing p with
  | arrives => cases hs
  | stops defined =>
    cases hs
    exact ⟨defined, 0, p, .refl p, ho⟩
  | further _ ih =>
    obtain ⟨defined, k, p', leads, stops⟩ := ih rfl hs
    exact ⟨defined, k + 1, p', (Machine.Leads.single ho).trans leads, stops⟩

end Agrees

namespace Matches

variable {frames : List Frame} {constructs : List Construct}

/-- Both sides leave the same loop or switch at a break. -/
theorem breakTarget (h : Matches b f all frames constructs) {label : Id}
    (target : Lower.breakTarget? constructs = some label) :
    ∃ inner c around, constructs = inner ++ c :: around ∧ c.endLabel = label ∧
      frames.findIdx? Frame.breaks = some inner.length ∧
      Matches b f all (frames.drop (inner.length + 1)) around := by
  induction h with
  | nil => cases target
  | @branch frames around elseLabel endLabel hadElse _ ih =>
    obtain ⟨inner, c, outer, rfl, same, found, matches_⟩ := ih target
    refine ⟨.branch elseLabel endLabel hadElse :: inner, c, outer, rfl, same, ?_, matches_⟩
    rw [List.findIdx?_cons, found]
    rfl
  | @switch frames around s outer =>
    cases target
    exact ⟨[], .switch s, around, rfl, rfl, by rw [List.findIdx?_cons]; rfl, outer⟩
  | @loop frames around body header continue_ break_ _ _ _ _ _ outer =>
    cases target
    exact ⟨[], .loop header continue_ label, around, rfl, rfl,
      by rw [List.findIdx?_cons]; rfl, outer⟩

/-- Both sides repeat the same loop at a continue. -/
theorem continueTarget (h : Matches b f all frames constructs) {label : Id}
    (target : Lower.continueTarget? constructs = some label) :
    ∃ inner header break_ around body outer,
      constructs = inner ++ .loop header label break_ :: around ∧
      (∀ s : Cursor, s.continueOn frames =
        .next none { s with rest := body, frames := .loop body :: outer }) ∧
      Matches b f all (.loop body :: outer) (.loop header label break_ :: around) := by
  induction h with
  | nil => cases target
  | @branch frames around elseLabel endLabel hadElse _ ih =>
    obtain ⟨inner, header, break_, outer, body, frames', rfl, goes, matches_⟩ := ih target
    exact ⟨.branch elseLabel endLabel hadElse :: inner, header, break_, outer, body, frames', rfl,
      goes, matches_⟩
  | @switch frames around s _ ih =>
    obtain ⟨inner, header, break_, outer, body, frames', rfl, goes, matches_⟩ := ih target
    exact ⟨.switch s :: inner, header, break_, outer, body, frames', rfl, goes, matches_⟩
  | @loop frames around body header continue_ break_ _ _ stack enters forwards outer =>
    cases target
    exact ⟨[], header, break_, around, body, frames, rfl, fun _ => rfl,
      .loop stack enters forwards outer⟩

end Matches

namespace Agrees

/-- Behind the end of a construct around. -/
theorem behind (real : b.Realizes f all) {s : Cursor} (h : Point f all d s.rest past todo)
    {inner : List Construct} {c : Construct} {around : List Construct} {frames : List Frame}
    (stack : d.constructs = inner ++ c :: around) (outer : Matches b f all frames around) :
    Agrees b f all oracle (b.goto s.asked c.endLabel)
      (.next none { s with rest := ShaderLowering.behind inner.length s.rest, frames }) := by
  obtain ⟨d', stack', enters⟩ := (h.divided real stack).last
  exact .enters real (s := { s with rest := ShaderLowering.behind inner.length s.rest, frames })
    enters (stack' ▸ outer)

theorem behind_innermost (real : b.Realizes f all) {s : Cursor}
    (h : Point f all d s.rest past todo) {c : Construct} {around : List Construct}
    {frames : List Frame} (stack : d.constructs = c :: around)
    (outer : Matches b f all frames around) :
    Agrees b f all oracle (b.goto s.asked c.endLabel)
      (.next none { s with rest := ShaderLowering.behind 0 s.rest, frames }) :=
  behind real h (show d.constructs = [] ++ c :: around from stack) outer

/-- The next turn of a loop around. -/
theorem again (real : b.Realizes f all) {s : Cursor} (h : Point f all d s.rest past todo)
    {inner : List Construct} {headerLabel continueLabel breakLabel : Id}
    {around : List Construct} {body : List Instruction} {frames : List Frame}
    (stack : d.constructs = inner ++ .loop headerLabel continueLabel breakLabel :: around)
    (matches_ : Matches b f all (.loop body :: frames)
      (.loop headerLabel continueLabel breakLabel :: around)) :
    Agrees b f all oracle (b.goto s.asked continueLabel)
      (.next none { s with rest := body, frames := .loop body :: frames }) := by
  have closed : b.Forwards continueLabel headerLabel := by
    have divided := h.divided real stack
    generalize divisions inner.length s.rest = ds at divided
    cases divided with
    | closes _ _ _ closed => exact closed
  cases matches_ with
  | loop stack' enters forwards outer =>
    refine .forwards closed (.forwards forwards ?_)
    refine .enters real (s := { s with rest := body, frames := .loop body :: frames }) enters ?_
    rw [stack']
    exact .loop stack' enters forwards outer

/-- A jump that is taken. -/
theorem leave (real : b.Realizes f all) {s : Cursor} (h : Point f all d s.rest past todo)
    (around : Matches b f all s.frames d.constructs) {op : Opcode} {leave : Exit}
    (leaves : Draft.leave? d.constructs op = some leave) (block : Spirv.Block) :
    Agrees b f all oracle (b.leave oracle s.asked block leave) (s.leave op) := by
  have break_ {label : Id} (target : Lower.breakTarget? d.constructs = some label) :
      Agrees b f all oracle (b.goto s.asked label) s.breakOut := by
    obtain ⟨inner, c, outer, stack, rfl, found, matches_⟩ := around.breakTarget target
    rw [Cursor.breakOut, found]
    exact behind real h stack matches_
  have continue_ {label : Id} (target : Lower.continueTarget? d.constructs = some label) :
      Agrees b f all oracle (b.goto s.asked label) (s.continueOn s.frames) := by
    obtain ⟨inner, header, break_, outer, body, frames, stack, goes, matches_⟩ :=
      around.continueTarget target
    rw [goes]
    exact again real h stack matches_
  unfold Draft.leave? at leaves
  split at leaves
  · obtain ⟨label, target, rfl⟩ := Option.map_eq_some_iff.1 leaves
    exact break_ target
  · obtain ⟨label, target, rfl⟩ := Option.map_eq_some_iff.1 leaves
    exact break_ target
  · obtain ⟨label, target, rfl⟩ := Option.map_eq_some_iff.1 leaves
    exact continue_ target
  · obtain ⟨label, target, rfl⟩ := Option.map_eq_some_iff.1 leaves
    exact continue_ target
  · cases leaves
    exact .stops nofun
  · cases leaves
    exact .stops nofun
  · cases leaves
    exact .stops nofun
  · cases leaves

end Agrees

/-- A block that ends with a test and a merge shows the test. -/
theorem zeroTest?_of_tests {globals globals' : Array Instr} {n : Node} {test : ZeroTest} {id : Id}
    (h : EndsWithTest globals n.body test id) (more : globals.toList <+: globals'.toList)
    (merge : Spirv.Merge) (leave : Exit) :
    ((n.announce merge).exit leave).block.zeroTest? globals' id = some test := by
  obtain ⟨before, type, constantType, word, constant, code, declared⟩ := h
  have body : ((n.announce merge).exit leave).block.body.toList =
      n.body ++ [merge.instr] ++ [leave.instr] := by
    rw [← n.body_announce, ← Node.body_exit]
    rfl
  have zero : globals'.toList.any (·.isZero constant) = true := by
    refine List.any_eq_true.2 ⟨_, more.subset declared, ?_⟩
    simp [Instr.isZero]
  have merge_ : merge.instr.result? = none := by cases merge <;> rfl
  have leave_ : leave.instr.result? = none := by cases leave <;> rfl
  unfold Spirv.Block.zeroTest?
  rw [body, code]
  simp only [List.reverse_append, List.reverse_cons, List.reverse_nil, List.nil_append,
    List.cons_append, List.find?_cons, merge_, leave_]
  cases test with
  | ifZero =>
    simp only [reduceCtorEq, decide_false, decide_true, Option.bind_some]
    exact if_pos zero
  | ifNonZero =>
    simp only [reduceCtorEq, decide_false, decide_true, Option.bind_some]
    exact if_pos zero

namespace Crossing

variable {n : Node} {frames : List Frame} {asked : Nat}

/-- The open block ends at a crossing and has no events left, unless a label shares it. -/
theorem ahead (h : Crossing f all inst rest id d e past todo) (leaves : d.Leaves e)
    (opened : d.open? = some n) : eventsAt todo d.done.length = [] := by
  have left := leaves.left
  rw [Draft.nodes_of_open opened, List.length_append] at left
  refine List.filterMap_eq_nil_iff.2 fun m hm => if_neg fun hj => ?_
  have := h.after.runs.later h.after.sound m hm _ hj
  change e.done.length ≤ _ at this
  simp only [List.length_cons, List.length_nil] at left
  omega

/-- How the open block is left. -/
theorem step_left (h : Crossing f all inst rest id d e past todo) (real : b.Realizes f all)
    {m : Node} {more : List Node} (done : e.done = d.done ++ m :: more) {leave : Exit}
    (hl : m.exit? = some leave) :
    b.step oracle ⟨d.done.length, [], asked⟩ = b.leave oracle asked m.block leave := by
  refine h.step_exit real ?_ hl oracle asked
  rw [done]
  exact List.getElem?_append_right (Nat.le_refl _) |>.trans (by simp)

/-- A test in the open block. -/
theorem step_tested (h : Crossing f all inst rest id d e past todo) (real : b.Realizes f all)
    (tests : Draft.isTest inst = true) (opened : d.open? = some n) {merge : Spirv.Merge}
    {yes no : Id} {more : List Node} (globals : e.globals = d.globals)
    (done : e.done = d.done ++ (n.announce merge).exit (.test id yes no) :: more) :
    b.step oracle ⟨d.done.length, [], asked⟩ =
      b.goto (asked + 1) (if inst.zeroTest.passes (oracle asked) then yes else no) := by
  obtain ⟨n', opened', test⟩ := h.tests tests
  cases opened.symm.trans opened'
  have grown : d.globals.toList <+: b.globals.toList := by
    have later := (h.after.runs.grows h.after.sound).globals
    change e.globals.toList <+: _ at later
    rw [globals] at later
    exact later.trans real.globals
  rw [h.step_left real done (Node.exit?_exit _ _), Body.leave,
    zeroTest?_of_tests test grown merge (.test id yes no)]

variable (h : Crossing f all inst rest id d e past todo) (real : b.Realizes f all)
  (opened : d.open? = some n) (around : Matches b f all frames d.constructs)

include h real opened around

theorem agrees_if (is : inst.op? = some .ifOp) (he : d.openIf? id = some e) :
    Agrees b f all oracle (b.step oracle ⟨d.done.length, [], asked⟩)
      (Cursor.execute ⟨rest, frames, asked⟩ inst (oracle asked)) := by
  obtain ⟨n', opened', rfl⟩ := Option.map_eq_some_iff.1 he
  cases opened.symm.trans opened'
  have tests : Draft.isTest inst = true := by rw [Draft.isTest, is]
  rw [h.step_tested real tests opened rfl rfl]
  unfold Cursor.execute
  rw [h.op_eq, is]
  dsimp only
  cases inst.zeroTest.passes (oracle asked) with
  | true =>
    rw [if_pos rfl, if_pos rfl]
    exact .enters real (s := ⟨rest, .branch :: frames, asked + 1⟩)
      (h.enters rfl (by rw [is]; rfl)) (.branch around)
  | false =>
    rw [if_neg Bool.false_ne_true, if_neg Bool.false_ne_true]
    have divided := h.after.divided_innermost real rfl
    unfold Cursor.otherwise
    dsimp only
    generalize divisions 0 rest = ds at divided
    cases divided with
    | @closes inst' rest' _ _ d' op stack enters closed =>
      have notElse : inst'.control? ≠ some .elseOp := by
        intro other
        rw [Instruction.closes, other] at op
        cases op
      dsimp only
      rw [if_neg notElse]
      exact .forwards closed
        (.enters real (s := ⟨rest', frames, asked + 1⟩) enters (stack ▸ around))
    | @otherwise inst' rest' _ _ _ _ d' op stack enters =>
      dsimp only
      rw [if_pos op]
      refine .enters real (s := ⟨rest', .branch :: frames, asked + 1⟩) enters ?_
      rw [stack]
      exact .branch around

theorem agrees_else (is : inst.op? = some .elseOp) (he : d.else? = some e) :
    Agrees b f all oracle (b.step oracle ⟨d.done.length, [], asked⟩)
      (Cursor.execute ⟨rest, frames, asked⟩ inst (oracle asked)) := by
  unfold Draft.else? at he
  split at he
  · next elseLabel endLabel outer n' hc opened' =>
    cases he
    cases opened.symm.trans opened'
    rw [hc] at around
    cases around with
    | branch outer_ =>
      rw [h.step_left real rfl (Node.exit?_exit _ _)]
      unfold Cursor.execute
      rw [h.op_eq, is]
      exact Agrees.behind_innermost real (s := ⟨rest, _, asked⟩) h.after rfl outer_
  · cases he

theorem agrees_loop (is : inst.op? = some .loop) (he : d.loop? = some e) :
    Agrees b f all oracle (b.step oracle ⟨d.done.length, [], asked⟩)
      (Cursor.execute ⟨rest, frames, asked⟩ inst (oracle asked)) := by
  obtain ⟨n', opened', rfl⟩ := Option.map_eq_some_iff.1 he
  cases opened.symm.trans opened'
  have header : b.Forwards d.next (d.next + 1) := by
    refine h.forwards real (j := d.done.length + 1) ?_ (getElem?_second _ _ _)
      (Node.exit?_exit _ _)
    rw [Draft.nodes_of_open opened, List.length_append]
    exact Nat.le_refl _
  rw [h.step_left real (List.append_assoc _ _ _) (Node.exit?_exit _ _)]
  unfold Cursor.execute
  rw [h.op_eq, is]
  have enters := h.enters rfl (by rw [is]; rfl)
  exact .forwards header (.enters real (s := ⟨rest, .loop rest :: frames, asked⟩) enters
    (.loop rfl enters header around))

theorem agrees_endLoop (is : inst.op? = some .endLoop) (he : d.endLoop? = some e) :
    Agrees b f all oracle (b.step oracle ⟨d.done.length, [], asked⟩)
      (Cursor.execute ⟨rest, frames, asked⟩ inst (oracle asked)) := by
  unfold Draft.endLoop? at he
  split at he
  · next headerLabel continueLabel breakLabel outer n' hc opened' =>
    cases he
    cases opened.symm.trans opened'
    have closes : inst.closes = true := h.any_eq is Opcode.closes
    obtain ⟨_, closed⟩ := h.closes real closes hc
    rw [hc] at around
    cases around with
    | @loop outer _ body _ _ _ _ _ stack enters forwards outer_ =>
      rw [h.step_left real (List.append_assoc _ _ _) (Node.exit?_exit _ _)]
      unfold Cursor.execute
      rw [h.op_eq, is]
      refine .forwards closed (.forwards forwards ?_)
      refine .enters real (s := ⟨body, .loop body :: outer, asked⟩) enters ?_
      rw [stack]
      exact .loop stack enters forwards outer_
  · cases he

theorem agrees_endIf (is : inst.op? = some .endIf) (he : d.endIf? = some e) :
    Agrees b f all oracle (b.step oracle ⟨d.done.length, [], asked⟩)
      (Cursor.execute ⟨rest, frames, asked⟩ inst (oracle asked)) := by
  have closes : inst.closes = true := h.any_eq is Opcode.closes
  unfold Draft.endIf? at he
  split at he
  · next elseLabel endLabel hadElse outer n' hc opened' =>
    cases he
    cases opened.symm.trans opened'
    rw [hc] at around
    cases around with
    | @branch outer _ _ _ _ outer_ =>
      unfold Cursor.execute
      rw [h.op_eq, is]
      cases hadElse with
      | true =>
        rw [h.step_left real rfl (Node.exit?_exit _ _)]
        exact .enters real (s := ⟨rest, outer, asked⟩) (h.closes real closes hc).1 outer_
      | false =>
        rw [h.step_left real (List.append_assoc _ _ _) (Node.exit?_exit _ _)]
        exact .enters real (s := ⟨rest, outer, asked⟩) (h.closes real closes hc).1 outer_
  · cases he

theorem agrees_switch (is : inst.op? = some .switch) (he : d.openSwitch? id = some e) :
    Agrees b f all oracle (b.step oracle ⟨d.done.length, [], asked⟩)
      (Cursor.execute ⟨rest, frames, asked⟩ inst (oracle asked)) := by
  obtain ⟨n', opened', rfl⟩ := Option.map_eq_some_iff.1 he
  cases opened.symm.trans opened'
  have length : d.nodes.length = d.done.length + 1 := by
    rw [Draft.nodes_of_open opened, List.length_append]
    rfl
  have headed : b.goto asked d.next = .next none ⟨d.done.length + 1, [], asked⟩ :=
    h.goto_passed real (n := .start d.next) (Nat.le_of_eq length) (getElem?_second _ _ _) asked
  obtain ⟨t, header, break_, closed, cases_, default?, default_lands, default_⟩ :=
    (h.after.divided_innermost real rfl).switch
  obtain ⟨case?, case_lands, case_⟩ := cases_ (oracle asked)
  have chosen := case_lands.or default_lands
  have select : b.step oracle ⟨d.done.length + 1, [], asked⟩ =
      b.goto (asked + 1) ((case?.or default?).getD (d.next + 1)) := by
    have position : t.header = d.done.length + 1 := header.trans List.length_append
    have case_ : t.caseLabel? (oracle asked) = case? := case_
    have default_ : t.defaultLabel? = default? := default_.trans Option.or_none
    have break_ : t.breakLabel = d.next + 1 := break_
    have step := closed oracle asked
    rw [t.select_eq, position, case_, default_, break_] at step
    exact step
  rw [h.step_left real (List.append_assoc _ _ _) (Node.exit?_exit _ _), Body.leave, headed]
  refine .further ?_
  rw [select]
  unfold Cursor.execute
  rw [h.op_eq, is]
  dsimp only
  unfold Cursor.select Cursor.entrance?
  dsimp only
  generalize case?.or default? = label? at chosen
  generalize ((divisions 0 rest).find? _).or _ = division? at chosen
  cases label? with
  | none =>
    cases division? with
    | some _ => exact chosen.elim
    | none =>
      exact Agrees.behind_innermost real (s := ⟨rest, frames, asked + 1⟩) h.after rfl around
  | some label =>
    cases division? with
    | none => exact chosen.elim
    | some division =>
      obtain ⟨d', t', stack, enters⟩ := chosen
      refine .enters real (s := ⟨division.2, .switch :: frames, asked + 1⟩) enters ?_
      rw [stack]
      exact .switch around

theorem agrees_endSwitch (live : Lower.isJump d.last? = false) (is : inst.op? = some .endSwitch)
    (he : d.endSwitch? = some e) :
    Agrees b f all oracle (b.step oracle ⟨d.done.length, [], asked⟩)
      (Cursor.execute ⟨rest, frames, asked⟩ inst (oracle asked)) := by
  have closes : inst.closes = true := h.any_eq is Opcode.closes
  obtain ⟨s, outer, header, hc, at_, header_open, he⟩ := h.sound.endSwitch_eq he
  have outer_ : e.constructs = outer := by
    rw [he]
    exact Draft.constructs_closeCase s.breakLabel { d with constructs := outer }
  subst he
  have closed : Draft.closeCase s.breakLabel { d with constructs := outer } =
      Draft.exit { d with constructs := outer } n (.branch s.breakLabel) := by
    unfold Draft.closeCase
    dsimp only
    rw [opened]
    dsimp only
    rw [live]
    rfl
  have left : b.step oracle ⟨d.done.length, [], asked⟩ =
      b.leave oracle asked (n.exit (.branch s.breakLabel)).block (.branch s.breakLabel) := by
    refine h.step_exit real ?_ (Node.exit?_exit _ _) oracle asked
    rw [closed] at at_
    have here : (d.done ++ [n.exit (.branch s.breakLabel)])[d.done.length]? =
        some (n.exit (.branch s.breakLabel)) := List.getElem?_concat_length
    have other : s.header ≠ d.done.length := by
      intro same
      rw [same] at at_
      cases here.symm.trans at_
      have none_ := header_open.exit?
      rw [Node.exit?_exit] at none_
      cases none_
    change (List.modify _ _ _)[d.done.length]? = _
    rw [closed, List.getElem?_modify]
    change Option.map _ ((d.done ++ [n.exit (.branch s.breakLabel)])[d.done.length]?) = _
    rw [here]
    exact congrArg some (if_neg other)
  obtain ⟨enters, _⟩ := h.closes real closes (hc.trans (congrArg _ outer_.symm))
  rw [left]
  rw [hc] at around
  cases around with
  | @switch frames' _ _ around_ =>
    unfold Cursor.execute
    rw [h.op_eq, is]
    refine .enters real (s := ⟨rest, frames', asked⟩) enters ?_
    rw [outer_]
    exact around_

theorem agrees_jump {op : Opcode} {leave : Exit} (is : inst.op? = some op)
    (isJump : Lower.isJump (some op) = true) (leaves : Draft.leave? d.constructs op = some leave)
    (he : d.jump? leave = some e) :
    Agrees b f all oracle (b.step oracle ⟨d.done.length, [], asked⟩)
      (Cursor.execute ⟨rest, frames, asked⟩ inst (oracle asked)) := by
  obtain ⟨n', opened', rfl⟩ := Option.map_eq_some_iff.1 he
  cases opened.symm.trans opened'
  have source : Cursor.execute ⟨rest, frames, asked⟩ inst (oracle asked) =
      Cursor.leave ⟨rest, frames, asked⟩ op := by
    unfold Cursor.execute
    rw [h.op_eq, is]
    unfold Lower.isJump at isJump
    split at isJump
    · next same => cases same; rfl
    · next same => cases same; rfl
    · next same => cases same; rfl
    · cases isJump
  rw [h.step_left real rfl (Node.exit?_exit _ _), source]
  exact Agrees.leave real (s := ⟨rest, frames, asked⟩) h.after around leaves _

theorem agrees_jumpOn {op : Opcode} {leave : Exit} (is : inst.op? = some op)
    (isJump : op.isJumpOn = true) (leaves : Draft.leave? d.constructs op = some leave)
    (he : d.jumpOn? id leave = some e) :
    Agrees b f all oracle (b.step oracle ⟨d.done.length, [], asked⟩)
      (Cursor.execute ⟨rest, frames, asked⟩ inst (oracle asked)) := by
  obtain ⟨n', opened', rfl⟩ := Option.map_eq_some_iff.1 he
  cases opened.symm.trans opened'
  have source : Cursor.execute ⟨rest, frames, asked⟩ inst (oracle asked) =
      if inst.zeroTest.passes (oracle asked) then Cursor.leave ⟨rest, frames, asked + 1⟩ op
      else .next none ⟨rest, frames, asked + 1⟩ := by
    unfold Cursor.execute
    rw [h.op_eq, is]
    unfold Opcode.isJumpOn at isJump
    split at isJump
    · rfl
    · rfl
    · rfl
    · rfl
    · cases isJump
  have tests : Draft.isTest inst = true := by
    rw [Draft.isTest, is]
    unfold Opcode.isJumpOn at isJump
    split at isJump
    · rfl
    · rfl
    · rfl
    · rfl
    · cases isJump
  have live : Lower.isJump inst.op? = false := by
    rw [is]
    unfold Opcode.isJumpOn at isJump
    split at isJump
    · rfl
    · rfl
    · rfl
    · rfl
    · cases isJump
  rw [h.step_tested real tests opened rfl (List.append_assoc _ _ _), source]
  cases inst.zeroTest.passes (oracle asked) with
  | true =>
    rw [if_pos rfl, if_pos rfl]
    have length : d.nodes.length = d.done.length + 1 := by
      rw [Draft.nodes_of_open opened, List.length_append]
      rfl
    have taken : b.goto (asked + 1) d.next = .next none ⟨d.done.length + 1, [], asked + 1⟩ :=
      h.goto_passed real (n := (Node.start d.next).exit leave) (Nat.le_of_eq length)
        (getElem?_second _ _ _) (asked + 1)
    rw [taken]
    refine .further ?_
    rw [h.step_exit real (j := d.done.length + 1) (getElem?_second _ _ _) (Node.exit?_exit _ leave)]
    exact Agrees.leave real (s := ⟨rest, frames, asked + 1⟩) h.after around leaves _
  | false =>
    rw [if_neg Bool.false_ne_true, if_neg Bool.false_ne_true]
    exact .enters real (s := ⟨rest, frames, asked + 1⟩) (h.enters rfl live) around

/-- Whatever directs control does in the body what it does in the program. -/
theorem agrees (live : Lower.isJump d.last? = false) (notLabel : inst.isLabel = false) :
    Agrees b f all oracle (b.step oracle ⟨d.done.length, [], asked⟩)
      (Cursor.execute ⟨rest, frames, asked⟩ inst (oracle asked)) := by
  cases h.directs with
  | openIf is he => exact h.agrees_if real opened around is he
  | «else» is he => exact h.agrees_else real opened around is he
  | endIf is he => exact h.agrees_endIf real opened around is he
  | loop is he => exact h.agrees_loop real opened around is he
  | endLoop is he => exact h.agrees_endLoop real opened around is he
  | openSwitch is he => exact h.agrees_switch real opened around is he
  | endSwitch is he => exact h.agrees_endSwitch real opened around live is he
  | jump is isJump leaves he => exact h.agrees_jump real opened around is isJump leaves he
  | jumpOn is isJump leaves he => exact h.agrees_jumpOn real opened around is isJump leaves he
  | case is | default is =>
    rw [Instruction.isLabel, Instruction.isDefault, h.op_eq, is] at notLabel
    cases notLabel

/-- A label leads on to what follows it. -/
theorem past_label (live : Lower.isJump d.last? = false) (isLabel : inst.isLabel = true) :
    ∃ k p', (b.step oracle).Leads k ⟨d.done.length, eventsAt todo d.done.length, asked⟩ [] p' ∧
      Together b f all ⟨rest, frames, asked⟩ p' := by
  have labelled {g : Id → Switch → Switch} (he : d.addLabel? g = some e)
      (notJump : Lower.isJump inst.op? = false) :
      ∃ k p', (b.step oracle).Leads k ⟨d.done.length, eventsAt todo d.done.length, asked⟩ [] p' ∧
        Together b f all ⟨rest, frames, asked⟩ p' := by
    obtain ⟨s, outer, hc, shared | opens⟩ := Draft.addLabel_eq he
    · obtain ⟨label, behind, current, rfl⟩ := shared
      rw [hc] at around
      cases around with
      | switch outer_ =>
        exact ⟨0, _, .refl _, _, n, past, todo, h.after, opened, notJump, .switch outer_, rfl⟩
    · have closed : (d.take 1).closeCase d.next = (d.take 1).exit n (.branch d.next) := by
        have still : (d.take 1).open? = some n := opened
        unfold Draft.closeCase
        rw [still]
        change Draft.exit _ n (if Lower.isJump d.last? = true then _ else _) = _
        rw [live]
        rfl
      have done : e.done = d.done ++ [n.exit (.branch d.next)] := by
        rw [opens]
        change ((d.take 1).closeCase d.next).done = _
        rw [closed]
        rfl
      have globals : e.globals = d.globals := by
        rw [opens]
        change ((d.take 1).closeCase d.next).globals = d.globals
        rw [closed]
        rfl
      have leaves : d.Leaves e := .of_left opened (n.label_exit _) done globals
      rw [h.ahead leaves opened]
      have step : b.step oracle ⟨d.done.length, [], asked⟩ = b.goto asked d.next :=
        h.step_left real done (Node.exit?_exit _ _)
      have enters := h.enters (n := .start d.next) (by rw [opens]; rfl) notJump
      rw [hc] at around
      cases around with
      | @switch frames _ _ outer_ =>
        have arrives : Agrees b f all oracle (b.step oracle ⟨d.done.length, [], asked⟩)
            (.next none ⟨rest, .switch :: frames, asked⟩) := by
          rw [step]
          refine .enters real (s := ⟨rest, .switch :: frames, asked⟩) enters ?_
          change Matches b f all _ e.constructs
          rw [opens]
          exact .switch outer_
        obtain ⟨_, k, p', leads, together⟩ := arrives.leads
        exact ⟨k + 1, p', leads, together⟩
  cases h.directs with
  | case is he => exact labelled he (by rw [is]; rfl)
  | default is he => exact labelled he (by rw [is]; rfl)
  | openIf is | «else» is | endIf is | loop is | endLoop is | openSwitch is | endSwitch is =>
    rw [Instruction.isLabel, Instruction.isDefault, h.op_eq, is] at isLabel
    cases isLabel
  | jump is isJump =>
    rw [Instruction.isLabel, Instruction.isDefault, h.op_eq, is] at isLabel
    unfold Lower.isJump at isJump
    split at isJump <;> simp_all
  | jumpOn is isJump =>
    rw [Instruction.isLabel, Instruction.isDefault, h.op_eq, is] at isLabel
    unfold Opcode.isJumpOn at isJump
    split at isJump <;> simp_all

end Crossing

end ShaderLowering
