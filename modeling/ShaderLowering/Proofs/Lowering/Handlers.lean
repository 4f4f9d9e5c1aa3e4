import ShaderLowering.Proofs.Lowering.Draft

/-!
What the control-flow handlers do to a draft. For each of them there is a partial function on
drafts, and the handler follows it: where the function is defined the handler succeeds and reaches
the draft it gives, and where it is not defined the handler fails. Labels are taken in order, so
they can be named by what is added to the next id.
-/

namespace ShaderLowering

open Spirv (Id Instr Node Merge Exit)

namespace Lower

variable {α β : Type}

/-- A step succeeds and leaves a state that is described by `d`. It changes the builder and the
constructs at most. -/
def Reaches (m : Lower α) (env : Environment) (s : State) (a : α) (d : Draft) : Prop :=
  ∃ b, m.result env s = (.ok a, { s with builder := b, constructs := d.constructs }) ∧
    d.Describes { s with builder := b, constructs := d.constructs }

def Fails (m : Lower α) (env : Environment) (s : State) : Prop :=
  ∃ e t, m.result env s = (.error e, t)

variable {env : Environment} {s : State} {d e : Draft} {n : Node} {m : Lower α} {k : α → Lower β}
  {a : α} {b : β}

theorem Reaches.bind (first : Reaches m env s a d)
    (next : ∀ t, d.Describes t → Reaches (k a) env t b e) : Reaches (m >>= k) env s b e := by
  obtain ⟨c, result, described⟩ := first
  obtain ⟨c', result', described'⟩ := next _ described
  refine ⟨c', ?_, described'⟩
  rw [result_bind, result]
  exact result'

theorem Reaches.bind_fails (first : Reaches m env s a d)
    (next : ∀ t, d.Describes t → Fails (k a) env t) : Fails (m >>= k) env s := by
  obtain ⟨c, result, described⟩ := first
  obtain ⟨err, t, result'⟩ := next _ described
  refine ⟨err, t, ?_⟩
  rw [result_bind, result]
  exact result'

theorem Fails.bind (first : Fails m env s) : Fails (m >>= k) env s := by
  obtain ⟨err, t, result⟩ := first
  refine ⟨err, t, ?_⟩
  rw [result_bind, result]
  rfl

theorem Fails.not_ok (h : Fails m env s) (t : State) : m.result env s ≠ (.ok a, t) := by
  obtain ⟨err, t', h⟩ := h
  rw [h]
  intro same
  cases same

theorem Fails.failWith (f : Fault) : Fails (liftM (failWith f : Emission α)) env s :=
  ⟨_, s, rfl⟩

/-- A step that changes the builder as a draft says. -/
theorem Reaches.of_builder {f : Spirv.Builder → Except Spirv.BuildError Spirv.Builder}
    (hd : d.Describes s) {c : Spirv.Builder} (hf : f s.builder = .ok c) (outlines : e.Outlines c)
    (constructs : e.constructs = d.constructs) (last? : e.last? = d.last?) :
    Reaches (tryBuild f) env s () e := by
  have same : s.constructs = e.constructs := hd.constructs.trans constructs.symm
  refine ⟨c, ?_, outlines, rfl, hd.last?.trans last?.symm⟩
  rw [result_tryBuild, hf, ← same]

theorem Fails.of_builder {f : Spirv.Builder → Except Spirv.BuildError Spirv.Builder}
    {err : Spirv.BuildError} (hf : f s.builder = .error err) : Fails (tryBuild f) env s :=
  ⟨_, s, by rw [result_tryBuild, hf]⟩

theorem Reaches.pure (hd : d.Describes s) (a : α) : Reaches (Pure.pure a : Lower α) env s a d := by
  refine ⟨s.builder, ?_, ?_⟩
  all_goals rw [← hd.constructs]
  · rfl
  · exact hd

theorem Reaches.get_bind {k : State → Lower β} (h : Reaches (k s) env s b d) :
    Reaches (get >>= k) env s b d := h

theorem Fails.get_bind {k : State → Lower β} (h : Fails (k s) env s) :
    Fails (get >>= k) env s := h

theorem openBlock_reaches (hd : d.Describes s) :
    Reaches openBlock? env s (d.open?.map fun _ => d.done.length) d := by
  refine ⟨s.builder, ?_, ?_⟩
  all_goals rw [← hd.constructs]
  · rw [← hd.builder.block?]
    rfl
  · exact hd

theorem leaveBlock_reaches (hd : d.Describes s) :
    Reaches (modify fun s => { s with builder := s.builder.leaveBlock }) env s ()
      { d with done := d.nodes, open? := none } := by
  refine ⟨s.builder.leaveBlock, ?_, hd.builder.leaveBlock, rfl, hd.last?⟩
  rw [result_modify, hd.constructs]

theorem fresh_reaches (hd : d.Describes s) :
    Reaches (liftM fresh) env s d.next (d.take 1) := by
  refine ⟨s.builder.fresh.2, ?_, hd.builder.take 1, rfl, hd.last?⟩
  rw [← hd.builder.nextId]
  change _ = (_, { s with builder := s.builder.fresh.2, constructs := d.constructs })
  rw [← hd.constructs]
  rfl

theorem terminate_reaches (hd : d.Describes s) (ho : d.open? = some n) (exit : Exit) :
    Reaches (tryBuild (·.terminate exit.instr)) env s () (d.exit n exit) := by
  obtain ⟨c, hc, outlines⟩ := hd.builder.terminate ho exit
  exact .of_builder hd hc outlines rfl rfl

theorem terminate_fails (hd : d.Describes s) (ho : d.open? = none) (i : Instr) :
    Fails (tryBuild (·.terminate i)) env s :=
  .of_builder (hd.builder.terminate_none ho i)

theorem merge_reaches (hd : d.Describes s) (ho : d.open? = some n) (merge : Merge) :
    Reaches (tryBuild (·.push merge.instr)) env s ()
      { d with open? := some (n.announce merge) } := by
  obtain ⟨c, hc, outlines⟩ := hd.builder.push ho (g := (·.announce merge)) (fun _ => rfl)
    (fun m => m.body_announce merge)
  exact .of_builder hd hc outlines rfl rfl

theorem merge_fails (hd : d.Describes s) (ho : d.open? = none) (i : Instr) :
    Fails (tryBuild (·.push i)) env s :=
  .of_builder (hd.builder.push_none ho i)

theorem beginBlock_reaches (hd : d.Describes s) (ho : d.open? = none) (label : Id) :
    Reaches (beginBlock label) env s () (d.enter label) := by
  obtain ⟨c, hc, outlines⟩ := hd.builder.beginBlock ho label
  exact .of_builder hd (congrArg (Except.map (·.2)) hc) outlines rfl rfl

theorem beginFreshBlock_reaches (hd : d.Describes s) (ho : d.open? = none) :
    Reaches beginFreshBlock env s () ((d.take 1).enter d.next) := by
  obtain ⟨c, hc, outlines⟩ := hd.builder.beginFreshBlock ho
  exact .of_builder hd (congrArg (Except.map (·.2)) hc) outlines rfl rfl

theorem setConstructs_reaches (hd : d.Describes s) (constructs : List Construct) :
    Reaches (setConstructs constructs) env s () { d with constructs } :=
  ⟨s.builder, rfl, hd.builder.withConstructs _, rfl, hd.last?⟩

theorem pushConstruct_reaches (hd : d.Describes s) (c : Construct) :
    Reaches (pushConstruct c) env s () { d with constructs := c :: d.constructs } := by
  refine ⟨s.builder, ?_, hd.builder.withConstructs _, rfl, hd.last?⟩
  rw [pushConstruct, result_modify, hd.constructs]

theorem popConstruct_reaches (hd : d.Describes s) :
    Reaches popConstruct env s d.constructs.head?
      { d with constructs := d.constructs.tail } := by
  refine ⟨s.builder, ?_, hd.builder.withConstructs _, rfl, hd.last?⟩
  rw [popConstruct, result_modifyGet, ← hd.constructs]
  rcases s with ⟨_, _, _, _, _, _, _, _, _, _, _, _, constructs⟩
  cases constructs <;> rfl

end Lower

namespace Draft

/-- Ends the open node and opens one that nothing reaches. -/
def jump? (e : Exit) (d : Draft) : Option Draft :=
  d.open?.map fun n => ((d.exit n e).take 1).enter d.next

/-- Leaves the open node in two ways: into a node that ends with `e`, and into one that goes on. -/
def jumpOn? (condition : Id) (e : Exit) (d : Draft) : Option Draft :=
  d.open?.map fun n =>
    let tested := (d.take 2).exit (n.announce (.selection (d.next + 1)))
      (.test condition d.next (d.next + 1))
    ((tested.enter d.next).exit (.start d.next) e).enter (d.next + 1)

def openIf? (condition : Id) (d : Draft) : Option Draft :=
  d.open?.map fun n =>
    let tested := (d.take 3).exit (n.announce (.selection (d.next + 2)))
      (.test condition d.next (d.next + 1))
    { tested.enter d.next with
      constructs := .branch (d.next + 1) (d.next + 2) false :: d.constructs }

def else? (d : Draft) : Option Draft :=
  match d.constructs, d.open? with
  | .branch elseLabel endLabel false :: rest, some n =>
    some <| Draft.enter { d.exit n (.branch endLabel) with
      constructs := .branch elseLabel endLabel true :: rest } elseLabel
  | _, _ => none

def endIf? (d : Draft) : Option Draft :=
  match d.constructs, d.open? with
  | .branch elseLabel endLabel hadElse :: rest, some n =>
    let left := { d.exit n (.branch endLabel) with constructs := rest }
    let both := if hadElse then left
      else (left.enter elseLabel).exit (.start elseLabel) (.branch endLabel)
    some (both.enter endLabel)
  | _, _ => none

def loop? (d : Draft) : Option Draft :=
  d.open?.map fun n =>
    let header := ((d.take 4).exit n (.branch d.next)).enter d.next
    let entered := header.exit ((Node.start d.next).announce (.loop (d.next + 3) (d.next + 2)))
      (.branch (d.next + 1))
    { entered.enter (d.next + 1) with
      constructs := .loop d.next (d.next + 2) (d.next + 3) :: d.constructs }

def endLoop? (d : Draft) : Option Draft :=
  match d.constructs, d.open? with
  | .loop headerLabel continueLabel breakLabel :: rest, some n =>
    let left := { d.exit n (.branch continueLabel) with constructs := rest }
    let repeated := (left.enter continueLabel).exit (.start continueLabel) (.branch headerLabel)
    some (repeated.enter breakLabel)
  | _, _ => none

def openSwitch? (selector : Id) (d : Draft) : Option Draft :=
  d.open?.map fun n =>
    let header := (d.take 2).exit n (.branch d.next)
    { header with
      done := header.done ++ [.start d.next]
      constructs := .switch
        { header := header.done.length, selector, breakLabel := d.next + 1, defaultLabel? := none,
          currentLabel? := none, cases := [] } :: d.constructs }

/-- Ends the open node in front of a case. -/
def closeCase (label : Id) (d : Draft) : Draft :=
  match d.open? with
  | some n => d.exit n (if Lower.isJump d.last? then .unreachable else .branch label)
  | none => d

theorem constructs_closeCase (label : Id) (d : Draft) :
    (d.closeCase label).constructs = d.constructs := by
  unfold closeCase
  split <;> rfl

theorem open?_closeCase (label : Id) (d : Draft) : (d.closeCase label).open? = none := by
  unfold closeCase
  split
  · rfl
  · next h => exact h

/-- The label of a case and the draft in which its node is open. -/
def caseLabel? (d : Draft) : Option (Id × Draft) :=
  match d.constructs with
  | .switch s :: rest =>
    match Lower.isLabel d.last?, s.currentLabel? with
    | true, some label => some (label, d)
    | _, _ =>
      some (d.next, { ((d.take 1).closeCase d.next).enter d.next with
        constructs := .switch { s with currentLabel? := some d.next } :: rest })
  | _ => none

def modifySwitch (f : Switch → Switch) (d : Draft) : Draft :=
  match d.constructs with
  | .switch s :: rest => { d with constructs := .switch (f s) :: rest }
  | _ => d

/-- Changes the innermost switch, given the label of a case. -/
def addLabel? (f : Id → Switch → Switch) (d : Draft) : Option Draft :=
  d.caseLabel?.map fun (label, d) => d.modifySwitch (f label)

def case? (literal : UInt32) (d : Draft) : Option Draft :=
  d.addLabel? fun label s => Lower.Switch.addCase s literal label

def default? (d : Draft) : Option Draft :=
  d.addLabel? fun label s => { s with defaultLabel? := some label }

/-- The exit of a switch whose cases are known. -/
def switchExit (s : Switch) : Exit :=
  .switch s.selector (s.defaultLabel?.getD s.breakLabel)
    (s.cases.map fun c => (c.literal, c.label))

def endSwitch? (d : Draft) : Option Draft :=
  match d.constructs with
  | .switch s :: rest =>
    let closed := { d with constructs := rest }.closeCase s.breakLabel
    if s.header < closed.done.length then
      some <| Draft.enter
        { closed with
          done := closed.done.modify s.header fun n =>
            (n.announce (.selection s.breakLabel)).exit (switchExit s) } s.breakLabel
    else none
  | _ => none

end Draft

namespace Lower

variable {env : Environment} {s : State} {d : Draft}

/-- A handler does what a function on drafts says, and fails where that is not defined. -/
def Follows (m : Lower Unit) (f : Draft → Option Draft) : Prop :=
  ∀ env s d, d.Describes s →
    match f d with
    | some e => Reaches m env s () e
    | none => Fails m env s

theorem Follows.intro {m : Lower Unit} {f : Draft → Option Draft}
    (reaches : ∀ env s (d e : Draft), d.Describes s → f d = some e → Reaches m env s () e)
    (fails : ∀ env s (d : Draft), d.Describes s → f d = none → Fails m env s) : Follows m f := by
  intro env s d hd
  split
  · next e h => exact reaches env s d e hd h
  · next h => exact fails env s d hd h

theorem Follows.of_open {m : Lower Unit} {f : Node → Draft → Draft}
    (opened : ∀ env s (d : Draft) n, d.Describes s → d.open? = some n →
      Reaches m env s () (f n d))
    (closed : ∀ env s (d : Draft), d.Describes s → d.open? = none → Fails m env s) :
    Follows m fun d => d.open?.map fun n => f n d := by
  intro env s d hd
  beta_reduce
  cases ho : d.open? with
  | none => exact closed env s d hd ho
  | some n => exact opened env s d n hd ho

theorem jumpTo_follows (label : Id) : Follows (jumpTo label) (Draft.jump? (.branch label)) := by
  refine .of_open (fun env s d n hd ho => ?_) (fun env s d hd ho => ?_)
  · refine (terminate_reaches hd ho (.branch label)).bind fun t ht => ?_
    exact beginFreshBlock_reaches ht rfl
  · exact (terminate_fails hd ho _).bind

theorem ret_follows : Follows (do ret; beginFreshBlock) (Draft.jump? .ret) := by
  refine .of_open (fun env s d n hd ho => ?_) (fun env s d hd ho => ?_)
  · refine (terminate_reaches hd ho .ret).bind fun t ht => ?_
    exact beginFreshBlock_reaches ht rfl
  · exact (terminate_fails hd ho _).bind

theorem jumpOn_follows (condition : Id) (e : Exit) :
    Follows (jumpOn condition (tryBuild (·.terminate e.instr))) (Draft.jumpOn? condition e) := by
  refine .of_open (fun env s d n hd ho => ?_) (fun env s d hd ho => ?_)
  · refine (fresh_reaches hd).bind fun t₁ h₁ => ?_
    refine (fresh_reaches h₁).bind fun t₂ h₂ => ?_
    refine (merge_reaches h₂ ho (.selection (d.next + 1))).bind fun t₃ h₃ => ?_
    refine (terminate_reaches h₃ rfl (.test condition d.next (d.next + 1))).bind fun t₄ h₄ => ?_
    refine (beginBlock_reaches h₄ rfl d.next).bind fun t₅ h₅ => ?_
    refine (terminate_reaches h₅ rfl e).bind fun t₆ h₆ => ?_
    exact beginBlock_reaches h₆ rfl (d.next + 1)
  · refine (fresh_reaches hd).bind_fails fun t₁ h₁ => ?_
    refine (fresh_reaches h₁).bind_fails fun t₂ h₂ => ?_
    exact (merge_fails h₂ ho _).bind

theorem openIf_follows (condition : Id) :
    Follows (openIf condition) (Draft.openIf? condition) := by
  refine .of_open (fun env s d n hd ho => ?_) (fun env s d hd ho => ?_)
  · refine (fresh_reaches hd).bind fun t₁ h₁ => ?_
    refine (fresh_reaches h₁).bind fun t₂ h₂ => ?_
    refine (fresh_reaches h₂).bind fun t₃ h₃ => ?_
    refine (merge_reaches h₃ ho (.selection (d.next + 2))).bind fun t₄ h₄ => ?_
    refine (terminate_reaches h₄ rfl (.test condition d.next (d.next + 1))).bind fun t₅ h₅ => ?_
    refine (beginBlock_reaches h₅ rfl d.next).bind fun t₆ h₆ => ?_
    exact pushConstruct_reaches h₆ _
  · refine (fresh_reaches hd).bind_fails fun t₁ h₁ => ?_
    refine (fresh_reaches h₁).bind_fails fun t₂ h₂ => ?_
    refine (fresh_reaches h₂).bind_fails fun t₃ h₃ => ?_
    exact (merge_fails h₃ ho _).bind

theorem lowerLoop_follows : Follows lowerLoop Draft.loop? := by
  refine .of_open (fun env s d n hd ho => ?_) (fun env s d hd ho => ?_)
  · refine (fresh_reaches hd).bind fun t₁ h₁ => ?_
    refine (fresh_reaches h₁).bind fun t₂ h₂ => ?_
    refine (fresh_reaches h₂).bind fun t₃ h₃ => ?_
    refine (fresh_reaches h₃).bind fun t₄ h₄ => ?_
    refine (terminate_reaches h₄ ho (.branch d.next)).bind fun t₅ h₅ => ?_
    refine (beginBlock_reaches h₅ rfl d.next).bind fun t₆ h₆ => ?_
    refine (merge_reaches h₆ rfl (.loop (d.next + 3) (d.next + 2))).bind fun t₇ h₇ => ?_
    refine (terminate_reaches h₇ rfl (.branch (d.next + 1))).bind fun t₈ h₈ => ?_
    refine (beginBlock_reaches h₈ rfl (d.next + 1)).bind fun t₉ h₉ => ?_
    exact pushConstruct_reaches h₉ _
  · refine (fresh_reaches hd).bind_fails fun t₁ h₁ => ?_
    refine (fresh_reaches h₁).bind_fails fun t₂ h₂ => ?_
    refine (fresh_reaches h₂).bind_fails fun t₃ h₃ => ?_
    refine (fresh_reaches h₃).bind_fails fun t₄ h₄ => ?_
    exact (terminate_fails h₄ ho _).bind

theorem lowerElse_follows : Follows lowerElse Draft.else? := by
  refine .intro (fun env s d e hd h => ?_) (fun env s d hd h => ?_)
  · unfold Draft.else? at h
    split at h
    · next elseLabel endLabel rest n hc ho =>
      cases h
      refine Reaches.get_bind ?_
      rw [hd.constructs, hc]
      refine (setConstructs_reaches hd _).bind fun t₁ h₁ => ?_
      refine (terminate_reaches h₁ ho (.branch endLabel)).bind fun t₂ h₂ => ?_
      exact beginBlock_reaches h₂ rfl elseLabel
    · cases h
  · refine Fails.get_bind ?_
    rw [hd.constructs]
    split
    · next elseLabel endLabel hadElse rest hc =>
      cases hadElse with
      | true => exact (Fails.failWith _).bind
      | false =>
        refine (setConstructs_reaches hd _).bind_fails fun t₁ h₁ => ?_
        cases ho : d.open? with
        | none => exact (terminate_fails h₁ ho _).bind
        | some n =>
          rw [Draft.else?, hc, ho] at h
          cases h
    · exact Fails.failWith _

theorem lowerEndIf_follows : Follows lowerEndIf Draft.endIf? := by
  refine .intro (fun env s d e hd h => ?_) (fun env s d hd h => ?_)
  · unfold Draft.endIf? at h
    split at h
    · next elseLabel endLabel hadElse rest n hc ho =>
      cases h
      refine (popConstruct_reaches hd).bind fun t h => ?_
      rw [hc] at h ⊢
      refine (terminate_reaches h ho (.branch endLabel)).bind fun t₁ h₁ => ?_
      cases hadElse with
      | true => exact beginBlock_reaches h₁ rfl endLabel
      | false =>
        refine (beginBlock_reaches h₁ rfl elseLabel).bind fun t₂ h₂ => ?_
        refine (terminate_reaches h₂ rfl (.branch endLabel)).bind fun t₃ h₃ => ?_
        exact beginBlock_reaches h₃ rfl endLabel
    · cases h
  · refine (popConstruct_reaches hd).bind_fails fun t ht => ?_
    split
    · next elseLabel endLabel hadElse hc =>
      obtain ⟨rest, hc⟩ := List.head?_eq_some_iff.1 hc
      cases ho : d.open? with
      | none => exact (terminate_fails ht ho _).bind
      | some n =>
        rw [Draft.endIf?, hc, ho] at h
        cases h
    · exact Fails.failWith _

theorem lowerEndLoop_follows : Follows lowerEndLoop Draft.endLoop? := by
  refine .intro (fun env s d e hd h => ?_) (fun env s d hd h => ?_)
  · unfold Draft.endLoop? at h
    split at h
    · next headerLabel continueLabel breakLabel rest n hc ho =>
      cases h
      refine (popConstruct_reaches hd).bind fun t h => ?_
      rw [hc] at h ⊢
      refine (terminate_reaches h ho (.branch continueLabel)).bind fun t₁ h₁ => ?_
      refine (beginBlock_reaches h₁ rfl continueLabel).bind fun t₂ h₂ => ?_
      refine (terminate_reaches h₂ rfl (.branch headerLabel)).bind fun t₃ h₃ => ?_
      exact beginBlock_reaches h₃ rfl breakLabel
    · cases h
  · refine (popConstruct_reaches hd).bind_fails fun t ht => ?_
    split
    · next headerLabel continueLabel breakLabel hc =>
      obtain ⟨rest, hc⟩ := List.head?_eq_some_iff.1 hc
      cases ho : d.open? with
      | none => exact (terminate_fails ht ho _).bind
      | some n =>
        rw [Draft.endLoop?, hc, ho] at h
        cases h
    · exact Fails.failWith _

theorem openSwitch_follows (selector : Id) :
    Follows (openSwitch selector) (Draft.openSwitch? selector) := by
  refine .of_open (fun env s d n hd ho => ?_) (fun env s d hd ho => ?_)
  · refine (fresh_reaches hd).bind fun t₁ h₁ => ?_
    refine (fresh_reaches h₁).bind fun t₂ h₂ => ?_
    refine (terminate_reaches h₂ ho (.branch d.next)).bind fun t₃ h₃ => ?_
    refine (beginBlock_reaches h₃ rfl d.next).bind fun t₄ h₄ => ?_
    refine (openBlock_reaches h₄).bind fun t₅ h₅ => ?_
    refine (Reaches.pure h₅ (d.done ++ [n.exit (.branch d.next)]).length).bind fun t₆ h₆ => ?_
    refine (leaveBlock_reaches h₆).bind fun t₇ h₇ => ?_
    exact pushConstruct_reaches h₇ _
  · refine (fresh_reaches hd).bind_fails fun t₁ h₁ => ?_
    refine (fresh_reaches h₁).bind_fails fun t₂ h₂ => ?_
    exact (terminate_fails h₂ ho _).bind

theorem lastOp_reaches (hd : d.Describes s) : Reaches lastOp? env s d.last? d := by
  refine ⟨s.builder, ?_, ?_⟩
  all_goals rw [← hd.constructs]
  · rw [← hd.last?]
    rfl
  · exact hd

theorem closeCase_reaches (hd : d.Describes s) (label : Id) :
    Reaches (closeCase label) env s () (d.closeCase label) := by
  refine (openBlock_reaches hd).bind fun t ht => ?_
  unfold Draft.closeCase
  cases ho : d.open? with
  | none => exact Reaches.pure ht ()
  | some n =>
    refine (lastOp_reaches ht).bind fun t' ht' => ?_
    cases isJump d.last? with
    | true => exact terminate_reaches ht' ho .unreachable
    | false => exact terminate_reaches ht' ho (.branch label)

theorem caseLabel_reaches {e : Draft} {label : Id} (hd : d.Describes s)
    (h : d.caseLabel? = some (label, e)) : Reaches caseLabel env s label e := by
  unfold Draft.caseLabel? at h
  refine (lastOp_reaches hd).bind fun t ht => Reaches.get_bind ?_
  rw [ht.constructs]
  cases hc : d.constructs with
  | nil =>
    rw [hc] at h
    cases h
  | cons c rest =>
    rw [hc] at h
    cases c with
    | branch => cases h
    | loop => cases h
    | switch sw =>
      dsimp only at h ⊢
      have opens (h : some (d.next, { ((d.take 1).closeCase d.next).enter d.next with
          constructs := .switch { sw with currentLabel? := some d.next } :: rest }) =
            some (label, e)) : Reaches (do
              let label ← fresh
              closeCase label
              beginBlock label
              setConstructs (.switch { sw with currentLabel? := some label } :: rest)
              return label) env t label e := by
        cases h
        refine (fresh_reaches ht).bind fun t₁ h₁ => ?_
        refine (closeCase_reaches h₁ d.next).bind fun t₂ h₂ => ?_
        refine (beginBlock_reaches h₂ (Draft.open?_closeCase _ _) d.next).bind fun t₃ h₃ => ?_
        refine (setConstructs_reaches h₃ _).bind fun t₄ h₄ => ?_
        exact Reaches.pure h₄ d.next
      cases behind : isLabel d.last? with
      | false =>
        rw [behind] at h
        exact opens h
      | true =>
        rw [behind] at h
        cases hl : sw.currentLabel? with
        | none =>
          rw [hl] at h
          exact opens h
        | some current =>
          rw [hl] at h
          cases h
          exact Reaches.pure ht _

theorem caseLabel_fails (hd : d.Describes s) (h : d.caseLabel? = none) :
    Fails caseLabel env s := by
  unfold Draft.caseLabel? at h
  refine (lastOp_reaches hd).bind_fails fun t ht => Fails.get_bind ?_
  rw [ht.constructs]
  cases hc : d.constructs with
  | nil => exact Fails.failWith _
  | cons c rest =>
    rw [hc] at h
    cases c with
    | branch => exact Fails.failWith _
    | loop => exact Fails.failWith _
    | switch sw =>
      dsimp only at h
      split at h <;> cases h

theorem modifySwitch_reaches (hd : d.Describes s) (f : Switch → Switch) :
    Reaches (modifySwitch f) env s () (d.modifySwitch f) := by
  unfold Draft.modifySwitch
  split
  · next sw rest hc =>
    refine ⟨s.builder, ?_, hd.builder.withConstructs _, rfl, hd.last?⟩
    rw [modifySwitch, result_modify, hd.constructs, hc]
  · next notSwitch =>
    refine ⟨s.builder, ?_, ?_⟩
    all_goals rw [← hd.constructs]
    · rw [modifySwitch, result_modify]
      split
      · next sw rest hc => exact absurd (hd.constructs.symm.trans hc) (notSwitch sw rest)
      · rfl
    · exact hd

theorem addCase_follows (literal : UInt32) :
    Follows (do
      let label ← caseLabel
      modifySwitch fun s => Switch.addCase s literal label) (Draft.case? literal) := by
  refine .intro (fun env s d e hd h => ?_) (fun env s d hd h => ?_)
  · obtain ⟨⟨label, d'⟩, hl, rfl⟩ := Option.map_eq_some_iff.1 h
    exact (caseLabel_reaches hd hl).bind fun t ht => modifySwitch_reaches ht _
  · exact (caseLabel_fails hd (Option.map_eq_none_iff.1 h)).bind

theorem lowerDefault_follows : Follows lowerDefault Draft.default? := by
  refine .intro (fun env s d e hd h => ?_) (fun env s d hd h => ?_)
  · obtain ⟨⟨label, d'⟩, hl, rfl⟩ := Option.map_eq_some_iff.1 h
    exact (caseLabel_reaches hd hl).bind fun t ht => modifySwitch_reaches ht _
  · exact (caseLabel_fails hd (Option.map_eq_none_iff.1 h)).bind

theorem closeHeader_reaches (hd : d.Describes s) (ho : d.open? = none) (sw : Switch)
    (placed : sw.header < d.done.length) :
    Reaches (closeHeader sw) env s ()
      { d with done := d.done.modify sw.header fun n =>
          (n.announce (.selection sw.breakLabel)).exit (Draft.switchExit sw) } := by
  obtain ⟨c₁, c₂, c₃, reopened, merged, ended, outlines⟩ :=
    hd.builder.close ho placed (.selection sw.breakLabel) (Draft.switchExit sw)
  have instr : (Draft.switchExit sw).instr = .control .switch
      (.id sw.selector :: .id (sw.defaultLabel?.getD sw.breakLabel) ::
        sw.cases.flatMap fun c => [.word c.literal, .id c.label]) := by
    rw [Draft.switchExit, Exit.instr, Exit.caseArgs, List.flatMap_map]
  refine ⟨c₃, ?_, outlines, rfl, hd.last?⟩
  rw [closeHeader, result_tryBuild_bind env s reopened, selectionMerge,
    result_tryBuild_bind env _ merged, terminate, result_tryBuild, ← hd.constructs]
  unfold Instr.control at instr ⊢
  rw [← instr, ended]

theorem closeHeader_fails (hd : d.Describes s) (ho : d.open? = none) (sw : Switch)
    (absent : ¬ sw.header < d.done.length) : Fails (closeHeader sw) env s := by
  have refused : s.builder.reopenBlock sw.header = .error .blockNotFound := by
    rw [Spirv.Builder.reopenBlock, hd.builder.function?]
    dsimp only
    rw [hd.builder.size_eq, Draft.nodes_of_none ho, if_neg absent]
  exact (Fails.of_builder refused).bind

theorem lowerEndSwitch_follows : Follows lowerEndSwitch Draft.endSwitch? := by
  refine .intro (fun env s d e hd h => ?_) (fun env s d hd h => ?_)
  · unfold Draft.endSwitch? at h
    split at h
    · next sw rest hc =>
      dsimp only at h
      split at h
      · next placed =>
        cases h
        refine (popConstruct_reaches hd).bind fun t ht => ?_
        rw [hc] at ht ⊢
        refine (closeCase_reaches ht sw.breakLabel).bind fun t₁ h₁ => ?_
        have closed := Draft.open?_closeCase sw.breakLabel { d with constructs := rest }
        refine (closeHeader_reaches h₁ closed sw placed).bind fun t₂ h₂ => ?_
        exact beginBlock_reaches h₂ closed sw.breakLabel
      · cases h
    · cases h
  · refine (popConstruct_reaches hd).bind_fails fun t ht => ?_
    split
    · next sw hc =>
      obtain ⟨rest, hc⟩ := List.head?_eq_some_iff.1 hc
      rw [hc, List.tail_cons] at ht
      refine (closeCase_reaches ht sw.breakLabel).bind_fails fun t₁ h₁ => ?_
      refine (closeHeader_fails h₁ (Draft.open?_closeCase _ _) sw fun placed => ?_).bind
      rw [Draft.endSwitch?, hc] at h
      dsimp only at h
      rw [if_pos placed] at h
      cases h
    · exact Fails.failWith _

end Lower

end ShaderLowering
