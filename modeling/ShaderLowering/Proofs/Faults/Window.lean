import ShaderLowering.Proofs.Faults.Positions

/-!
When the builder refuses. Inside of a body a block is selected, except between a switch and its
first label; so it is only there that an instruction can be refused by the builder.
-/

namespace ShaderLowering

open Spirv (Id)

/-- A switch without a current label has no labels at all. -/
def Construct.Coherent : Construct → Prop
  | .switch sw => sw.currentLabel? = none → sw.cases = [] ∧ sw.defaultLabel? = none
  | _ => True

/-- The innermost construct is a switch that has seen neither a case nor a default. -/
def AwaitsLabel (constructs : List Construct) : Prop :=
  ∃ sw rest, constructs = .switch sw :: rest ∧ sw.currentLabel? = none ∧ sw.cases = [] ∧
    sw.defaultLabel? = none

namespace Draft

variable {d e : Draft} {inst : Instruction} {id : Id}

def Coherent (d : Draft) : Prop := ∀ c ∈ d.constructs, c.Coherent

theorem Coherent.of_constructs (h : d.Coherent) (same : e.constructs = d.constructs) :
    e.Coherent := by
  rw [Coherent, same]
  exact h

theorem Coherent.of_rest {c : Construct} {rest : List Construct} (h : d.Coherent)
    (hc : d.constructs = c :: rest) (left : e.constructs = rest) : e.Coherent := by
  intro k mem
  rw [left] at mem
  refine h k ?_
  rw [hc]
  exact List.mem_cons_of_mem _ mem

theorem Coherent.cons {c : Construct} {rest : List Construct} (hc : e.constructs = c :: rest)
    (first : c.Coherent) (others : ∀ k ∈ rest, k.Coherent) : e.Coherent := by
  rw [Coherent, hc]
  exact List.forall_mem_cons.2 ⟨first, others⟩

theorem Coherent.of_addLabel {f : Id → Switch → Switch} (h : d.Coherent)
    (keeps : ∀ label sw, (f label sw).currentLabel? = sw.currentLabel?)
    (added : d.addLabel? f = some e) : e.Coherent := by
  obtain ⟨sw, rest, hc, placed⟩ := addLabel_eq added
  have others : ∀ k ∈ rest, k.Coherent := fun k mem =>
    h k (by rw [hc]; exact List.mem_cons_of_mem _ mem)
  have labelled {label current : Id} {sw : Switch}
      (has : sw.currentLabel? = some current) : (Construct.switch (f label sw)).Coherent := by
    intro none_
    rw [keeps, has] at none_
    cases none_
  rcases placed with ⟨label, _, current, rfl⟩ | rfl
  · exact .cons rfl (labelled current) others
  · have fresh : { sw with currentLabel? := some d.next }.currentLabel? = some d.next := rfl
    exact .cons rfl (labelled fresh) others

theorem Coherent.of_directs (h : d.Coherent) (directed : Directs inst id d e) : e.Coherent := by
  cases directed with
  | openIf _ he | loop _ he =>
    obtain ⟨n, _, rfl⟩ := Option.map_eq_some_iff.1 he
    exact .cons rfl trivial h
  | openSwitch _ he =>
    obtain ⟨n, _, rfl⟩ := Option.map_eq_some_iff.1 he
    exact .cons rfl (fun _ => ⟨rfl, rfl⟩) h
  | «else» _ he =>
    unfold else? at he
    split at he
    · next hc _ =>
      cases he
      exact .cons rfl trivial fun k mem => h k (by rw [hc]; exact List.mem_cons_of_mem _ mem)
    · cases he
  | endIf _ he =>
    unfold endIf? at he
    split at he
    · next hadElse _ _ hc _ =>
      cases he
      cases hadElse <;> exact h.of_rest hc rfl
    · cases he
  | endLoop _ he =>
    unfold endLoop? at he
    split at he
    · next hc _ =>
      cases he
      exact h.of_rest hc rfl
    · cases he
  | case _ he =>
    refine h.of_addLabel (fun label sw => ?_) he
    unfold Lower.Switch.addCase
    split <;> rfl
  | default _ he =>
    exact h.of_addLabel (f := fun label sw => { sw with defaultLabel? := some label })
      (fun _ _ => rfl) he
  | endSwitch _ he =>
    unfold endSwitch? at he
    split at he
    · next sw rest hc =>
      dsimp only at he
      split at he
      · cases he
        exact h.of_rest hc (constructs_closeCase sw.breakLabel { d with constructs := rest })
      · cases he
    · cases he
  | jump _ _ _ he | jumpOn _ _ _ he =>
    obtain ⟨n, _, rfl⟩ := Option.map_eq_some_iff.1 he
    exact h

theorem Coherent.of_lowers (h : d.Coherent) (lowers : d.Lowers inst e) : e.Coherent := by
  have written {k : Draft} (writes : d.Writes k) : k.Coherent := by
    obtain ⟨_, _, _, _, _, _, rfl⟩ := writes
    exact h
  cases lowers with
  | ordinary _ writes => exact (written writes).of_constructs rfl
  | control _ writes _ directed =>
    exact ((written writes).of_directs (directs_of_control directed)).of_constructs rfl

/-- In front of the first label of a switch, and only there, there is no open node. -/
theorem Regular.open_iff (h : d.Regular) (coherent : d.Coherent) :
    d.open?.isSome = true ↔ ¬AwaitsLabel d.constructs := by
  rw [h.open?]
  cases hc : d.constructs with
  | nil =>
    rw [brackets_nil hc]
    exact iff_of_true rfl fun ⟨_, _, top, _⟩ => by cases top
  | cons c rest =>
    rw [brackets_cons hc]
    cases c with
    | branch _ _ hadElse =>
      cases hadElse <;> exact iff_of_true rfl fun ⟨_, _, top, _⟩ => by cases top
    | loop => exact iff_of_true rfl fun ⟨_, _, top, _⟩ => by cases top
    | switch sw =>
      obtain ⟨top, unlabelled⟩ | ⟨top, label, labelled⟩ := Construct.bracket_switch sw
      · have none_ := coherent (.switch sw) (by rw [hc]; exact List.mem_cons_self) unlabelled
        rw [top]
        exact iff_of_false Bool.noConfusion (not_not.2 ⟨sw, rest, rfl, unlabelled, none_⟩)
      · rw [top]
        refine iff_of_true rfl fun ⟨_, _, same, unlabelled, _⟩ => ?_
        cases same
        rw [labelled] at unlabelled
        cases unlabelled

end Draft

namespace Lower

variable {env : Environment} {s t : State} {inst : Instruction} {e : CompileError} {p : Position}

theorem jumpOn_granted {condition : Id} {jump : Lower Unit} (h : Granted .inside jump .between) :
    Granted .inside (jumpOn condition jump) .inside := by
  refine .emission_bind fun taken => ?_
  refine .emission_bind fun merge => ?_
  refine select_granted taken ?_
  exact finish_granted h merge

theorem jumpIf_granted {jump : Lower Unit} (h : Granted .inside jump .between) :
    Granted .inside (jumpIf inst jump) .inside :=
  .emission_bind fun _ => jumpOn_granted h

theorem jumpTo_granted (label : Id) : Granted .inside (jumpTo label) .inside :=
  .bind (branch_granted label) fun _ => beginFreshBlock_granted

theorem breakTarget_granted : Granted .inside breakTarget .inside :=
  .get_bind fun _ _ => .emission _

theorem continueTarget_granted : Granted .inside continueTarget .inside :=
  .get_bind fun _ _ => .emission _

theorem pushConstruct_granted (c : Construct) : Granted p (pushConstruct c) p :=
  .modify fun _ at_ => at_.of_same rfl rfl

theorem popConstruct_bind_granted {k : Option Construct → Lower Unit}
    (later : ∀ c?, Granted .inside (k c?) .inside) :
    Granted .inside (popConstruct >>= k) .inside := by
  refine .bind (q := .inside) ⟨fun env s c? t at_ ran => ?_, fun env s e t at_ ran => ?_⟩ later
  · rw [popConstruct, result_modifyGet] at ran
    cases ran
    split <;> exact at_
  · cases ran

theorem lowerIf_granted : Granted .inside (lowerIf inst) .inside := by
  refine .emission_bind fun condition => ?_
  refine .emission_bind fun thenLabel => ?_
  refine .emission_bind fun elseLabel => ?_
  refine .emission_bind fun endLabel => ?_
  refine select_granted thenLabel ?_
  exact pushConstruct_granted (.branch elseLabel endLabel false)

theorem lowerElse_granted : Granted .inside lowerElse .inside := by
  refine .get_bind fun s _ => ?_
  split
  · next elseLabel endLabel hadElse rest _ =>
    have divides : Granted .inside (do
        setConstructs (.branch elseLabel endLabel true :: rest)
        branch endLabel
        beginBlock elseLabel) .inside := by
      refine .bind (q := .inside) (.modify fun _ at_ => at_) fun _ => ?_
      exact finish_granted (branch_granted endLabel) elseLabel
    exact .ite (fun _ => .emission_bind fun _ => divides) fun _ => divides
  · exact .emission _

theorem lowerEndIf_granted : Granted .inside lowerEndIf .inside := by
  refine popConstruct_bind_granted fun c? => ?_
  split
  · next elseLabel endLabel hadElse =>
    have ends : Granted .between (beginBlock endLabel) .inside := beginBlock_granted endLabel
    refine .bind (branch_granted endLabel) fun _ => .ite (fun _ => ends) fun _ => ?_
    refine .bind (beginBlock_granted elseLabel) fun _ => ?_
    exact .bind (branch_granted endLabel) fun _ => ends
  · exact .emission _

theorem lowerLoop_granted : Granted .inside lowerLoop .inside := by
  refine .emission_bind fun headerLabel => ?_
  refine .emission_bind fun bodyLabel => ?_
  refine .emission_bind fun continueLabel => ?_
  refine .emission_bind fun breakLabel => ?_
  refine proceed_granted headerLabel headerLabel ?_
  refine .bind (loopMerge_granted breakLabel continueLabel) fun _ => ?_
  refine proceed_granted bodyLabel bodyLabel ?_
  exact pushConstruct_granted (.loop headerLabel continueLabel breakLabel)

theorem lowerEndLoop_granted : Granted .inside lowerEndLoop .inside := by
  refine popConstruct_bind_granted fun c? => ?_
  split
  · next headerLabel continueLabel breakLabel =>
    refine proceed_granted continueLabel continueLabel ?_
    exact finish_granted (branch_granted headerLabel) breakLabel
  · exact .emission _

theorem openSwitch_granted (selector : Id) : Granted .inside (openSwitch selector) .between := by
  refine .emission_bind fun headerLabel => ?_
  refine .emission_bind fun breakLabel => ?_
  refine proceed_granted headerLabel headerLabel ?_
  refine .get_bind fun s _ => ?_
  refine .emission_bind fun header => ?_
  refine .bind (q := .between) (.modify fun _ at_ => ⟨at_.1, rfl⟩) fun _ => ?_
  exact pushConstruct_granted _

theorem lowerSwitch_granted : Granted .inside (lowerSwitch inst) .between :=
  .emission_bind fun selector => openSwitch_granted selector

theorem closeCase_granted (next : Id) : Granted .inside (closeCase next) .between := by
  refine .get_bind fun s at_ => .ite (fun missing => ?_) fun _ => .get_bind fun _ _ => ?_
  · exact absurd at_.2 (by rw [Option.isNone_iff_eq_none.1 missing]; exact Bool.noConfusion)
  · exact .ite (fun _ => terminate_granted _ _) fun _ => branch_granted next

theorem caseLabel_granted : Granted .inside caseLabel .inside := by
  refine .get_bind fun _ _ => .get_bind fun s _ => ?_
  split
  · split
    · exact .pure _
    · refine .emission_bind fun label => ?_
      refine .bind (closeCase_granted label) fun _ => ?_
      refine .bind (beginBlock_granted label) fun _ => ?_
      exact .bind (q := .inside) (.modify fun _ at_ => at_) fun _ => .pure label
  · exact .emission _

theorem modifySwitch_granted (f : Switch → Switch) : Granted p (modifySwitch f) p := by
  refine .modify fun s at_ => ?_
  split
  · exact at_.of_same rfl rfl
  · exact at_

theorem lowerCase_granted : Granted .inside (lowerCase inst) .inside := by
  refine .bind (.emission _) fun op => ?_
  have labels : Granted .inside (do
      let label ← caseLabel
      modifySwitch fun s => Switch.addCase s op.imm.x label) .inside :=
    .bind caseLabel_granted fun _ => modifySwitch_granted _
  exact .ite (fun _ => .bind (.emission _) fun _ => labels) fun _ => labels

theorem lowerDefault_granted : Granted .inside lowerDefault .inside :=
  .bind caseLabel_granted fun _ => modifySwitch_granted _

/-- The header of a switch that is open can be found again. -/
theorem lowerEndSwitch_owns {d : Draft} (hd : d.Describes s) (regular : d.Regular)
    (failed : result lowerEndSwitch env s = (.error e, t)) : e.IsOwn := by
  have other (h : ∀ sw rest, s.constructs ≠ .switch sw :: rest) : e.IsOwn := by
    unfold lowerEndSwitch at failed
    rw [result_bind, popConstruct, result_modifyGet] at failed
    cases hc : s.constructs with
    | nil =>
      rw [hc] at failed
      cases failed
      exact fun _ => CompileError.noConfusion
    | cons c rest =>
      rw [hc] at failed
      cases c with
      | switch sw => exact absurd hc (h sw rest)
      | branch | loop =>
        cases failed
        exact fun _ => CompileError.noConfusion
  by_contra refused
  obtain ⟨sw, rest, hc⟩ : ∃ sw rest, s.constructs = .switch sw :: rest := by
    by_contra none_
    exact refused (other fun sw rest hc => none_ ⟨sw, rest, hc⟩)
  rw [hd.constructs] at hc
  have placed := regular.placed sw (by rw [hc]; exact List.mem_cons_self)
  have longer :
      sw.header < ({ d with constructs := rest }.closeCase sw.breakLabel).done.length := by
    unfold Draft.closeCase
    split
    · exact Nat.lt_of_lt_of_le placed (List.prefix_append _ _).length_le
    · exact placed
  have follows := lowerEndSwitch_follows env s d hd
  unfold Draft.endSwitch? at follows
  rw [hc] at follows
  dsimp only at follows
  rw [if_pos longer] at follows
  obtain ⟨_, ran, _⟩ := follows
  cases failed.symm.trans ran

theorem lowerControlFlow_owns {d : Draft} (hd : d.Describes s) (regular : d.Regular)
    (at_ : s.At .inside) (failed : result (lowerControlFlow inst) env s = (.error e, t)) :
    e.IsOwn := by
  have jumps (label : Id) : Granted .inside (jumpIf inst (branch label)) .inside :=
    jumpIf_granted (branch_granted label)
  have discards : Granted .inside (jumpIf inst (terminate .kill [])) .inside :=
    jumpIf_granted (terminate_granted _ _)
  have granted {q : Position} {m : Lower Unit} (h : Granted .inside m q)
      (failed : result m env s = (.error e, t)) : e.IsOwn :=
    h.owns env s e t at_ failed
  unfold lowerControlFlow at failed
  split at failed
  · exact granted lowerIf_granted failed
  · exact granted lowerElse_granted failed
  · exact granted lowerEndIf_granted failed
  · exact granted lowerLoop_granted failed
  · exact granted lowerEndLoop_granted failed
  · exact granted lowerSwitch_granted failed
  · exact granted lowerCase_granted failed
  · exact granted lowerDefault_granted failed
  · exact lowerEndSwitch_owns hd regular failed
  · exact granted (.bind breakTarget_granted jumpTo_granted) failed
  · exact granted (.bind continueTarget_granted jumpTo_granted) failed
  · exact granted (.bind breakTarget_granted jumps) failed
  · exact granted (.bind continueTarget_granted jumps) failed
  · exact granted (.bind ret_granted fun _ => beginFreshBlock_granted) failed
  · exact granted (jumpIf_granted ret_granted) failed
  · refine granted (q := .inside) (.read_bind fun env => ?_) failed
    exact .ite (fun _ => .bind (.emission _) fun _ => discards) fun _ => discards
  · exact granted (.emission _) failed

/-- Between two instructions, a body that is open can be closed unless constructs are open in it. -/
theorem closeBody_poised (h : s.Poised) :
    (∀ t, result closeBody env s = (.ok (), t) → t.At .outside) ∧
      ∀ e t, result closeBody env s = (.error e, t) → e.IsOwn := by
  have closes {p : Position} (at_ : s.At p) (open_ : p ≠ .outside)
      (inFunction : s.inFunction = true) :
      (∀ t, result closeBody env s = (.ok (), t) → t.At .outside) ∧
        ∀ e t, result closeBody env s = (.error e, t) → e.IsOwn := by
    have granted := closeBody_granted open_
    unfold closeBody
    rw [result_get_bind, inFunction]
    exact ⟨fun t ran => granted.reaches env s () t at_ ran,
      fun e t failed => granted.owns env s e t at_ failed⟩
  cases h with
  | outside rest inFunction =>
    unfold closeBody
    rw [result_get_bind, inFunction]
    refine ⟨fun t ran => ?_, fun e t failed => ?_⟩
    · cases ran
      exact ⟨rest.function?, rest.block?⟩
    · cases failed
  | @inside d describes inFunction _ =>
    have selected : s.builder.function?.isSome = true := by
      rw [describes.builder.function?]
      rfl
    cases hb : s.builder.block? with
    | none => exact closes (p := .between) ⟨selected, hb⟩ nofun inFunction
    | some block => exact closes (p := .inside) ⟨selected, by rw [hb]; rfl⟩ nofun inFunction

theorem beginControlPointPhase_granted : Granted .outside beginControlPointPhase .inside := by
  have begins : Granted .outside (do
      let function ← beginBody "hs_control_point"
      let h ← hullState
      setHullState { h with controlPoint? := some function, phase := .controlPoint }) .inside :=
    .bind (beginBody_granted _) fun _ => .bind (.emission _) fun _ => .interfaceStep _
  exact .bind (.declares hullState_neat) fun _ =>
    .ite (fun _ => .bind (.failWith _) fun _ => begins) fun _ => begins

theorem beginPatchPhase_granted (isJoin : Bool) :
    Granted .outside (beginPatchPhase isJoin) .inside := by
  refine .bind (.declares hullState_neat) fun h => ?_
  refine .bind (.declares (scalarType_neat .u32)) fun word => ?_
  refine .bind (.declares (newVariable_neat word _ _)) fun instanceId => ?_
  refine .bind (.declares (name_neat instanceId _)) fun _ => ?_
  refine .bind (beginBody_granted _) fun function => ?_
  exact .emission_bind fun h => .interfaceStep _

theorem lowerHullPhase_owns (h : s.Poised)
    (failed : result (lowerHullPhase inst) env s = (.error e, t)) : e.IsOwn := by
  unfold lowerHullPhase at failed
  rw [result_bind] at failed
  rcases first : result (liftM hullState) env s with ⟨e' | hull, s₁⟩
  · rw [first] at failed
    cases failed
    have asks : Neat CompileError.IsOwn [] hullState := hullState_neat
    exact asks.reports env s e (congrArg Prod.fst first)
  rw [first] at failed
  dsimp only [andThen] at failed
  rw [result_bind] at failed
  have poised := h.emits (emits_of_result first)
  rcases closed : result closeBody env s₁ with ⟨e' | _, s₂⟩
  · rw [closed] at failed
    cases failed
    exact (closeBody_poised poised).2 e t closed
  rw [closed] at failed
  have at_ := (closeBody_poised poised).1 s₂ closed
  dsimp only [andThen] at failed
  have granted {q : Position} {m : Lower Unit} (h : Granted .outside m q)
      (failed : result m env s₂ = (.error e, t)) : e.IsOwn :=
    h.owns env s₂ e t at_ failed
  split at failed
  · exact granted (.bind (.declares hullState_neat) fun _ =>
      .declaresInterface (setHullState_neat _)) failed
  · exact granted beginControlPointPhase_granted failed
  · exact granted (beginPatchPhase_granted false) failed
  · exact granted (beginPatchPhase_granted true) failed
  · exact granted (.declares (.unsupported _)) failed

theorem lowerDeclaration_owns : Neat CompileError.IsOwn [] (lowerDeclaration inst) :=
  lowerDeclaration_neat (.inr fun _ _ => CompileError.noConfusion)

/-- Where a block is selected, or no body is open, the builder has nothing to refuse. -/
theorem lowerInstruction_owns (h : s.Poised)
    (placed : s.inFunction = true → s.builder.block?.isSome = true)
    (failed : result (lowerInstruction inst) env s = (.error e, t)) : e.IsOwn := by
  have failed : result (lowerByFamily inst) env s = (.error e, t) := by
    rw [lowerInstruction, result_bind] at failed
    rcases ran : result (lowerByFamily inst) env s with ⟨e' | a, u⟩
    · rw [ran] at failed
      exact failed
    · rw [ran] at failed
      cases failed
  have declares {m : Emission Unit} (h : Neat CompileError.IsOwn [] m)
      (failed : result (liftM m) env s = (.error e, t)) : e.IsOwn :=
    h.reports env s e (congrArg Prod.fst failed)
  unfold lowerByFamily at failed
  split at failed
  · exact lowerDeclaration_owns.reports env s e (congrArg Prod.fst failed)
  · exact declares (lowerCustomData_neat inst) failed
  · exact lowerHullPhase_owns h failed
  · exact declares (.unsupported inst) failed
  · exact declares (.unsupported inst) failed
  · rw [result_get_bind] at failed
    cases h with
    | outside _ inFunction =>
      rw [inFunction] at failed
      cases failed
      exact fun _ => CompileError.noConfusion
    | @inside d hd inFunction regular =>
      rw [inFunction] at failed
      have at_ : s.At .inside := ⟨by rw [hd.builder.function?]; rfl, placed inFunction⟩
      change result (lowerExecutable inst) env s = (.error e, t) at failed
      unfold lowerExecutable at failed
      split at failed
      · exact lowerControlFlow_owns hd regular at_ failed
      · exact (Granted.emission (lowerOperation inst)).owns env s e t at_ failed

theorem finish_owns (h : s.Poised) (failed : result finish env s = (.error e, t)) : e.IsOwn := by
  unfold finish at failed
  rw [result_get_bind] at failed
  dsimp only at failed
  split at failed
  · cases failed
    exact fun _ => CompileError.noConfusion
  · rw [result_bind] at failed
    rcases closed : result closeBody env s with ⟨e' | _, u⟩
    · rw [closed] at failed
      cases failed
      exact (closeBody_poised h).2 e t closed
    · rw [closed] at failed
      exact lowerEntryPoint_granted.owns env u e t ((closeBody_poised h).1 u closed) failed

end Lower

/-- The switches of a state that have no current label have no labels. -/
def State.Coherent (s : State) : Prop := ∀ c ∈ s.constructs, c.Coherent

theorem State.Coherent.of_constructs {s t : State} (h : s.Coherent)
    (same : t.constructs = s.constructs) : t.Coherent := by
  rw [Coherent, same]
  exact h

namespace Lower

variable {env : Environment} {s t : State} {inst : Instruction}

theorem begin_spares : Spares begin := by
  refine .bind .read fun env => .bind (.emission _) fun _ => ?_
  refine .bind (.modify fun _ => rfl) fun _ => ?_
  refine .bind (.emission _) fun _ => .bind (.emission _) fun _ => ?_
  refine .bind (.modify fun _ => rfl) fun _ => .bind (.emission _) fun _ => ?_
  exact .ite (.bind (beginBody_spares _) fun _ => .modify fun _ => rfl) (.pure ())

theorem lowerInstruction_coherent (h : s.Poised) (coherent : s.Coherent)
    (ran : result (lowerInstruction inst) env s = (.ok (), t)) : t.Coherent := by
  by_cases phase : inst.family = .hullShaderPhase
  · obtain ⟨_, u, lowered, noted⟩ := result_bind_eq_ok.1 ran
    unfold lowerByFamily at lowered
    rw [phase] at lowered
    cases noted
    exact coherent.of_constructs (lowerHullPhase_spares inst env s _ u lowered)
  · cases h with
    | outside rest inFunction =>
      obtain ⟨_, u, lowered, noted⟩ := result_bind_eq_ok.1 ran
      cases noted
      have notControl : inst.family ≠ .controlFlow := by
        intro control
        have inside := ((lowerByFamily_controlFlow control).1 lowered).1
        rw [inFunction] at inside
        cases inside
      exact coherent.of_constructs (lowerByFamily_emits notControl phase lowered).constructs
    | @inside d describes inFunction regular =>
      obtain ⟨e, lowers, he, _⟩ := lowerInstruction_describes describes phase ran
      have before : d.Coherent := by
        rw [Draft.Coherent, ← describes.constructs]
        exact coherent
      rw [State.Coherent, he.constructs]
      exact before.of_lowers lowers

end Lower

namespace Lowering

variable {env : Environment} {first l : Lowering} {insts : List Instruction}

theorem result_of_run {step : Lower Unit} {e : CompileError} {m : Lowering}
    (failed : l.run step = (.error e, m)) :
    Lower.result step l.environment l.state = (.error e, m.state) := by
  have error := congrArg Prod.fst failed
  have state := congrArg (fun p => p.2.state) failed
  exact Prod.ext error state

theorem start_coherent (started : start env = .ok l) : l.state.Coherent := by
  obtain ⟨stage, _, begun, _⟩ := start_eq_ok.1 started
  have kept := Lower.begin_spares _ _ _ _ begun
  rw [State.Coherent, kept]
  exact List.forall_mem_nil _

theorem steps_coherent {m : Lowering} (h : l.state.Poised) (coherent : l.state.Coherent)
    (ran : l.steps insts = .ok m) : m.state.Coherent := by
  induction insts generalizing l with
  | nil =>
    cases ran
    exact coherent
  | cons inst rest ih =>
    obtain ⟨k, stepped, ran⟩ := steps_cons.1 ran
    have lowered := (step_eq_ok.1 stepped).1
    exact ih (Lower.lowerInstruction_poised h lowered)
      (Lower.lowerInstruction_coherent h coherent lowered) ran

/-- After any instructions that were accepted, an open body means that a function is selected, and
a block of it unless the innermost construct is a switch that has seen neither a case nor a default.
Only an instruction that comes there can be refused by the builder, and the end of the shader
never is. -/
theorem refused_before_label (started : start env = .ok first)
    (accepted : first.steps insts = .ok l) :
    (l.state.inFunction = true → l.state.builder.function?.isSome = true ∧
      (l.state.builder.block?.isSome = true ↔ ¬AwaitsLabel l.state.constructs)) ∧
    (∀ inst e m, l.step inst = (.error (.builder e), m) →
      l.state.inFunction = true ∧ AwaitsLabel l.state.constructs) ∧
    ∀ e, l.finish ≠ .error (.builder e) := by
  have poised := steps_poised (start_poised started) accepted
  have coherent := steps_coherent (start_poised started) (start_coherent started) accepted
  have selects (inFunction : l.state.inFunction = true) :
      l.state.builder.function?.isSome = true ∧
        (l.state.builder.block?.isSome = true ↔ ¬AwaitsLabel l.state.constructs) := by
    cases poised with
    | outside _ outside =>
      rw [inFunction] at outside
      cases outside
    | @inside d describes _ regular =>
      rw [State.Coherent, describes.constructs] at coherent
      rw [describes.builder.function?, describes.builder.block?, describes.constructs,
        Option.isSome_map]
      exact ⟨rfl, regular.open_iff coherent⟩
  refine ⟨selects, fun inst e m failed => ?_, fun e failed => ?_⟩
  · have refused := result_of_run failed
    by_contra placed
    refine Lower.lowerInstruction_owns poised (fun inFunction => ?_) refused e rfl
    exact (selects inFunction).2.2 fun awaits => placed ⟨inFunction, awaits⟩
  · unfold finish close at failed
    split at failed
    · cases failed
    · next e' m ran =>
      cases failed
      exact Lower.finish_owns poised (result_of_run ran) e rfl

/-- Whether a step failed by the builder. -/
def isRefused : Except CompileError Unit → Bool
  | .error (.builder _) => true
  | _ => false

/-- A return right behind the head of a switch is refused by the builder. -/
theorem refused_before_label_return :
    ∃ first l e m, start barePixel = .ok first ∧ first.steps [directive .switch 0] = .ok l ∧
      l.step (directive .ret 0) = (.error (.builder e), m) ∧
      l.state.inFunction = true ∧ AwaitsLabel l.state.constructs ∧
      l.state.builder.function?.isSome = true ∧
      (l.state.builder.block?.isSome = true ↔ ¬AwaitsLabel l.state.constructs) ∧
      ∀ e, l.finish ≠ .error (.builder e) := by
  obtain ⟨first, l, e, m, started, accepted, failed, refuses⟩ :=
    exists_refused barePixel [directive .switch 0] (directive .ret 0)
      (fun l _ => isRefused (l.step (directive .ret 0)).1) (by decide +kernel)
  obtain ⟨selects, only, ends⟩ := refused_before_label started accepted
  rw [failed] at refuses
  cases e with
  | builder e =>
    obtain ⟨inFunction, awaits⟩ := only _ e m failed
    exact ⟨first, l, e, m, started, accepted, failed, inFunction, awaits,
      (selects inFunction).1, (selects inFunction).2, ends⟩
  | _ => cases refuses

end Lowering

end ShaderLowering
