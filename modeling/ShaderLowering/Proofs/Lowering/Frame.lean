import ShaderLowering.Proofs.Lowering.Run

/-!
What lowering leaves alone. Annotations stay for good. Interface registers are declared by
interface declarations, and the place in a hull shader changes where a phase begins; every other
instruction keeps both. Ordinary steps say so in their type, and steps that direct control or open
and close functions are put together from ordinary steps and steps of the builder.
-/

namespace ShaderLowering

section Annotations

open Spirv (Instr Id)

variable {b c : Spirv.Builder}

namespace Spirv.Builder

theorem annotations_of_push {i : Instr} (h : b.push i = .ok c) :
    c.module.annotations = b.module.annotations := by
  obtain ⟨_, _, _, _, rfl⟩ := push_eq_ok.1 h
  rfl

theorem annotations_of_terminate {i : Instr} (h : b.terminate i = .ok c) :
    c.module.annotations = b.module.annotations := by
  unfold terminate at h
  split at h
  · cases h
  · split at h
    · next placed =>
      have same := annotations_of_push placed
      cases h
      exact same
    · cases h

theorem annotations_of_beginBlock {label? : Option Id} {id : Id}
    (h : b.beginBlock label? = .ok (id, c)) : c.module.annotations = b.module.annotations := by
  unfold beginBlock at h
  split at h
  · cases h
  · cases h
  · cases label? with
    | none =>
      cases h
      rfl
    | some label =>
      cases h
      rfl

theorem annotations_of_endFunction (h : b.endFunction = .ok c) :
    c.module.annotations = b.module.annotations := by
  unfold endFunction at h
  split at h
  · cases h
    rfl
  · cases h

theorem annotations_of_reopenBlock {block : Nat} (h : b.reopenBlock block = .ok c) :
    c.module.annotations = b.module.annotations := by
  unfold reopenBlock at h
  split at h
  · cases h
  · dsimp only at h
    split at h
    · cases h
      rfl
    · cases h

theorem annotations_of_beginFunction {returnType functionType id : Id} {id? : Option Id}
    (h : b.beginFunction returnType functionType id? = .ok (id, c)) :
    c.module.annotations = b.module.annotations := by
  unfold beginFunction at h
  split at h
  · cases h
  · cases id? with
    | none =>
      cases h
      rfl
    | some given =>
      cases h
      rfl

theorem annotations_variable (b : Builder) (pointerType : Id) (storage : StorageClass)
    (initial? : Option Id) : (b.variable_ pointerType storage initial?).2.module.annotations =
      b.module.annotations := by
  unfold variable_
  dsimp only
  split
  · next placed => exact (annotations_of_push placed).trans rfl
  · rfl

end Spirv.Builder

/-- Ordinary steps only add annotations. -/
theorem Adds.annotations {s t : State} (h : Adds s t) :
    s.builder.module.annotations.toList <+: t.builder.module.annotations.toList := by
  cases h with
  | fresh | stage | declareNew => exact List.prefix_rfl
  | annotate i =>
    change _ <+: (s.builder.module.annotations.push i).toList
    rw [Array.toList_push]
    exact List.prefix_append _ _
  | declare key =>
    obtain ⟨id, _, _, same⟩ | ⟨_, new⟩ := s.builder.declare_eq key
    · simp only [same, List.prefix_rfl]
    · rw [new]
      exact List.prefix_rfl
  | newVariable p storage initial? =>
    exact s.builder.annotations_variable p storage initial? ▸ List.prefix_rfl
  | temp p => exact s.builder.annotations_variable p .priv none ▸ List.prefix_rfl
  | push _ _ _ _ _ placed => exact Spirv.Builder.annotations_of_push placed ▸ List.prefix_rfl
  | note _ same => exact same.annotations ▸ List.prefix_rfl

theorem Emits.annotations {s t : State} (h : Emits s t) :
    s.builder.module.annotations.toList <+: t.builder.module.annotations.toList := by
  induction h with
  | refl => exact List.prefix_rfl
  | step _ last ih => exact ih.trans last.annotations

end Annotations

/-- What holds between a state and a later one without new interface registers. -/
structure State.Retains (s t : State) : Prop extends s.SameInterface t where
  annotations : s.builder.module.annotations.toList <+: t.builder.module.annotations.toList

namespace State.Retains

variable {s t u : State}

theorem refl (s : State) : s.Retains s :=
  ⟨.refl s, List.prefix_rfl⟩

theorem trans (first : s.Retains t) (second : t.Retains u) : s.Retains u :=
  ⟨first.toSameInterface.trans second.toSameInterface,
    first.annotations.trans second.annotations⟩

/-- Nothing but the builder and what has no say in the interface differs. -/
theorem of_annotations (same : s.SameInterface t)
    (annotations : t.builder.module.annotations = s.builder.module.annotations) : s.Retains t :=
  ⟨same, annotations ▸ List.prefix_rfl⟩

end State.Retains

namespace Lower

variable {α β : Type}

/-- A step that leaves the interface registers as they are, whether it succeeds or not. -/
def Keeps (m : Lower α) : Prop :=
  ∀ env (s : State), s.Retains (result m env s).2

namespace Keeps

protected theorem pure (a : α) : Keeps (pure a) :=
  fun _ s => .refl s

theorem get : Keeps get :=
  fun _ s => .refl s

theorem read : Keeps read :=
  fun _ s => .refl s

theorem lift (m : Emission α) : Keeps (liftM m) :=
  fun env s => ⟨m.keeps env s, (m.emits env s).annotations⟩

theorem modify {f : State → State} (same : ∀ s : State, s.SameInterface (f s))
    (annotations : ∀ s, (f s).builder.module.annotations = s.builder.module.annotations) :
    Keeps (modify f) :=
  fun _ s => .of_annotations (same s) (annotations s)

theorem tryBuild {f : Spirv.Builder → Except Spirv.BuildError Spirv.Builder}
    (annotations : ∀ {b c}, f b = .ok c → c.module.annotations = b.module.annotations) :
    Keeps (tryBuild f) := by
  intro env s
  rw [result_tryBuild]
  split
  · next c built => exact .of_annotations ⟨rfl, rfl, rfl, rfl, rfl⟩ (annotations built)
  · exact .refl s

protected theorem bind {m : Lower α} {f : α → Lower β} (first : Keeps m)
    (second : ∀ a, Keeps (f a)) : Keeps (m >>= f) := by
  intro env s
  rw [result_bind]
  have kept := first env s
  cases ran : result m env s with
  | mk r t =>
    rw [ran] at kept
    cases r with
    | error e => exact kept
    | ok a => exact kept.trans (second a env t)

theorem lift_bind {m : Emission α} {f : α → Lower β} (later : ∀ a, Keeps (f a)) :
    Keeps (liftM m >>= f) :=
  .bind (lift m) later

theorem and_then {m : Lower Unit} {k : Unit → Lower β} (first : Keeps m) (later : Keeps (k ())) :
    Keeps (m >>= k) :=
  .bind first fun _ => later

theorem ite {p : Prop} [Decidable p] {m n : Lower α} (yes : Keeps m) (no : Keeps n) :
    Keeps (if p then m else n) := by
  split
  · exact yes
  · exact no

/-- A step that succeeds. -/
theorem of_ok {m : Lower α} (h : Keeps m) {env : Environment} {s t : State}
    {r : Except CompileError α} (run : result m env s = (r, t)) : s.Retains t := by
  have kept := h env s
  rwa [run] at kept

end Keeps

theorem terminate_keeps (op : Spirv.ControlOp) (args : List Spirv.Arg) :
    Keeps (terminate op args) :=
  .tryBuild Spirv.Builder.annotations_of_terminate

theorem push_keeps (i : Spirv.Instr) : Keeps (tryBuild (·.push i)) :=
  .tryBuild Spirv.Builder.annotations_of_push

theorem beginBlock_keeps (label? : Option Spirv.Id) :
    Keeps (tryBuild fun b => (b.beginBlock label?).map (·.2)) := by
  refine .tryBuild fun {b c} built => ?_
  cases begun : b.beginBlock label? with
  | error e =>
    rw [begun] at built
    cases built
  | ok p =>
    rw [begun] at built
    cases built
    exact Spirv.Builder.annotations_of_beginBlock begun

theorem endFunction_keeps : Keeps endFunction :=
  .tryBuild Spirv.Builder.annotations_of_endFunction

theorem setConstructs_keeps (constructs : List Construct) : Keeps (setConstructs constructs) :=
  .modify (fun _ => ⟨rfl, rfl, rfl, rfl, rfl⟩) fun _ => rfl

theorem pushConstruct_keeps (c : Construct) : Keeps (pushConstruct c) :=
  .modify (fun _ => ⟨rfl, rfl, rfl, rfl, rfl⟩) fun _ => rfl

theorem popConstruct_keeps : Keeps popConstruct := by
  intro env s
  rw [popConstruct, result_modifyGet]
  split
  · exact .refl s
  · exact .of_annotations ⟨rfl, rfl, rfl, rfl, rfl⟩ rfl

theorem modifySwitch_keeps (f : Switch → Switch) : Keeps (modifySwitch f) := by
  refine .modify (fun s => ?_) fun s => ?_
  · split <;> exact ⟨rfl, rfl, rfl, rfl, rfl⟩
  · split <;> rfl

theorem openBlock_keeps : Keeps openBlock? :=
  .bind .get fun _ => .pure _

theorem jumpOn_keeps {condition : Spirv.Id} {jump : Lower Unit} (h : Keeps jump) :
    Keeps (jumpOn condition jump) := by
  refine .lift_bind fun taken => .lift_bind fun merge => ?_
  refine .and_then (push_keeps _) <| .and_then (terminate_keeps _ _) ?_
  exact .and_then (beginBlock_keeps _) <| .and_then h (beginBlock_keeps _)

theorem jumpIf_keeps (inst : Instruction) {jump : Lower Unit} (h : Keeps jump) :
    Keeps (jumpIf inst jump) :=
  .lift_bind fun _ => jumpOn_keeps h

theorem jumpTo_keeps (label : Spirv.Id) : Keeps (jumpTo label) :=
  .and_then (terminate_keeps _ _) (beginBlock_keeps _)

theorem breakTarget_keeps : Keeps breakTarget :=
  .bind .get fun _ => .lift _

theorem continueTarget_keeps : Keeps continueTarget :=
  .bind .get fun _ => .lift _

theorem lowerIf_keeps (inst : Instruction) : Keeps (lowerIf inst) := by
  refine .lift_bind fun condition => .lift_bind fun _ => .lift_bind fun _ => .lift_bind fun _ => ?_
  refine .and_then (push_keeps _) <| .and_then (terminate_keeps _ _) ?_
  exact .and_then (beginBlock_keeps _) (pushConstruct_keeps _)

theorem lowerElse_keeps : Keeps lowerElse := by
  refine .bind .get fun s => ?_
  split
  · have ends (constructs : List Construct) (elseLabel endLabel : Spirv.Id) : Keeps (do
        setConstructs constructs
        branch endLabel
        beginBlock elseLabel) :=
      .and_then (setConstructs_keeps constructs) <|
        .and_then (terminate_keeps _ _) (beginBlock_keeps _)
    exact .ite (.lift_bind fun _ => ends _ _ _) (ends _ _ _)
  · exact .lift _

theorem lowerEndIf_keeps : Keeps lowerEndIf := by
  refine .bind popConstruct_keeps fun c? => ?_
  split
  · refine .and_then (terminate_keeps _ _) (.ite (beginBlock_keeps _) ?_)
    exact .and_then (beginBlock_keeps _) <| .and_then (terminate_keeps _ _) (beginBlock_keeps _)
  · exact .lift _

theorem lowerLoop_keeps : Keeps lowerLoop := by
  refine .lift_bind fun _ => .lift_bind fun _ => .lift_bind fun _ => .lift_bind fun _ => ?_
  refine .and_then (terminate_keeps _ _) <| .and_then (beginBlock_keeps _) ?_
  refine .and_then (push_keeps _) <| .and_then (terminate_keeps _ _) ?_
  exact .and_then (beginBlock_keeps _) (pushConstruct_keeps _)

theorem lowerEndLoop_keeps : Keeps lowerEndLoop := by
  refine .bind popConstruct_keeps fun c? => ?_
  split
  · refine .and_then (terminate_keeps _ _) <| .and_then (beginBlock_keeps _) ?_
    exact .and_then (terminate_keeps _ _) (beginBlock_keeps _)
  · exact .lift _

theorem lowerSwitch_keeps (inst : Instruction) : Keeps (lowerSwitch inst) := by
  refine .lift_bind fun selector => .lift_bind fun _ => .lift_bind fun _ => ?_
  refine .and_then (terminate_keeps _ _) <| .and_then (beginBlock_keeps _) ?_
  refine .bind openBlock_keeps fun _ => .lift_bind fun header => .and_then ?_ ?_
  · exact .modify (fun _ => ⟨rfl, rfl, rfl, rfl, rfl⟩) fun _ => rfl
  · exact pushConstruct_keeps _

theorem lastOp_keeps : Keeps lastOp? :=
  .bind .get fun _ => .pure _

theorem closeCase_keeps (next : Spirv.Id) : Keeps (closeCase next) := by
  refine .bind openBlock_keeps fun _ => .ite (.pure ()) ?_
  exact .bind lastOp_keeps fun _ => .ite (terminate_keeps _ _) (terminate_keeps _ _)

theorem caseLabel_keeps : Keeps caseLabel := by
  refine .bind lastOp_keeps fun last? => .bind .get fun s => ?_
  split
  · split
    · exact .pure _
    · refine .lift_bind fun label => .and_then (closeCase_keeps label) ?_
      exact .and_then (beginBlock_keeps _) <| .and_then (setConstructs_keeps _) (.pure _)
  · exact .lift _

theorem lowerCase_keeps (inst : Instruction) : Keeps (lowerCase inst) := by
  have adds (literal : UInt32) : Keeps (do
      let label ← caseLabel
      modifySwitch fun s => Switch.addCase s literal label) :=
    .bind caseLabel_keeps fun _ => modifySwitch_keeps _
  exact .lift_bind fun op => .ite (.lift_bind fun _ => adds op.imm.x) (adds op.imm.x)

theorem lowerDefault_keeps : Keeps lowerDefault :=
  .bind caseLabel_keeps fun _ => modifySwitch_keeps _

theorem closeHeader_keeps (s : Switch) : Keeps (closeHeader s) :=
  .and_then (.tryBuild Spirv.Builder.annotations_of_reopenBlock) <|
    .and_then (push_keeps _) (terminate_keeps _ _)

theorem lowerEndSwitch_keeps : Keeps lowerEndSwitch := by
  refine .bind popConstruct_keeps fun c? => ?_
  split
  · refine .and_then (closeCase_keeps _) <| .and_then (closeHeader_keeps _) (beginBlock_keeps _)
  · exact .lift _

theorem lowerControlFlow_keeps (inst : Instruction) : Keeps (lowerControlFlow inst) := by
  unfold lowerControlFlow
  split
  · exact lowerIf_keeps inst
  · exact lowerElse_keeps
  · exact lowerEndIf_keeps
  · exact lowerLoop_keeps
  · exact lowerEndLoop_keeps
  · exact lowerSwitch_keeps inst
  · exact lowerCase_keeps inst
  · exact lowerDefault_keeps
  · exact lowerEndSwitch_keeps
  · exact .bind breakTarget_keeps jumpTo_keeps
  · exact .bind continueTarget_keeps jumpTo_keeps
  · exact .bind breakTarget_keeps fun _ => jumpIf_keeps inst (terminate_keeps _ _)
  · exact .bind continueTarget_keeps fun _ => jumpIf_keeps inst (terminate_keeps _ _)
  · exact .and_then (terminate_keeps _ _) (beginBlock_keeps _)
  · exact jumpIf_keeps inst (terminate_keeps _ _)
  · have discards := jumpIf_keeps inst (terminate_keeps .kill [])
    exact .bind .read fun _ => .ite (.lift_bind fun _ => discards) discards
  · exact .lift _

theorem beginFunction_keeps (returnType functionType : Spirv.Id) (id? : Option Spirv.Id) :
    Keeps (beginFunction returnType functionType id?) := by
  intro env s
  unfold beginFunction
  rw [result_get_bind]
  split
  · next id b begun =>
    exact .of_annotations ⟨rfl, rfl, rfl, rfl, rfl⟩
      (Spirv.Builder.annotations_of_beginFunction begun)
  · exact .refl s

theorem openFunction_keeps (id? : Option Spirv.Id) : Keeps (openFunction id?) :=
  .lift_bind fun _ => .lift_bind fun _ => beginFunction_keeps _ _ id?

theorem beginBody_keeps (text : String) : Keeps (beginBody text) := by
  refine .bind (openFunction_keeps none) fun id => .lift_bind fun _ => ?_
  refine .and_then (beginBlock_keeps _) <| .and_then ?_ (.pure _)
  exact .modify (fun _ => ⟨rfl, rfl, rfl, rfl, rfl⟩) fun _ => rfl

theorem closeBody_keeps : Keeps closeBody := by
  have last : Keeps (do
      endFunction
      modify fun s => { s with inFunction := false }) :=
    .and_then endFunction_keeps (.modify (fun _ => ⟨rfl, rfl, rfl, rfl, rfl⟩) fun _ => rfl)
  have ends : Keeps (do
      if (← openBlock?).isSome then ret
      endFunction
      modify fun s => { s with inFunction := false }) :=
    .bind openBlock_keeps fun _ => .ite (.and_then (terminate_keeps _ _) last) last
  refine .bind .get fun s => .ite ?_ (.pure ())
  exact .bind .get fun s => .ite (.lift_bind fun _ => ends) ends

section Phases

variable {env : Environment} {s t : State}

/-- Setting the state of a hull shader that has just been asked for it. -/
theorem setHullState_eq {f : HullState → HullState} (run : result (do
      let h ← hullState
      setHullState (f h)) env s = (.ok (), t)) :
    ∃ h, s.stage.hull? = some h ∧ t = { s with stage := .hull (f h) } := by
  obtain ⟨h, u, asked, sets⟩ := result_bind_eq_ok.1 run
  have known : s.stage.hull? = some h ∧ s = u := by
    change (orFault s.stage.hull? .notInHull).run env s = _ at asked
    cases hull : s.stage.hull? with
    | none =>
      rw [hull] at asked
      cases asked
    | some h' =>
      rw [hull] at asked
      cases asked
      exact ⟨rfl, rfl⟩
  obtain ⟨hull, rfl⟩ := known
  refine ⟨h, hull, ?_⟩
  have set : t = { s with stage := if s.stage.hull?.isSome then .hull (f h) else s.stage } := by
    cases sets
    rfl
  rw [set, hull]
  rfl

/-- A state in a given phase of a hull shader, which differs from another at most in what the stage
knows of itself besides what steps may change anywhere. -/
def Enters (phase : HullPhase) (s t : State) : Prop :=
  ∃ u : State, s.Retains u ∧ t = { u with stage := t.stage } ∧ t.stage.phase? = some phase

theorem Enters.of_keeps {u : State} {phase : HullPhase} (before : s.Retains u)
    (after : Enters phase u t) : Enters phase s t := by
  obtain ⟨v, same, rest⟩ := after
  exact ⟨v, before.trans same, rest⟩

theorem enters_of_set {f : HullState → HullState} {phase : HullPhase}
    (sets : ∀ h, (f h).phase = phase) (run : result (do
      let h ← hullState
      setHullState (f h)) env s = (.ok (), t)) : Enters phase s t := by
  obtain ⟨h, _, rfl⟩ := setHullState_eq run
  exact ⟨s, .refl s, rfl, congrArg some (sets h)⟩

theorem beginControlPointPhase_enters
    (run : result beginControlPointPhase env s = (.ok (), t)) : Enters .controlPoint s t := by
  obtain ⟨h, s₁, asked, run⟩ := result_bind_eq_ok.1 run
  have begins (u : State) (kept : s.Retains u) (run : result (do
      let function ← beginBody "hs_control_point"
      let h ← hullState
      setHullState { h with controlPoint? := some function, phase := .controlPoint }) env u =
        (.ok (), t)) : Enters .controlPoint s t := by
    obtain ⟨function, v, opened, run⟩ := result_bind_eq_ok.1 run
    have kept := kept.trans ((beginBody_keeps _).of_ok opened)
    exact .of_keeps kept (enters_of_set (fun _ => rfl) run)
  have kept : s.Retains s₁ := (Keeps.lift _).of_ok asked
  split at run
  · cases run
  · exact begins s₁ kept run

theorem beginPatchPhase_enters {isJoin : Bool}
    (run : result (beginPatchPhase isJoin) env s = (.ok (), t)) :
    ∃ phase, phase ≠ .controlPoint ∧ Enters phase s t := by
  obtain ⟨h, s₁, asked, run⟩ := result_bind_eq_ok.1 run
  obtain ⟨word, s₂, typed, run⟩ := result_bind_eq_ok.1 run
  obtain ⟨instanceId, s₃, made, run⟩ := result_bind_eq_ok.1 run
  obtain ⟨_, s₄, named, run⟩ := result_bind_eq_ok.1 run
  obtain ⟨function, s₅, opened, run⟩ := result_bind_eq_ok.1 run
  have kept₃ : s.Retains s₃ := (((Keeps.lift _).of_ok asked).trans
    ((Keeps.lift _).of_ok typed)).trans ((Keeps.lift _).of_ok made)
  have kept := (kept₃.trans ((Keeps.lift _).of_ok named)).trans
    ((beginBody_keeps _).of_ok opened)
  cases isJoin with
  | true => exact ⟨.join h.join.length, nofun, .of_keeps kept (enters_of_set (fun _ => rfl) run)⟩
  | false => exact ⟨.fork h.fork.length, nofun, .of_keeps kept (enters_of_set (fun _ => rfl) run)⟩

/-- The control-point phase begins with its own instruction, and any other phase ends it. -/
theorem lowerHullPhase_enters {inst : Instruction}
    (run : result (lowerHullPhase inst) env s = (.ok (), t)) :
    ∃ phase, Enters phase s t ∧
      (phase = .controlPoint ↔ inst.op? = some .hsControlPointPhase) := by
  obtain ⟨_, s₁, asked, run⟩ := result_bind_eq_ok.1 run
  obtain ⟨_, s₂, closed, run⟩ := result_bind_eq_ok.1 run
  have kept : s.Retains s₂ :=
    ((Keeps.lift _).of_ok asked).trans (closeBody_keeps.of_ok closed)
  have other {op : Opcode} (known : inst.op? = some op) (ne : op ≠ .hsControlPointPhase)
      (h : ∃ phase, phase ≠ .controlPoint ∧ Enters phase s₂ t) :
      ∃ phase, Enters phase s t ∧
        (phase = .controlPoint ↔ inst.op? = some .hsControlPointPhase) := by
    obtain ⟨phase, differs, enters⟩ := h
    refine ⟨phase, .of_keeps kept enters, fun h => absurd h differs, fun h => ?_⟩
    rw [known] at h
    exact absurd (Option.some.inj h) ne
  split at run
  · next op =>
    exact other op (by decide) ⟨.declarations, nofun, enters_of_set (fun _ => rfl) run⟩
  · next op =>
    have enters := beginControlPointPhase_enters run
    exact ⟨.controlPoint, .of_keeps kept enters, fun _ => op, fun _ => rfl⟩
  · next op => exact other op (by decide) (beginPatchPhase_enters run)
  · next op => exact other op (by decide) (beginPatchPhase_enters run)
  · cases run

end Phases

end Lower

end ShaderLowering
