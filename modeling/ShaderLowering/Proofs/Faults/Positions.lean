import ShaderLowering.Proofs.Control.Refusal
import ShaderLowering.Proofs.Faults.Lowered

/-!
Where the builder stands. A step is granted between two positions if from the first it reaches the
second, or fails with an error of the lowering's own. Steps on blocks and functions are granted
where they fit, ordinary steps inside of blocks, and those that only declare everywhere.
-/

namespace ShaderLowering

open Spirv (Id Builder)

/-- Every error but those of the builder. -/
def CompileError.IsOwn (e : CompileError) : Prop :=
  ∀ b, e ≠ .builder b

instance : Reporting CompileError.IsOwn where
  fault _ _ _ := CompileError.noConfusion
  unsupported _ _ _ _ := CompileError.noConfusion
  slot _ _ _ := CompileError.noConfusion
  stage _ _ := CompileError.noConfusion

/-- Whether a function and a block of it are selected. -/
inductive Position
  | outside
  | between
  | inside
deriving DecidableEq

def State.At : Position → State → Prop
  | .outside, s => s.builder.function? = none ∧ s.builder.block? = none
  | .between, s => s.builder.function?.isSome = true ∧ s.builder.block? = none
  | .inside, s => s.builder.function?.isSome = true ∧ s.builder.block?.isSome = true

namespace State.At

variable {s t : State} {p : Position}

theorem of_same (h : s.At p) (function? : t.builder.function? = s.builder.function?)
    (block? : t.builder.block? = s.builder.block?) : t.At p := by
  cases p with
  | outside => exact ⟨function?.trans h.1, block?.trans h.2⟩
  | between => exact ⟨(congrArg Option.isSome function?).trans h.1, block?.trans h.2⟩
  | inside =>
    exact ⟨(congrArg Option.isSome function?).trans h.1, (congrArg Option.isSome block?).trans h.2⟩

theorem emits (h : s.At p) (added : Emits s t) : t.At p :=
  h.of_same added.function? added.block?

end State.At

namespace Lower

variable {α β γ : Type} {p q r : Position}

/-- From the first position, a step reaches the second or fails with an error of its own. -/
structure Granted (p : Position) (m : Lower α) (q : Position) : Prop where
  reaches : ∀ env s a t, s.At p → result m env s = (.ok a, t) → t.At q
  owns : ∀ env s e t, s.At p → result m env s = (.error e, t) → e.IsOwn

namespace Granted

theorem pure (a : α) : Granted p (Pure.pure a) p where
  reaches _ _ _ _ at_ ran := by
    cases ran
    exact at_
  owns _ _ _ _ _ ran := by cases ran

theorem bind {m : Lower α} {k : α → Lower β} (first : Granted p m q)
    (later : ∀ a, Granted q (k a) r) : Granted p (m >>= k) r where
  reaches env s b u at_ ran := by
    obtain ⟨a, t, ran₁, ran₂⟩ := result_bind_eq_ok.1 ran
    exact (later a).reaches env t b u (first.reaches env s a t at_ ran₁) ran₂
  owns env s e u at_ ran := by
    rw [result_bind] at ran
    rcases ran₁ : result m env s with ⟨e' | a, t⟩
    · rw [ran₁] at ran
      cases ran
      exact first.owns env s e u at_ ran₁
    · rw [ran₁] at ran
      exact (later a).owns env t e u (first.reaches env s a t at_ ran₁) ran

theorem get_bind {k : State → Lower β} (later : ∀ s, s.At p → Granted p (k s) q) :
    Granted p (MonadState.get >>= k) q where
  reaches env s b t at_ ran := (later s at_).reaches env s b t at_ ran
  owns env s e t at_ ran := (later s at_).owns env s e t at_ ran

theorem read_bind {k : Environment → Lower β} (later : ∀ env, Granted p (k env) q) :
    Granted p (MonadReader.read >>= k) q where
  reaches env s b t at_ ran := (later env).reaches env s b t at_ ran
  owns env s e t at_ ran := (later env).owns env s e t at_ ran

theorem ite {c : Prop} [Decidable c] {yes no : Lower α} (hyes : c → Granted p yes q)
    (hno : ¬c → Granted p no q) : Granted p (if c then yes else no) q := by
  split
  · next h => exact hyes h
  · next h => exact hno h

theorem modify {f : State → State} (moves : ∀ s, s.At p → (f s).At q) :
    Granted p (modify f) q where
  reaches _ s _ _ at_ ran := by
    cases ran
    exact moves s at_
  owns _ _ _ _ _ ran := by cases ran

theorem failWith (f : Fault) : Granted p (liftM (failWith f : Emission α)) q where
  reaches _ _ _ _ _ ran := by cases ran
  owns _ _ _ _ _ ran := by
    cases ran
    exact fun _ => CompileError.noConfusion

/-- What the builder accepts everywhere in a position. -/
theorem tryBuild {f : Builder → Except Spirv.BuildError Builder}
    (accepts : ∀ s : State, s.At p →
      ∃ b, f s.builder = .ok b ∧ State.At q { s with builder := b }) :
    Granted p (tryBuild f) q where
  reaches env s a t at_ ran := by
    obtain ⟨b, accepted, there⟩ := accepts s at_
    rw [result_tryBuild, accepted] at ran
    cases ran
    exact there
  owns env s e t at_ ran := by
    obtain ⟨b, accepted, _⟩ := accepts s at_
    rw [result_tryBuild, accepted] at ran
    cases ran

/-- A step that declares interface registers and writes to the block it is in. -/
theorem interfaceStep (m : InterfaceStep α) : Granted .inside (liftM m) .inside where
  reaches _ _ _ _ at_ ran := at_.emits (m.emits_of_run ran)
  owns env s e t at_ ran b := by
    rintro rfl
    exact m.refused env s b (congrArg Prod.fst ran) at_

/-- An ordinary step. -/
theorem emission (m : Emission α) : Granted .inside (liftM m) .inside :=
  interfaceStep m.toInterfaceStep

theorem emission_bind {m : Emission α} {k : α → Lower β} (later : ∀ a, Granted .inside (k a) q) :
    Granted .inside (liftM m >>= k) q :=
  .bind (.emission m) later

/-- A step that only declares does so anywhere. -/
theorem declares {m : Emission α} (h : Neat CompileError.IsOwn [] m) :
    Granted p (liftM m) p where
  reaches _ _ _ _ at_ ran := at_.emits (m.emits_of_run ran)
  owns env s e _ _ ran := h.reports env s e (congrArg Prod.fst ran)

theorem declaresInterface {m : InterfaceStep α} (h : Neat CompileError.IsOwn [] m) :
    Granted p (liftM m) p where
  reaches _ _ _ _ at_ ran := at_.emits (m.emits_of_run ran)
  owns env s e _ _ ran := h.reports env s e (congrArg Prod.fst ran)

theorem forIn {f : α → γ → Lower (ForInStep γ)} (each : ∀ a c, Granted p (f a c) p)
    (list : List α) (c : γ) : Granted p (ForIn.forIn list c f : Lower γ) p := by
  induction list generalizing c with
  | nil =>
    rw [List.forIn_nil]
    exact .pure c
  | cons a rest ih =>
    rw [List.forIn_cons]
    refine .bind (each a c) fun step => ?_
    cases step with
    | done c => exact .pure c
    | yield c => exact ih c

end Granted

theorem push_granted (i : Spirv.Instr) : Granted .inside (tryBuild (·.push i)) .inside := by
  refine .tryBuild fun s at_ => ?_
  obtain ⟨function, hf⟩ := Option.isSome_iff_exists.1 at_.1
  obtain ⟨block, hb⟩ := Option.isSome_iff_exists.1 at_.2
  exact ⟨_, Builder.push_eq_ok.2 ⟨function, block, hf, hb, rfl⟩, at_.of_same rfl rfl⟩

theorem terminate_granted (op : Spirv.ControlOp) (args : List Spirv.Arg) :
    Granted .inside (terminate op args) .between := by
  refine .tryBuild fun s at_ => ?_
  obtain ⟨function, hf⟩ := Option.isSome_iff_exists.1 at_.1
  obtain ⟨block, hb⟩ := Option.isSome_iff_exists.1 at_.2
  refine ⟨{ s.builder.pushTo function block (.control op args) with block? := none }, ?_,
    at_.1, rfl⟩
  unfold Builder.terminate
  rw [hb]
  dsimp only
  rw [Builder.push_eq_ok.2 ⟨function, block, hf, hb, rfl⟩]

theorem branch_granted (label : Id) : Granted .inside (branch label) .between :=
  terminate_granted _ _

theorem branchConditional_granted (condition ifTrue ifFalse : Id) :
    Granted .inside (branchConditional condition ifTrue ifFalse) .between :=
  terminate_granted _ _

theorem ret_granted : Granted .inside ret .between :=
  terminate_granted _ _

theorem selectionMerge_granted (label : Id) : Granted .inside (selectionMerge label) .inside :=
  push_granted _

theorem loopMerge_granted (breakLabel continueLabel : Id) :
    Granted .inside (loopMerge breakLabel continueLabel) .inside :=
  push_granted _

theorem beginBlock?_granted (label? : Option Id) :
    Granted .between (tryBuild fun b => (b.beginBlock label?).map (·.2)) .inside := by
  refine .tryBuild fun s at_ => ?_
  obtain ⟨function, hf⟩ := Option.isSome_iff_exists.1 at_.1
  unfold Builder.beginBlock
  rw [hf, at_.2]
  cases label? with
  | none => exact ⟨_, rfl, at_.1, rfl⟩
  | some label => exact ⟨_, rfl, at_.1, rfl⟩

theorem beginBlock_granted (label : Id) : Granted .between (beginBlock label) .inside :=
  beginBlock?_granted (some label)

theorem beginFreshBlock_granted : Granted .between beginFreshBlock .inside :=
  beginBlock?_granted none

/-- A branch, and the block that is begun behind it. -/
theorem proceed_granted {k : Lower α} (label next : Id) (later : Granted .inside k q) :
    Granted .inside (do
      branch label
      beginBlock next
      k) q := by
  have leaves := branch_granted label
  have begins := beginBlock_granted next
  exact .bind leaves fun _ => .bind begins fun _ => later

/-- A selection, and the block that is begun behind it. -/
theorem select_granted {k : Lower α} {merge condition ifTrue ifFalse : Id} (next : Id)
    (later : Granted .inside k q) :
    Granted .inside (do
      selectionMerge merge
      branchConditional condition ifTrue ifFalse
      beginBlock next
      k) q := by
  have merges := selectionMerge_granted merge
  have divides := branchConditional_granted condition ifTrue ifFalse
  have begins := beginBlock_granted next
  exact .bind merges fun _ => .bind divides fun _ => .bind begins fun _ => later

/-- The end of a construct: what leaves the block, and the block behind the construct. -/
theorem finish_granted {jump : Lower Unit} (leaves : Granted .inside jump .between) (next : Id) :
    Granted .inside (do
      jump
      beginBlock next) .inside :=
  .bind leaves fun _ => beginBlock_granted next

theorem endFunction_granted : Granted .between endFunction .outside := by
  refine .tryBuild fun s at_ => ?_
  obtain ⟨function, hf⟩ := Option.isSome_iff_exists.1 at_.1
  unfold Builder.endFunction
  rw [hf]
  exact ⟨_, rfl, rfl, at_.2⟩

theorem beginFunction_granted (returnType functionType : Id) (id? : Option Id) :
    Granted .outside (beginFunction returnType functionType id?) .between := by
  refine .get_bind fun s at_ => ?_
  unfold Builder.beginFunction
  rw [at_.1]
  cases id? with
  | none => exact .bind (q := .between) (.modify fun _ _ => ⟨rfl, at_.2⟩) fun _ => .pure _
  | some id => exact .bind (q := .between) (.modify fun _ _ => ⟨rfl, at_.2⟩) fun _ => .pure _

theorem openFunction_granted (id? : Option Id) :
    Granted .outside (openFunction id?) .between := by
  refine .bind (.declares voidType_neat) fun void => ?_
  refine .bind (.declares voidFunctionType_neat) fun type => ?_
  exact beginFunction_granted void type id?

theorem beginBody_granted (text : String) : Granted .outside (beginBody text) .inside := by
  refine .bind (openFunction_granted none) fun function => ?_
  refine .bind (.declares (name_neat function text)) fun _ => ?_
  refine .bind beginFreshBlock_granted fun _ => ?_
  refine .bind (q := .inside) (.modify fun _ at_ => at_) fun _ => ?_
  exact .pure function

/-- What closes a body that is open, wherever in it the builder stands. -/
theorem closeBody_granted (open_ : p ≠ .outside) : Granted p (do
    let left := (← get).constructs.length
    if left ≠ 0 then failWith (.constructsLeftOpen left "a function")
    if (← openBlock?).isSome then ret
    endFunction
    modify fun s => { s with inFunction := false }) .outside := by
  have ended : Granted .between (do
      endFunction
      modify fun s => { s with inFunction := false }) .outside :=
    .bind endFunction_granted fun _ => .modify fun _ at_ => at_
  have closed : Granted p (do
      if (← openBlock?).isSome then ret
      endFunction
      modify fun s => { s with inFunction := false }) .outside := by
    refine .get_bind fun s at_ => ?_
    cases p with
    | outside => exact absurd rfl open_
    | between =>
      refine .ite (fun selected => ?_) fun _ => ended
      rw [at_.2] at selected
      cases selected
    | inside =>
      refine .ite (fun _ => .bind ret_granted fun _ => ended) fun missing => ?_
      exact absurd at_.2 missing
  refine .get_bind fun s _ => .ite (fun _ => .bind (.failWith _) fun _ => closed) fun _ => closed

theorem entryFunction_granted {contents : Lower Unit} (h : Granted .inside contents .inside) :
    Granted .outside (entryFunction contents) .outside := by
  refine .get_bind fun s _ => ?_
  refine .bind (openFunction_granted _) fun _ => ?_
  refine .bind beginFreshBlock_granted fun _ => ?_
  refine .bind h fun _ => ?_
  exact .bind ret_granted fun _ => endFunction_granted

theorem runInstances_granted (phase : PatchPhase) :
    Granted .inside (runInstances phase) .inside := by
  refine .emission_bind fun word => ?_
  refine .emission_bind fun bool => ?_
  refine .emission_bind fun header => ?_
  refine .emission_bind fun check => ?_
  refine .emission_bind fun body => ?_
  refine .emission_bind fun continueLabel => ?_
  refine .emission_bind fun merge => ?_
  -- the header and the check
  refine proceed_granted header header ?_
  refine .bind (loopMerge_granted merge continueLabel) fun _ => ?_
  refine proceed_granted check check ?_
  refine .emission_bind fun inRange => ?_
  refine .bind (branchConditional_granted inRange body merge) fun _ => ?_
  -- the body, the step to the next instance, and the way back
  refine .bind (beginBlock_granted body) fun _ => ?_
  refine .emission_bind fun _ => ?_
  refine proceed_granted continueLabel continueLabel ?_
  refine .emission_bind fun _ => ?_
  exact finish_granted (branch_granted header) merge

theorem runPatchPhase_granted (phase : PatchPhase) :
    Granted .inside (runPatchPhase phase) .inside := by
  refine .emission_bind fun first => ?_
  refine .emission_bind fun _ => ?_
  exact .ite (fun _ => .emission _) fun _ => runInstances_granted phase

theorem runPatchPhases_granted (h : HullState) : Granted .inside (runPatchPhases h) .inside := by
  refine .bind (.forIn (fun phase _ => ?_) _ _) fun _ => .emission _
  exact .bind (runPatchPhase_granted phase) fun _ => .pure _

theorem inFirstInvocation_granted {step : Lower Unit} (h : Granted .inside step .inside) :
    Granted .inside (inFirstInvocation step) .inside := by
  refine .emission_bind fun isFirst => ?_
  refine .emission_bind fun thenLabel => ?_
  refine .emission_bind fun endLabel => ?_
  refine select_granted thenLabel ?_
  refine .bind h fun _ => ?_
  exact finish_granted (branch_granted endLabel) endLabel

theorem runPhases_granted (h : HullState) : Granted .inside (runPhases h) .inside :=
  .bind (.interfaceStep _) fun _ => inFirstInvocation_granted (runPatchPhases_granted h)

theorem lowerEntryPoint_granted : Granted .outside lowerEntryPoint .outside := by
  have announced : Granted .outside (liftM announceEntryPoint) .outside :=
    .declares announceEntryPoint_neat
  refine .get_bind fun s _ => ?_
  split
  · exact .bind (entryFunction_granted (runPhases_granted _)) fun _ => announced
  · exact .get_bind fun _ _ => .bind (.declares (.orFault rfl)) fun _ =>
      .bind (entryFunction_granted (.emission _)) fun _ => announced

end Lower

end ShaderLowering
