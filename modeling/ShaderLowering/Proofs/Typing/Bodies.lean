import ShaderLowering.Lowering.EntryPoint
import ShaderLowering.Proofs.Typing.ControlFlow
import ShaderLowering.Proofs.Typing.Copies

/-!
Function bodies, the phases of a hull shader and the entry point. A hull shader knows its control
points from its declarations and the instance variables of its phases from where they begin.
-/

namespace ShaderLowering

open Spirv (Id Module ExecutionMode)

variable {α : Type} {x : Shader} {v w : VertexCounts} {m : Module} {s : State}

namespace Shader

/-- What a hull shader knows of itself. -/
structure Hull (x : Shader) (v : VertexCounts) (m : Module) (h : HullState) : Prop where
  stage : x.env.stage = .hull
  inputs : h.inputControlPoints = v.inputs
  outputs : max h.outputControlPoints 1 = v.outputs
  phases : ∀ p ∈ h.fork ++ h.join, m.Houses p.instanceId .priv (.vector (.single .u32))

theorem Hull.mono {h : HullState} {n : Module} (known : x.Hull v m h) (grows : m.Grows n) :
    x.Hull v n h :=
  ⟨known.stage, known.inputs, known.outputs, fun p hp => (known.phases p hp).mono grows⟩

namespace Invariant

theorem hull (hs : x.Invariant v s) {h : HullState} (is : s.stage.hull? = some h) :
    x.Hull v s.builder.module h := by
  have stage : s.stage = .hull h := by
    cases same : s.stage <;> rw [same] at is <;> cases is
    rfl
  refine ⟨?_, ?_, ?_, hs.tables.phases h is⟩
  · rw [← hs.kind, stage]
    rfl
  · rw [← hs.inputs, stage]
    rfl
  · rw [← hs.outputs, stage]
    rfl

/-- A hull shader that knows more of itself. -/
theorem setHull (hs : x.Invariant v s) {h : HullState} (known : x.Hull w s.builder.module h) :
    x.Invariant w { s with stage := .hull h } := by
  refine hs.restage known.stage.symm known.inputs known.outputs fun h' is => ?_
  cases is
  exact known.phases

theorem stage_hull (hs : x.Invariant v s) (hull : x.env.stage = .hull) :
    ∃ h, s.stage = .hull h := by
  have kind := hs.kind.trans hull
  cases is : s.stage with
  | hull h => exact ⟨h, rfl⟩
  | vertex | pixel | compute | geometry | domain =>
    rw [is] at kind
    cases kind

end Invariant

end Shader

namespace Lower

@[grind ←]
theorem openFunction_safe (id? : Option Id) : Safe x v m (result (openFunction id?)) := by
  unfold openFunction
  grind -linarith

theorem setInFunction_safe (inFunction : Bool) :
    Safe x v m (result (modify fun s => { s with inFunction })) :=
  .modifyLower (fun _ => rfl) (fun _ => rfl) fun _ _ tables => { tables with }

@[grind ←]
theorem beginBody_safe (text : String) : Safe x v m (result (beginBody text)) :=
  .bindLower (openFunction_safe none) fun id => .bindLower (.lift (name_safe id text)) fun _ =>
    .bindLower beginFreshBlock_safe fun _ => .bindLower (setInFunction_safe true) fun _ =>
      .pureLower id

/-- Ends a function behind its last block. -/
theorem closeFunction_safe {f : Unit → Lower α} (later : ∀ n, Safe x v n (result (f ()))) :
    Safe x v m (result (openBlock? >>= fun block? =>
      if block?.isSome then ret >>= fun _ => endFunction >>= f else endFunction >>= f)) := by
  have end_ (s : State) (a : α) (u : State) (hs : x.Invariant v s)
      (closed : s.builder.block? = none)
      (ran : result (endFunction >>= f) x.env s = (.ok a, u)) :
      x.Invariant v u ∧ s.builder.module.Grows u.builder.module := by
    obtain ⟨_, t, ended, ran⟩ := result_bind_eq_ok.1 ran
    obtain ⟨ht, grows⟩ := endFunction_safe hs closed ended
    obtain ⟨hu, grows', _⟩ := later _ t a u ht (.refl _) ran
    exact ⟨hu, grows.trans grows'⟩
  intro s a u hs outgrown ran
  change result (if s.builder.block?.isSome then ret >>= fun _ => endFunction >>= f
    else endFunction >>= f) x.env s = (.ok a, u) at ran
  split at ran
  · exact ret_bind_safe end_ s a u hs outgrown ran
  · next closed =>
    obtain ⟨hu, grows⟩ := end_ s a u hs (Option.not_isSome_iff_eq_none.1 closed) ran
    exact ⟨hu, grows, trivial⟩

@[grind ←]
theorem closeBody_safe : Safe x v m (result closeBody) := by
  refine .getLower fun s => ?_
  split
  · refine .getLower fun t => ?_
    extract_lets left last close
    have close_safe : Safe x v m (result (close ())) :=
      closeFunction_safe fun n => setInFunction_safe false
    split
    · exact .bindLower (.lift (.failWith _)) fun _ => close_safe
    · exact close_safe
  · exact .pureLower ()

@[grind ←]
theorem call_safe (function : Id) : Safe x v m (call function).run := by
  unfold call
  grind -linarith

theorem hullState_yields : Yields x v m hullState.run fun h n => x.Hull v n h :=
  .state_bind fun _ hs _ => .orFault fun _ is _ grows => (hs.hull is).mono grows

theorem setHullState_safe {h : HullState} (known : x.Hull v m h) :
    Safe x v m (setHullState h).run := by
  refine .note (fun _ => rfl) fun s hs outgrown => ⟨?_, .refl _, trivial⟩
  obtain ⟨old, is⟩ := hs.stage_hull known.stage
  have same : (if s.stage.hull?.isSome then .hull h else s.stage) = StageState.hull h := by
    rw [is]
    rfl
  rw [same]
  exact hs.setHull (known.mono outgrown)

theorem beginControlPointPhase_safe : Safe x v m (result beginControlPointPhase) := by
  refine .bindLower (.lift hullState_yields.safe) fun h => ?_
  extract_lets begin
  have begin_safe : Safe x v m (result (begin ())) := by
    refine .bindLower (beginBody_safe _) fun function => ?_
    refine Yields.bindLower hullState_yields fun h n _ known => setHullState_safe ?_
    exact ⟨known.stage, known.inputs, known.outputs, known.phases⟩
  split
  · exact .bindLower (.lift (.failWith _)) fun _ => begin_safe
  · exact begin_safe

theorem beginPatchPhase_safe (isJoin : Bool) : Safe x v m (result (beginPatchPhase isJoin)) := by
  refine Yields.bindLower hullState_yields fun h n₁ _ _ => ?_
  refine .bindLower (scalarType_yields .u32) fun word n₂ _ is => ?_
  have word_ : n₂.Is (.vector (.single .u32)) word := is
  refine .bindLower (newVariable_yields word_ (fun _ => Shape.isPlain_vector x (by decide)) none)
    fun id n₃ _ houses => ?_
  refine .bindLower (name_safe _ _) fun _ n₄ grows₄ _ => ?_
  refine .bindLower (beginBody_safe _) fun function n₅ grows₅ _ => ?_
  extract_lets phase
  refine .bindLower hullState_yields fun h n₆ grows₆ known => setHullState_safe ?_
  have new := ((houses.mono grows₄).mono grows₅).mono grows₆
  have old := known.phases
  cases isJoin with
  | true =>
    refine ⟨known.stage, known.inputs, known.outputs, fun p hp => ?_⟩
    rcases List.mem_append.1 hp with hp | hp
    · exact old p (List.mem_append_left _ hp)
    · rcases List.mem_append.1 hp with hp | hp
      · exact old p (List.mem_append_right _ hp)
      · rwa [List.mem_singleton.1 hp]
  | false =>
    refine ⟨known.stage, known.inputs, known.outputs, fun p hp => ?_⟩
    rcases List.mem_append.1 hp with hp | hp
    · rcases List.mem_append.1 hp with hp | hp
      · exact old p (List.mem_append_left _ hp)
      · rwa [List.mem_singleton.1 hp]
    · exact old p (List.mem_append_right _ hp)

theorem lowerHullPhase_safe (inst : Instruction) : Safe x v m (result (lowerHullPhase inst)) := by
  refine .bindLower (.lift hullState_yields.safe) fun _ => .bindLower closeBody_safe fun _ => ?_
  split
  · refine Yields.bindLower hullState_yields fun h n _ known => setHullState_safe ?_
    exact ⟨known.stage, known.inputs, known.outputs, known.phases⟩
  · exact beginControlPointPhase_safe
  · exact beginPatchPhase_safe false
  · exact beginPatchPhase_safe true
  · exact .lift (unsupported_safe inst)

theorem entryFunction_safe {contents : Lower Unit} (safe : ∀ n, Safe x v n (result contents)) :
    Safe x v m (result (entryFunction contents)) := by
  refine .getLower fun s => .bindLower (openFunction_safe _) fun _ => ?_
  refine .bindLower beginFreshBlock_safe fun _ => .bindLower (safe _) fun _ => ?_
  exact ret_bind_safe fun _ _ _ hs closed ran => endFunction_safe hs closed ran

@[grind ←]
theorem clearGroupMemory_safe : Safe x v m clearGroupMemory.run := by
  have cleared (word : Id) (memory : GroupMemory) : Safe x v m (do
      let type ← arrayOf word memory.length
      let cleared ← constantNull type
      storeTo memory.variable_ cleared
      return ForInStep.yield () : Emission _).run := by
    grind -linarith
  refine .state_bind fun s => .ite (.pure _) (.bind (scalarType_safe _) fun word => ?_)
  refine .bind (.forIn (fun memory _ => cleared word memory) _ _) fun _ => ?_
  grind -linarith

theorem runBody_safe (notHull : x.env.stage ≠ .hull) (sees : x.Sees v) (body : Id) :
    Safe x v m (runBody body).run := by
  have inputs (n : Module) : Safe x v n copyInputs.run := copyInputs_safe sees
  have outputs (n : Module) : Safe x v n copyOutputs.run := copyOutputs_safe notHull
  unfold runBody
  grind -linarith

@[grind ←]
theorem instanceLeft_safe (phase : PatchPhase) (word bool : Id) :
    Safe x v m (instanceLeft phase word bool).run := by
  unfold instanceLeft
  grind -linarith

@[grind ←]
theorem nextInstance_safe (phase : PatchPhase) (word : Id) :
    Safe x v m (nextInstance phase word).run := by
  unfold nextInstance
  grind -linarith

theorem runInstances_safe (phase : PatchPhase) : Safe x v m (result (runInstances phase)) := by
  refine .bindLower (.lift (scalarType_safe _)) fun word => ?_
  refine .bindLower (.lift (scalarType_safe _)) fun bool => ?_
  refine .bindLower (.lift fresh_safe) fun header => .bindLower (.lift fresh_safe) fun check => ?_
  refine .bindLower (.lift fresh_safe) fun body => .bindLower (.lift fresh_safe) fun next => ?_
  refine .bindLower (.lift fresh_safe) fun merge => .bindLower (branch_safe _) fun _ => ?_
  refine .bindLower (beginBlock_safe _) fun _ => .bindLower (loopMerge_safe _ _) fun _ => ?_
  refine .bindLower (branch_safe _) fun _ => .bindLower (beginBlock_safe _) fun _ => ?_
  refine .bindLower (.lift (instanceLeft_safe phase word bool)) fun inRange => ?_
  grind -linarith

theorem runPatchPhase_safe (phase : PatchPhase) : Safe x v m (result (runPatchPhase phase)) := by
  refine .bindLower (.lift (constantU32_safe 0)) fun first => ?_
  refine .bindLower (.lift (storeTo_routine .anything .anything).safe) fun _ => ?_
  split
  · exact .lift (call_safe _)
  · exact runInstances_safe phase

@[grind ←]
theorem waitForControlPoints_safe : Safe x v m waitForControlPoints.run := by
  unfold waitForControlPoints
  grind -linarith

@[grind ←]
theorem isFirstInvocation_safe : Safe x v m isFirstInvocation.run := by
  have invocation (n : Module) : Safe x v n invocationId.run := invocationId_yields.safe
  unfold isFirstInvocation
  grind -linarith

theorem inFirstInvocation_safe {step : Lower Unit} (safe : ∀ n, Safe x v n (result step)) :
    Safe x v m (result (inFirstInvocation step)) := by
  refine .bindLower (.lift isFirstInvocation_safe) fun isFirst => ?_
  refine .bindLower (.lift fresh_safe) fun then_ => .bindLower (.lift fresh_safe) fun end_ => ?_
  grind -linarith

theorem runControlPoints_safe (hull : x.env.stage = .hull) (sees : x.Sees v) (h : HullState) :
    Safe x v m (runControlPoints h).run := by
  refine Yields.afterInterface (copyInputs_safe sees) fun _ n₁ _ => ?_
  split
  · exact .afterInterface (call_safe _) fun _ n₂ _ => waitForControlPoints_safe
  · exact .afterInterface (passControlPoints_safe hull sees) fun _ n₂ _ => waitForControlPoints_safe

theorem runPatchPhases_safe (h : HullState) : Safe x v m (result (runPatchPhases h)) :=
  .bindLower (.forInLower fun phase _ _ =>
    .bindLower (runPatchPhase_safe phase) fun _ => .pureLower _) fun _ =>
      .lift (copyPatchOutputs_safe _)

theorem runPhases_safe (hull : x.env.stage = .hull) (sees : x.Sees v) (h : HullState) :
    Safe x v m (result (runPhases h)) := by
  have points : Safe x v m (result (runControlPoints h)) := runControlPoints_safe hull sees h
  exact .bindLower points fun _ => inFirstInvocation_safe fun n => runPatchPhases_safe h

@[grind ←]
theorem requireStage_safe : Safe x v m requireStage.run := by
  unfold requireStage
  grind -linarith

@[grind ←]
theorem executionModes_safe : Safe x v m executionModes.run := by
  unfold executionModes
  grind -linarith

@[grind ←]
theorem declareEntryPoint_safe (modes : List (ExecutionMode × List UInt32)) :
    Safe x v m (declareEntryPoint modes).run := by
  refine .read_bind (.state_bind fun s => .bind interfaceVariables_safe fun interface => ?_)
  refine Yields.note (fun _ => rfl) fun s hs _ => ?_
  refine ⟨?_, ⟨fun _ h => h, fun _ h => h, fun _ h => h⟩, trivial⟩
  refine hs.remodel ?_ _ ?_ ?_ ?_
  · exact ⟨fun _ h => h, fun _ h => h, fun _ h => h⟩
  · rfl
  · rfl
  · rfl

theorem lowerEntryPoint_safe (sees : x.Sees v) : Safe x v m (result lowerEntryPoint) := by
  have announce (n : Module) : Safe x v n announceEntryPoint.run := by
    unfold announceEntryPoint
    grind -linarith
  refine Yields.getLower fun s hs _ => ?_
  split
  · next h is =>
    have hull : x.env.stage = .hull := by
      rw [← hs.kind, is]
      rfl
    exact Safe.bindLower (entryFunction_safe fun n => runPhases_safe hull sees h)
      fun _ => announce _
  · next other =>
    have notHull : x.env.stage ≠ .hull := fun hull => by
      obtain ⟨h, is⟩ := hs.stage_hull hull
      exact other h is
    refine Safe.getLower fun t => .bindLower (.lift (.orFault _ _)) fun body => ?_
    refine .bindLower (entryFunction_safe fun n => ?_) fun _ => announce _
    exact runBody_safe notHull sees body

end Lower

end ShaderLowering
