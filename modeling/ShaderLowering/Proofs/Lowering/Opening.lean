import ShaderLowering.Proofs.Lowering.Frame
import ShaderLowering.Proofs.Lowering.Success

/-!
Opening and closing a shader cannot fail. `Placed` says whether a function and a block are open, and
each step of the builder that fits succeeds. Without interface registers nothing is copied in or out
of a pixel shader, so its entry function only calls the body.
-/

namespace ShaderLowering.Lower

open Emission (Succeeds)

variable {α β : Type} {env : Environment} {s t : State} {function block : Bool}

/-- A state that looks like an earlier one, with or without an open function and block. -/
structure Placed (s : State) (function block : Bool) (t : State) : Prop extends
    s.SameInterface t where
  function? : t.builder.function?.isSome = function
  block? : t.builder.block?.isSome = block
  stage : t.stage = s.stage
  body? : t.body? = s.body?

/-- From the states with one property a step leads to states with another. -/
def Leads (m : Lower α) (env : Environment) (before after : State → Prop) : Prop :=
  ∀ s, before s → ∃ a t, result m env s = (.ok a, t) ∧ after t

namespace Leads

variable {p q r : State → Prop}

protected theorem bind {m : Lower α} {f : α → Lower β} (first : Leads m env p q)
    (later : ∀ a, Leads (f a) env q r) : Leads (m >>= f) env p r := by
  intro s hs
  obtain ⟨a, t, run, ht⟩ := first s hs
  obtain ⟨b, u, run', hu⟩ := later a t ht
  exact ⟨b, u, result_bind_eq_ok.2 ⟨a, t, run, run'⟩, hu⟩

protected theorem pure (a : α) : Leads (pure a) env p p := by
  intro s hs
  exact ⟨a, s, rfl, hs⟩

theorem modify {f : State → State} (h : ∀ s, p s → q (f s)) : Leads (modify f) env p q := by
  intro s hs
  exact ⟨⟨⟩, f s, rfl, h s hs⟩

/-- An ordinary step leaves functions and blocks as they are. -/
theorem lift {place : Prop} {m : Emission α} (h : Succeeds place m)
    (fits : place → function = true ∧ block = true) :
    Leads (liftM m) env (Placed s function block) (Placed s function block) := by
  intro t ht
  have hp : place → t.HasPlace := by
    intro needed
    obtain ⟨rfl, rfl⟩ := fits needed
    exact ⟨ht.function?, ht.block?⟩
  obtain ⟨a, u, run, stage⟩ := h env t hp
  have emits := Emission.emits_of_run run
  have same := (m.keeps env t)
  rw [run] at same
  refine ⟨a, u, run, ht.toSameInterface.trans same, ?_, ?_, stage.trans ht.stage,
    emits.body?.trans ht.body?⟩
  · rw [emits.function?]
    exact ht.function?
  · rw [emits.block?]
    exact ht.block?

theorem inside {m : Emission α} (h : Succeeds True m) :
    Leads (liftM m) env (Placed s true true) (Placed s true true) :=
  lift h fun _ => ⟨rfl, rfl⟩

theorem anywhere {m : Emission α} (h : Succeeds False m) :
    Leads (liftM m) env (Placed s function block) (Placed s function block) :=
  lift h False.elim

/-- A step of the builder. -/
theorem tryBuild {f : Spirv.Builder → Except Spirv.BuildError Spirv.Builder}
    {function' block' : Bool}
    (h : ∀ b : Spirv.Builder, b.function?.isSome = function → b.block?.isSome = block →
      ∃ c, f b = .ok c ∧ c.function?.isSome = function' ∧ c.block?.isSome = block') :
    Leads (tryBuild f) env (Placed s function block) (Placed s function' block') := by
  intro t ht
  obtain ⟨c, built, function?, block?⟩ := h t.builder ht.function? ht.block?
  refine ⟨(), { t with builder := c }, by rw [result_tryBuild, built], ?_⟩
  exact ⟨⟨ht.inputs, ht.outputs, ht.patchInputs, ht.patchOutputs, ht.phase?⟩, function?, block?,
    ht.stage, ht.body?⟩

end Leads

/-- A step whose effect on what `Placed` speaks of is plain. -/
theorem modify_leads {f : State → State}
    (same : ∀ s : State, s.SameInterface (f s))
    (builder : ∀ s, (f s).builder.function? = s.builder.function? ∧
      (f s).builder.block? = s.builder.block?)
    (stage : ∀ s, (f s).stage = s.stage) (body? : ∀ s, (f s).body? = s.body?) :
    Leads (modify f) env (Placed s function block) (Placed s function block) := by
  apply Leads.modify
  intro t ht
  refine ⟨ht.toSameInterface.trans (same t), ?_, ?_, (stage t).trans ht.stage,
    (body? t).trans ht.body?⟩
  · rw [(builder t).1]
    exact ht.function?
  · rw [(builder t).2]
    exact ht.block?

theorem terminate_leads (op : Spirv.ControlOp) (args : List Spirv.Arg) :
    Leads (terminate op args) env (Placed s true true) (Placed s true false) := by
  apply Leads.tryBuild
  rintro ⟨module, next, _ | f, _ | k⟩ hf hb
  · cases hf
  · cases hf
  · cases hb
  · exact ⟨_, rfl, rfl, rfl⟩

theorem beginFreshBlock_leads :
    Leads beginFreshBlock env (Placed s true false) (Placed s true true) := by
  apply Leads.tryBuild
  rintro ⟨module, next, _ | f, _ | k⟩ hf hb
  · cases hf
  · cases hf
  · exact ⟨_, rfl, rfl, rfl⟩
  · cases hb

theorem endFunction_leads :
    Leads endFunction env (Placed s true block) (Placed s false block) := by
  apply Leads.tryBuild
  rintro ⟨module, next, _ | f, block?⟩ hf hb
  · cases hf
  · exact ⟨_, rfl, rfl, hb⟩

theorem beginFunction_leads (returnType functionType : Spirv.Id) (id? : Option Spirv.Id) :
    Leads (beginFunction returnType functionType id?) env (Placed s false block)
      (Placed s true block) := by
  intro t ht
  have begun : ∃ id c, t.builder.beginFunction returnType functionType id? = .ok (id, c) ∧
      c.function?.isSome = true ∧ c.block? = t.builder.block? := by
    have none_ : t.builder.function? = none :=
      Option.isNone_iff_eq_none.1 (Option.isSome_eq_false_iff.1 ht.function?)
    unfold Spirv.Builder.beginFunction
    rw [none_]
    cases id? <;> exact ⟨_, _, rfl, rfl, rfl⟩
  obtain ⟨id, c, begun, function?, same⟩ := begun
  refine ⟨id, { t with builder := c }, ?_, ⟨ht.inputs, ht.outputs, ht.patchInputs, ht.patchOutputs,
    ht.phase?⟩, function?, ?_, ht.stage, ht.body?⟩
  · unfold beginFunction
    rw [result_get_bind, begun]
    rfl
  · change c.block?.isSome = block
    rw [same]
    exact ht.block?

theorem openFunction_leads (id? : Option Spirv.Id) :
    Leads (openFunction id?) env (Placed s false block) (Placed s true block) := by
  apply Leads.bind (.anywhere voidType_succeeds)
  intro void
  apply Leads.bind (.anywhere voidFunctionType_succeeds)
  intro type
  exact beginFunction_leads void type id?

theorem beginBody_leads (text : String) :
    Leads (beginBody text) env (Placed s false false) (Placed s true true) := by
  apply Leads.bind (openFunction_leads none)
  intro id
  apply Leads.bind (.anywhere (name_succeeds id text))
  intro _
  apply Leads.bind beginFreshBlock_leads
  intro _
  refine Leads.bind ?_ fun _ => .pure id
  exact modify_leads (fun _ => ⟨rfl, rfl, rfl, rfl, rfl⟩) (fun _ => ⟨rfl, rfl⟩) (fun _ => rfl)
    fun _ => rfl

/-- A shader with one body can be opened. -/
theorem begin_leads (notHull : env.stage ≠ .hull) :
    Leads begin env (Placed s false false) fun t => s.SameInterface t ∧ t.stage = s.stage := by
  unfold begin
  intro t ht
  rw [result_read_bind]
  refine Leads.bind (.anywhere .fresh) (fun set => ?_) t ht
  refine Leads.bind (modify_leads (fun _ => ⟨rfl, rfl, rfl, rfl, rfl⟩) (fun _ => ⟨rfl, rfl⟩)
    (fun _ => rfl) fun _ => rfl) fun _ => ?_
  apply Leads.bind (.anywhere (requireCapability_succeeds _))
  intro _
  apply Leads.bind (.anywhere .fresh)
  intro entryPoint
  refine Leads.bind (modify_leads (fun _ => ⟨rfl, rfl, rfl, rfl, rfl⟩) (fun _ => ⟨rfl, rfl⟩)
    (fun _ => rfl) fun _ => rfl) fun _ => ?_
  apply Leads.bind (.anywhere (name_succeeds _ _))
  intro _
  rw [if_pos notHull]
  apply Leads.bind (beginBody_leads _)
  intro body
  apply Leads.modify
  intro u hu
  exact ⟨⟨hu.inputs, hu.outputs, hu.patchInputs, hu.patchOutputs, hu.phase?⟩, hu.stage⟩

/-- The entry function is written around its contents. -/
theorem entryFunction_leads {contents : Lower Unit}
    (h : Leads contents env (Placed s true true) (Placed s true true)) :
    Leads (entryFunction contents) env (Placed s false false) (Placed s false false) := by
  intro t ht
  unfold entryFunction
  rw [result_get_bind]
  refine Leads.bind (openFunction_leads (some t.entryPoint)) (fun _ => ?_) t ht
  apply Leads.bind beginFreshBlock_leads
  intro _
  apply Leads.bind h
  intro _
  apply Leads.bind (terminate_leads _ _)
  intro _
  exact endFunction_leads

section Interface

variable {γ : Type}

/-- A step that changes nothing, before another. -/
theorem run_idle_bind {m : Emission α} {a : α} (idle : m.run env s = (.ok a, s))
    (k : α → Emission β) : (m >>= k).run env s = (k a).run env s := by
  rw [Emission.run_bind, idle]
  rfl

/-- A loop whose turns change nothing. -/
theorem forIn_idle {f : γ → PUnit → Emission (ForInStep PUnit)}
    (idle : ∀ x, (f x ⟨⟩).run env s = (.ok (.yield ⟨⟩), s)) (list : List γ) :
    (forIn list ⟨⟩ f).run env s = (.ok ⟨⟩, s) := by
  induction list with
  | nil => rfl
  | cons x rest ih =>
    rw [List.forIn_cons, run_idle_bind (idle x)]
    exact ih

theorem copyInputDistances_idle (value : SystemValue) (h : s.inputs = .empty) :
    (copyInputDistances value).run env s = (.ok (), s) := by
  have absent (reg : UInt32) : s.inputs.contains reg = false := by
    rw [h]
    rfl
  unfold copyInputDistances
  rw [run_idle_bind (Emission.run_read env s)]
  dsimp only
  split
  · rfl
  · rw [run_idle_bind (forIn_idle _ _)]
    · rfl
    · intro x
      change (if s.inputs.contains x.1 = true then _ else _ : Emission _).run env s = _
      rw [absent]
      rfl

/-- Without declared inputs there is nothing to copy. -/
theorem copyInputs_idle (inputs : s.inputs = .empty) (patch : s.patchInputs = .empty) :
    copyInputs.run env s = (.ok (), s) := by
  have state : Emission.state.run env s = (.ok s, s) := rfl
  unfold copyInputs
  rw [run_idle_bind state, inputs, run_idle_bind (a := ⟨⟩) rfl,
    run_idle_bind (copyInputDistances_idle _ inputs),
    run_idle_bind (copyInputDistances_idle _ inputs), run_idle_bind state, patch]
  rfl

theorem copyOutputs_idle (pixel : env.stage = .pixel) (outputs : s.outputs = .empty) :
    copyOutputs.run env s = (.ok (), s) := by
  have state : Emission.state.run env s = (.ok s, s) := rfl
  have none_ (value : SystemValue) : (copyOutputDistances value).run env s = (.ok (), s) := by
    unfold copyOutputDistances
    rw [run_idle_bind (Emission.run_read env s)]
    dsimp only
    rw [if_pos]
    · rfl
    · right
      rw [pixel]
      cases value <;> exact Bool.noConfusion
  unfold copyOutputs
  rw [run_idle_bind state, outputs, run_idle_bind (a := ⟨⟩) rfl, run_idle_bind (none_ _)]
  exact none_ _

end Interface

/-- In a pixel shader without interface registers the entry function calls the body. -/
theorem runBody_leads (pixel : env.stage = .pixel) (inputs : s.inputs = .empty)
    (outputs : s.outputs = .empty) (patch : s.patchInputs = .empty) (body : Spirv.Id) :
    Leads (liftM (runBody body)) env (Placed s true true) (Placed s true true) := by
  intro t ht
  have unfolded : (runBody body).run env t = (call body >>= fun _ => copyOutputs).run env t := by
    have notCompute : ¬ (env.stage = .compute ∧ env.options.zeroGroupMemory = true) := by
      rw [pixel]
      exact fun h => ShaderStage.noConfusion h.1
    have notGeometry : env.stage ≠ .geometry := by
      rw [pixel]
      exact ShaderStage.noConfusion
    unfold runBody
    rw [run_idle_bind (Emission.run_read env t)]
    dsimp only
    rw [if_neg notCompute, if_pos notGeometry,
      run_idle_bind (copyInputs_idle (ht.inputs.trans inputs) (ht.patchInputs.trans patch))]
  obtain ⟨a, u, called, hu⟩ := Leads.inside (call_succeeds body) t ht
  refine ⟨(), u, ?_, hu⟩
  rw [result_lift, unfolded]
  exact Emission.run_bind_eq_ok.2 ⟨a, u, called,
    copyOutputs_idle pixel (hu.outputs.trans outputs)⟩

theorem declareEntryPoint_succeeds (modes : List (Spirv.ExecutionMode × List UInt32)) :
    Succeeds False (declareEntryPoint modes) :=
  .bind .read fun _ => .bind .state fun _ => .bind interfaceVariables_succeeds fun _ =>
    .note fun _ => rfl

theorem announceEntryPoint_total (pixel : env.stage = .pixel)
    {mode? : Option Spirv.ExecutionMode} {early : Bool} (stage : s.stage = .pixel mode? early) :
    ∃ t, announceEntryPoint.run env s = (.ok (), t) := by
  have required : requireStage.run env s = (.ok (), s) := by
    unfold requireStage
    rw [run_idle_bind (Emission.run_read env s), pixel]
    rfl
  obtain ⟨modes, listed⟩ : ∃ modes, executionModes.run env s = (.ok modes, s) := by
    unfold executionModes
    rw [run_idle_bind (show Emission.state.run env s = (.ok s, s) from rfl), stage]
    exact ⟨_, rfl⟩
  obtain ⟨_, t, declared, _⟩ := declareEntryPoint_succeeds modes env s False.elim
  refine ⟨t, ?_⟩
  unfold announceEntryPoint
  rw [run_idle_bind required, run_idle_bind listed]
  exact declared

/-- A body without open constructs can be closed. -/
theorem closeBody_total (inFunction : t.inFunction = true) (constructs : t.constructs = [])
    (ht : Placed s true true t) :
    ∃ u, result closeBody env t = (.ok (), u) ∧ Placed s false false u := by
  obtain ⟨k, hk⟩ := Option.isSome_iff_exists.1 ht.block?
  have noneLeft : ¬ t.constructs.length ≠ 0 := by
    rw [constructs]
    exact fun h => h rfl
  have opened : result openBlock? env t = (.ok (some k), t) := by
    rw [← hk]
    rfl
  have closes : Leads (do ret; endFunction; modify fun s => { s with inFunction := false }) env
      (Placed s true true) (Placed s false false) := by
    apply Leads.bind (terminate_leads _ _)
    intro _
    apply Leads.bind endFunction_leads
    intro _
    exact modify_leads (fun _ => ⟨rfl, rfl, rfl, rfl, rfl⟩) (fun _ => ⟨rfl, rfl⟩)
      (fun _ => rfl) fun _ => rfl
  obtain ⟨_, u, closed, hu⟩ := closes t ht
  refine ⟨u, ?_, hu⟩
  unfold closeBody
  rw [result_get_bind, if_pos inFunction, result_get_bind, if_neg noneLeft]
  exact result_bind_eq_ok.2 ⟨some k, t, opened, closed⟩

/-- A pixel shader without interface registers can be finished once its constructs are closed. -/
theorem finish_total (pixel : env.stage = .pixel) (ht : Placed s true true t)
    (inFunction : t.inFunction = true) (constructs : t.constructs = []) (inputs : s.inputs = .empty)
    (outputs : s.outputs = .empty) (patch : s.patchInputs = .empty)
    (body : s.body?.isSome = true) {mode? : Option Spirv.ExecutionMode} {early : Bool}
    (stage : s.stage = .pixel mode? early) : ∃ u, result finish env t = (.ok (), u) := by
  obtain ⟨body, hb⟩ := Option.isSome_iff_exists.1 body
  obtain ⟨u, closed, hu⟩ := @closeBody_total env _ _ inFunction constructs ht
  obtain ⟨_, v, entered, hv⟩ := entryFunction_leads
    (runBody_leads pixel inputs outputs patch body) u hu
  obtain ⟨w, announced⟩ := announceEntryPoint_total pixel (hv.stage.trans stage)
  have noneLeft : ¬ t.constructs.length ≠ 0 := by
    rw [constructs]
    exact fun h => h rfl
  refine ⟨w, ?_⟩
  unfold finish
  rw [result_get_bind, if_neg noneLeft]
  refine result_bind_eq_ok.2 ⟨(), u, closed, ?_⟩
  unfold lowerEntryPoint
  rw [result_get_bind, hu.stage, stage]
  dsimp only
  rw [result_get_bind, hu.body?, hb]
  refine result_bind_eq_ok.2 ⟨body, u, rfl, ?_⟩
  exact result_bind_eq_ok.2 ⟨_, v, entered, announced⟩

end ShaderLowering.Lower
