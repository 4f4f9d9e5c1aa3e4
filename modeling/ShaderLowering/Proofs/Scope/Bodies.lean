import ShaderLowering.Proofs.Scope.Control
import ShaderLowering.Proofs.Scope.Copies
import ShaderLowering.Proofs.Scope.Numbering

/-!
Functions are opened and closed by moves. Around them a configuration owes no labels; it has the id
of the entry point set aside until the entry function takes it.
-/

namespace ShaderLowering

open Spirv (Id Instr Arg Op Module Builder Exit Merge)

variable {H : Limits} {T : Allowance} {env : Environment} {s t : State} {r r' : List Id}
  {x y z : Configuration}

namespace Configuration

/-- Only the builder has changed, and the given ids are set aside. -/
structure Turned (x : Configuration) (r : List Id) (y : Configuration) : Prop where
  extends_ : x.state.builder.module.Extends y.state.builder.module
  state : y.state = { x.state with builder := y.state.builder }
  reserved : y.reserved = r

theorem Steered.turned (h : x.Steered r y) : x.Turned r y :=
  ⟨h.onward.extends_, h.state, h.reserved⟩

/-- The module has grown; constructs and stage are as they were. -/
structure Onward (x y : Configuration) : Prop where
  extends_ : x.state.builder.module.Extends y.state.builder.module
  constructs : y.state.constructs = x.state.constructs
  entryPoint : y.state.entryPoint = x.state.entryPoint
  inFunction : y.state.inFunction = x.state.inFunction
  stage : y.state.stage = x.state.stage

theorem Turned.onward (h : x.Turned r y) : x.Onward y := by
  refine ⟨h.extends_, ?_, ?_, ?_, ?_⟩ <;> rw [h.state]

theorem Steered.goes (h : x.Steered r y) : x.Onward y :=
  h.turned.onward

theorem Onward.trans (first : x.Onward y) (second : y.Onward z) : x.Onward z :=
  ⟨first.extends_.trans second.extends_, second.constructs.trans first.constructs,
    second.entryPoint.trans first.entryPoint, second.inFunction.trans first.inFunction,
    second.stage.trans first.stage⟩

theorem Onward.of_acts (acts : Acts H env x.state y.state) (emits : Emits x.state y.state) :
    x.Onward y :=
  ⟨acts.within.extends_, emits.constructs, emits.entryPoint, emits.inFunction, acts.stage⟩

theorem Onward.tidy (h : x.Onward y) (empty : x.state.constructs = [])
    (owed : [x.state.entryPoint].Subperm y.reserved) : y.Tidy := by
  have none_ : y.state.constructs = [] := h.constructs.trans empty
  refine ⟨?_, fun sw mem => ?_, fun _ => none_⟩
  · rwa [State.owed, none_, h.entryPoint]
  · rw [none_] at mem
    cases mem

end Configuration

namespace Works

variable {α β : Type} {Q : α → Builder → Prop}

theorem goes {e : Emission α} (does : Does H env x.state.builder e.run Q) :
    Works H env x (liftM e) fun a y =>
      x.Onward y ∧ y.reserved = x.reserved ∧ x.state.builder.Within y.state.builder ∧
        Q a y.state.builder :=
  .imp (.lift does) fun _ _ ⟨acts, emits, reserved, fact⟩ =>
    ⟨.of_acts acts emits, reserved, acts.within, fact⟩

theorem goesInterface {e : InterfaceStep α} (does : Does H env x.state.builder e.run Q) :
    Works H env x (liftM e) fun a y =>
      x.Onward y ∧ y.reserved = x.reserved ∧ x.state.builder.Within y.state.builder ∧
        Q a y.state.builder := by
  intro ready a t ran
  obtain ⟨acts, fact⟩ := does x.state a t ready (.refl _) ran
  exact ⟨x.reserved, .of_acts acts _, .of_acts acts (InterfaceStep.emits_of_run ran), rfl,
    acts.within, fact⟩

/-- A step for every element of a list. -/
theorem forIn {list : List α} {f : α → PUnit → Lower (ForInStep PUnit)}
    (each : ∀ a ∈ list, ∀ y, x.Onward y → Works H env y (f a ⟨⟩) fun step z =>
      step = .yield ⟨⟩ ∧ y.Onward z ∧ z.reserved = y.reserved) :
    Works H env x (ForIn.forIn list ⟨⟩ f) fun _ y => x.Onward y ∧ y.reserved = x.reserved := by
  induction list generalizing x with
  | nil =>
    rw [List.forIn_nil]
    exact .pure ⟨⟨.refl _, rfl, rfl, rfl, rfl⟩, rfl⟩
  | cons a rest ih =>
    rw [List.forIn_cons]
    refine .bind (each a List.mem_cons_self x ⟨.refl _, rfl, rfl, rfl, rfl⟩) fun step y h => ?_
    obtain ⟨rfl, onward, reserved⟩ := h
    refine .imp (ih fun b hb z later => each b (List.mem_cons_of_mem _ hb) z (onward.trans later))
      fun _ z ⟨later, same⟩ => ⟨onward.trans later, same.trans reserved⟩

end Works

namespace Lower

/-- What is left of a block when its function returns. -/
theorem ret_leaves : Works H env x ret fun _ y =>
    x.Steered x.reserved y ∧ y.state.builder.block? = none := by
  unfold ret terminate
  refine .build fun c _ ended => ⟨x.reserved, .exit (e := .ret) ended nofun,
    ⟨Spirv.Builder.onward_terminate ended, rfl, rfl⟩, ?_⟩
  obtain ⟨d, _, rfl⟩ := Spirv.Builder.terminate_eq_ok.1 ended
  rfl

theorem endFunction_turns (left : x.state.builder.block? = none) :
    Works H env x endFunction fun _ y => x.Turned x.reserved y := by
  refine .build fun c _ ended => ?_
  obtain ⟨_, rfl⟩ := Spirv.Builder.endFunction_eq_ok.1 ended
  exact ⟨x.reserved, .closeFunction left, .refl _, rfl, rfl⟩

section

variable {returnType functionType : Id} (returns : x.state.builder.module.IsGlobal returnType)
  (typed : x.state.builder.module.IsGlobal functionType)
include returns typed

/-- A function under an id that was set aside. -/
theorem beginFunction_turns {label : Id} (due : (label :: r).Subperm x.reserved) :
    Works H env x (beginFunction returnType functionType (some label)) fun id y =>
      x.Turned r y ∧ id = label := by
  refine .forgetting (fun ready id t ran => ?_) due
  unfold beginFunction at ran
  rw [result_get_bind] at ran
  split at ran
  · next id' c begun =>
    obtain ⟨outside, rfl, rfl⟩ := Spirv.Builder.addFunction_of_beginFunction begun
    cases ran
    exact ⟨r, .single (.openFunction outside returns typed),
      ⟨Spirv.Builder.extends_addFunction _ _, rfl, rfl⟩, rfl⟩
  · cases ran

/-- A function under a new id. -/
theorem beginFreshFunction_turns :
    Works H env x (beginFunction returnType functionType none) fun id y =>
      x.Turned x.reserved y ∧ y.state.builder.Standing H id := by
  intro ready id t ran
  unfold beginFunction at ran
  rw [result_get_bind] at ran
  split at ran
  · next id' c begun =>
    obtain ⟨outside, rfl, rfl⟩ := Spirv.Builder.addFunction_of_beginFreshFunction begun
    cases ran
    refine ⟨x.reserved, .trans (.single .reserve) (.single (.openFunction outside returns typed)),
      ⟨?_, rfl, rfl⟩, fun hidden => ?_, Spirv.Builder.stands_addFunction _ rfl⟩
    · exact Spirv.Builder.extends_addFunction x.state.builder.fresh.2 _
    · exact Nat.lt_irrefl _ (ready.hidden _ hidden).1
  · cases ran

end

theorem openFreshFunction_goes : Works H env x (openFunction none) fun id y =>
    x.Onward y ∧ y.reserved = x.reserved ∧ y.state.builder.Standing H id := by
  refine .bind (.goes voidType_establishes) fun void x₁ ⟨h₁, r₁, _, global₁⟩ => ?_
  refine .bind (.goes voidFunctionType_establishes) fun type x₂ ⟨h₂, r₂, w₂, global₂⟩ => ?_
  refine .imp (beginFreshFunction_turns (global₁.mono w₂).2 global₂.2) fun id y ⟨h₃, stands⟩ => ?_
  exact ⟨(h₁.trans h₂).trans h₃.onward, (h₃.reserved.trans r₂).trans r₁, stands⟩

theorem openFunction_goes {label : Id} (due : (label :: r).Subperm x.reserved) :
    Works H env x (openFunction (some label)) fun _ y => x.Onward y ∧ y.reserved = r := by
  refine .bind (.goes voidType_establishes) fun void x₁ ⟨h₁, r₁, _, global₁⟩ => ?_
  refine .bind (.goes voidFunctionType_establishes) fun type x₂ ⟨h₂, r₂, w₂, global₂⟩ => ?_
  have due : (label :: r).Subperm x₂.reserved := by rwa [r₂, r₁]
  refine .imp (beginFunction_turns (global₁.mono w₂).2 global₂.2 due) fun id y ⟨h₃, _⟩ => ?_
  exact ⟨(h₁.trans h₂).trans h₃.onward, h₃.reserved⟩

/-- A body begins. -/
theorem beginBody_tidy (text : String) (tidy : x.Tidy) (empty : x.state.constructs = []) :
    Works H env x (beginBody text) fun id y => y.Tidy ∧ y.state.stage = x.state.stage ∧
      x.state.builder.module.Extends y.state.builder.module ∧ y.state.builder.Standing H id := by
  refine .bind openFreshFunction_goes fun id x₁ opened => ?_
  obtain ⟨h₁, r₁, stands⟩ := opened
  refine .bind (.goes (name_leaves id text).does) fun _ x₂ named => ?_
  obtain ⟨h₂, r₂, w₂, _⟩ := named
  refine .bind beginFreshBlock_works fun _ x₃ h₃ => ?_
  have onward := (h₁.trans h₂).trans h₃.goes
  have owed : [x.state.entryPoint].Subperm x₃.reserved := by
    have owed := tidy.owed
    rw [State.owed, empty] at owed
    rwa [h₃.reserved, r₂, r₁]
  have tidy₃ := onward.tidy empty owed
  refine .bind (.note rfl (fun kept => { kept with }) rfl (.of_eq rfl)) fun _ x₄ is => .pure ?_
  subst is
  refine ⟨⟨tidy₃.owed, tidy₃.selectors, fun outside => ?_⟩, onward.stage, onward.extends_, ?_⟩
  · cases outside
  exact (stands.mono w₂).extend h₃.onward.extends_

/-- A body ends, if one is open. -/
theorem closeBody_tidy (tidy : x.Tidy) : Works H env x closeBody fun _ y =>
    y.Tidy ∧ y.state.inFunction = false ∧ y.state.stage = x.state.stage := by
  refine .get_bind (.ite (fun inside => ?_) fun outside =>
    .pure ⟨tidy, by simpa using outside, rfl⟩)
  refine .get_bind (.ite (fun _ => .failWith_bind _) fun left => .get_bind ?_)
  have empty : x.state.constructs = [] := List.length_eq_zero_iff.1 (by simpa using left)
  have last {y : Configuration} (h : x.Steered x.reserved y)
      (closed : y.state.builder.block? = none) : Works H env y (do
        endFunction
        modify fun s : State => { s with inFunction := false }) fun _ z =>
        z.Tidy ∧ z.state.inFunction = false ∧ z.state.stage = x.state.stage := by
    refine .bind (endFunction_turns closed) fun _ y' h' => ?_
    refine .imp (.note rfl (fun kept => { kept with }) rfl (.of_eq rfl)) fun _ z is => ?_
    subst is
    have onward := h.goes.trans h'.onward
    have owed := tidy.owed
    rw [State.owed, empty] at owed
    have tidy' := onward.tidy empty (by rwa [h'.reserved, h.reserved])
    exact ⟨⟨tidy'.owed, tidy'.selectors, fun _ => onward.constructs.trans empty⟩, rfl, onward.stage⟩
  refine .ite (fun _ => ?_) fun closed => ?_
  · exact .bind ret_leaves fun _ y returned => last returned.1 returned.2
  · exact last ⟨.refl _, rfl, rfl⟩ (by simpa using closed)

theorem entryFunction_works (owed : [x.state.entryPoint].Subperm x.reserved) {contents : Lower Unit}
    (works : ∀ y, x.Onward y → Works H env y contents fun _ _ => True) :
    Works H env x (entryFunction contents) fun _ _ => True := by
  refine .get_bind (.bind (openFunction_goes owed) fun _ x₁ ⟨h₁, _⟩ => ?_)
  refine .bind beginFreshBlock_works fun _ x₂ h₂ => ?_
  refine .bind (works x₂ (h₁.trans h₂.goes)) fun _ x₃ _ => ?_
  exact .bind ret_leaves fun _ x₄ ⟨_, closed⟩ =>
    .imp (endFunction_turns closed) fun _ _ _ => trivial

variable {b : Builder} {function : Id}

theorem call_supplies (events : H.events) (known : b.Available H function) :
    Supplies H env b (call function).run := by
  refine .after voidType_establishes fun void c within global => ?_
  refine .after (emitValue_does (.inr ⟨rfl, events⟩) global.available
    (List.forall_mem_singleton.2 (known.mono within))) fun _ _ _ _ => .pure trivial

theorem clearGroupMemory_supplies (events : H.events) :
    Supplies H env b clearGroupMemory.run := by
  refine .state_bind fun s ready _ => .ite (.pure trivial) ?_
  refine .after (scalarType_establishes _) fun word c within word_ => ?_
  refine .bind (.forIn fun memory mem d within' => ?_) fun _ e _ _ => ?_
  · refine .bind (arrayOf_establishes (word_.mono within') _) fun type f within₁ type_ => ?_
    refine .bind (constantNull_establishes type_) fun cleared g within₂ cleared_ => ?_
    refine .bind (storeTo_routine ?_ (Known.id_iff.2 cleared_.available)).supplies
      fun _ _ _ _ => .pure fun _ _ => trivial
    obtain ⟨entry, listed, rfl⟩ := List.mem_map.1 mem
    have stands := ready.kept.groupMemory entry listed
    exact ((((stands.mono within).mono within').mono within₁).mono within₂).available
  · refine .bind (constant_supplies _ _) fun workgroup f _ workgroup_ => .bind
      (constant_supplies _ _) fun semantics g within₃ semantics_ => barrier_supplies events ?_
    grind

theorem runBody_supplies (events : H.events) (known : b.Standing H function) :
    Supplies H env b (runBody function).run := by
  have copies {c : Builder} (within : b.Within c) : Supplies H env c (do
      copyInputs
      call function
      if env.stage ≠ .geometry then copyOutputs : Emission Unit).run :=
    .bind copyInputs_supplies fun _ d within₁ _ => .bind
      (call_supplies events ((known.mono within).mono within₁).available) fun _ e _ _ =>
        .ite copyOutputs_supplies (.pure trivial)
  refine .read_bind (.ite ?_ (copies (.refl _)))
  exact .bind (clearGroupMemory_supplies events) fun _ c within _ => copies within

theorem waitForControlPoints_supplies (events : H.events) :
    Supplies H env b waitForControlPoints.run :=
  .bind (constant_supplies _ _) fun workgroup c _ workgroup_ => .bind (constant_supplies _ _)
    fun invocation d _ invocation_ => .bind (constant_supplies _ _) fun semantics e _ semantics_ =>
      barrier_supplies events (by grind)

theorem isFirstInvocation_supplies : Supplies H env b isFirstInvocation.run := by
  unfold isFirstInvocation
  grind

/-- A step that only the first invocation takes. -/
theorem inFirstInvocation_goes {step : Lower Unit} (steps : ∀ y, x.Onward y →
      Works H env y step fun _ z => y.Onward z ∧ z.reserved = y.reserved) :
    Works H env x (inFirstInvocation step) fun _ y => x.Onward y ∧ y.reserved = x.reserved := by
  refine .bind (.goes isFirstInvocation_supplies) fun isFirst x₁ ⟨h₁, r₁, _, known⟩ => ?_
  refine .bind fresh_works fun thenLabel x₂ ⟨h₂, w₂⟩ => ?_
  refine .bind fresh_works fun endLabel x₃ ⟨h₃, w₃⟩ => ?_
  refine .bind (merge_works (.selection endLabel)) fun _ x₄ ⟨h₄, w₄⟩ => ?_
  refine .bind (test_works (((Known.id_iff.1 known).mono w₂).mono w₃ |>.mono w₄)) fun _ x₅ h₅ => ?_
  have due : (thenLabel :: endLabel :: x.reserved).Subperm x₅.reserved := by
    rw [h₅.reserved, h₄.reserved, h₃.reserved, h₂.reserved, r₁]
    exact (List.Perm.swap _ _ _).subperm
  refine .bind (beginBlock_steers due) fun _ x₆ h₆ => ?_
  have onward := h₁.trans ((((h₂.trans h₃).trans h₄).trans h₅).trans h₆).goes
  refine .bind (steps x₆ onward) fun _ x₇ ⟨h₇, r₇⟩ => ?_
  refine .bind (branch_steers _) fun _ x₈ h₈ => ?_
  have due : (endLabel :: x.reserved).Subperm x₈.reserved := by
    rw [h₈.reserved, r₇, h₆.reserved]
  refine .imp (beginBlock_steers due) fun _ y h₉ => ⟨?_, h₉.reserved⟩
  exact (onward.trans h₇).trans (h₈.trans h₉).goes

section

variable {phase : PatchPhase}

theorem instanceLeft_supplies {word bool : Id} (typed : b.Available H word)
    (logical : b.Available H bool) (instance_ : b.Available H phase.instanceId) :
    Supplies H env b (instanceLeft phase word bool).run := by
  unfold instanceLeft
  grind

theorem nextInstance_supplies {word : Id} (typed : b.Available H word)
    (instance_ : b.Available H phase.instanceId) :
    Supplies H env b (nextInstance phase word).run := by
  unfold nextInstance
  grind

variable (events : H.events) (callee : x.state.builder.Standing H phase.function)
  (counter : x.state.builder.module.Stands phase.instanceId)
  (free : ¬H.fromOperands phase.instanceId)
include events callee counter free

/-- The loop over the instances of a phase. -/
theorem runInstances_goes : Works H env x (runInstances phase) fun _ y =>
    x.Onward y ∧ y.reserved = x.reserved := by
  have instance_ {y : Configuration} (h : x.Onward y) :
      y.state.builder.Available H phase.instanceId := ⟨free, .inl (h.extends_.stands counter)⟩
  refine .bind (.goes (scalarType_establishes _)) fun word x₁ ⟨h₁, r₁, _, word_⟩ => ?_
  refine .bind (.goes (scalarType_establishes _)) fun bool x₂ ⟨h₂, r₂, w₂, bool_⟩ => ?_
  refine .bind fresh_works fun header x₃ ⟨h₃, _⟩ => .bind fresh_works fun check x₄ ⟨h₄, _⟩ => ?_
  refine .bind fresh_works fun body x₅ ⟨h₅, _⟩ =>
    .bind fresh_works fun continueLabel x₆ ⟨h₆, _⟩ => ?_
  refine .bind fresh_works fun merge x₇ ⟨h₇, _⟩ => .bind (branch_steers _) fun _ x₈ h₈ => ?_
  have due : (header :: check :: body :: continueLabel :: merge :: x.reserved).Subperm
      x₈.reserved := by
    rw [h₈.reserved, h₇.reserved, h₆.reserved, h₅.reserved, h₄.reserved, h₃.reserved, r₂, r₁]
    exact (List.perm_iff_count.2 fun a => by simp only [List.count_cons]; omega).subperm
  refine .bind (beginBlock_steers due) fun _ x₉ h₉ => ?_
  refine .bind (merge_works (.loop merge continueLabel)) fun _ y₁ ⟨g₁, _⟩ => ?_
  refine .bind (branch_steers _) fun _ y₂ g₂ => ?_
  have due : (check :: body :: continueLabel :: merge :: x.reserved).Subperm y₂.reserved := by
    rw [g₂.reserved, g₁.reserved, h₉.reserved]
  refine .bind (beginBlock_steers due) fun _ y₃ g₃ => ?_
  have steered := ((((((((h₃.trans h₄).trans h₅).trans h₆).trans h₇).trans h₈).trans h₉).trans
    g₁).trans g₂).trans g₃
  have onward := (h₁.trans h₂).trans steered.goes
  have word_ := (word_.mono w₂).extend steered.onward.extends_
  have bool_ := bool_.extend steered.onward.extends_
  refine .bind (.goes (instanceLeft_supplies word_.available bool_.available (instance_ onward)))
    fun inRange y₄ ⟨g₄, r₄, w₄, known⟩ => .bind (test_works known) fun _ y₅ g₅ => ?_
  have due : (body :: continueLabel :: merge :: x.reserved).Subperm y₅.reserved := by
    rw [g₅.reserved, r₄, g₃.reserved]
  refine .bind (beginBlock_steers due) fun _ y₆ g₆ => ?_
  have onward := (onward.trans g₄).trans (g₅.trans g₆).goes
  refine .bind (.goes (call_supplies events (callee.extend onward.extends_).available))
    fun _ y₇ ⟨g₇, r₇, _, _⟩ => .bind (branch_steers _) fun _ y₈ g₈ => ?_
  have due : (continueLabel :: merge :: x.reserved).Subperm y₈.reserved := by
    rw [g₈.reserved, r₇, g₆.reserved]
  refine .bind (beginBlock_steers due) fun _ y₉ g₉ => ?_
  have onward := (onward.trans g₇).trans (g₈.trans g₉).goes
  have word_ := (((word_.mono w₄).extend (g₅.trans g₆).onward.extends_).extend
    g₇.extends_).extend (g₈.trans g₉).onward.extends_
  refine .bind (.goes (nextInstance_supplies word_.available (instance_ onward)))
    fun _ z₁ ⟨k₁, r₁', _, _⟩ => .bind (branch_steers _) fun _ z₂ k₂ => ?_
  have due : (merge :: x.reserved).Subperm z₂.reserved := by
    rw [k₂.reserved, r₁', g₉.reserved]
  refine .imp (beginBlock_steers due) fun _ _ k₃ => ⟨?_, k₃.reserved⟩
  exact (onward.trans k₁).trans (k₂.trans k₃).goes

/-- A phase runs once or in a loop. -/
theorem runPatchPhase_goes : Works H env x (runPatchPhase phase) fun _ y =>
    x.Onward y ∧ y.reserved = x.reserved := by
  refine .bind (.goes (constantU32_supplies 0)) fun first x₁ ⟨h₁, r₁, w₁, known⟩ => ?_
  have counter_ : Known H x₁.state.builder phase.instanceId :=
    ⟨free, .inl (h₁.extends_.stands counter)⟩
  have stored : Supplies H env _ _ := (storeTo_routine counter_ known).supplies
  refine .bind (.goes stored) fun _ x₂ ⟨h₂, r₂, w₂, _⟩ => ?_
  have onward := h₁.trans h₂
  refine .ite (fun _ => ?_) fun _ => ?_
  · exact .imp (.goes (call_supplies events (callee.extend onward.extends_).available))
      fun _ _ ⟨h₃, r₃, _⟩ => ⟨onward.trans h₃, (r₃.trans r₂).trans r₁⟩
  · exact .imp (runInstances_goes events (callee.extend onward.extends_)
      (onward.extends_.stands counter) free) fun _ _ ⟨h₃, r₃⟩ =>
        ⟨onward.trans h₃, (r₃.trans r₂).trans r₁⟩

end

section

variable {h : HullState} (events : H.events)
  (phases : ∀ phase ∈ h.fork ++ h.join, x.state.builder.Standing H phase.function ∧
    x.state.builder.module.Stands phase.instanceId ∧ ¬H.fromOperands phase.instanceId)
include events phases

theorem runPatchPhases_goes : Works H env x (runPatchPhases h) fun _ y =>
    x.Onward y ∧ y.reserved = x.reserved := by
  refine .bind (.forIn fun phase mem y onward => ?_) fun _ y ⟨h₁, r₁⟩ => ?_
  · obtain ⟨callee, counter, free⟩ := phases phase mem
    exact .bind (runPatchPhase_goes events (callee.extend onward.extends_)
      (onward.extends_.stands counter) free) fun _ z goes => .pure ⟨rfl, goes⟩
  · exact .imp (.goes (copyPatchOutputs_supplies _)) fun _ _ ⟨h₂, r₂, _⟩ =>
      ⟨h₁.trans h₂, r₂.trans r₁⟩

theorem runPhases_goes (known : ∀ id, h.controlPoint? = some id → x.state.builder.Standing H id) :
    Works H env x (runPhases h) fun _ _ => True := by
  have points : Does H env x.state.builder (runControlPoints h).run fun _ _ => True := by
    refine .bindInterface copyInputs_supplies fun _ c within _ => ?_
    have waits (d : Builder) : Does H env d
        (liftM waitForControlPoints : InterfaceStep Unit).run fun _ _ => True :=
      .imp (waitForControlPoints_supplies events) fun _ _ _ _ => trivial
    split
    · next function is =>
      exact .bindInterface (call_supplies events ((known function is).mono within).available)
        fun _ d _ _ => waits d
    · exact .bindInterface passControlPoints_does fun _ d _ _ => waits d
  refine .bind (.goesInterface points) fun _ y ⟨h₁, _⟩ => .imp (inFirstInvocation_goes
    fun z onward => runPatchPhases_goes events fun phase mem => ?_) fun _ _ _ => trivial
  obtain ⟨callee, counter, free⟩ := phases phase mem
  have more := (h₁.trans onward).extends_
  exact ⟨callee.extend more, more.stands counter, free⟩

end

theorem executionModes_does : Does H env b executionModes.run fun _ _ => True := by
  refine .state_bind fun s _ _ => ?_
  split
  case h_4 => exact .demand fun _ _ => .demand fun _ _ => .pure fun _ _ => trivial
  all_goals exact .pure fun _ _ => trivial

theorem requireStage_leaves : Leaves P env requireStage.run := by
  refine .read_bind ?_
  split
  · exact requireCapability_leaves _
  · exact requireCapability_leaves _
  · exact requireCapability_leaves _
  · exact .pure

end Lower

/-- The variables that the entry point lists. -/
def State.interface (s : State) (options : Options) : List Id :=
  (s.globals.reverse.filter fun (_, storage) =>
    options.version.atLeast 1 4 || storage = .input || storage = .output).map (·.1)

/-- The instruction that declares the entry point. -/
def State.announcement (s : State) (env : Environment) : Instr :=
  .plain .entryPoint (.word env.stage.executionModel.code :: .id s.entryPoint ::
    .text env.options.entryPoint :: (s.interface env.options).map .id)

/-- The entry point has been declared, with its execution modes. -/
def State.Announced (env : Environment) (s t : State) : Prop :=
  ∃ modes : List Instr, (∀ i ∈ modes, i.result? = none) ∧
    t = { s with
      builder.module.entryPoints := s.builder.module.entryPoints.push (s.announcement env)
      builder.module.executionModes := s.builder.module.executionModes ++ modes }

namespace Lower

theorem announceEntryPoint_announces (ready : Ready H s)
    (ran : announceEntryPoint.run env s = (.ok (), t)) :
    ∃ u, Acts H env s u ∧ u.Announced env t := by
  obtain ⟨_, u, required, ran⟩ := Emission.run_bind_eq_ok.1 ran
  obtain ⟨modes, v, found, ran⟩ := Emission.run_bind_eq_ok.1 ran
  obtain ⟨first, _⟩ := (requireStage_leaves (P := Instr.IsPlainMark)).does s () u ready
    (.refl _) required
  obtain ⟨second, _⟩ := executionModes_does u modes v (first.ready ready) (.refl _) found
  cases ran
  refine ⟨v, first.trans second, _, fun i hi => ?_, rfl⟩
  obtain ⟨mode, _, rfl⟩ := List.mem_map.1 hi
  rfl

/-- What is left to do at the end of a shader, up to the announcement of the entry point. -/
theorem lowerEntryPoint_moves (owed : [x.state.entryPoint].Subperm x.reserved)
    (ready : Ready (.tables T) x.state)
    (ran : result lowerEntryPoint env x.state = (.ok (), t)) :
    ∃ r u, Moves (.tables T) env x ⟨u, r⟩ ∧ u.Announced env t := by
  have announces {m : Lower Unit} (works : Works (.tables T) env x m fun _ _ => True)
      (ran : result (do m; announceEntryPoint) env x.state = (.ok (), t)) :
      ∃ r u, Moves (.tables T) env x ⟨u, r⟩ ∧ u.Announced env t := by
    obtain ⟨_, v, ran, announced⟩ := result_bind_eq_ok.1 ran
    obtain ⟨r, moves, _⟩ := works ready _ v ran
    obtain ⟨u, acts, announced⟩ := announceEntryPoint_announces (moves.ready ready) announced
    exact ⟨r, u, moves.trans (Moves.of_acts acts r), announced⟩
  unfold lowerEntryPoint at ran
  rw [result_get_bind] at ran
  split at ran
  · next h is =>
    have kept := ready.kept.hull h (by rw [is]; rfl)
    refine announces (entryFunction_works owed fun y onward => runPhases_goes trivial
      (fun phase mem => ?_) fun id is => (kept.1 id is).extend onward.extends_) ran
    exact ⟨(kept.2 phase mem).1.extend onward.extends_,
      onward.extends_.stands (kept.2 phase mem).2, id⟩
  · rw [result_get_bind] at ran
    obtain ⟨body, u, found, ran⟩ := result_bind_eq_ok.1 ran
    obtain ⟨is, rfl⟩ := orFault_run_eq_ok.1 found
    have callee := ready.kept.body body is
    exact announces (entryFunction_works owed fun y onward => .imp
      (.goes (runBody_supplies trivial (callee.extend onward.extends_))) fun _ _ _ => trivial) ran

end Lower

end ShaderLowering
