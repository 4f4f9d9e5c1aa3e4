import ShaderLowering.Proofs.Scope.Instructions
import ShaderLowering.Proofs.Scope.Moves

/-!
Control flow consists of moves. Between two instructions a configuration is tidy: the labels that
open constructs still need are set aside, and so is the id of the entry point; the selector of an
open switch is a value of a block that leads to the header of the switch.
-/

namespace ShaderLowering

open Spirv (Id Instr Arg Op Module Builder Exit Merge)

variable {H : Limits} {T : Allowance} {env : Environment} {s t : State} {r : List Id}
  {x y z : Configuration} {inst : Instruction}

/-- The labels that a construct has yet to place. -/
def Construct.owed : Construct → List Id
  | .branch elseLabel endLabel hadElse => if hadElse then [endLabel] else [elseLabel, endLabel]
  | .loop _ continueLabel breakLabel => [continueLabel, breakLabel]
  | .switch s => [s.breakLabel]

/-- What is owed to the open constructs, and the id of the entry point. -/
def State.owed (s : State) : List Id :=
  s.constructs.flatMap Construct.owed ++ [s.entryPoint]

/-- The selector of a switch may be referred to in its header. -/
def Spirv.Builder.Selects (b : Builder) (sw : Switch) : Prop :=
  b.module.Stands sw.selector ∨
    ∃ f, b.function? = some f ∧ b.module.Handed f sw.header sw.selector

theorem Spirv.Builder.Selects.mono {b c : Builder} {sw : Switch} (h : b.Selects sw)
    (onward : b.Onward c) : c.Selects sw :=
  h.imp onward.extends_.stands fun ⟨f, hf, handed⟩ =>
    ⟨f, onward.function?.trans hf, onward.extends_.handed handed⟩

namespace Configuration

/-- What holds between two instructions. -/
structure Tidy (x : Configuration) : Prop where
  owed : x.state.owed.Subperm x.reserved
  selectors : ∀ sw, .switch sw ∈ x.state.constructs → x.state.builder.Selects sw
  outside : x.state.inFunction = false → x.state.constructs = []

namespace Steered

variable (h : x.Steered r y)
include h

theorem constructs : y.state.constructs = x.state.constructs := by
  rw [h.state]

theorem entryPoint : y.state.entryPoint = x.state.entryPoint := by
  rw [h.state]

theorem inFunction : y.state.inFunction = x.state.inFunction := by
  rw [h.state]

theorem stage : y.state.stage = x.state.stage := by
  rw [h.state]

theorem owed : y.state.owed = x.state.owed := by
  rw [State.owed, h.constructs, h.entryPoint, State.owed]

theorem tidy (tidy : x.Tidy) (enough : x.state.owed.Subperm r) : y.Tidy := by
  refine ⟨?_, fun sw mem => ?_, fun outside => ?_⟩
  · rw [h.owed, h.reserved]
    exact enough
  · rw [h.constructs] at mem
    exact (tidy.selectors sw mem).mono h.onward
  · rw [h.inFunction] at outside
    rw [h.constructs, tidy.outside outside]

end Steered

/-- Nothing but builder, constructs and what is set aside has changed, and all is tidy again. -/
structure Leads (x y : Configuration) : Prop where
  tidy : y.Tidy
  inFunction : y.state.inFunction = x.state.inFunction
  stage : y.state.stage = x.state.stage

theorem Steered.leads (h : x.Steered r y) (tidy : x.Tidy) (enough : x.state.owed.Subperm r) :
    x.Leads y :=
  ⟨h.tidy tidy enough, h.inFunction, h.stage⟩

/-- The builder has gone on, and then the constructs have changed. -/
theorem Steered.leads_constructs (h : x.Steered r y) (inside : x.state.inFunction = true)
    {constructs : List Construct} (is : z = ⟨{ y.state with constructs }, y.reserved⟩)
    (owed : (constructs.flatMap Construct.owed ++ [x.state.entryPoint]).Subperm r)
    (selectors : ∀ sw, .switch sw ∈ constructs → y.state.builder.Selects sw) : x.Leads z := by
  subst is
  refine ⟨⟨?_, selectors, fun outside => ?_⟩, h.inFunction, h.stage⟩
  · rw [State.owed, h.reserved]
    rw [← h.entryPoint] at owed
    exact owed
  · exact absurd ((h.inFunction.trans inside).symm.trans outside) nofun

/-- The constructs have changed, and then the builder has gone on. -/
theorem Steered.leads_from {constructs : List Construct} {r' : List Id}
    (h : Steered ⟨{ x.state with constructs }, r'⟩ r y) (inside : x.state.inFunction = true)
    (owed : (constructs.flatMap Construct.owed ++ [x.state.entryPoint]).Subperm r)
    (selectors : ∀ sw, .switch sw ∈ constructs → x.state.builder.Selects sw) : x.Leads y := by
  refine ⟨⟨?_, fun sw mem => ?_, fun outside => ?_⟩, h.inFunction, h.stage⟩
  · rw [h.owed, h.reserved]
    exact owed
  · rw [h.constructs] at mem
    exact (selectors sw mem).mono h.onward
  · exact absurd ((h.inFunction.trans inside).symm.trans outside) nofun

end Configuration

namespace Configuration

theorem Leads.trans (first : x.Leads y) (second : y.Leads z) : x.Leads z :=
  ⟨second.tidy, second.inFunction.trans first.inFunction, second.stage.trans first.stage⟩

theorem Leads.inside (h : x.Leads y) (inside : x.state.inFunction = true) :
    y.state.inFunction = true :=
  h.inFunction.trans inside

end Configuration

theorem Adds.entryPoint (h : Adds s t) : t.entryPoint = s.entryPoint := by
  cases h with
  | note _ same => exact same.entryPoint
  | _ => rfl

theorem Emits.entryPoint (h : Emits s t) : t.entryPoint = s.entryPoint := by
  induction h with
  | refl => rfl
  | step _ last ih => exact last.entryPoint.trans ih

theorem Act.stage (h : Act H env s t) : t.stage = s.stage := by
  cases h with
  | create _ accounts | note _ _ _ accounts | builtin _ _ _ accounts | locate _ _ _ _ accounts =>
    exact congrArg Accounts.stage accounts
  | bind _ binds =>
    obtain ⟨_, _, _, _, _, _, _, accounts⟩ := binds.made
    exact congrArg Accounts.stage accounts
  | _ => rfl

theorem Acts.stage (h : Acts H env s t) : t.stage = s.stage := by
  induction h with
  | refl => rfl
  | tail _ last ih => exact last.stage.trans ih

namespace Configuration

/-- Ordinary steps leave control alone. -/
theorem Tidy.emits (tidy : x.Tidy) (within : x.state.builder.Within y.state.builder)
    (emits : Emits x.state y.state) (reserved : y.reserved = x.reserved) : y.Tidy := by
  refine ⟨?_, fun sw mem => ?_, fun outside => ?_⟩
  · rw [State.owed, emits.constructs, emits.entryPoint, reserved]
    exact tidy.owed
  · rw [emits.constructs] at mem
    exact (tidy.selectors sw mem).mono within.onward
  · rw [emits.inFunction] at outside
    rw [emits.constructs, tidy.outside outside]

theorem Tidy.leads (tidy : x.Tidy) (acts : Acts H env x.state y.state)
    (emits : Emits x.state y.state) (reserved : y.reserved = x.reserved) : x.Leads y :=
  ⟨tidy.emits acts.within emits reserved, emits.inFunction, acts.stage⟩

end Configuration

namespace Works

variable {α β : Type} {f : α → Lower β}

/-- A change of the constructs. -/
theorem constructs {g : State → State} {constructs : List Construct}
    (is : g x.state = { x.state with constructs }) :
    Works H env x (modify g) fun _ y => y = ⟨{ x.state with constructs }, x.reserved⟩ := by
  refine .move fun _ t _ ran => ?_
  cases ran
  refine ⟨x.reserved, ?_, congrArg (Configuration.mk · _) is⟩
  rw [is]
  exact .note rfl (fun kept => { kept with }) rfl (.of_eq rfl)

theorem pop_bind {f : Option Construct → Lower β} {post : β → Configuration → Prop}
    (empty : x.state.constructs = [] → Works H env x (f none) post)
    (full : ∀ c rest, x.state.constructs = c :: rest →
      Works H env ⟨{ x.state with constructs := rest }, x.reserved⟩ (f (some c)) post) :
    Works H env x (Lower.popConstruct >>= f) post := by
  intro ready b u ran
  obtain ⟨a, t, popped, ran⟩ := Lower.result_bind_eq_ok.1 ran
  unfold Lower.popConstruct at popped
  rw [Lower.result_modifyGet] at popped
  cases is : x.state.constructs with
  | nil =>
    rw [is] at popped
    cases popped
    exact empty is ready b u ran
  | cons c rest =>
    rw [is] at popped
    cases popped
    obtain ⟨r, moves, fact⟩ :=
      full c rest is ⟨ready.sound, { ready.kept with }, ready.hidden⟩ b u ran
    have taken : Move H env x ⟨{ x.state with constructs := rest }, x.reserved⟩ :=
      .note rfl (fun kept => { kept with }) rfl (.of_eq rfl)
    exact ⟨r, .trans (.single taken) moves, fact⟩

end Works

namespace Lower

theorem setConstructs_works (constructs : List Construct) :
    Works H env x (setConstructs constructs) fun _ y =>
      y = ⟨{ x.state with constructs }, x.reserved⟩ :=
  .constructs rfl

theorem pushConstruct_works (c : Construct) :
    Works H env x (pushConstruct c) fun _ y =>
      y = ⟨{ x.state with constructs := c :: x.state.constructs }, x.reserved⟩ :=
  .constructs rfl

theorem exit_steers {e : Exit} (none_ : e.instr.reads = []) :
    Works H env x (tryBuild (·.terminate e.instr)) fun _ y => x.Steered x.reserved y :=
  exit_works e fun _ hid => absurd (none_ ▸ hid) List.not_mem_nil

theorem branch_steers (label : Id) :
    Works H env x (branch label) fun _ y => x.Steered x.reserved y :=
  .imp branch_works fun _ _ h => h.1

theorem ret_steers : Works H env x ret fun _ y => x.Steered x.reserved y :=
  exit_steers (e := .ret) rfl

theorem kill_steers :
    Works H env x (terminate .kill []) fun _ y => x.Steered x.reserved y :=
  exit_steers (e := .kill) rfl

theorem reopen_steers (k : Nat) : Works H env x (tryBuild (·.reopenBlock k)) fun _ y =>
    x.Steered x.reserved y ∧ y.state.builder.block? = some k :=
  .build fun c _ opened => by
    have is := Spirv.Builder.reopenBlock_eq_ok opened
    refine ⟨x.reserved, .reopen opened, ⟨?_, rfl, rfl⟩, congrArg (·.block?) is⟩
    rw [is]
    exact ⟨.refl _, rfl⟩

theorem leave_steers : Works H env x (modify fun s : State =>
    { s with builder := s.builder.leaveBlock }) fun _ y => x.Steered x.reserved y := by
  refine .move fun _ t _ ran => ?_
  cases ran
  exact ⟨x.reserved, .leave, ⟨.refl _, rfl⟩, rfl, rfl⟩

theorem beginBlock_steers {label : Id} (due : (label :: r).Subperm x.reserved) :
    Works H env x (beginBlock label) fun _ y => x.Steered r y :=
  .imp (beginBlock_works due) fun _ _ h => h.1

/-- A block that nothing reaches follows on a jump. -/
theorem jump_steers {jump : Lower Unit}
    (jumps : Works H env x jump fun _ y => x.Steered x.reserved y) :
    Works H env x (do jump; beginFreshBlock) fun _ y => x.Steered x.reserved y :=
  .bind jumps fun _ _ hy => .imp beginFreshBlock_works fun _ _ hz =>
    hy.trans (hy.reserved ▸ hz)

theorem jumpOn_steers {condition : Id} (known : x.state.builder.Available H condition)
    {jump : Lower Unit}
    (jumps : ∀ y, Works H env y jump fun _ z => y.Steered y.reserved z) :
    Works H env x (jumpOn condition jump) fun _ y => x.Steered x.reserved y := by
  refine .bind fresh_works fun taken x₁ ⟨h₁, w₁⟩ => .bind fresh_works fun merge x₂ ⟨h₂, w₂⟩ => ?_
  have h₂ := h₁.reserved ▸ h₁.trans h₂
  refine .bind (merge_works (.selection merge)) fun _ x₃ ⟨h₃, w₃⟩ => ?_
  have h₃ := h₂.reserved ▸ h₂.trans h₃
  refine .bind (test_works (((known.mono w₁).mono w₂).mono w₃)) fun _ x₄ h₄ => ?_
  have h₄ := h₃.reserved ▸ h₃.trans h₄
  refine .bind (beginBlock_steers (r := merge :: x.reserved) ?_) fun _ x₅ h₅ => ?_
  · rw [h₄.reserved]
    exact (List.Perm.swap _ _ _).subperm
  refine .bind (jumps x₅) fun _ x₆ h₆ => ?_
  have h₆ := h₄.trans (h₅.trans (h₅.reserved ▸ h₆))
  refine .imp (beginBlock_steers (r := x.reserved) ?_) fun _ _ h₇ => h₆.trans h₇
  rw [h₆.reserved]

theorem condition_supplies {b : Builder} :
    Supplies (.tables T) env b (condition inst).run :=
  .source fun _ => .bind (readOperand_supplies _ _) fun _ _ _ known =>
    .bind (zeroTest_routine known _).supplies fun _ _ _ known => .pure known

theorem selector_supplies {b : Builder} : Supplies (.tables T) env b (selector inst).run :=
  .source fun _ => readScalar_supplies _ _

theorem lift_leads {α : Type} [Refers α] {e : Emission α} (tidy : x.Tidy)
    (supplies : Supplies H env x.state.builder e.run) :
    Works H env x (liftM e) fun a y => x.Leads y ∧ Known H y.state.builder a :=
  .imp (.lift supplies) fun _ _ ⟨acts, emits, reserved, known⟩ =>
    ⟨tidy.leads acts emits reserved, known⟩

/-- Constructs with a change of the innermost one, if it is a switch. -/
def changeSwitch (f : Switch → Switch) : List Construct → List Construct
  | .switch sw :: rest => .switch (f sw) :: rest
  | constructs => constructs

theorem modifySwitch_works (f : Switch → Switch) : Works H env x (modifySwitch f) fun _ y =>
    y = ⟨{ x.state with constructs := changeSwitch f x.state.constructs }, x.reserved⟩ := by
  refine .constructs ?_
  dsimp only
  split
  · next is =>
    rw [is]
    rfl
  · next other =>
    have same : changeSwitch f x.state.constructs = x.state.constructs := by
      unfold changeSwitch
      split
      · next is => exact absurd is (other _ _)
      · rfl
    rw [same]

theorem breakTarget_works : Works H env x breakTarget fun _ y => y = x := by
  intro _ _ t found
  obtain ⟨_, rfl⟩ := breakTarget_eq_ok.1 found
  exact ⟨x.reserved, .refl, rfl⟩

theorem continueTarget_works : Works H env x continueTarget fun _ y => y = x := by
  intro _ _ t found
  obtain ⟨_, rfl⟩ := continueTarget_eq_ok.1 found
  exact ⟨x.reserved, .refl, rfl⟩

variable (tidy : x.Tidy) (inside : x.state.inFunction = true)
include tidy inside

theorem openIf_leads {condition : Id} (known : x.state.builder.Available H condition) :
    Works H env x (openIf condition) fun _ y => x.Leads y := by
  refine .bind fresh_works fun thenLabel x₁ ⟨h₁, w₁⟩ => ?_
  refine .bind fresh_works fun elseLabel x₂ ⟨h₂, w₂⟩ => ?_
  refine .bind fresh_works fun endLabel x₃ ⟨h₃, w₃⟩ => ?_
  refine .bind (merge_works (.selection endLabel)) fun _ x₄ ⟨h₄, w₄⟩ => ?_
  have known := (((known.mono w₁).mono w₂).mono w₃).mono w₄
  refine .bind (test_works known) fun _ x₅ h₅ => ?_
  have reserved : x₅.reserved = endLabel :: elseLabel :: thenLabel :: x.reserved := by
    rw [h₅.reserved, h₄.reserved, h₃.reserved, h₂.reserved, h₁.reserved]
  refine .bind (beginBlock_steers (r := elseLabel :: endLabel :: x.reserved) ?_) fun _ x₆ h₆ => ?_
  · rw [reserved]
    exact (List.perm_iff_count.2 fun a => by simp only [List.count_cons]; omega).subperm
  have steered := ((((h₁.trans h₂).trans h₃).trans h₄).trans h₅).trans h₆
  refine .imp (pushConstruct_works _) fun _ y is => ?_
  refine steered.leads_constructs inside is ?_ fun sw mem => ?_
  · rw [steered.constructs]
    exact List.subperm_cons _ |>.2 (List.subperm_cons _ |>.2 tidy.owed)
  · rw [steered.constructs] at mem
    rcases List.mem_cons.1 mem with is | mem
    · cases is
    · exact (tidy.selectors sw mem).mono steered.onward

theorem lowerElse_leads : Works H env x lowerElse fun _ y => x.Leads y := by
  refine .get_bind ?_
  split
  · next elseLabel endLabel hadElse rest is =>
    refine .ite (fun _ => .failWith_bind _) fun notYet => ?_
    have owed := tidy.owed
    simp only [State.owed, is, List.flatMap_cons, Construct.owed, if_neg notYet,
      List.append_assoc] at owed
    refine .bind (setConstructs_works _) fun _ x₁ h₁ => ?_
    subst h₁
    refine .bind (branch_steers _) fun _ x₂ h₂ => ?_
    refine .imp (beginBlock_steers (h₂.reserved ▸ owed)) fun _ y h₃ => ?_
    refine (h₂.trans h₃).leads_from inside (.refl _) fun sw mem => tidy.selectors sw ?_
    rw [is]
    exact List.mem_cons_of_mem _ ((List.mem_cons.1 mem).resolve_left nofun)
  · exact .failWith _

theorem lowerEndIf_leads : Works H env x lowerEndIf fun _ y => x.Leads y := by
  refine .pop_bind (fun _ => .failWith _) fun c rest is => ?_
  cases c with
  | branch elseLabel endLabel hadElse =>
    have owed := tidy.owed
    have last {r : List Id} {y : Configuration}
        (steered : Configuration.Steered ⟨{ x.state with constructs := rest }, x.reserved⟩ r y)
        (due : (endLabel :: (rest.flatMap Construct.owed ++ [x.state.entryPoint])).Subperm r) :
        Works H env y (beginBlock endLabel) fun _ z => x.Leads z := by
      refine .imp (beginBlock_steers (by rwa [steered.reserved])) fun _ _ h => ?_
      refine (steered.trans h).leads_from inside (.refl _) fun sw mem => tidy.selectors sw ?_
      exact is ▸ List.mem_cons_of_mem _ mem
    refine .bind (branch_steers _) fun _ x₁ h₁ => .ite (fun had => ?_) fun notYet => ?_
    · simp only [State.owed, is, List.flatMap_cons, Construct.owed, if_pos had,
        List.append_assoc] at owed
      exact last h₁ owed
    · simp only [State.owed, is, List.flatMap_cons, Construct.owed, if_neg notYet,
        List.append_assoc] at owed
      refine .bind (beginBlock_steers (h₁.reserved ▸ owed)) fun _ x₂ h₂ => ?_
      refine .bind (branch_steers _) fun _ x₃ h₃ => ?_
      exact last ((h₁.trans h₂).trans h₃) (by rw [h₂.reserved]; rfl)
  | loop | switch => exact .failWith _

theorem lowerLoop_leads : Works H env x lowerLoop fun _ y => x.Leads y := by
  refine .bind fresh_works fun headerLabel x₁ ⟨h₁, _⟩ => ?_
  refine .bind fresh_works fun bodyLabel x₂ ⟨h₂, _⟩ => ?_
  refine .bind fresh_works fun continueLabel x₃ ⟨h₃, _⟩ => ?_
  refine .bind fresh_works fun breakLabel x₄ ⟨h₄, _⟩ => ?_
  refine .bind (branch_steers _) fun _ x₅ h₅ => ?_
  have reserved : x₅.reserved =
      breakLabel :: continueLabel :: bodyLabel :: headerLabel :: x.reserved := by
    rw [h₅.reserved, h₄.reserved, h₃.reserved, h₂.reserved, h₁.reserved]
  have due : (headerLabel :: bodyLabel :: continueLabel :: breakLabel :: x.reserved).Subperm
      x₅.reserved := by
    rw [reserved]
    exact (List.perm_iff_count.2 fun a => by simp only [List.count_cons]; omega).subperm
  refine .bind (beginBlock_steers due) fun _ x₆ h₆ => ?_
  refine .bind (merge_works (.loop breakLabel continueLabel)) fun _ x₇ ⟨h₇, _⟩ => ?_
  refine .bind (branch_steers _) fun _ x₈ h₈ => ?_
  have due : (bodyLabel :: continueLabel :: breakLabel :: x.reserved).Subperm x₈.reserved := by
    rw [h₈.reserved, h₇.reserved, h₆.reserved]
  refine .bind (beginBlock_steers due) fun _ x₉ h₉ => ?_
  have steered :=
    (((((((h₁.trans h₂).trans h₃).trans h₄).trans h₅).trans h₆).trans h₇).trans h₈).trans h₉
  refine .imp (pushConstruct_works _) fun _ y is => ?_
  refine steered.leads_constructs inside is ?_ fun sw mem => ?_
  · rw [steered.constructs]
    exact (List.subperm_cons _).2 ((List.subperm_cons _).2 tidy.owed)
  · rw [steered.constructs] at mem
    exact (tidy.selectors sw ((List.mem_cons.1 mem).resolve_left nofun)).mono steered.onward

theorem lowerEndLoop_leads : Works H env x lowerEndLoop fun _ y => x.Leads y := by
  refine .pop_bind (fun _ => .failWith _) fun c rest is => ?_
  cases c with
  | loop headerLabel continueLabel breakLabel =>
    have owed := tidy.owed
    simp only [State.owed, is, List.flatMap_cons, Construct.owed, List.append_assoc] at owed
    refine .bind (branch_steers _) fun _ x₁ h₁ => ?_
    refine .bind (beginBlock_steers (h₁.reserved ▸ owed)) fun _ x₂ h₂ => ?_
    refine .bind (branch_steers _) fun _ x₃ h₃ => ?_
    have due : (breakLabel :: (rest.flatMap Construct.owed ++ [x.state.entryPoint])).Subperm
        x₃.reserved := by
      rw [h₃.reserved, h₂.reserved]
      rfl
    refine .imp (beginBlock_steers due) fun _ y h₄ => ?_
    refine (((h₁.trans h₂).trans h₃).trans h₄).leads_from inside (.refl _) fun sw mem =>
      tidy.selectors sw ?_
    exact is ▸ List.mem_cons_of_mem _ mem
  | branch | switch => exact .failWith _

theorem openSwitch_leads {selector : Id} (known : x.state.builder.Available H selector) :
    Works H env x (openSwitch selector) fun _ y => x.Leads y := by
  refine .bind fresh_works fun headerLabel x₁ ⟨h₁, w₁⟩ => ?_
  refine .bind fresh_works fun breakLabel x₂ ⟨h₂, w₂⟩ => ?_
  refine .bind branch_works fun _ x₃ ⟨h₃, passes⟩ => ?_
  have due : (headerLabel :: breakLabel :: x.reserved).Subperm x₃.reserved := by
    rw [h₃.reserved, h₂.reserved, h₁.reserved]
    exact (List.Perm.swap _ _ _).subperm
  refine .bind (beginBlock_works due) fun _ x₄ ⟨h₄, f, k, hf, hk, labelled⟩ => ?_
  refine .get_bind (.orFault_bind fun header is => ?_)
  cases hk.symm.trans is
  have steered := (((h₁.trans h₂).trans h₃).trans h₄)
  have selects : x₄.state.builder.Selects
      ⟨k, selector, breakLabel, none, none, []⟩ := by
    rcases ((known.mono w₁).mono w₂).2 with stands | computes
    · exact .inl ((h₃.trans h₄).onward.extends_.stands stands)
    · obtain ⟨f', k', j, hf', branch, before⟩ := (passes selector computes).mono h₄.onward
      cases hf.symm.trans hf'
      exact .inr ⟨f, hf, headerLabel, k', j, labelled, branch, before⟩
  refine .bind leave_steers fun _ x₅ h₅ => .imp (pushConstruct_works _) fun _ y is => ?_
  have steered := steered.trans h₅
  refine steered.leads_constructs inside is ?_ fun sw mem => ?_
  · rw [steered.constructs, h₄.reserved]
    exact (List.subperm_cons _).2 tidy.owed
  · rw [steered.constructs] at mem
    rcases List.mem_cons.1 mem with is | mem
    · cases is
      exact selects.mono h₅.onward
    · exact (tidy.selectors sw mem).mono steered.onward

omit tidy inside in
theorem closeCase_steers (next : Id) :
    Works H env x (closeCase next) fun _ y => x.Steered x.reserved y :=
  .get_bind (.ite (fun _ => .pure ⟨.refl _, rfl, rfl⟩) fun _ => .get_bind
    (.ite (fun _ => exit_steers (e := .unreachable) rfl) fun _ => branch_steers _))

theorem caseLabel_leads :
    Works H env x caseLabel fun _ y => x.Leads y := by
  refine .get_bind (.get_bind ?_)
  split
  · next sw rest is =>
    split
    · exact .pure ⟨tidy, rfl, rfl⟩
    · refine .bind fresh_works fun label x₁ ⟨h₁, _⟩ => ?_
      refine .bind (closeCase_steers label) fun _ x₂ h₂ => ?_
      have due : (label :: x.reserved).Subperm x₂.reserved := by
        rw [h₂.reserved, h₁.reserved]
      refine .bind (beginBlock_steers due) fun _ x₃ h₃ => ?_
      have steered := (h₁.trans h₂).trans h₃
      refine .bind (setConstructs_works _) fun _ x₄ is' => .pure ?_
      have owed := tidy.owed
      rw [State.owed, is] at owed
      refine steered.leads_constructs inside is' owed fun sw' mem => ?_
      rcases List.mem_cons.1 mem with same | mem
      · cases same
        exact (tidy.selectors sw (is ▸ List.mem_cons_self)).mono steered.onward
      · exact (tidy.selectors sw' (is ▸ List.mem_cons_of_mem _ mem)).mono steered.onward
  · exact .failWith _

/-- A change of the innermost switch that is neither of its selector nor of its labels. -/
theorem modifySwitch_leads {f : Switch → Switch} (header : ∀ sw, (f sw).header = sw.header)
    (selector : ∀ sw, (f sw).selector = sw.selector)
    (breakLabel : ∀ sw, (f sw).breakLabel = sw.breakLabel) :
    Works H env x (modifySwitch f) fun _ y => x.Leads y := by
  have steered : x.Steered x.reserved x := ⟨.refl _, rfl, rfl⟩
  refine .imp (modifySwitch_works f) fun _ y is => steered.leads_constructs inside is ?_ ?_
  · have same : (changeSwitch f x.state.constructs).flatMap Construct.owed =
        x.state.constructs.flatMap Construct.owed := by
      unfold changeSwitch
      split
      · next is => simp only [is, List.flatMap_cons, Construct.owed, breakLabel]
      · rfl
    rw [same]
    exact tidy.owed
  · intro sw mem
    unfold changeSwitch at mem
    split at mem
    · next sw' rest is =>
      rcases List.mem_cons.1 mem with same | mem
      · cases same
        have selects := tidy.selectors sw' (is ▸ List.mem_cons_self)
        unfold Spirv.Builder.Selects at selects ⊢
        rwa [header, selector]
      · exact tidy.selectors sw (is ▸ List.mem_cons_of_mem _ mem)
    · exact tidy.selectors sw mem

omit tidy inside in
theorem closeHeader_steers {sw : Switch} (selects : x.state.builder.Selects sw) :
    Works H env x (closeHeader sw) fun _ y => x.Steered x.reserved y := by
  refine .bind (reopen_steers _) fun _ x₁ ⟨h₁, opened⟩ => ?_
  refine .bind (merge_works (.selection sw.breakLabel)) fun _ x₂ ⟨h₂, within⟩ => ?_
  have args : Arg.id sw.selector :: .id (sw.defaultLabel?.getD sw.breakLabel) ::
      sw.cases.flatMap (fun c => [.word c.literal, .id c.label]) =
      (Exit.switch sw.selector (sw.defaultLabel?.getD sw.breakLabel)
        (sw.cases.map fun c => (c.literal, c.label))).instr.args := by
    rw [Exit.instr, Exit.caseArgs, List.flatMap_map]
    rfl
  rw [args]
  refine .imp (exit_works (.switch sw.selector _ _) fun id hid => ?_) fun _ y h₃ =>
    h₁.reserved ▸ (h₁.trans h₂).trans (h₂.reserved ▸ h₃)
  cases List.mem_singleton.1 hid
  rcases (selects.mono h₁.onward).mono h₂.onward with stands | ⟨f, hf, handed⟩
  · exact .inl stands
  · exact .inr (.inr ⟨rfl, f, sw.header, hf, within.block?.trans opened, handed⟩)

theorem lowerEndSwitch_leads : Works H env x lowerEndSwitch fun _ y => x.Leads y := by
  refine .pop_bind (fun _ => .failWith _) fun c rest is => ?_
  cases c with
  | switch sw =>
    have owed := tidy.owed
    simp only [State.owed, is, List.flatMap_cons, Construct.owed, List.append_assoc] at owed
    have selects := tidy.selectors sw (is ▸ List.mem_cons_self)
    refine .bind (closeCase_steers _) fun _ x₁ h₁ => ?_
    refine .bind (closeHeader_steers (selects.mono h₁.onward)) fun _ x₂ h₂ => ?_
    refine .imp (beginBlock_steers ((h₂.reserved.trans h₁.reserved) ▸ owed)) fun _ y h₃ => ?_
    refine ((h₁.trans h₂).trans h₃).leads_from inside (.refl _) fun sw mem => tidy.selectors sw ?_
    exact is ▸ List.mem_cons_of_mem _ mem
  | branch | loop => exact .failWith _

omit tidy inside in
theorem addCase_eq (sw : Switch) (literal : UInt32) (label : Id) :
    ∃ cases, Switch.addCase sw literal label = { sw with cases } := by
  unfold Switch.addCase
  split
  · exact ⟨sw.cases, rfl⟩
  · exact ⟨_, rfl⟩

omit inside in
/-- A condition is computed, and control jumps if it holds. -/
theorem jumpIf_leads {jump : Lower Unit}
    (jumps : ∀ y, Works (.tables T) env y jump fun _ z => y.Steered y.reserved z) :
    Works (.tables T) env x (jumpIf inst jump) fun _ y => x.Leads y :=
  .bind (lift_leads tidy condition_supplies) fun _ _ ⟨leads, known⟩ =>
    .imp (jumpOn_steers known jumps) fun _ _ h => leads.trans (h.leads leads.tidy leads.tidy.owed)

theorem lowerControlFlow_leads :
    Works (.tables T) env x (lowerControlFlow inst) fun _ y => x.Leads y := by
  have branches (label : Id) (y : Configuration) :
      Works (.tables T) env y (branch label) fun _ z => y.Steered y.reserved z :=
    branch_steers label
  have jumps {jump : Lower Unit}
      (steers : Works (.tables T) env x jump fun _ y => x.Steered x.reserved y) :
      Works (.tables T) env x (do jump; beginFreshBlock) fun _ y => x.Leads y :=
    .imp (jump_steers steers) fun _ _ h => h.leads tidy tidy.owed
  unfold lowerControlFlow
  split
  · exact .bind (lift_leads tidy condition_supplies) fun _ _ ⟨leads, known⟩ =>
      .imp (openIf_leads leads.tidy (leads.inside inside) known) fun _ _ => leads.trans
  · exact lowerElse_leads tidy inside
  · exact lowerEndIf_leads tidy inside
  · exact lowerLoop_leads tidy inside
  · exact lowerEndLoop_leads tidy inside
  · exact .bind (lift_leads tidy selector_supplies) fun _ _ ⟨leads, known⟩ =>
      .imp (openSwitch_leads leads.tidy (leads.inside inside) known) fun _ _ => leads.trans
  · refine .orFault_bind fun op _ => .ite (fun _ => .failWith_bind _) fun _ => ?_
    refine .bind (caseLabel_leads tidy inside) fun label _ leads => .imp (modifySwitch_leads
      leads.tidy (leads.inside inside) (fun sw => ?_) (fun sw => ?_) fun sw => ?_)
      fun _ _ => leads.trans
    all_goals
      obtain ⟨cases, added⟩ := addCase_eq sw op.imm.x label
      rw [added]
  · exact .bind (caseLabel_leads tidy inside) fun _ _ leads => .imp
      (modifySwitch_leads leads.tidy (leads.inside inside) (fun _ => rfl) (fun _ => rfl)
        fun _ => rfl) fun _ _ => leads.trans
  · exact lowerEndSwitch_leads tidy inside
  · exact .bind breakTarget_works fun label _ is => is ▸ jumps (branch_steers label)
  · exact .bind continueTarget_works fun label _ is => is ▸ jumps (branch_steers label)
  · exact .bind breakTarget_works fun label _ is => is ▸ jumpIf_leads tidy (branches label)
  · exact .bind continueTarget_works fun label _ is => is ▸ jumpIf_leads tidy (branches label)
  · exact jumps ret_steers
  · exact jumpIf_leads tidy fun _ => ret_steers
  · refine .read_bind (.ite (fun _ => .failWith_bind _) fun _ => ?_)
    exact jumpIf_leads tidy fun _ => kill_steers
  · intro _ _ _ ran
    cases ran

end Lower

end ShaderLowering
