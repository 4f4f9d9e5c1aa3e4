import ShaderLowering.Proofs.Control.Structure
import ShaderLowering.Proofs.Lowering.Conditions
import ShaderLowering.Proofs.Lowering.Handlers

/-!
What lowering one instruction does to a draft. An ordinary instruction writes to the open node. A
control-flow instruction first writes the code that it needs, for its condition or selector, and
then changes the draft as a partial function of its opcode and of the id of what it computed.
-/

namespace ShaderLowering

open Spirv (Id Instr Node Merge Exit)

namespace Draft

/-- What a control-flow instruction does once its condition or selector is computed. -/
def control? (inst : Instruction) (id : Id) (d : Draft) : Option Draft :=
  match inst.op? with
  | some .ifOp => d.openIf? id
  | some .elseOp => d.else?
  | some .endIf => d.endIf?
  | some .loop => d.loop?
  | some .endLoop => d.endLoop?
  | some .switch => d.openSwitch? id
  | some .caseOp => d.case? inst.caseLiteral
  | some .defaultOp => d.default?
  | some .endSwitch => d.endSwitch?
  | some .breakOp => (Lower.breakTarget? d.constructs).bind fun label => d.jump? (.branch label)
  | some .continueOp =>
    (Lower.continueTarget? d.constructs).bind fun label => d.jump? (.branch label)
  | some .breakIf =>
    (Lower.breakTarget? d.constructs).bind fun label => d.jumpOn? id (.branch label)
  | some .continueIf =>
    (Lower.continueTarget? d.constructs).bind fun label => d.jumpOn? id (.branch label)
  | some .ret => d.jump? .ret
  | some .retIf => d.jumpOn? id .ret
  | some .discard => d.jumpOn? id .kill
  | _ => none

/-- How an instruction that jumps leaves its block. -/
def leave? (constructs : List Construct) : Opcode → Option Exit
  | .breakOp | .breakIf => (Lower.breakTarget? constructs).map .branch
  | .continueOp | .continueIf => (Lower.continueTarget? constructs).map .branch
  | .ret | .retIf => some .ret
  | .discard => some .kill
  | _ => none

/-- What it means that an instruction directs control, one case for each way to do so. -/
inductive Directs (inst : Instruction) (id : Id) (d e : Draft) : Prop
  | openIf (op : inst.op? = some .ifOp) (h : d.openIf? id = some e)
  | else (op : inst.op? = some .elseOp) (h : d.else? = some e)
  | endIf (op : inst.op? = some .endIf) (h : d.endIf? = some e)
  | loop (op : inst.op? = some .loop) (h : d.loop? = some e)
  | endLoop (op : inst.op? = some .endLoop) (h : d.endLoop? = some e)
  | openSwitch (op : inst.op? = some .switch) (h : d.openSwitch? id = some e)
  | case (op : inst.op? = some .caseOp) (h : d.case? inst.caseLiteral = some e)
  | default (op : inst.op? = some .defaultOp) (h : d.default? = some e)
  | endSwitch (op : inst.op? = some .endSwitch) (h : d.endSwitch? = some e)
  | jump {jumpOp : Opcode} {leave : Exit} (op : inst.op? = some jumpOp)
    (isJump : Lower.isJump (some jumpOp) = true) (leaves : leave? d.constructs jumpOp = some leave)
    (h : d.jump? leave = some e)
  | jumpOn {jumpOp : Opcode} {leave : Exit} (op : inst.op? = some jumpOp)
    (isJump : jumpOp.isJumpOn = true) (leaves : leave? d.constructs jumpOp = some leave)
    (h : d.jumpOn? id leave = some e)

theorem directs_of_control {inst : Instruction} {id : Id} {d e : Draft}
    (h : d.control? inst id = some e) : Directs inst id d e := by
  unfold control? at h
  split at h
  · next op => exact .openIf op h
  · next op => exact .else op h
  · next op => exact .endIf op h
  · next op => exact .loop op h
  · next op => exact .endLoop op h
  · next op => exact .openSwitch op h
  · next op => exact .case op h
  · next op => exact .default op h
  · next op => exact .endSwitch op h
  · next op =>
    obtain ⟨label, hl, h⟩ := Option.bind_eq_some_iff.1 h
    exact .jump op rfl (congrArg (Option.map Exit.branch) hl) h
  · next op =>
    obtain ⟨label, hl, h⟩ := Option.bind_eq_some_iff.1 h
    exact .jump op rfl (congrArg (Option.map Exit.branch) hl) h
  · next op =>
    obtain ⟨label, hl, h⟩ := Option.bind_eq_some_iff.1 h
    exact .jumpOn op rfl (congrArg (Option.map Exit.branch) hl) h
  · next op =>
    obtain ⟨label, hl, h⟩ := Option.bind_eq_some_iff.1 h
    exact .jumpOn op rfl (congrArg (Option.map Exit.branch) hl) h
  · next op => exact .jump op rfl rfl h
  · next op => exact .jumpOn op rfl rfl h
  · next op => exact .jumpOn op rfl rfl h
  · cases h

/-- The instructions that ask whether a word is zero. -/
def isTest (inst : Instruction) : Bool :=
  match inst.op? with
  | some .ifOp | some .breakIf | some .continueIf | some .retIf | some .discard => true
  | _ => false

/-- Two drafts of one function. -/
structure SameFunction (d e : Draft) : Prop where
  earlier : e.earlier = d.earlier
  definition : e.definition = d.definition

theorem sameFunction_closeCase (d : Draft) (label : Id) : d.SameFunction (d.closeCase label) := by
  unfold closeCase
  split <;> exact ⟨rfl, rfl⟩

theorem sameFunction_modifySwitch (d : Draft) (f : Switch → Switch) :
    d.SameFunction (d.modifySwitch f) := by
  unfold modifySwitch
  split <;> exact ⟨rfl, rfl⟩

theorem sameFunction_caseLabel {d e : Draft} {label : Id}
    (h : d.caseLabel? = some (label, e)) : d.SameFunction e := by
  unfold caseLabel? at h
  split at h
  · split at h
    · cases h
      exact ⟨rfl, rfl⟩
    · cases h
      have closed := sameFunction_closeCase (d.take 1) d.next
      exact ⟨closed.earlier, closed.definition⟩
  · cases h

/-- Directing control stays within the function. -/
theorem Directs.sameFunction {inst : Instruction} {id : Id} {d e : Draft}
    (h : Directs inst id d e) : d.SameFunction e := by
  have cases_ {f : Id → Switch → Switch} (h : d.addLabel? f = some e) : d.SameFunction e := by
    obtain ⟨⟨label, c⟩, hl, rfl⟩ := Option.map_eq_some_iff.1 h
    have labelled := sameFunction_caseLabel hl
    have modified := sameFunction_modifySwitch c (f label)
    exact ⟨modified.earlier.trans labelled.earlier,
      modified.definition.trans labelled.definition⟩
  cases h with
  | openIf _ h | loop _ h | openSwitch _ h | jump _ _ _ h | jumpOn _ _ _ h =>
    obtain ⟨n, ho, rfl⟩ := Option.map_eq_some_iff.1 h
    exact ⟨rfl, rfl⟩
  | «else» _ h =>
    unfold else? at h
    split at h
    · cases h
      exact ⟨rfl, rfl⟩
    · cases h
  | endIf _ h =>
    unfold endIf? at h
    split at h
    · next hadElse _ _ _ _ =>
      cases h
      cases hadElse <;> exact ⟨rfl, rfl⟩
    · cases h
  | endLoop _ h =>
    unfold endLoop? at h
    split at h
    · cases h
      exact ⟨rfl, rfl⟩
    · cases h
  | case _ h => exact cases_ h
  | default _ h => exact cases_ h
  | endSwitch _ h =>
    unfold endSwitch? at h
    split at h
    · next s rest _ =>
      dsimp only at h
      split at h
      · cases h
        have closed := sameFunction_closeCase { d with constructs := rest } s.breakLabel
        exact ⟨closed.earlier, closed.definition⟩
      · cases h
    · cases h

/-- What lowering an instruction inside a body may do to a draft. -/
inductive Lowers (inst : Instruction) (d : Draft) : Draft → Prop
  | ordinary {e : Draft} (family : inst.family ≠ .controlFlow) (writes : d.Writes e) :
    Lowers inst d { e with last? := inst.op? }
  | control {e f : Draft} {id : Id} (family : inst.family = .controlFlow) (writes : d.Writes e)
    (tests : isTest inst = true → e.Tests inst.zeroTest id)
    (directed : e.control? inst id = some f) : Lowers inst d { f with last? := inst.op? }

theorem Writes.sameFunction {d e : Draft} (w : d.Writes e) : d.SameFunction e := by
  obtain ⟨_, _, _, _, _, _, rfl⟩ := w
  exact ⟨rfl, rfl⟩

theorem Lowers.sameFunction {inst : Instruction} {d e : Draft} (h : d.Lowers inst e) :
    d.SameFunction e := by
  cases h with
  | ordinary _ writes =>
    have same := writes.sameFunction
    exact ⟨same.earlier, same.definition⟩
  | control _ writes _ directed =>
    have first := writes.sameFunction
    have second := (directs_of_control directed).sameFunction
    exact ⟨second.earlier.trans first.earlier, second.definition.trans first.definition⟩

end Draft

/-- States that agree on which body is open and on whether the shader is a hull shader. -/
structure State.SameSetting (s t : State) : Prop where
  inFunction : t.inFunction = s.inFunction
  body? : t.body? = s.body?
  hull? : s.stage.hull? = none → t.stage.hull? = none

namespace Lower

/-- The ordinary part of a control-flow instruction: it checks the operands and computes the
condition or selector. -/
def tested (inst : Instruction) : Emission Id := do
  match inst.op? with
  | some .ifOp | some .breakIf | some .continueIf | some .retIf => condition inst
  | some .discard =>
    if (← read).stage ≠ .pixel then failWith (.outsideStage "discard" .pixel)
    condition inst
  | some .switch => selector inst
  | some .caseOp =>
    let op ← source inst 0
    if op.type ≠ .imm32 then failWith (.caseLabel op.type)
    return 0
  | _ => return 0

/-- The other part. -/
def directed (inst : Instruction) (id : Id) : Lower Unit := do
  match inst.op? with
  | some .ifOp => openIf id
  | some .elseOp => lowerElse
  | some .endIf => lowerEndIf
  | some .loop => lowerLoop
  | some .endLoop => lowerEndLoop
  | some .switch => openSwitch id
  | some .caseOp =>
    let label ← caseLabel
    modifySwitch fun s => Switch.addCase s inst.caseLiteral label
  | some .defaultOp => lowerDefault
  | some .endSwitch => lowerEndSwitch
  | some .breakOp => jumpTo (← breakTarget)
  | some .continueOp => jumpTo (← continueTarget)
  | some .breakIf =>
    let label ← breakTarget
    jumpOn id (branch label)
  | some .continueIf =>
    let label ← continueTarget
    jumpOn id (branch label)
  | some .ret =>
    ret
    beginFreshBlock
  | some .retIf => jumpOn id ret
  | some .discard => jumpOn id (terminate .kill [])
  | _ => unsupported inst

variable {env : Environment} {s t : State} {d : Draft}

theorem breakTarget_reaches (hd : d.Describes s) {label : Id}
    (h : breakTarget? d.constructs = some label) : Reaches breakTarget env s label d := by
  refine Reaches.get_bind ?_
  rw [hd.constructs, h]
  exact Reaches.pure hd label

theorem breakTarget_fails (hd : d.Describes s) (h : breakTarget? d.constructs = none) :
    Fails breakTarget env s := by
  refine Fails.get_bind ?_
  rw [hd.constructs, h]
  exact Fails.failWith _

theorem continueTarget_reaches (hd : d.Describes s) {label : Id}
    (h : continueTarget? d.constructs = some label) : Reaches continueTarget env s label d := by
  refine Reaches.get_bind ?_
  rw [hd.constructs, h]
  exact Reaches.pure hd label

theorem continueTarget_fails (hd : d.Describes s) (h : continueTarget? d.constructs = none) :
    Fails continueTarget env s := by
  refine Fails.get_bind ?_
  rw [hd.constructs, h]
  exact Fails.failWith _

/-- A step that needs a label of the constructs first. -/
theorem Follows.bind_label {target : Lower Id} {target? : List Construct → Option Id}
    {m : Id → Lower Unit} {f : Id → Draft → Option Draft}
    (reaches : ∀ env s (d : Draft) label, d.Describes s → target? d.constructs = some label →
      Reaches target env s label d)
    (fails : ∀ env s (d : Draft), d.Describes s → target? d.constructs = none →
      Fails target env s)
    (follows : ∀ label, Follows (m label) (f label)) :
    Follows (target >>= m) fun d => (target? d.constructs).bind fun label => f label d := by
  refine .intro (fun env s d e hd h => ?_) (fun env s d hd h => ?_)
  · obtain ⟨label, hl, hf⟩ := Option.bind_eq_some_iff.1 h
    refine (reaches env s d label hd hl).bind fun t ht => ?_
    have := follows label env t d ht
    rw [hf] at this
    exact this
  · cases hl : target? d.constructs with
    | none => exact (fails env s d hd hl).bind
    | some label =>
      refine (reaches env s d label hd hl).bind_fails fun t ht => ?_
      have := follows label env t d ht
      beta_reduce at h
      rw [hl, Option.bind_some] at h
      rw [h] at this
      exact this

theorem breakTarget_follows {m : Id → Lower Unit} {f : Id → Draft → Option Draft}
    (follows : ∀ label, Follows (m label) (f label)) :
    Follows (breakTarget >>= m) fun d =>
      (breakTarget? d.constructs).bind fun label => f label d :=
  .bind_label (fun _ _ _ _ hd h => breakTarget_reaches hd h)
    (fun _ _ _ hd h => breakTarget_fails hd h) follows

theorem continueTarget_follows {m : Id → Lower Unit} {f : Id → Draft → Option Draft}
    (follows : ∀ label, Follows (m label) (f label)) :
    Follows (continueTarget >>= m) fun d =>
      (continueTarget? d.constructs).bind fun label => f label d :=
  .bind_label (fun _ _ _ _ hd h => continueTarget_reaches hd h)
    (fun _ _ _ hd h => continueTarget_fails hd h) follows

theorem directed_follows (inst : Instruction) (id : Id) :
    Follows (directed inst id) (Draft.control? inst id) := by
  unfold directed Draft.control?
  cases inst.op? with
  | none => exact fun _ _ _ _ => ⟨_, _, rfl⟩
  | some op =>
    cases op
    case ifOp => exact openIf_follows id
    case elseOp => exact lowerElse_follows
    case endIf => exact lowerEndIf_follows
    case loop => exact lowerLoop_follows
    case endLoop => exact lowerEndLoop_follows
    case switch => exact openSwitch_follows id
    case caseOp => exact addCase_follows _
    case defaultOp => exact lowerDefault_follows
    case endSwitch => exact lowerEndSwitch_follows
    case breakOp => exact breakTarget_follows jumpTo_follows
    case continueOp => exact continueTarget_follows jumpTo_follows
    case breakIf => exact breakTarget_follows fun label => jumpOn_follows id (.branch label)
    case continueIf => exact continueTarget_follows fun label => jumpOn_follows id (.branch label)
    case ret => exact ret_follows
    case retIf => exact jumpOn_follows id .ret
    case discard => exact jumpOn_follows id .kill
    all_goals exact fun _ _ _ _ => ⟨_, _, rfl⟩

theorem orFault_run_eq_ok {α : Type} {a? : Option α} {f : Fault} {a : α} :
    (orFault a? f).run env s = (.ok a, t) ↔ a? = some a ∧ t = s := by
  cases a? with
  | none =>
    constructor
    · intro h
      cases h
    · rintro ⟨h, _⟩
      cases h
  | some b =>
    constructor
    · intro h
      cases h
      exact ⟨rfl, rfl⟩
    · rintro ⟨h, rfl⟩
      cases h
      rfl

theorem breakTarget_eq_ok {label : Id} :
    result breakTarget env s = (.ok label, t) ↔ breakTarget? s.constructs = some label ∧ t = s :=
  orFault_run_eq_ok

theorem continueTarget_eq_ok {label : Id} :
    result continueTarget env s = (.ok label, t) ↔
      continueTarget? s.constructs = some label ∧ t = s :=
  orFault_run_eq_ok

/-- A check before a step that computes nothing. -/
theorem result_after_pure {m : Lower Unit} {r : Except CompileError Unit × State} :
    result m env s = r ↔
      ∃ id u, (pure 0 : Emission Id).run env s = (.ok id, u) ∧ result m env u = r := by
  constructor
  · intro h
    exact ⟨0, s, rfl, h⟩
  · rintro ⟨id, u, h, hr⟩
    cases h
    exact hr

/-- Looking up a label can wait until the condition is computed. -/
theorem result_label_first {target : Lower Id} {target? : List Construct → Option Id}
    (spec : ∀ {s t label}, result target env s = (.ok label, t) ↔
      target? s.constructs = some label ∧ t = s)
    {inst : Instruction} {m : Id → Lower Unit} :
    result (target >>= fun label => jumpIf inst (m label)) env s = (.ok (), t) ↔
      ∃ id u, (condition inst).run env s = (.ok id, u) ∧
        result (target >>= fun label => jumpOn id (m label)) env u = (.ok (), t) := by
  rw [result_bind_eq_ok]
  constructor
  · rintro ⟨label, s', found, h⟩
    obtain ⟨found, same⟩ := spec.1 found
    rw [same] at h
    obtain ⟨id, u, tested, jumped⟩ := result_bind_eq_ok.1 h
    have tested : (condition inst).run env s = (.ok id, u) := tested
    rw [← (Emission.emits_of_run tested).constructs] at found
    exact ⟨id, u, tested, result_bind_eq_ok.2 ⟨label, u, spec.2 ⟨found, rfl⟩, jumped⟩⟩
  · rintro ⟨id, u, tested, h⟩
    obtain ⟨label, u', found, jumped⟩ := result_bind_eq_ok.1 h
    obtain ⟨found, same⟩ := spec.1 found
    rw [same] at jumped
    rw [(Emission.emits_of_run tested).constructs] at found
    exact ⟨label, s, spec.2 ⟨found, rfl⟩, result_bind_eq_ok.2 ⟨id, u, tested, jumped⟩⟩

/-- A check that both parts begin with. -/
theorem result_checked {p : Prop} [Decidable p] {f : Fault} {m : Lower Unit} {e : Emission Id}
    {k : Id → Lower Unit}
    (same : result m env s = (.ok (), t) ↔
      ∃ id u, e.run env s = (.ok id, u) ∧ result (k id) env u = (.ok (), t)) :
    result (if p then (do failWith f; m) else m) env s = (.ok (), t) ↔
      ∃ id u, (if p then (do failWith f; e) else e).run env s = (.ok id, u) ∧
        result (k id) env u = (.ok (), t) := by
  split
  · constructor
    · intro h
      cases h
    · rintro ⟨id, u, h, _⟩
      cases h
  · exact same

theorem lowerCase_eq_ok {inst : Instruction} :
    result (lowerCase inst) env s = (.ok (), t) ↔
      ∃ id u, (do
          let op ← source inst 0
          if op.type ≠ .imm32 then failWith (.caseLabel op.type)
          return 0 : Emission Id).run env s = (.ok id, u) ∧
        result (do
          let label ← caseLabel
          modifySwitch fun s => Switch.addCase s inst.caseLiteral label) env u =
            (.ok (), t) := by
  unfold source
  cases h : inst.src[0]? with
  | none =>
    constructor
    · intro h'
      rw [lowerCase, source, h] at h'
      cases h'
    · rintro ⟨id, u, h', _⟩
      cases h'
  | some op =>
    have literal : inst.caseLiteral = op.imm.x := by rw [Instruction.caseLiteral, h]; rfl
    rw [lowerCase, source, h, literal]
    exact result_checked (p := op.type ≠ .imm32) result_after_pure

/-- A control-flow instruction succeeds when its ordinary part does, and then the other. -/
theorem lowerControlFlow_eq_ok {inst : Instruction} :
    result (lowerControlFlow inst) env s = (.ok (), t) ↔
      ∃ id u, (tested inst).run env s = (.ok id, u) ∧
        result (directed inst id) env u = (.ok (), t) := by
  unfold lowerControlFlow tested directed
  cases inst.op? with
  | none => exact result_after_pure
  | some op =>
    cases op
    case ifOp | retIf | switch => exact result_bind_eq_ok
    case breakIf => exact result_label_first breakTarget_eq_ok
    case continueIf => exact result_label_first continueTarget_eq_ok
    case discard => exact result_checked (p := env.stage ≠ .pixel) result_bind_eq_ok
    case caseOp => exact lowerCase_eq_ok
    all_goals exact result_after_pure

/-- Executable instructions are refused outside of a body. -/
theorem result_inFunction {f : Fault} {m : Lower Unit} {r : State} :
    result (get >>= fun s => if s.inFunction = true then m else do liftM (failWith f); m) env s =
        (.ok (), r) ↔
      s.inFunction = true ∧ result m env s = (.ok (), r) := by
  change result (if s.inFunction = true then m else do liftM (failWith f); m) env s = _ ↔ _
  cases s.inFunction with
  | true => exact ⟨fun h => ⟨rfl, h⟩, fun h => h.2⟩
  | false =>
    constructor
    · intro h
      cases h
    · rintro ⟨h, _⟩
      cases h

theorem lowerByFamily_controlFlow {inst : Instruction} (family : inst.family = .controlFlow) :
    result (lowerByFamily inst) env s = (.ok (), t) ↔
      s.inFunction = true ∧ result (lowerControlFlow inst) env s = (.ok (), t) := by
  unfold lowerByFamily lowerExecutable
  rw [family]
  exact result_inFunction (m := lowerControlFlow inst)

/-- Every other instruction is an ordinary step, unless it begins a hull shader phase. -/
theorem lowerByFamily_emits {inst : Instruction} (notControl : inst.family ≠ .controlFlow)
    (notPhase : inst.family ≠ .hullShaderPhase)
    (h : result (lowerByFamily inst) env s = (.ok (), t)) : Emits s t := by
  have ordinary {m : Emission Unit} (h : result (liftM m) env s = (.ok (), t)) : Emits s t :=
    Emission.emits_of_run h
  have declares {m : InterfaceStep Unit} (h : result (liftM m) env s = (.ok (), t)) : Emits s t :=
    m.emits_of_run h
  unfold lowerByFamily lowerExecutable at h
  cases hf : inst.family with
  | hullShaderPhase => exact absurd hf notPhase
  | controlFlow => exact absurd hf notControl
  | declaration =>
    rw [hf] at h
    exact declares h
  | customData | float64 | textureQueryMsPos =>
    rw [hf] at h
    exact ordinary h
  | _ =>
    rw [hf] at h
    exact ordinary ((result_inFunction (m := liftM (lowerOperation inst))).1 h).2

/-- The condition or selector is written to the open node. -/
theorem tested_writes {inst : Instruction} {id : Id} (hd : d.Describes s)
    (h : (tested inst).run env s = (.ok id, t)) :
    ∃ e, d.Writes e ∧ e.Describes t ∧ (Draft.isTest inst = true → e.Tests inst.zeroTest id) := by
  cases test : Draft.isTest inst with
  | false =>
    obtain ⟨e, writes, described⟩ := (Emission.emits_of_run h).describes hd
    exact ⟨e, writes, described, fun test' => Bool.noConfusion test'⟩
  | true =>
    have computed : (condition inst).run env s = (.ok id, t) := by
      unfold Draft.isTest at test
      split at test
      · next op => rw [tested, op] at h; exact h
      · next op => rw [tested, op] at h; exact h
      · next op => rw [tested, op] at h; exact h
      · next op => rw [tested, op] at h; exact h
      · next op =>
        rw [tested, op] at h
        change (if env.stage ≠ .pixel then (do failWith _; condition inst)
          else condition inst : Emission Id).run env s = _ at h
        split at h
        · cases h
        · exact h
      · cases test
    obtain ⟨e, writes, described, tests⟩ := condition_tests hd computed
    exact ⟨e, writes, described, fun _ => tests⟩

theorem lowerControlFlow_describes {inst : Instruction} (hd : d.Describes s)
    (h : result (lowerControlFlow inst) env s = (.ok (), t)) :
    ∃ e f id, d.Writes e ∧ (Draft.isTest inst = true → e.Tests inst.zeroTest id) ∧
      e.control? inst id = some f ∧ f.Describes t ∧ s.SameSetting t := by
  obtain ⟨id, u, testing, h⟩ := lowerControlFlow_eq_ok.1 h
  obtain ⟨e, writes, described, tests⟩ := tested_writes hd testing
  have emits := Emission.emits_of_run testing
  have follows := directed_follows inst id env u e described
  cases hc : e.control? inst id with
  | none =>
    rw [hc] at follows
    exact absurd h (follows.not_ok t)
  | some f =>
    rw [hc] at follows
    obtain ⟨b, reached, describes⟩ := follows
    rw [reached] at h
    cases h
    exact ⟨e, f, id, writes, tests, hc, describes, emits.inFunction, emits.body?, emits.hull?⟩

/-- Inside a body, lowering an instruction keeps the draft and the module together. -/
theorem lowerInstruction_describes {inst : Instruction} (hd : d.Describes s)
    (notPhase : inst.family ≠ .hullShaderPhase)
    (h : result (lowerInstruction inst) env s = (.ok (), t)) :
    ∃ e, d.Lowers inst e ∧ e.Describes t ∧ s.SameSetting t := by
  obtain ⟨_, u, lowered, noted⟩ := result_bind_eq_ok.1 h
  cases noted
  by_cases family : inst.family = .controlFlow
  · obtain ⟨inside, h⟩ := (lowerByFamily_controlFlow family).1 lowered
    obtain ⟨e, f, id, writes, tests, directed, describes, setting⟩ :=
      lowerControlFlow_describes hd h
    exact ⟨_, .control family writes tests directed, ⟨describes.builder.withLast _,
      describes.constructs, rfl⟩, setting.inFunction, setting.body?, setting.hull?⟩
  · have emits := lowerByFamily_emits family notPhase lowered
    obtain ⟨e, writes, describes⟩ := emits.describes hd
    exact ⟨_, .ordinary family writes, ⟨describes.builder.withLast _, describes.constructs, rfl⟩,
      emits.inFunction, emits.body?, emits.hull?⟩

end Lower

end ShaderLowering
