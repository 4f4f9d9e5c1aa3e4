import ShaderLowering.Proofs.Control.Lowered
import ShaderLowering.Proofs.Lowering.Opening
import ShaderLowering.Proofs.Memory.EntryPoint
import ShaderLowering.Proofs.Program.Heads

/-!
The phases of a hull shader. Each phase of the program has a body of its own, in the order of the
program; the control-point phase has one, fork and join phases any number. A phase is open up to
the next, and what it says of its instances in between replaces what it has said before. In the end
the entry function runs the control-point phase, lets the invocations meet, and has the first of
them run the fork phases and then the join phases.
-/

namespace ShaderLowering

open Spirv (Id World Invocation)

inductive PhaseKind
  | controlPoint
  | fork
  | join
deriving DecidableEq, Repr

/-- The phase of a kind that comes after so many others of it. -/
def PhaseKind.phase : PhaseKind → Nat → HullPhase
  | .controlPoint, _ => .controlPoint
  | .fork, n => .fork n
  | .join, n => .join n

namespace Instruction

/-- The kind of phase that an instruction begins. -/
def phase? (inst : Instruction) : Option PhaseKind :=
  match inst.op? with
  | some .hsControlPointPhase => some .controlPoint
  | some .hsForkPhase => some .fork
  | some .hsJoinPhase => some .join
  | _ => none

/-- How many instances an instruction declares, at least one. -/
def instances? (inst : Instruction) : Option UInt32 :=
  match inst.op? with
  | some .dclHsForkPhaseInstanceCount | some .dclHsJoinPhaseInstanceCount =>
    some (max (inst.imm.headD 0) 1)
  | _ => none

theorem of_instances? {inst : Instruction} {n : UInt32} (declares : inst.instances? = some n) :
    ∃ op, inst.op? = some op ∧
      (op = .dclHsForkPhaseInstanceCount ∨ op = .dclHsJoinPhaseInstanceCount) ∧
        n = max (inst.imm.headD 0) 1 := by
  unfold instances? at declares
  split at declares
  · next is => exact ⟨_, is, .inl rfl, (Option.some.inj declares).symm⟩
  · next is => exact ⟨_, is, .inr rfl, (Option.some.inj declares).symm⟩
  · cases declares

theorem HasFamily.phase?_eq_none {inst : Instruction} (known : inst.HasFamily)
    (other : inst.family ≠ .hullShaderPhase) : inst.phase? = none := by
  unfold phase?
  split
  · next is => exact absurd (known.family_eq is) other
  · next is => exact absurd (known.family_eq is) other
  · next is => exact absurd (known.family_eq is) other
  · rfl

end Instruction

/-- How often a phase runs that goes on with these instructions: as often as it says last. It has
said `n` before. -/
def instancesAhead (n : UInt32) : List Instruction → UInt32
  | [] => n
  | inst :: rest =>
    if inst.family = .hullShaderPhase then n else instancesAhead (inst.instances?.getD n) rest

/-- The phases of a program in order, and how often each runs. -/
def phasesOf : List Instruction → List (PhaseKind × UInt32)
  | [] => []
  | inst :: rest =>
    (inst.phase?.map fun kind => (kind, instancesAhead 1 rest)).toList ++ phasesOf rest

/-- Every phase runs. -/
theorem instancesAhead_ne_zero {n : UInt32} (some_ : n ≠ 0) (insts : List Instruction) :
    instancesAhead n insts ≠ 0 := by
  induction insts generalizing n with
  | nil => exact some_
  | cons inst rest ih =>
    rw [instancesAhead]
    split
    · exact some_
    · refine ih ?_
      cases declares : inst.instances? with
      | none => exact some_
      | some m =>
        obtain ⟨_, _, _, rfl⟩ := Instruction.of_instances? declares
        change (if inst.imm.headD 0 ≤ 1 then 1 else inst.imm.headD 0) ≠ 0
        split
        · decide
        · next more =>
          intro none_
          rw [none_] at more
          exact more (by decide)

theorem instances_ne_zero {insts : List Instruction} {p : PhaseKind × UInt32}
    (mem : p ∈ phasesOf insts) : p.2 ≠ 0 := by
  induction insts with
  | nil => cases mem
  | cons inst rest ih =>
    rcases List.mem_append.1 mem with first | later
    · obtain ⟨kind, _, rfl⟩ := Option.map_eq_some_iff.1 (Option.mem_toList.1 first)
      exact instancesAhead_ne_zero (by decide) rest
    · exact ih later

/-- The function of a phase, and how often it runs. -/
structure PhaseBody where
  kind : PhaseKind
  instances : UInt32
  function : Id

def PhaseBody.summary (b : PhaseBody) : PhaseKind × UInt32 :=
  (b.kind, b.instances)

/-- The bodies of one kind. -/
def bodiesOf (kind : PhaseKind) (bodies : List PhaseBody) : List PhaseBody :=
  bodies.filter (·.kind = kind)

theorem bodiesOf_append (kind : PhaseKind) (bodies more : List PhaseBody) :
    bodiesOf kind (bodies ++ more) = bodiesOf kind bodies ++ bodiesOf kind more :=
  List.filter_append ..

/-- The bodies of one kind once there is one body more. -/
theorem bodiesOf_snoc (kind : PhaseKind) (bodies : List PhaseBody) (b : PhaseBody) :
    bodiesOf kind (bodies ++ (some b).toList) =
      bodiesOf kind bodies ++ if b.kind = kind then [b] else [] := by
  rw [bodiesOf_append, Option.toList_some, bodiesOf, bodiesOf, List.filter_singleton,
    Bool.cond_decide]

/-- What is said of a patch-constant phase, apart from its variable. -/
def PatchPhase.said (p : PatchPhase) : Id × UInt32 :=
  (p.function, p.instanceCount)

namespace HullState

/-- A hull shader knows some bodies. -/
structure Knows (h : HullState) (bodies : List PhaseBody) : Prop where
  controlPoint : h.controlPoint?.toList = (bodiesOf .controlPoint bodies).map (·.function)
  fork : h.fork.map PatchPhase.said = (bodiesOf .fork bodies).map fun b => (b.function, b.instances)
  join : h.join.map PatchPhase.said = (bodiesOf .join bodies).map fun b => (b.function, b.instances)

/-- A hull shader that knows some bodies and perhaps one more, whose phase is open. -/
structure IsIn (h : HullState) (done : List PhaseBody) (open? : Option PhaseBody) : Prop extends
    h.Knows (done ++ open?.toList) where
  within : ∀ b ∈ open?, h.phase = b.kind.phase (bodiesOf b.kind done).length
  between : open? = none → h.phase = .none ∨ h.phase = .declarations

variable {h h' : HullState} {done : List PhaseBody} {open? : Option PhaseBody} {inst : Instruction}
  {function instanceId : Id} {n : UInt32}

theorem Knows.length_fork {bodies : List PhaseBody} (known : h.Knows bodies) :
    h.fork.length = (bodiesOf .fork bodies).length := by
  simpa using congrArg List.length known.fork

theorem Knows.length_join {bodies : List PhaseBody} (known : h.Knows bodies) :
    h.join.length = (bodiesOf .join bodies).length := by
  simpa using congrArg List.length known.join

/-- The phases that a hull shader runs for the patch are among those that it knows. -/
theorem Knows.of_mem {bodies : List PhaseBody} (known : h.Knows bodies) {p : PatchPhase}
    (mem : p ∈ h.patchPhases) : ∃ b ∈ bodies, b.instances = p.instanceCount := by
  have among {phases : List PatchPhase} {kind : PhaseKind} (all : phases.map PatchPhase.said =
      (bodiesOf kind bodies).map fun b => (b.function, b.instances)) (mem : p ∈ phases) :
      ∃ b ∈ bodies, b.instances = p.instanceCount := by
    have said : p.said ∈ phases.map PatchPhase.said := List.mem_map_of_mem mem
    rw [all] at said
    obtain ⟨b, listed, same⟩ := List.mem_map.1 said
    exact ⟨b, List.mem_of_mem_filter listed, congrArg Prod.snd same⟩
  exact (List.mem_append.1 mem).elim (among known.fork) (among known.join)

/-- No phase is open any more. -/
theorem IsIn.declarations (now : h.IsIn done open?) :
    IsIn { h with phase := .declarations } (done ++ open?.toList) none := by
  refine ⟨⟨?_, ?_, ?_⟩, nofun, fun _ => .inr rfl⟩
  all_goals rw [Option.toList_none, List.append_nil]
  exacts [now.controlPoint, now.fork, now.join]

/-- The control-point phase begins. -/
theorem IsIn.beginControlPoint (now : h.IsIn done open?) (first : h.controlPoint? = none) :
    IsIn { h with controlPoint? := some function, phase := .controlPoint } (done ++ open?.toList)
      (some ⟨.controlPoint, 1, function⟩) := by
  have none_ : bodiesOf .controlPoint (done ++ open?.toList) = [] := by
    have known := now.controlPoint
    rw [first] at known
    exact List.map_eq_nil_iff.1 known.symm
  refine ⟨⟨?_, ?_, ?_⟩, fun b is => ?_, nofun⟩
  · rw [bodiesOf_snoc, none_]
    rfl
  · simpa only [bodiesOf_snoc, reduceCtorEq, if_false, List.append_nil] using now.fork
  · simpa only [bodiesOf_snoc, reduceCtorEq, if_false, List.append_nil] using now.join
  · cases is
    rfl

/-- A fork phase begins. -/
theorem IsIn.beginFork (now : h.IsIn done open?) :
    IsIn { h with fork := h.fork ++ [⟨function, 1, instanceId⟩], phase := .fork h.fork.length }
      (done ++ open?.toList) (some ⟨.fork, 1, function⟩) := by
  refine ⟨⟨?_, ?_, ?_⟩, fun b is => ?_, nofun⟩
  · simpa only [bodiesOf_snoc, reduceCtorEq, if_false, List.append_nil] using now.controlPoint
  · rw [bodiesOf_snoc, List.map_append, List.map_append, now.fork]
    rfl
  · simpa only [bodiesOf_snoc, reduceCtorEq, if_false, List.append_nil] using now.join
  · cases is
    exact congrArg HullPhase.fork now.length_fork

/-- A join phase begins. -/
theorem IsIn.beginJoin (now : h.IsIn done open?) :
    IsIn { h with join := h.join ++ [⟨function, 1, instanceId⟩], phase := .join h.join.length }
      (done ++ open?.toList) (some ⟨.join, 1, function⟩) := by
  refine ⟨⟨?_, ?_, ?_⟩, fun b is => ?_, nofun⟩
  · simpa only [bodiesOf_snoc, reduceCtorEq, if_false, List.append_nil] using now.controlPoint
  · simpa only [bodiesOf_snoc, reduceCtorEq, if_false, List.append_nil] using now.fork
  · rw [bodiesOf_snoc, List.map_append, List.map_append, now.join]
    rfl
  · cases is
    exact congrArg HullPhase.join now.length_join

/-- The last phase of a list says something else of its instances. -/
theorem map_modify_last {bodies : List PhaseBody} {phases : List PatchPhase} {b : PhaseBody}
    (all : phases.map PatchPhase.said = (bodies ++ [b]).map fun b => (b.function, b.instances)) :
    (phases.modify bodies.length fun p => { p with instanceCount := n }).map PatchPhase.said =
      (bodies ++ [(⟨b.kind, n, b.function⟩ : PhaseBody)]).map fun b =>
        (b.function, b.instances) := by
  induction bodies generalizing phases with
  | nil =>
    obtain ⟨p, rfl, same⟩ := List.map_eq_singleton_iff.1 all
    exact congrArg (fun f => [(f, n)]) (congrArg Prod.fst same)
  | cons c rest ih =>
    obtain ⟨p, more, rfl, same, all⟩ := List.map_eq_cons_iff.1 all
    exact congrArg₂ List.cons same (ih all)

/-- The open phase says how often it runs. -/
theorem IsIn.declareInstances (now : h.IsIn done open?)
    (is : h.modifyPhase? (fun p => { p with instanceCount := n }) = some h') :
    ∃ b, open? = some b ∧ h'.IsIn done (some ⟨b.kind, n, b.function⟩) := by
  have there : ∃ b, open? = some b := by
    refine Option.isSome_iff_exists.1 (Option.isSome_iff_ne_none.2 fun none_ => ?_)
    unfold modifyPhase? at is
    rcases now.between none_ with phase | phase
    all_goals
      rw [phase] at is
      cases is
  obtain ⟨b, rfl⟩ := there
  refine ⟨b, rfl, ?_⟩
  have phase := now.within b rfl
  have same := phase_modifyPhase? is
  cases b with
  | mk kind instances function =>
    unfold modifyPhase? at is
    rw [phase] at is
    cases kind with
    | controlPoint => cases is
    | fork =>
      obtain ⟨_, same_⟩ := Option.ite_none_right_eq_some.1 is
      cases same_
      refine ⟨⟨?_, ?_, ?_⟩, fun b is => ?_, nofun⟩
      · simpa only [bodiesOf_snoc, reduceCtorEq, if_false, List.append_nil] using now.controlPoint
      · have all := now.fork
        rw [bodiesOf_snoc, if_pos rfl] at all ⊢
        exact map_modify_last all
      · simpa only [bodiesOf_snoc, reduceCtorEq, if_false, List.append_nil] using now.join
      · cases is
        rfl
    | join =>
      obtain ⟨_, same_⟩ := Option.ite_none_right_eq_some.1 is
      cases same_
      refine ⟨⟨?_, ?_, ?_⟩, fun b is => ?_, nofun⟩
      · simpa only [bodiesOf_snoc, reduceCtorEq, if_false, List.append_nil] using now.controlPoint
      · simpa only [bodiesOf_snoc, reduceCtorEq, if_false, List.append_nil] using now.fork
      · have all := now.join
        rw [bodiesOf_snoc, if_pos rfl] at all ⊢
        exact map_modify_last all
      · cases is
        rfl

theorem after_of_some (declares : inst.instances? = some n) :
    h.after inst = (h.modifyPhase? fun p => { p with instanceCount := n }).getD h := by
  obtain ⟨op, is, counts, rfl⟩ := Instruction.of_instances? declares
  unfold after
  rw [is]
  rcases counts with rfl | rfl <;> rfl

theorem after_of_none (none_ : inst.instances? = none) : h.after inst = h.declare inst := by
  unfold after
  split
  · next is => exact absurd none_ (by rw [Instruction.instances?, is]; exact Option.some_ne_none _)
  · next is => exact absurd none_ (by rw [Instruction.instances?, is]; exact Option.some_ne_none _)
  · rfl

/-- Other declarations leave phases alone. -/
theorem IsIn.declare (now : h.IsIn done open?) (inst : Instruction) :
    (h.declare inst).IsIn done open? := by
  have same : (h.declare inst).controlPoint? = h.controlPoint? ∧
      (h.declare inst).fork = h.fork ∧ (h.declare inst).join = h.join := by
    unfold HullState.declare
    split
    case h_5 =>
      unfold declareOutputPrimitive
      split <;> exact ⟨rfl, rfl, rfl⟩
    all_goals exact ⟨rfl, rfl, rfl⟩
  obtain ⟨point, fork, join⟩ := same
  refine ⟨⟨?_, ?_, ?_⟩, ?_, ?_⟩
  · rw [point]
    exact now.controlPoint
  · rw [fork]
    exact now.fork
  · rw [join]
    exact now.join
  · rw [h.phase_declare]
    exact now.within
  · rw [h.phase_declare]
    exact now.between

end HullState

/-- The functions that have been begun have some ids. The last may be open still. -/
inductive State.Begun (ids : List Id) (s : State) : Prop
  | outside (rest : s.AtRest) (closed : s.inFunction = false)
    (functions : s.builder.module.functions.toList.map (·.definition.result?) = ids.map some)
  | inside {d : Draft} (describes : d.Describes s) (opened : s.inFunction = true)
    (functions : d.earlier.toList.map (·.definition.result?) ++ [d.definition.result?] =
      ids.map some)

/-- Only the builder, the constructs and whether a body is open matter. -/
theorem State.Begun.of_same {s t : State} {ids : List Id} (begun : s.Begun ids)
    (builder : t.builder = s.builder) (constructs : t.constructs = s.constructs)
    (inFunction : t.inFunction = s.inFunction) : t.Begun ids := by
  cases begun with
  | outside rest closed functions =>
    refine .outside ⟨?_, ?_, constructs.trans rest.constructs⟩ (inFunction.trans closed) ?_
    all_goals rw [builder]
    exacts [rest.function?, rest.block?, functions]
  | @inside d describes opened functions =>
    exact .inside (d := { d with last? := t.lastOpcode?.bind Opcode.ofCode? })
      ⟨builder ▸ describes.builder.withLast _, constructs.trans describes.constructs, rfl⟩
      (inFunction.trans opened) functions

namespace Lower

variable {env : Environment} {s t : State} {ids : List Id} {id : Id} {inst : Instruction}

/-- An ordinary instruction begins no function. -/
theorem lowerInstruction_begun (begun : s.Begun ids) (notPhase : inst.family ≠ .hullShaderPhase)
    (run : result (lowerInstruction inst) env s = (.ok (), t)) : t.Begun ids := by
  cases begun with
  | outside rest closed functions =>
    obtain ⟨_, u, lowered, noted⟩ := result_bind_eq_ok.1 run
    have notControl : inst.family ≠ .controlFlow := fun control =>
      absurd (((lowerByFamily_controlFlow control).1 lowered).1.symm.trans closed) nofun
    have emits := lowerByFamily_emits notControl notPhase lowered
    obtain ⟨rest, same⟩ := emits.atRest rest
    cases noted
    exact (State.Begun.outside rest (emits.inFunction.trans closed) (same ▸ functions)).of_same
      rfl rfl rfl
  | inside describes opened functions =>
    obtain ⟨e, lowers, describes, setting⟩ := lowerInstruction_describes describes notPhase run
    refine .inside describes (setting.inFunction.trans opened) ?_
    rw [lowers.sameFunction.earlier, lowers.sameFunction.definition, functions]

/-- Closing a body puts it behind the functions that are there. -/
theorem closeBody_begun (begun : s.Begun ids) (run : result closeBody env s = (.ok (), t)) :
    t.AtRest ∧ t.inFunction = false ∧
      t.builder.module.functions.toList.map (·.definition.result?) = ids.map some := by
  cases begun with
  | outside rest closed functions =>
    obtain rfl := of_closeBody_outside closed run
    exact ⟨rest, closed, functions⟩
  | inside describes opened functions =>
    obtain ⟨_, rest, same, closed, _⟩ := of_closeBody describes opened run
    refine ⟨rest, closed, ?_⟩
    rw [same, Draft.functions, Array.toList_push, List.map_append,
      (Draft.sameFunction_ended _).earlier]
    refine Eq.trans ?_ functions
    exact congrArg (_ ++ [·]) (congrArg Spirv.Instr.result? (Draft.sameFunction_ended _).definition)

/-- Opening a body begins one function more. -/
theorem beginBody_begun {text : String} (rest : s.AtRest)
    (functions : s.builder.module.functions.toList.map (·.definition.result?) = ids.map some)
    (run : result (beginBody text) env s = (.ok id, t)) :
    t.Begun (ids ++ [id]) ∧ t.stage = s.stage := by
  obtain ⟨d, describes, opens, opened, _⟩ := of_beginBody rest run
  constructor
  · refine .inside describes opened ?_
    rw [opens.plain.earlier, functions, opens.definition, List.map_append]
    rfl
  · have placed : Placed s false false s :=
      ⟨.refl s, by rw [rest.function?]; rfl, by rw [rest.block?]; rfl, rfl, rfl⟩
    have leads : Leads (beginBody text) env (Placed s false false) (Placed s true true) :=
      beginBody_leads text
    obtain ⟨_, u, run', after⟩ := leads s placed
    cases run.symm.trans run'
    exact after.stage

end Lower

/-- A step that cannot fail leaves what the stage knows of itself as it was. -/
theorem Emission.Succeeds.stage {α : Type} {m : Emission α} {env : Environment}
    {s t : State} {a : α}
    (h : Emission.Succeeds False m) (run : Lower.result m env s = (.ok a, t)) :
    t.stage = s.stage := by
  obtain ⟨_, u, run', same⟩ := h env s False.elim
  cases run.symm.trans run'
  exact same

theorem Lower.newVariable_succeeds (pointee : Id) (storage : Spirv.StorageClass)
    (initial? : Option Id) : Emission.Succeeds False (newVariable pointee storage initial?) :=
  .bind (.declare _) fun _ => .bind (fun _ _ _ => ⟨_, _, rfl, rfl⟩) fun _ =>
    .bind (.note fun _ => rfl) fun _ => .pure _

theorem StageState.eq_hull {stage : StageState} {h : HullState} (is : stage.hull? = some h) :
    stage = .hull h := by
  cases stage with
  | hull _ => exact congrArg hull (Option.some.inj is)
  | _ => cases is

/-- A lowering of a hull shader has begun the bodies that the shader knows, and no others. -/
structure State.Phased (s : State) (done : List PhaseBody) (open? : Option PhaseBody) : Prop where
  hull : ∃ h, s.stage.hull? = some h ∧ h.IsIn done open?
  begun : s.Begun ((done ++ open?.toList).map (·.function))

namespace Lower

variable {env : Environment} {s t : State} {done : List PhaseBody} {open? : Option PhaseBody}
  {inst : Instruction} {h : HullState}

theorem beginControlPointPhase_phased (is : s.stage.hull? = some h) (now : h.IsIn done open?)
    (rest : s.AtRest) (functions : s.builder.module.functions.toList.map (·.definition.result?) =
      ((done ++ open?.toList).map (·.function)).map some)
    (run : result beginControlPointPhase env s = (.ok (), t)) :
    ∃ function, t.Phased (done ++ open?.toList) (some ⟨.controlPoint, 1, function⟩) := by
  obtain ⟨_, _, found, run⟩ := result_bind_eq_ok.1 run
  obtain ⟨known, rfl⟩ := orFault_run_eq_ok.1 found
  cases is.symm.trans known
  obtain ⟨first, run⟩ := result_check.1 run
  obtain ⟨function, u, opened, run⟩ := result_bind_eq_ok.1 run
  obtain ⟨begun, stage⟩ := beginBody_begun rest functions opened
  obtain ⟨h', is', rfl⟩ := setHullState_eq
    (f := fun h => { h with controlPoint? := some function, phase := .controlPoint }) run
  cases (stage ▸ is).symm.trans is'
  refine ⟨function, ⟨_, rfl, now.beginControlPoint (by simpa using first)⟩, ?_⟩
  rw [List.map_append]
  exact begun.of_same rfl rfl rfl

theorem beginPatchPhase_phased {isJoin : Bool} (is : s.stage.hull? = some h)
    (now : h.IsIn done open?) (rest : s.AtRest)
    (functions : s.builder.module.functions.toList.map (·.definition.result?) =
      ((done ++ open?.toList).map (·.function)).map some)
    (run : result (beginPatchPhase isJoin) env s = (.ok (), t)) :
    ∃ function, t.Phased (done ++ open?.toList)
      (some ⟨if isJoin then .join else .fork, 1, function⟩) := by
  obtain ⟨_, _, found, run⟩ := result_bind_eq_ok.1 run
  obtain ⟨known, rfl⟩ := orFault_run_eq_ok.1 found
  cases is.symm.trans known
  obtain ⟨word, s₁, typed, run⟩ := result_bind_eq_ok.1 run
  obtain ⟨instanceId, s₂, created, run⟩ := result_bind_eq_ok.1 run
  obtain ⟨_, s₃, named, run⟩ := result_bind_eq_ok.1 run
  obtain ⟨function, u, opened, run⟩ := result_bind_eq_ok.1 run
  have emits := ((emits_of_result typed).trans (emits_of_result created)).trans
    (emits_of_result named)
  obtain ⟨rest, same⟩ := emits.atRest rest
  obtain ⟨begun, stage⟩ := beginBody_begun rest (same ▸ functions) opened
  have is : u.stage.hull? = some h := by
    rw [stage, (name_succeeds _ _).stage named, (newVariable_succeeds _ _ _).stage created,
      (scalarType_succeeds _).stage typed, is]
  obtain ⟨h', is', rfl⟩ := setHullState_eq (f := fun h' =>
    if isJoin then
      { h' with
        join := h'.join ++ [⟨function, 1, instanceId⟩]
        phase := .join (if isJoin then h.join.length else h.fork.length) }
    else
      { h' with
        fork := h'.fork ++ [⟨function, 1, instanceId⟩]
        phase := .fork (if isJoin then h.join.length else h.fork.length) }) run
  cases is.symm.trans is'
  refine ⟨function, ⟨_, rfl, ?_⟩, ?_⟩
  · cases isJoin with
    | false => exact now.beginFork
    | true => exact now.beginJoin
  · rw [List.map_append]
    exact begun.of_same rfl rfl rfl

/-- A phase ends, and the next begins if the instruction says so. -/
theorem lowerHullPhase_phased (before : s.Phased done open?)
    (run : result (lowerHullPhase inst) env s = (.ok (), t)) :
    ∃ next?, t.Phased (done ++ open?.toList) next? ∧
      next?.map PhaseBody.summary = inst.phase?.map fun kind => (kind, 1) := by
  obtain ⟨⟨h, is, now⟩, begun⟩ := before
  obtain ⟨_, _, found, later⟩ := result_bind_eq_ok.1 run
  obtain ⟨_, rfl⟩ := orFault_run_eq_ok.1 found
  obtain ⟨_, u, closed, last⟩ := result_bind_eq_ok.1 later
  obtain ⟨rest, outside, functions⟩ := closeBody_begun begun closed
  have is : u.stage.hull? = some h := by
    obtain ⟨_, _, rfl⟩ := closeBody_eq closed
    exact is
  unfold Instruction.phase?
  split at last
  · next op =>
    obtain ⟨h', is', rfl⟩ := setHullState_eq
      (f := fun h => { h with phase := .declarations }) last
    cases is.symm.trans is'
    rw [op]
    refine ⟨none, ⟨⟨_, rfl, now.declarations⟩, ?_⟩, rfl⟩
    rw [Option.toList_none, List.append_nil]
    exact (State.Begun.outside rest outside functions).of_same rfl rfl rfl
  · next op =>
    obtain ⟨function, phased⟩ := beginControlPointPhase_phased is now rest functions last
    rw [op]
    exact ⟨_, phased, rfl⟩
  · next op =>
    obtain ⟨function, phased⟩ := beginPatchPhase_phased is now rest functions last
    rw [op]
    exact ⟨_, phased, rfl⟩
  · next op =>
    obtain ⟨function, phased⟩ := beginPatchPhase_phased is now rest functions last
    rw [op]
    exact ⟨_, phased, rfl⟩
  · cases last

theorem lowerInstruction_begins (phase : inst.family = .hullShaderPhase)
    (before : s.Phased done open?) (run : result (lowerInstruction inst) env s = (.ok (), t)) :
    ∃ next?, t.Phased (done ++ open?.toList) next? ∧
      next?.map PhaseBody.summary = inst.phase?.map fun kind => (kind, 1) := by
  obtain ⟨_, u, lowered, noted⟩ := result_bind_eq_ok.1 run
  unfold lowerByFamily at lowered
  rw [phase] at lowered
  obtain ⟨next?, ⟨hull, begun⟩, is⟩ := lowerHullPhase_phased before lowered
  cases noted
  exact ⟨next?, ⟨hull, begun.of_same rfl rfl rfl⟩, is⟩

/-- What a declaration says of the phases of a hull shader. -/
theorem lowerDeclaration_stage {H : Limits} (ready : Ready H s)
    (may : ∀ d, inst.descriptor? = some d → H.binds d)
    (run : (lowerDeclaration inst).run env s = (.ok (), t)) :
    t.stage.hull? = s.stage.hull?.map (HullState.after inst) := by
  have others (still : ∀ h : HullState, h.after inst = h) (same : t.stage.hull? = s.stage.hull?) :
      t.stage.hull? = s.stage.hull?.map (HullState.after inst) := by
    rw [same, funext still, Option.map_id']
  unfold lowerDeclaration at run
  split at run
  · next op is =>
    split at run
    · obtain ⟨stage, rfl, hull?⟩ := lowerStageDeclaration_changes is run
      exact hull?
    · next other =>
      refine others (fun h => HullState.after_of_other h is (by simpa using other)) ?_
      obtain ⟨acts | ⟨stage, rfl, hull?⟩, _⟩ := lowerRegisterDeclaration_steps is ready may run
      · rw [acts.stage]
      · exact hull?
  · next none_ =>
    cases run
    refine others (fun h => ?_) rfl
    simp only [HullState.after, HullState.declare, none_]

/-- Instances are declared in a phase that has them. -/
theorem declareInstanceCount_opened (is : s.stage.hull? = some h)
    (run : (declareInstanceCount inst).run env s = (.ok (), t)) :
    ∃ h', h.modifyPhase? (fun p => { p with instanceCount := max (inst.imm.headD 0) 1 }) =
      some h' := by
  obtain ⟨_, u, found, later⟩ := Emission.run_bind_eq_ok.1 run
  obtain ⟨known, _⟩ := orFault_run_eq_ok.1 found
  obtain ⟨h', v, opened, _⟩ := Emission.run_bind_eq_ok.1 later
  cases is.symm.trans known
  exact ⟨h', (orFault_run_eq_ok.1 opened).1⟩

theorem lowerDeclaration_opened {n : UInt32} (declares : inst.instances? = some n)
    (is : s.stage.hull? = some h) (run : (lowerDeclaration inst).run env s = (.ok (), t)) :
    ∃ h', h.modifyPhase? (fun p => { p with instanceCount := n }) = some h' := by
  have stage := StageState.eq_hull is
  obtain ⟨op, known, counts, rfl⟩ := Instruction.of_instances? declares
  have staged : (lowerStageDeclaration inst op).run env s = (.ok (), t) := by
    unfold lowerDeclaration at run
    rw [known] at run
    rcases counts with rfl | rfl <;> exact run
  obtain ⟨_, _, taken, later⟩ := Emission.run_bind_eq_ok.1 staged
  cases taken
  rw [stage] at later
  have declared : (declareInstanceCount inst).run env s = (.ok (), t) := by
    rcases counts with rfl | rfl
    all_goals
      change (lowerHullDeclaration inst).run env s = _ at later
      unfold lowerHullDeclaration at later
      rw [known] at later
      exact later
  exact declareInstanceCount_opened is declared

/-- What an instruction inside of a phase says of the phases of a hull shader. -/
theorem lowerInstruction_stage {x : Configuration} (settled : x.Settled)
    (notPhase : inst.family ≠ .hullShaderPhase)
    (run : result (lowerInstruction inst) env x.state = (.ok (), t)) :
    t.stage.hull? =
      if inst.family = .declaration then x.state.stage.hull?.map (HullState.after inst)
      else x.state.stage.hull? := by
  obtain ⟨_, u, lowered, noted⟩ := result_bind_eq_ok.1 run
  have same : t.stage = u.stage := by
    cases noted
    rfl
  have ready := settled.ready inst.binds
  rw [same]
  split
  · next declaration =>
    rw [lowerByFamily_declaration declaration] at lowered
    exact lowerDeclaration_stage ready (fun d is => (if_pos declaration).trans is) lowered
  · next other =>
    by_cases control : inst.family = .controlFlow
    · obtain ⟨inside, lowered⟩ := (lowerByFamily_controlFlow control).1 lowered
      obtain ⟨_, _, _, leads⟩ := path_of_works (lowerControlFlow_leads settled.tidy inside) ready
        lowered
      rw [leads.stage]
    · obtain ⟨acts | ⟨declaration, _⟩, _⟩ := lowerByFamily_steps control notPhase ready
        (fun _ may => may) lowered
      · rw [acts.stage]
      · exact absurd declaration other

/-- An instruction inside of a phase may say how often the phase runs. -/
theorem lowerInstruction_phased {x : Configuration} (settled : x.Settled) (known : inst.HasFamily)
    (notPhase : inst.family ≠ .hullShaderPhase) (before : x.state.Phased done open?)
    (run : result (lowerInstruction inst) env x.state = (.ok (), t)) :
    ∃ next?, t.Phased done next? ∧
      next?.map PhaseBody.summary = open?.map fun b =>
        (b.kind, inst.instances?.getD b.instances) := by
  obtain ⟨⟨h, is, now⟩, begun⟩ := before
  have begun := lowerInstruction_begun begun notPhase run
  have stage := lowerInstruction_stage settled notPhase run
  rw [is] at stage
  cases declares : inst.instances? with
  | none =>
    have same : open?.map PhaseBody.summary =
        open?.map fun b => (b.kind, (none : Option UInt32).getD b.instances) := rfl
    split at stage
    · rw [Option.map_some, HullState.after_of_none declares] at stage
      exact ⟨open?, ⟨⟨_, stage, now.declare inst⟩, begun⟩, same⟩
    · exact ⟨open?, ⟨⟨h, stage, now⟩, begun⟩, same⟩
  | some n =>
    have family : inst.family = .declaration := by
      obtain ⟨op, is, counts, _⟩ := Instruction.of_instances? declares
      rcases counts with rfl | rfl <;> exact known.family_eq is
    obtain ⟨_, u, lowered, _⟩ := result_bind_eq_ok.1 run
    rw [lowerByFamily_declaration family] at lowered
    obtain ⟨h', opened⟩ := lowerDeclaration_opened declares is lowered
    obtain ⟨b, rfl, next⟩ := now.declareInstances opened
    rw [if_pos family, Option.map_some, HullState.after_of_some declares, opened] at stage
    refine ⟨_, ⟨⟨h', stage, next⟩, ?_⟩, rfl⟩
    simpa only [Option.toList_some, List.map_append, List.map_singleton] using begun

end Lower

namespace Lowering

variable {l m : Lowering} {env : Environment} {r : List Id} {insts : List Instruction}
  {done : List PhaseBody} {open? : Option PhaseBody}

/-- In the end a hull shader has begun the phases of the program, each of which runs as often as it
says last. -/
theorem steps_phased (families : ∀ inst ∈ insts, inst.HasFamily)
    (settled : Configuration.Settled ⟨l.state, r⟩) (before : l.state.Phased done open?)
    (run : l.steps insts = .ok m) :
    ∃ done' open?', m.state.Phased done' open?' ∧
      (done' ++ open?'.toList).map PhaseBody.summary = done.map PhaseBody.summary ++
        (open?.map fun b => (b.kind, instancesAhead b.instances insts)).toList ++
          phasesOf insts := by
  induction insts generalizing l r done open? with
  | nil =>
    cases run
    refine ⟨done, open?, before, ?_⟩
    rw [List.map_append, phasesOf, List.append_nil]
    cases open? <;> rfl
  | cons inst rest ih =>
    obtain ⟨n, stepped, more⟩ := steps_cons.1 run
    have ran := (step_eq_ok.1 stepped).1
    obtain ⟨r', _, settled', _⟩ := Lower.lowerInstruction_path settled ran
    have later := fun inst mem => families inst (List.mem_cons_of_mem _ mem)
    have known := families inst List.mem_cons_self
    have ahead (next? : Option PhaseBody) :
        (next?.map fun b => (b.kind, instancesAhead b.instances rest)) =
          (next?.map PhaseBody.summary).map fun p => (p.1, instancesAhead p.2 rest) := by
      rw [Option.map_map]
      rfl
    by_cases phase : inst.family = .hullShaderPhase
    · obtain ⟨next?, phased, is⟩ := Lower.lowerInstruction_begins phase before ran
      obtain ⟨done', open?', last, all⟩ := ih later settled' phased more
      refine ⟨done', open?', last, all.trans ?_⟩
      have past (n : UInt32) : instancesAhead n (inst :: rest) = n := if_pos phase
      rw [ahead, is, Option.map_map, phasesOf, List.map_append, ← List.append_assoc]
      simp only [past]
      cases open? <;> rfl
    · obtain ⟨next?, phased, is⟩ := Lower.lowerInstruction_phased settled known phase before ran
      obtain ⟨done', open?', last, all⟩ := ih later settled' phased more
      refine ⟨done', open?', last, all.trans ?_⟩
      have within (n : UInt32) :
          instancesAhead n (inst :: rest) = instancesAhead (inst.instances?.getD n) rest :=
        if_neg phase
      rw [ahead, is, Option.map_map, phasesOf, known.phase?_eq_none phase]
      simp only [within]
      rfl

end Lowering

namespace Lower

variable {env : Environment} {s t : State}

/-- A hull shader begins without a body. -/
theorem begin_phased (hull : env.stage = .hull) (ahead : Ahead s s)
    (closed : s.inFunction = false) {h : HullState} (is : s.stage.hull? = some h)
    (now : h.IsIn [] none) (run : result begin env s = (.ok (), t)) : t.Phased [] none := by
  unfold begin at run
  rw [result_read_bind] at run
  obtain ⟨_, s₁, taken, run⟩ := result_bind_eq_ok.1 run
  have h₁ := ahead.emits (emits_of_result taken)
  have is₁ : s₁.stage.hull? = some h := by rw [Emission.Succeeds.fresh.stage taken, is]
  rw [result_modify_bind] at run
  obtain ⟨_, s₂, required, run⟩ := result_bind_eq_ok.1 run
  have h₂ : Ahead s s₂ := by
    refine Ahead.emits ?_ (emits_of_result required)
    exact ⟨⟨h₁.rest.function?, h₁.rest.block?, h₁.rest.constructs⟩, h₁.functions,
      h₁.course.trans ⟨rfl, rfl, fun h => h⟩⟩
  have is₂ : s₂.stage.hull? = some h := by
    rw [(requireCapability_succeeds _).stage required]
    exact is₁
  obtain ⟨_, s₃, taken', run⟩ := result_bind_eq_ok.1 run
  have h₃ := h₂.emits (emits_of_result taken')
  have is₃ : s₃.stage.hull? = some h := by rw [Emission.Succeeds.fresh.stage taken', is₂]
  rw [result_modify_bind] at run
  obtain ⟨_, s₄, named, run⟩ := result_bind_eq_ok.1 run
  have h₄ : Ahead s s₄ := by
    refine Ahead.emits ?_ (emits_of_result named)
    exact ⟨⟨h₃.rest.function?, h₃.rest.block?, h₃.rest.constructs⟩, h₃.functions,
      h₃.course.trans ⟨rfl, rfl, fun h => h⟩⟩
  have is₄ : s₄.stage.hull? = some h := by
    rw [(name_succeeds _ _).stage named]
    exact is₃
  have outside₂ : s₂.inFunction = false :=
    (emits_of_result required).inFunction.trans ((emits_of_result taken).inFunction.trans closed)
  have outside : s₄.inFunction = false :=
    (emits_of_result named).inFunction.trans ((emits_of_result taken').inFunction.trans outside₂)
  rw [if_neg (not_not.2 hull)] at run
  cases run
  refine ⟨⟨h, is₄, now⟩, .outside h₄.rest outside ?_⟩
  rw [h₄.functions]
  rfl

end Lower

section Shader

variable {x : Shader} {l : Lowering}

/-- In front of its entry function a hull shader has the bodies of the phases of the program. -/
theorem Shader.exists_phases (hull : x.env.stage = .hull)
    (families : ∀ inst ∈ x.insts, inst.HasFamily)
    (lowered : lowerInstructions x.env x.insts = .ok l) :
    ∃ first last s h bodies, x.Ends first last s ∧ s.AtRest ∧ x.Invariant x.counts s ∧
      s.stage = .hull h ∧ h.Knows bodies ∧
      bodies.map PhaseBody.summary = phasesOf x.insts ∧
      s.builder.module.functions.toList.map (·.definition.result?) =
        (bodies.map (·.function)).map some ∧
      Lower.result Lower.lowerEntryPoint x.env s = (.ok (), l.state) := by
  obtain ⟨first, last, s, ends, rest, known, entered⟩ := Shader.exists_entry lowered
  obtain ⟨started, stepped, closed⟩ := ends
  obtain ⟨_, _, _, _, _, settled⟩ := Lowering.start_course started
  obtain ⟨stage, initial, begun, _⟩ := Lowering.start_eq_ok.1 started
  rw [hull] at initial
  cases initial
  have phased : first.state.Phased [] none :=
    Lower.begin_phased hull ⟨⟨rfl, rfl, rfl⟩, rfl, .refl _⟩ rfl rfl
      ⟨⟨rfl, rfl, rfl⟩, nofun, fun _ => .inl rfl⟩ begun
  obtain ⟨done, open?, ⟨⟨h, is, now⟩, bodies⟩, all⟩ :=
    Lowering.steps_phased families settled phased stepped
  obtain ⟨_, _, functions⟩ := Lower.closeBody_begun bodies closed
  have stage : s.stage = .hull h := by
    obtain ⟨_, _, rfl⟩ := Lower.closeBody_eq closed
    exact StageState.eq_hull is
  exact ⟨first, last, s, h, done ++ open?.toList, ⟨started, stepped, closed⟩, rest, known, stage,
    now.toKnows, all, functions, entered⟩

/-- How a hull shader runs. The bodies are the functions of the module, and the entry point is the
last one, which returns whatever the world does in the bodies, as long as it keeps the numbers of
the instances. -/
theorem Shader.exists_run (hull : x.env.stage = .hull) (counted : x.env.Counted)
    (families : ∀ inst ∈ x.insts, inst.HasFamily)
    (lowered : lowerInstructions x.env x.insts = .ok l) :
    ∃ first last s h bodies f, x.Ends first last s ∧ s.Maintains l.state ∧
      l.state.stage = .hull h ∧ h.Knows bodies ∧
      bodies.map PhaseBody.summary = phasesOf x.insts ∧
      l.state.builder.module.functions.toList.map (·.definition.result?) =
        (bodies.map (·.function) ++ [l.state.entryPoint]).map some ∧
      l.state.builder.module.functions.back? = some f ∧
      Lower.result Lower.lowerEntryPoint x.env s = (.ok (), l.state) ∧
      ∀ w : World, (∀ p ∈ h.patchPhases, p.KeepsNumber w) → ∀ μ, ∃ ν,
        w.Returns l.state.builder.module f μ ν ∧ h.Runs w x.env s l.state μ ν := by
  obtain ⟨first, last, s, h, bodies, ends, rest, known, stage, knows, all, functions, entered⟩ :=
    Shader.exists_phases hull families lowered
  have run := entered
  unfold Lower.lowerEntryPoint at run
  rw [Lower.result_get_bind, stage] at run
  have some_ (p : PatchPhase) (mem : p ∈ h.patchPhases) : p.instanceCount ≠ 0 := by
    obtain ⟨b, listed, same⟩ := knows.of_mem mem
    have summary : b.summary ∈ phasesOf x.insts := all ▸ List.mem_map_of_mem listed
    exact same ▸ instances_ne_zero summary
  obtain ⟨maintains, f, pushed, definition, returns⟩ := Lower.entry_returns
    (C := fun w => ∀ p ∈ h.patchPhases, p.KeepsNumber w)
    (Q := fun w t μ ν => h.Runs w x.env s t μ ν) rest known
    (fun w keeps builder here_ μ => (Lower.runPhases_traverses counted
      ⟨fun p mem => (here_.tables.phases h (by rw [stage]; rfl) p mem).variable_, some_⟩
      keeps).mono fun _ _ _ _ ran => ran)
    ⟨.idle, fun p _ => p.keepsNumber_idle⟩ run (Shader.parted lowered)
    (x.invariant lowered).builder.distinct (lowerInstructions_sealed lowered).wellFormed
  refine ⟨first, last, s, h, bodies, f, ends, maintains, maintains.within_.stage.trans stage, knows,
    all, ?_, ?_, entered, returns⟩
  · rw [pushed, Array.toList_push, List.map_append, functions, List.map_append, List.map_singleton,
      definition]
    rfl
  · rw [pushed, Array.back?_push]

end Shader

/-- A hull shader runs its phases in order: the control-point phase, or copies in its place, in
every invocation; then all meet; then, in the first invocation only, each fork phase and each join
phase, in the order of the program and once for each of its instances. The bodies are the functions
of the module, and the entry point is the last one. Whatever the world does in them, as long as it
keeps the numbers of the instances, the entry function returns. -/
theorem compile_phases {program : Program} {entries : SignatureEntries} {options : Options}
    {artifact : Artifact} {insts : List Instruction}
    (compiles : compile program entries options = .ok artifact)
    (decoded : program.instructions = .ok insts) (hull : program.stage = .hull) :
    ∃ l s h bodies f,
      lowerInstructions (program.environment insts entries options) insts = .ok l ∧
      artifact = l.artifact ∧ l.state.stage = .hull h ∧ h.Knows bodies ∧
      bodies.map PhaseBody.summary = phasesOf insts ∧
      l.state.builder.module.functions.toList.map (·.definition.result?) =
        (bodies.map (·.function) ++ [l.state.entryPoint]).map some ∧
      l.state.builder.module.functions.back? = some f ∧
      Lower.result Lower.lowerEntryPoint (program.environment insts entries options) s =
        (.ok (), l.state) ∧
      ∀ w : World, (∀ p ∈ h.patchPhases, p.KeepsNumber w) → ∀ μ, ∃ ν,
        w.Returns l.state.builder.module f μ ν ∧
          h.Runs w (program.environment insts entries options) s l.state μ ν := by
  obtain ⟨insts', l, decoded', lowered, rfl⟩ := compile_eq_ok.1 compiles
  obtain rfl : insts' = insts := Except.ok.inj (decoded'.symm.trans decoded)
  obtain ⟨_, _, s, h, bodies, f, _, _, run⟩ := Shader.exists_run
    (x := program.shader decoded entries options) hull (Program.counted ..)
      (program.hasFamily decoded) lowered
  exact ⟨l, s, h, bodies, f, lowered, rfl, run⟩

/-- A hull shader with a fork phase on either side of its join phase, and the control-point phase
last. The first fork phase says twice how often it runs. -/
def interleavedPhases : Program :=
  .assume [0x30050, 15, 0x01000071, 0x01000073, 0x02000099, 2, 0x02000099, 3, 0x0100003e,
    0x01000074,
    0x0100003e, 0x01000073, 0x0100003e, 0x01000072, 0x0100003e]

theorem compile_phases_interleavedPhases :
    ∃ artifact insts, ∃ l : Lowering, ∃ s, ∃ h : HullState, ∃ bodies : List PhaseBody, ∃ f,
      compile interleavedPhases ⟨[], [], []⟩ .default = .ok artifact ∧
      artifact = l.artifact ∧ l.state.stage = .hull h ∧ h.Knows bodies ∧
      bodies.map PhaseBody.summary = [(.fork, 3), (.join, 1), (.fork, 1), (.controlPoint, 1)] ∧
      l.state.builder.module.functions.back? = some f ∧
      ∀ μ, ∃ ν, World.idle.Returns l.state.builder.module f μ ν ∧
        h.Runs .idle (interleavedPhases.environment insts ⟨[], [], []⟩ .default) s l.state μ ν := by
  obtain ⟨artifact, insts, _, compiles, _, _, decoded, phases⟩ :=
    exists_compile interleavedPhases ⟨[], [], []⟩ .default
      (fun insts _ _ => decide (phasesOf insts =
      [(.fork, 3), (.join, 1), (.fork, 1), (.controlPoint, 1)])) (by decide +kernel)
  obtain ⟨l, s, h, bodies, f, _, same, stage, knows, all, _, last, _, runs⟩ :=
    compile_phases compiles decoded (by decide)
  exact ⟨artifact, insts, l, s, h, bodies, f, compiles, same, stage, knows,
    all.trans (of_decide_eq_true phases), last, runs .idle fun p _ => p.keepsNumber_idle⟩

end ShaderLowering
