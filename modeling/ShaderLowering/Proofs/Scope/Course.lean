import ShaderLowering.Proofs.Scope.Bodies

/-!
The course of a lowering. A path consists of moves and of changes of what the stage knows of itself;
every instruction is a path from one settled configuration to another. The variables that count the
instances of hull shader phases are hidden from the tables: only the entry function refers to them.
-/

namespace ShaderLowering

open Spirv (Id Instr Arg Op Module Builder StorageClass)

variable {H K : Limits} {T : Allowance} {env : Environment} {b : Builder} {s t u : State}
  {r : List Id} {x y z : Configuration} {inst : Instruction} {binds : Descriptor → Prop}

/-- A change of the limits that what stands does not notice. -/
theorem State.Kept.relimit (h : s.Kept H b)
    (free : ∀ id, b.module.Stands id → ¬H.fromTables id → ¬K.fromTables id) : s.Kept K b := by
  have stands {id : Id} (h : b.Standing H id) : b.Standing K id := ⟨free id h.2 h.1, h.2⟩
  have global {id : Id} (h : b.Global H id) : b.Global K id := ⟨free id (.inl h.2) h.1, h.2⟩
  exact
    { extendedSet := stands h.extendedSet
      temps := fun id mem => stands (h.temps id mem)
      indexableTemps := h.indexableTemps.imp fun _ _ => stands
      groupMemory := h.groupMemory.imp fun _ _ => stands
      immediates := fun id is => stands (h.immediates id is)
      inputArray := fun id is => stands (h.inputArray id is)
      outputArray := fun id is => stands (h.outputArray id is)
      patchArray := fun id is => stands (h.patchArray id is)
      inputs := h.inputs.imp fun _ _ h l is => stands (h l is)
      outputs := h.outputs.imp fun _ _ h l is => stands (h l is)
      patchInputs := h.patchInputs.imp fun _ _ h l is => stands (h l is)
      patchOutputs := h.patchOutputs.imp fun _ _ h l is => stands (h l is)
      builtins := fun e mem => stands (h.builtins e mem)
      constantBuffers := h.constantBuffers.imp fun _ _ => stands
      samplers := h.samplers.imp fun _ _ => stands
      textures := h.textures.imp fun _ _ => stands
      uavs := h.uavs.imp fun _ _ h => ⟨stands h.1, fun id is => stands (h.2 id is)⟩
      uniformBlocks := fun e mem => global (h.uniformBlocks e mem)
      storageBlock := fun id is => global (h.storageBlock id is)
      counterBlock := fun id is => global (h.counterBlock id is)
      body := fun id is => stands (h.body id is)
      hull := fun hull is => ⟨fun id point => stands ((h.hull hull is).1 id point), fun phase mem =>
        ⟨stands ((h.hull hull is).2 phase mem).1, ((h.hull hull is).2 phase mem).2⟩⟩ }

/-- Limits that hide the same ids. -/
theorem Ready.relimit (ready : Ready H s) (same : ∀ id, K.fromTables id ↔ H.fromTables id) :
    Ready K s :=
  ⟨ready.sound, ready.kept.relimit fun id _ free hidden => free ((same id).1 hidden),
    fun id hidden => ready.hidden id ((same id).1 hidden)⟩

/-- The variable that counts the instances of a phase. -/
def State.IsInstance (s : State) (id : Id) : Prop :=
  ∃ h, s.stage.hull? = some h ∧ ∃ phase ∈ h.fork ++ h.join, phase.instanceId = id

/-- What an instruction may do in a state. -/
def State.allowance (s : State) (binds : Descriptor → Prop) : Allowance :=
  ⟨s.IsInstance, binds⟩

theorem State.isInstance_eq (stage : t.stage = s.stage) : t.IsInstance = s.IsInstance := by
  funext id
  unfold State.IsInstance
  rw [stage]

theorem State.allowance_eq (stage : t.stage = s.stage) : t.allowance binds = s.allowance binds := by
  rw [State.allowance, State.isInstance_eq stage, State.allowance]

namespace Configuration

/-- What holds between two instructions, for whatever comes next. -/
structure Settled (x : Configuration) : Prop where
  tidy : x.Tidy
  numbered : x.Numbered
  ready : ∀ binds, Ready (.tables (x.state.allowance binds)) x.state

end Configuration

/-- One change of a configuration, with a register bound only where it may be. -/
inductive Advance (binds : Descriptor → Prop) (env : Environment) :
    Configuration → Configuration → Prop
  | move {x y : Configuration} {H : Limits} (may : ∀ d, H.binds d → binds d)
    (ready : Ready H x.state) (move : Move H env x y) : Advance binds env x y
  | restage {s : State} {r : List Id} {stage : StageState} :
    Advance binds env ⟨s, r⟩ ⟨{ s with stage }, r⟩

def Path (binds : Descriptor → Prop) (env : Environment) : Configuration → Configuration → Prop :=
  Relation.ReflTransGen (Advance binds env)

namespace Path

theorem of_moves (moves : Moves H env x y) (ready : Ready H x.state)
    (may : ∀ d, H.binds d → binds d) : Path binds env x y := by
  induction moves with
  | refl => exact .refl
  | tail before last ih => exact ih.tail (.move may (Moves.ready before ready) last)

theorem restage (s : State) (r : List Id) (stage : StageState) :
    Path binds env ⟨s, r⟩ ⟨{ s with stage }, r⟩ :=
  .single .restage

theorem numbered (path : Path binds env x y) (numbered : x.Numbered) : y.Numbered := by
  induction path with
  | refl => exact numbered
  | tail _ last ih =>
    cases last with
    | move _ ready move => exact ih.move move ready.sound
    | restage => exact ⟨ih.distinct, ih.below, ih.announces⟩

theorem remembers (path : Path binds env x y) : x.state.Remembers y.state := by
  induction path with
  | refl => exact .refl _
  | tail _ last ih =>
    cases last with
    | move _ _ move => exact ih.trans move.remembers
    | restage => exact ih.trans (.of_eq rfl)

end Path

namespace Lower

/-- The path of a step that works. -/
theorem path_of_works {α : Type} {m : Lower α} {post : α → Configuration → Prop} {a : α}
    (works : Works H env x m post) (ready : Ready H x.state)
    (ran : result m env x.state = (.ok a, t)) :
    ∃ r, Path H.binds env x ⟨t, r⟩ ∧ Ready H t ∧ post a ⟨t, r⟩ := by
  obtain ⟨r, moves, fact⟩ := works ready a t ran
  exact ⟨r, .of_moves moves ready fun _ may => may, moves.ready ready, fact⟩

end Lower

namespace Configuration.Settled

/-- The stage is as it was. -/
theorem of_stage (settled : x.Settled) (path : Path binds env x y) (tidy : y.Tidy)
    (ready : Ready (.tables (x.state.allowance binds)) y.state)
    (stage : y.state.stage = x.state.stage) : y.Settled := by
  refine ⟨tidy, path.numbered settled.numbered, fun binds' => ?_⟩
  rw [State.allowance_eq stage]
  exact ready.relimit fun _ => Iff.rfl

/-- What the stage knows of itself has changed, but not its phases. -/
theorem restage (settled : Settled ⟨s, r⟩) {stage : StageState}
    (same : ∀ h', stage.hull? = some h' → ∃ h, s.stage.hull? = some h ∧ h.SamePhases h') :
    Settled ⟨{ s with stage }, r⟩ := by
  refine ⟨⟨settled.tidy.owed, settled.tidy.selectors, settled.tidy.outside⟩,
    ⟨settled.numbered.distinct, settled.numbered.below, settled.numbered.announces⟩,
    fun binds => ?_⟩
  have ready := settled.ready binds
  have among (id : Id) (is : State.IsInstance { s with stage } id) : s.IsInstance id := by
    obtain ⟨h', is, phase, mem, rfl⟩ := is
    obtain ⟨h, was, same⟩ := same h' is
    have mem' : phase.instanceId ∈ (h'.fork.map (fun p => (p.function, p.instanceId)) ++
        h'.join.map fun p => (p.function, p.instanceId)).map Prod.snd := by
      rw [← List.map_append, List.map_map]
      exact List.mem_map_of_mem mem
    rw [same.fork, same.join, ← List.map_append, List.map_map] at mem'
    obtain ⟨p, hp, is⟩ := List.mem_map.1 mem'
    exact ⟨h, was, p, hp, is⟩
  exact ⟨ready.sound, (ready.kept.withStage same).relimit fun id _ free hidden =>
    free (among id hidden),
    fun id hidden => ready.hidden id (among id hidden)⟩

/-- A change of what has nothing to do with the module. -/
theorem remember (settled : Settled ⟨s, r⟩) (code? : Option UInt32) :
    Settled ⟨{ s with lastOpcode? := code? }, r⟩ := by
  refine ⟨⟨settled.tidy.owed, settled.tidy.selectors, settled.tidy.outside⟩,
    ⟨settled.numbered.distinct, settled.numbered.below, settled.numbered.announces⟩,
    fun binds => ?_⟩
  have ready := settled.ready binds
  exact ⟨ready.sound, { ready.kept with }, ready.hidden⟩

end Configuration.Settled

namespace Lower

/-- Closing the body that is open. -/
theorem closeBody_path (settled : x.Settled) (ran : result closeBody env x.state = (.ok (), t)) :
    ∃ r, Path binds env x ⟨t, r⟩ ∧ Configuration.Settled ⟨t, r⟩ ∧ t.inFunction = false ∧
      t.stage = x.state.stage := by
  obtain ⟨r, path, ready, tidy, outside, stage⟩ := path_of_works
    (closeBody_tidy settled.tidy) (settled.ready binds) ran
  exact ⟨r, path, settled.of_stage path tidy ready stage, outside, stage⟩

/-- A phase without a variable of its own has begun. -/
theorem settled_phase {h : HullState} {point? : Option Id} {phase : HullPhase}
    (settled : Configuration.Settled ⟨s, r⟩) (is : s.stage.hull? = some h)
    (stands : ∀ id, point? = some id → ¬s.IsInstance id ∧ s.builder.module.Stands id) :
    Configuration.Settled
      ⟨{ s with stage := .hull { h with controlPoint? := point?, phase } }, r⟩ := by
  have same (id : Id) : State.IsInstance { s with
      stage := .hull { h with controlPoint? := point?, phase } } id ↔ s.IsInstance id := by
    unfold State.IsInstance
    rw [is]
    constructor
    · rintro ⟨_, is, mem⟩
      cases is
      exact ⟨h, rfl, mem⟩
    · rintro ⟨_, is, mem⟩
      cases is
      exact ⟨_, rfl, mem⟩
  refine ⟨⟨settled.tidy.owed, settled.tidy.selectors, settled.tidy.outside⟩,
    ⟨settled.numbered.distinct, settled.numbered.below, settled.numbered.announces⟩,
    fun binds' => ?_⟩
  have ready := settled.ready binds'
  have kept : State.Kept (.tables (s.allowance binds')) s.builder
      { s with stage := .hull { h with controlPoint? := point?, phase } } :=
    { ready.kept with
      hull := fun h' is' => by
        cases is'
        exact ⟨stands, (ready.kept.hull h is).2⟩ }
  exact ⟨ready.sound, kept.relimit fun id _ free hidden => free ((same id).1 hidden),
    fun id hidden => ready.hidden id ((same id).1 hidden)⟩

/-- The control-point phase begins. -/
theorem beginControlPointPhase_path (settled : x.Settled) (outside : x.state.inFunction = false)
    (ran : result beginControlPointPhase env x.state = (.ok (), t)) :
    ∃ r, Path binds env x ⟨t, r⟩ ∧ Configuration.Settled ⟨t, r⟩ := by
  obtain ⟨h, _, found, ran⟩ := result_bind_eq_ok.1 ran
  obtain ⟨_, rfl⟩ := orFault_run_eq_ok.1 found
  obtain ⟨_, ran⟩ := result_check.1 ran
  obtain ⟨function, u, begun, ran⟩ := result_bind_eq_ok.1 ran
  obtain ⟨r, path, ready, tidy, stage, _, stands⟩ := path_of_works
    (beginBody_tidy _ settled.tidy (settled.tidy.outside outside)) (settled.ready binds) begun
  have settled := settled.of_stage path tidy ready stage
  obtain ⟨h, is, rfl⟩ := setHullState_eq
    (f := fun h => { h with controlPoint? := some function, phase := .controlPoint }) ran
  refine ⟨r, path.trans (Path.restage u r _), settled_phase settled is fun id same => ?_⟩
  cases same
  exact ⟨State.isInstance_eq (s := x.state) stage ▸ stands.1, stands.2⟩

end Lower

/-- Limits that hide one more id. -/
def Allowance.hiding (T : Allowance) (id : Id) : Allowance :=
  ⟨fun other => T.hidden other ∨ other = id, T.binds⟩

/-- What has the id of a new variable is that variable. -/
theorem Creates.isVariable {id : Id} {storage : StorageClass} {marks : List Instr}
    (h : Creates H s t id storage marks) (sound : s.builder.Sound) :
    ∀ i ∈ t.builder.module.globals.toList, i.result? = some id → i.op = .ordinary .var := by
  obtain ⟨pointer, initial?, _, like⟩ := h.built
  have old (i : Instr) (mem : i ∈ s.builder.module.globals.toList) : i.result? ≠ some id := by
    intro result
    have below := sound.below i (List.mem_append_left _ mem) id result
    exact Nat.lt_irrefl _ (h.fresh ▸ below)
  rw [like.globals]
  unfold Builder.variable_
  dsimp only [Builder.fresh]
  intro i mem result
  split at mem
  · next c placed =>
    obtain ⟨_, _, _, _, rfl⟩ := Spirv.Builder.push_eq_ok.1 placed
    exact absurd result (old i mem)
  · rw [Builder.addGlobal, Array.toList_push] at mem
    rcases List.mem_append.1 mem with mem | mem
    · exact absurd result (old i mem)
    · rw [List.mem_singleton.1 mem]

namespace Lower

/-- A new variable can be hidden: no table holds it. -/
theorem newVariable_hides {pointee id : Id} {storage : StorageClass}
    (ready : Ready (.tables T) s) (global : s.builder.Global (.tables T) pointee)
    (numbered : ∀ {t}, Acts (.tables T) env s t → ∀ other, t.builder.module.Stands other →
      other < t.builder.nextId)
    (ran : (newVariable pointee storage none).run env s = (.ok id, u)) :
    Acts (.tables T) env s u ∧ Ready (.tables (T.hiding id)) u ∧ u.builder.module.Stands id := by
  obtain ⟨t, acts, creates, accounts, _⟩ := newVariable_creates ready global (by nofun) ran
  have all : Acts (.tables T) env s u := acts.tail (.create creates accounts)
  have ready₂ := all.ready ready
  have stands := creates.stands (acts.ready ready).sound
  refine ⟨all, ⟨ready₂.sound, ?_, fun other hidden => ?_⟩, stands⟩
  · obtain ⟨pointer, t', typed, ran⟩ := Emission.run_bind_eq_ok.1 ran
    obtain ⟨acts', _⟩ := pointerType_establishes global storage s pointer t' ready (.refl _) typed
    obtain ⟨made, v, created, ran⟩ := Emission.run_bind_eq_ok.1 ran
    cases created
    cases ran
    have new : (t'.builder.variable_ pointer storage none).1 = t'.builder.nextId :=
      t'.builder.fst_variable _ _ _
    have kept : State.Kept (.tables (T.hiding (t'.builder.variable_ pointer storage none).1))
        t'.builder t' := (acts'.ready ready).kept.relimit fun other old free hidden =>
      hidden.elim free fun same => Nat.lt_irrefl _ (same.trans new ▸ numbered acts' other old)
    exact { kept.mono (t'.builder.within_variable pointer storage none) with }
  · rcases hidden with hidden | rfl
    · exact ready₂.hidden other hidden
    · exact ⟨numbered all _ stands, creates.isVariable (acts.ready ready).sound⟩

/-- A phase with a variable of its own has begun. -/
theorem settled_patchPhase {p : PatchPhase} {h h' : HullState}
    (tidy : Configuration.Tidy ⟨s, r⟩) (numbered : Configuration.Numbered ⟨s, r⟩)
    (ready : Ready (.tables ((s.allowance binds).hiding p.instanceId)) s)
    (is : s.stage.hull? = some h)
    (function : s.builder.Standing (.tables ((s.allowance binds).hiding p.instanceId))
      p.function)
    (instance_ : s.builder.module.Stands p.instanceId)
    (point : h'.controlPoint? = h.controlPoint?)
    (phases : ∀ q, q ∈ h'.fork ++ h'.join ↔ q ∈ h.fork ++ h.join ∨ q = p) :
    Configuration.Settled ⟨{ s with stage := .hull h' }, r⟩ := by
  have among (id : Id) (mem : State.IsInstance { s with stage := .hull h' } id) :
      s.IsInstance id ∨ id = p.instanceId := by
    obtain ⟨_, is', q, hq, rfl⟩ := mem
    cases is'
    rcases (phases q).1 hq with hq | rfl
    · exact .inl ⟨h, is, q, hq, rfl⟩
    · exact .inr rfl
  have kept : State.Kept (.tables ((s.allowance binds).hiding p.instanceId)) s.builder
      { s with stage := .hull h' } :=
    { ready.kept with
      hull := fun h'' is' => by
        cases is'
        refine ⟨fun id is' => (ready.kept.hull h is).1 id (point ▸ is'), fun q hq => ?_⟩
        rcases (phases q).1 hq with hq | rfl
        · exact (ready.kept.hull h is).2 q hq
        · exact ⟨function, instance_⟩ }
  refine ⟨⟨tidy.owed, tidy.selectors, tidy.outside⟩,
    ⟨numbered.distinct, numbered.below, numbered.announces⟩, fun binds' => ?_⟩
  exact ⟨ready.sound, kept.relimit fun id _ free hidden => free (among id hidden),
    fun id hidden => ready.hidden id (among id hidden)⟩

theorem beginPatchPhase_path {isJoin : Bool} (settled : x.Settled)
    (outside : x.state.inFunction = false)
    (ran : result (beginPatchPhase isJoin) env x.state = (.ok (), t)) :
    ∃ r, Path binds env x ⟨t, r⟩ ∧ Configuration.Settled ⟨t, r⟩ := by
  have ready := settled.ready binds
  obtain ⟨h, _, found, ran⟩ := result_bind_eq_ok.1 ran
  obtain ⟨_, rfl⟩ := orFault_run_eq_ok.1 found
  obtain ⟨word, s₁, typed, ran⟩ := result_bind_eq_ok.1 ran
  obtain ⟨r, path₁, ready₁, acts₁, emits₁, same, word_⟩ := path_of_works
    (.lift (scalarType_establishes _)) ready typed
  obtain rfl : r = x.reserved := same
  obtain ⟨instanceId, s₂, created, ran⟩ := result_bind_eq_ok.1 ran
  have numbered₁ := path₁.numbered settled.numbered
  have later {u : State} (acts : Acts (.tables (x.state.allowance binds)) env s₁ u) :
      Path binds env ⟨s₁, x.reserved⟩ ⟨u, x.reserved⟩ :=
    .of_moves (Moves.of_acts acts _) ready₁ fun _ may => may
  obtain ⟨acts₂, ready₂, instance_⟩ := newVariable_hides ready₁ word_
    (fun acts _ => ((later acts).numbered numbered₁).stands) created
  obtain ⟨_, s₃, named, ran⟩ := result_bind_eq_ok.1 ran
  obtain ⟨r, path₃, ready₃, acts₃, emits₃, same, _⟩ := path_of_works (x := ⟨s₂, x.reserved⟩)
    (.lift (name_leaves _ _).does) ready₂ named
  obtain rfl : r = x.reserved := same
  have emits := (emits₁.trans (emits_of_result created)).trans emits₃
  have path := (path₁.trans (later acts₂)).trans path₃
  have tidy : Configuration.Tidy ⟨s₃, x.reserved⟩ := settled.tidy.emits
    ((acts₁.within.trans acts₂.within).trans acts₃.within) emits rfl
  have outside : s₃.inFunction = false := emits.inFunction.trans outside
  obtain ⟨function, s₄, begun, ran⟩ := result_bind_eq_ok.1 ran
  obtain ⟨r, path₄, ready₄, tidy₄, stage, extends_, function_⟩ := path_of_works
    (x := ⟨s₃, x.reserved⟩) (beginBody_tidy _ tidy (tidy.outside outside)) ready₃ begun
  replace path := path.trans path₄
  have stage : s₄.stage = x.state.stage :=
    stage.trans (acts₃.stage.trans (acts₂.stage.trans acts₁.stage))
  obtain ⟨h', is, rfl⟩ := setHullState_eq (f := fun h' =>
    if isJoin then
      { h' with
        join := h'.join ++ [⟨function, 1, instanceId⟩]
        phase := .join (if isJoin then h.join.length else h.fork.length) }
    else
      { h' with
        fork := h'.fork ++ [⟨function, 1, instanceId⟩]
        phase := .fork (if isJoin then h.join.length else h.fork.length) }) ran
  have hides : (x.state.allowance binds).hiding instanceId =
      (s₄.allowance binds).hiding instanceId := by
    rw [State.allowance_eq stage]
  rw [hides] at ready₄ function_
  refine ⟨r, path.trans (Path.restage s₄ r _), settled_patchPhase (p := ⟨function, 1, instanceId⟩)
    tidy₄ (Path.numbered path settled.numbered) ready₄ is function_
    (extends_.stands (acts₃.within.extends_.stands instance_)) ?_ fun p => ?_⟩
  all_goals cases isJoin
  · rfl
  · rfl
  · simp [or_comm, or_assoc]
  · simp [or_assoc]

/-- A phase ends, and the next begins. -/
theorem lowerHullPhase_path (settled : x.Settled)
    (ran : result (lowerHullPhase inst) env x.state = (.ok (), t)) :
    ∃ r, Path binds env x ⟨t, r⟩ ∧ Configuration.Settled ⟨t, r⟩ := by
  obtain ⟨_, _, found, ran⟩ := result_bind_eq_ok.1 ran
  obtain ⟨_, rfl⟩ := orFault_run_eq_ok.1 found
  obtain ⟨_, u, closed, ran⟩ := result_bind_eq_ok.1 ran
  obtain ⟨r, path, settled, outside, _⟩ := @closeBody_path _ _ _ binds settled closed
  split at ran
  · obtain ⟨h, is, rfl⟩ := setHullState_eq
      (f := fun h => { h with phase := .declarations }) ran
    have kept := ((settled.ready binds).kept.hull h is).1
    exact ⟨r, path.trans (Path.restage u r _), settled_phase settled is fun id point =>
      kept id point⟩
  · obtain ⟨r', path', settled⟩ := beginControlPointPhase_path settled outside ran
    exact ⟨r', path.trans path', settled⟩
  · obtain ⟨r', path', settled⟩ := beginPatchPhase_path settled outside ran
    exact ⟨r', path.trans path', settled⟩
  · obtain ⟨r', path', settled⟩ := beginPatchPhase_path settled outside ran
    exact ⟨r', path.trans path', settled⟩
  · cases ran

end Lower

namespace Lower

/-- Lowering an instruction leads from one settled configuration to another. -/
theorem lowerInstruction_path (settled : x.Settled)
    (ran : result (lowerInstruction inst) env x.state = (.ok (), t)) :
    ∃ r, Path inst.binds env x ⟨t, r⟩ ∧ Configuration.Settled ⟨t, r⟩ ∧ inst.Covered t := by
  obtain ⟨_, u, lowered, noted⟩ := result_bind_eq_ok.1 ran
  cases noted
  have ready := settled.ready inst.binds
  have remembers {r : List Id} (path : Path inst.binds env x ⟨u, r⟩)
      (settled : Configuration.Settled ⟨u, r⟩) (covered : inst.Covered u) :
      ∃ r, Path inst.binds env x ⟨{ u with lastOpcode? := some inst.opcode }, r⟩ ∧
        Configuration.Settled ⟨{ u with lastOpcode? := some inst.opcode }, r⟩ ∧
        inst.Covered { u with lastOpcode? := some inst.opcode } := by
    refine ⟨r, path.tail (.move (fun _ may => may) (settled.ready inst.binds) ?_),
      settled.remember _, covered⟩
    exact .note rfl (fun kept => { kept with }) rfl (.of_eq rfl)
  have none_ (other : inst.family ≠ .declaration) (other' : inst.family ≠ .atomicCounter) :
      inst.Covered u := fun d is => by
    rw [Instruction.bound?, if_neg other, Instruction.counted?, if_neg other'] at is
    cases is
  by_cases control : inst.family = .controlFlow
  · obtain ⟨inside, lowered⟩ := (lowerByFamily_controlFlow control).1 lowered
    obtain ⟨r, path, ready', leads⟩ := path_of_works
      (lowerControlFlow_leads settled.tidy inside) ready lowered
    exact remembers path (settled.of_stage path leads.tidy ready' leads.stage)
      (none_ (by rw [control]; decide) (by rw [control]; decide))
  by_cases phase : inst.family = .hullShaderPhase
  · have lowered : result (lowerHullPhase inst) env x.state = (.ok (), u) := by
      unfold lowerByFamily at lowered
      rw [phase] at lowered
      exact lowered
    obtain ⟨r, path, settled⟩ := lowerHullPhase_path settled lowered
    exact remembers path settled (none_ (by rw [phase]; decide) (by rw [phase]; decide))
  · obtain ⟨steps, covered⟩ := lowerByFamily_steps control phase ready (fun _ may => may)
      lowered
    have emits := lowerByFamily_emits control phase lowered
    rcases steps with acts | ⟨_, stage, rfl, hull?⟩
    · have path : Path inst.binds env x ⟨u, x.reserved⟩ :=
        .of_moves (Moves.of_acts acts x.reserved) ready fun _ may => may
      exact remembers path (settled.of_stage path (settled.tidy.emits acts.within emits rfl)
        (acts.ready ready) acts.stage) covered
    · refine remembers (Path.restage x.state x.reserved stage) (settled.restage fun h' is => ?_)
        covered
      rw [hull?] at is
      obtain ⟨h, was, rfl⟩ := Option.map_eq_some_iff.1 is
      exact ⟨h, was, h.samePhases_after inst⟩

end Lower

/-- The state once the extended instruction set has been imported. -/
def State.opened (version : SpirvVersion) (stage : StageState) : State :=
  { State.initial version stage with
    extendedSet := 1
    builder :=
      { Builder.empty version with
        nextId := 2
        module :=
          { Module.empty version with
            memoryModel := #[Lower.memoryModel]
            imports :=
              #[⟨.ordinary .extInstImport, none, some 1, [.text Lower.extendedSetName]⟩] } } }

namespace State

variable {version : SpirvVersion} {stage : StageState}

theorem hull_initial {kind : ShaderStage} (start : StageState.initial? kind = some stage)
    {h : HullState} (is : stage.hull? = some h) :
    h.controlPoint? = none ∧ h.fork = [] ∧ h.join = [] := by
  unfold StageState.initial? at start
  split at start <;> cases start <;> cases is
  exact ⟨rfl, rfl, rfl⟩

theorem not_isInstance_opened {kind : ShaderStage}
    (start : StageState.initial? kind = some stage) (id : Id) :
    ¬(opened version stage).IsInstance id := by
  rintro ⟨h, is, phase, mem, _⟩
  obtain ⟨_, fork, join⟩ := hull_initial start is
  rw [fork, join] at mem
  cases mem

theorem ready_opened {kind : ShaderStage} (start : StageState.initial? kind = some stage) :
    Ready (.tables ((opened version stage).allowance binds)) (opened version stage) := by
  refine ⟨⟨nofun, nofun, fun _ h => absurd h List.not_mem_nil, fun _ h => absurd h List.not_mem_nil,
    fun _ _ _ _ _ _ h => absurd h List.not_mem_nil, fun _ h => absurd h List.not_mem_nil⟩, ?_,
    fun id hidden => absurd hidden (not_isInstance_opened start id)⟩
  have import_ : (opened version stage).builder.module.Stands 1 :=
    .inr (.inl ⟨_, List.mem_singleton.2 rfl, rfl⟩)
  exact
    { extendedSet := ⟨not_isInstance_opened start 1, import_⟩
      temps := fun _ h => absurd h List.not_mem_nil
      indexableTemps := Table.all_empty
      groupMemory := Table.all_empty
      immediates := nofun
      inputArray := nofun
      outputArray := nofun
      patchArray := nofun
      inputs := Table.all_empty
      outputs := Table.all_empty
      patchInputs := Table.all_empty
      patchOutputs := Table.all_empty
      builtins := fun _ h => absurd h List.not_mem_nil
      constantBuffers := Table.all_empty
      samplers := Table.all_empty
      textures := Table.all_empty
      uavs := Table.all_empty
      uniformBlocks := fun _ h => absurd h List.not_mem_nil
      storageBlock := nofun
      counterBlock := nofun
      body := nofun
      hull := fun h is => by
        obtain ⟨point, fork, join⟩ := hull_initial start is
        rw [point, fork, join]
        exact ⟨nofun, fun _ mem => absurd mem List.not_mem_nil⟩ }

theorem numbered_opened : Configuration.Numbered ⟨opened version stage, []⟩ := by
  refine ⟨List.nodup_singleton 1, fun id mem => ?_, fun i mem => ?_⟩
  · cases List.mem_singleton.1 mem
    exact Nat.lt_succ_self 1
  · cases List.mem_singleton.1 mem
    rfl

end State

namespace Lower

/-- Opening the module. -/
theorem begin_path {version : SpirvVersion} {stage : StageState} {kind : ShaderStage}
    (start : StageState.initial? kind = some stage)
    (ran : result begin env (.initial version stage) = (.ok (), t)) :
    ∃ r, Path binds env ⟨.opened version stage, []⟩ ⟨t, r⟩ ∧ Configuration.Settled ⟨t, r⟩ := by
  unfold begin at ran
  rw [result_read_bind] at ran
  obtain ⟨_, s₁, taken, ran⟩ := result_bind_eq_ok.1 ran
  cases taken
  rw [result_modify_bind] at ran
  have empty : (State.opened version stage).inFunction = false := rfl
  have works (H : Limits) : Works H env ⟨.opened version stage, []⟩ (do
      requireCapability .shader
      let entryPoint ← fresh
      modify fun s : State => { s with entryPoint }
      name entryPoint env.options.entryPoint
      if env.stage ≠ .hull then
        let body ← beginBody s!"{env.stage.abbreviation}_main"
        modify fun s : State => { s with body? := some body }) fun _ y =>
      y.Tidy ∧ y.state.stage = stage := by
    refine .bind (.goes (requireCapability_leaves (P := Instr.IsPlainMark) _).does)
      fun _ x₁ required => ?_
    obtain ⟨h₁, r₁, _⟩ := required
    refine .bind fresh_works fun entryPoint x₂ drawn => ?_
    obtain ⟨h₂, _⟩ := drawn
    refine .bind (.note rfl (fun kept => { kept with }) rfl (.of_eq rfl)) fun _ x₃ is => ?_
    subst is
    refine .bind (.goes (name_leaves _ _).does) fun _ x₄ named => ?_
    obtain ⟨h₄, r₄, _⟩ := named
    have constructs : x₄.state.constructs = [] := by
      rw [h₄.constructs]
      exact (h₂.constructs.trans h₁.constructs)
    have reserved : x₄.reserved = [x₄.state.entryPoint] := by
      rw [r₄, h₄.entryPoint, h₂.reserved, r₁]
    have tidy : x₄.Tidy := by
      refine ⟨?_, fun sw mem => ?_, fun _ => constructs⟩
      · rw [State.owed, constructs, reserved]
        exact .refl _
      · rw [constructs] at mem
        cases mem
    have stage₄ : x₄.state.stage = stage := by
      rw [h₄.stage]
      exact h₂.stage.trans h₁.stage
    refine .ite (fun _ => ?_) fun _ => .pure ⟨tidy, stage₄⟩
    refine .bind (beginBody_tidy _ tidy constructs) fun body x₅ begun => ?_
    obtain ⟨tidy₅, same, _, stands⟩ := begun
    refine .imp (.note rfl (fun kept => { kept with
      body := fun id is => Option.some.inj is ▸ stands }) rfl (.of_eq rfl)) fun _ x₆ is => ?_
    subst is
    exact ⟨⟨tidy₅.owed, tidy₅.selectors, tidy₅.outside⟩, same.trans stage₄⟩
  obtain ⟨r, path, ready, tidy, same⟩ := path_of_works (works _) (State.ready_opened start) ran
  have numbered := path.numbered State.numbered_opened
  refine ⟨r, path, tidy, numbered, fun binds' => ?_⟩
  rw [State.allowance_eq (s := .opened version stage) same]
  exact ready.relimit fun _ => Iff.rfl

/-- The last body is closed and the entry function written; then the entry point is announced. -/
theorem finish_path (settled : x.Settled) (ran : result finish env x.state = (.ok (), t)) :
    ∃ r u, Path (fun _ => False) env x ⟨u, r⟩ ∧ u.Announced env t := by
  unfold finish at ran
  rw [result_get_bind] at ran
  obtain ⟨_, ran⟩ := result_check.1 ran
  obtain ⟨_, v, closed, ran⟩ := result_bind_eq_ok.1 ran
  obtain ⟨r, path, settled, outside, _⟩ := closeBody_path settled closed
  have owed := settled.tidy.owed
  rw [State.owed, settled.tidy.outside outside] at owed
  have ready := settled.ready fun _ => False
  obtain ⟨r', u, moves, announced⟩ := lowerEntryPoint_moves owed ready ran
  exact ⟨r', u, path.trans (Path.of_moves moves ready fun _ => id), announced⟩

end Lower

/-- A course leads from the opened module through instructions: each is a path of its own, behind
which what it declares and counts is bound. -/
inductive Course (env : Environment) (version : SpirvVersion) (stage : StageState) :
    List Instruction → Configuration → Prop
  | begin {x : Configuration} (path : Path (fun _ => False) env ⟨.opened version stage, []⟩ x) :
    Course env version stage [] x
  | step {insts : List Instruction} {inst : Instruction} {x y : Configuration}
    (before : Course env version stage insts x) (path : Path inst.binds env x y)
    (covered : inst.Covered y.state) : Course env version stage (insts ++ [inst]) y

namespace Lowering

variable {version : SpirvVersion} {stage : StageState} {l m : Lowering} {insts : List Instruction}

/-- Instructions are lowered along a course, from one settled configuration to the next. -/
theorem steps_course {before : List Instruction} (at_ : l.environment = env)
    (here : x.state = l.state)
    (settled : x.Settled) (course : Course env version stage before x)
    (ran : l.steps insts = .ok m) : m.environment = env ∧
      ∃ r, Course env version stage (before ++ insts) ⟨m.state, r⟩ ∧
        Configuration.Settled ⟨m.state, r⟩ := by
  induction insts generalizing l before x with
  | nil =>
    cases ran
    obtain ⟨s, r⟩ := x
    cases here
    rw [List.append_nil]
    exact ⟨at_, r, course, settled⟩
  | cons inst rest ih =>
    obtain ⟨n, stepped, more⟩ := steps_cons.1 ran
    obtain ⟨ran, same⟩ := step_eq_ok.1 stepped
    rw [at_, ← here] at ran
    obtain ⟨r, path, settled, covered⟩ := Lower.lowerInstruction_path settled ran
    rw [List.append_cons]
    exact ih (same.trans at_) rfl settled (course.step path covered) more

/-- An opened lowering is settled. -/
theorem start_course (started : start env = .ok l) : l.environment = env ∧ ∃ stage r,
    StageState.initial? env.stage = some stage ∧
      Course env env.options.version stage [] ⟨l.state, r⟩ ∧
        Configuration.Settled ⟨l.state, r⟩ := by
  obtain ⟨stage, initial, ran, same⟩ := start_eq_ok.1 started
  obtain ⟨r, path, settled⟩ := Lower.begin_path initial ran
  exact ⟨same, stage, r, initial, .begin path, settled⟩

end Lowering

/-- A lowering follows a course through its instructions and goes on to the entry function; then
the entry point is announced. -/
theorem lowerInstructions_course {insts : List Instruction} {l : Lowering}
    (lowered : lowerInstructions env insts = .ok l) : l.environment = env ∧ ∃ stage x y,
      StageState.initial? env.stage = some stage ∧ Course env env.options.version stage insts x ∧
        Path (fun _ => False) env x y ∧ y.state.Announced env l.state := by
  obtain ⟨first, last, started, stepped, closed⟩ := lowerInstructions_eq_ok.1 lowered
  obtain ⟨at_, stage, r, initial, course, settled⟩ := Lowering.start_course started
  obtain ⟨at_', r', course, settled⟩ := Lowering.steps_course at_ rfl settled course stepped
  obtain ⟨ran, same⟩ := Lowering.run_eq_ok.1 (Lowering.close_eq_ok.1 closed)
  rw [at_'] at ran
  obtain ⟨r'', u, path, announced⟩ := Lower.finish_path settled ran
  exact ⟨same.trans at_', stage, _, ⟨u, r''⟩, initial, course, path, announced⟩

end ShaderLowering
