import ShaderLowering.Lowering.Instruction
import ShaderLowering.Lowering.Stage
import ShaderLowering.Proofs.Lowering.Steps
import ShaderLowering.Proofs.Typing.Bodies
import ShaderLowering.Proofs.Typing.Buffers
import ShaderLowering.Proofs.Typing.Textures

/-!
Declarations for a stage as a whole. They are the only steps that change how many vertices a stage
takes in or control points it puts out, and they change them as the declaration says.

Lowering one instruction keeps the invariant. The vertex counts behind it are those that it
declares; every other step is safe under the counts in front of it.
-/

namespace ShaderLowering

open Spirv (Module)

variable {x : Shader} {v w : VertexCounts} {m : Module} {s t : State} {inst : Instruction}
  {op : Opcode}

theorem Instruction.op?_of_declaration? (declares : inst.declaration? = some op) :
    inst.op? = some op := by
  unfold declaration? at declares
  split at declares
  · exact declares
  · cases declares

/-- Other declarations say nothing of vertices. -/
theorem VertexCounts.note_of_ne {stage : ShaderStage} (declares : inst.declaration? = some op)
    (geometry : stage = .geometry → op ≠ .dclGsInputPrimitive)
    (inputs : stage = .hull ∨ stage = .domain → op ≠ .dclInputControlPointCount)
    (outputs : stage = .hull → op ≠ .dclOutputControlPointCount) : v.note stage inst = v := by
  unfold note
  rw [declares]
  split
  · next is => cases is; exact absurd rfl (geometry rfl)
  · next is => cases is; exact absurd rfl (inputs (.inl rfl))
  · next is => cases is; exact absurd rfl (inputs (.inr rfl))
  · next is => cases is; exact absurd rfl (outputs rfl)
  · rfl

theorem VertexCounts.note_hull_of_ne (declares : inst.declaration? = some op)
    (inputs : op ≠ .dclInputControlPointCount) (outputs : op ≠ .dclOutputControlPointCount) :
    v.note .hull inst = v :=
  note_of_ne declares nofun (fun _ => inputs) fun _ => outputs

/-- What a declaration says of the number of control points. -/
theorem Shader.Hull.declare {h : HullState} (known : x.Hull v m h)
    (declares : inst.declaration? = some op) :
    x.Hull (v.note x.env.stage inst) m (h.declare inst) := by
  obtain ⟨stage, inputs, outputs, phases⟩ := known
  have other (inputs_ : op ≠ .dclInputControlPointCount)
      (outputs_ : op ≠ .dclOutputControlPointCount) {h' : HullState}
      (same : h'.inputControlPoints = h.inputControlPoints)
      (same' : h'.outputControlPoints = h.outputControlPoints)
      (phases' : h'.fork ++ h'.join = h.fork ++ h.join) :
      x.Hull (v.note x.env.stage inst) m h' := by
    rw [stage, VertexCounts.note_hull_of_ne declares inputs_ outputs_]
    exact ⟨stage, same.trans inputs, by rw [same', outputs], by rwa [phases']⟩
  unfold HullState.declare
  rw [Instruction.op?_of_declaration? declares]
  split
  · next is =>
    cases is
    refine ⟨stage, ?_, ?_, phases⟩ <;> simp [VertexCounts.note, stage, declares, outputs]
  · next is =>
    cases is
    refine ⟨stage, ?_, ?_, phases⟩ <;> simp [VertexCounts.note, stage, declares, inputs]
  · next is => cases is; exact other nofun nofun rfl rfl rfl
  · next is => cases is; exact other nofun nofun rfl rfl rfl
  · next is =>
    cases is
    unfold HullState.declareOutputPrimitive
    split <;> exact other nofun nofun rfl rfl rfl
  · next is => cases is; exact other nofun nofun rfl rfl rfl
  · next inputs_ outputs_ _ _ _ _ =>
    exact other (fun is => inputs_ (by rw [is])) (fun is => outputs_ (by rw [is])) rfl rfl rfl

theorem instanceId_of_mem_modify {f : PatchPhase → PatchPhase}
    (keeps : ∀ p, (f p).instanceId = p.instanceId) {l : List PatchPhase} {i : Nat} {p : PatchPhase}
    (h : p ∈ l.modify i f) : ∃ q ∈ l, p.instanceId = q.instanceId := by
  obtain ⟨k, hk⟩ := List.mem_iff_getElem?.1 h
  rw [List.getElem?_modify] at hk
  obtain ⟨q, hq, rfl⟩ := Option.map_eq_some_iff.1 hk
  refine ⟨q, List.mem_of_getElem? hq, ?_⟩
  split
  · exact keeps q
  · rfl

theorem Shader.Hull.modifyPhase {h h' : HullState} (known : x.Hull v m h)
    {f : PatchPhase → PatchPhase} (keeps : ∀ p, (f p).instanceId = p.instanceId)
    (is : h.modifyPhase? f = some h') : x.Hull v m h' := by
  have phase {p : PatchPhase} (hp : ∃ q ∈ h.fork ++ h.join, p.instanceId = q.instanceId) :
      m.Houses p.instanceId .priv (.vector (.single .u32)) := by
    obtain ⟨q, hq, same⟩ := hp
    rw [same]
    exact known.phases q hq
  unfold HullState.modifyPhase? at is
  split at is
  · split at is <;> cases is
    refine ⟨known.stage, known.inputs, known.outputs, fun p hp => phase ?_⟩
    rcases List.mem_append.1 hp with hp | hp
    · obtain ⟨q, hq, same⟩ := instanceId_of_mem_modify keeps hp
      exact ⟨q, List.mem_append_left _ hq, same⟩
    · exact ⟨p, List.mem_append_right _ hp, rfl⟩
  · split at is <;> cases is
    refine ⟨known.stage, known.inputs, known.outputs, fun p hp => phase ?_⟩
    rcases List.mem_append.1 hp with hp | hp
    · exact ⟨p, List.mem_append_left _ hp, rfl⟩
    · obtain ⟨q, hq, same⟩ := instanceId_of_mem_modify keeps hp
      exact ⟨q, List.mem_append_right _ hq, same⟩
  · cases is

namespace Lower

theorem updateHullState_note {h : HullState} (hs : x.Invariant v s)
    (known : x.Hull w s.builder.module h) (ran : (updateHullState h).run x.env s = (.ok (), t)) :
    x.Invariant w t := by
  obtain ⟨old, is⟩ := hs.stage_hull known.stage
  cases ran
  have same : s.stage.update h = .hull { h with phase := old.phase } := by
    rw [is]
    rfl
  change x.Invariant w { s with stage := s.stage.update h }
  rw [same]
  exact hs.setHull ⟨known.stage, known.inputs, known.outputs, known.phases⟩

theorem hullState_eq_ok {h : HullState} (ran : hullState.run x.env s = (.ok h, t)) :
    s.stage.hull? = some h ∧ t = s :=
  orFault_run_eq_ok.1 ran

theorem lowerHullDeclaration_note (hs : x.Invariant v s) (declares : inst.declaration? = some op)
    (ran : (lowerHullDeclaration inst).run x.env s = (.ok (), t)) :
    x.Invariant (v.note x.env.stage inst) t := by
  have count (other : op ≠ .dclInputControlPointCount) (other' : op ≠ .dclOutputControlPointCount)
      (ran : (declareInstanceCount inst).run x.env s = (.ok (), t)) :
      x.Invariant (v.note x.env.stage inst) t := by
    obtain ⟨h, _, found, rest⟩ := Emission.run_bind_eq_ok.1 ran
    obtain ⟨is, rfl⟩ := hullState_eq_ok found
    obtain ⟨h', _, phase, last⟩ := Emission.run_bind_eq_ok.1 rest
    obtain ⟨changed, rfl⟩ := orFault_run_eq_ok.1 phase
    have known := hs.hull is
    rw [known.stage, VertexCounts.note_hull_of_ne declares other other']
    exact updateHullState_note hs (known.modifyPhase (by exact fun _ => rfl) changed) last
  unfold lowerHullDeclaration at ran
  rw [Instruction.op?_of_declaration? declares] at ran
  split at ran
  · next is => cases is; exact count nofun nofun ran
  · next is => cases is; exact count nofun nofun ran
  · obtain ⟨h, _, found, rest⟩ := Emission.run_bind_eq_ok.1 ran
    obtain ⟨is, rfl⟩ := hullState_eq_ok found
    exact updateHullState_note hs ((hs.hull is).declare declares) rest

theorem setStage_note (hs : x.Invariant v s) {stage : StageState} {notHull : stage.hull? = none}
    (ran : (Emission.setStage stage notHull).run x.env s = (.ok (), t))
    (kind : stage.kind = x.env.stage) (inputs : stage.inputVertices = w.inputs)
    (outputs : stage.outputVertices = w.outputs) : x.Invariant w t := by
  cases ran
  exact hs.become notHull kind inputs outputs

theorem lowerGeometryDeclaration_note (hs : x.Invariant v s)
    (declares : inst.declaration? = some op) {primitive? topology? : Option Spirv.ExecutionMode}
    {vertices : Nat} {maxVertices instances : UInt32}
    (stage : s.stage = .geometry primitive? vertices topology? maxVertices instances)
    (ran : (lowerGeometryDeclaration inst op primitive? vertices topology? maxVertices
      instances).run x.env s = (.ok (), t)) :
    x.Invariant (v.note x.env.stage inst) t := by
  obtain ⟨geometry, inputs, outputs⟩ : .geometry = x.env.stage ∧ vertices = v.inputs ∧
      0 = v.outputs := by
    rw [← hs.kind, ← hs.inputs, ← hs.outputs, stage]
    exact ⟨rfl, rfl, rfl⟩
  have other (ne : op ≠ .dclGsInputPrimitive) : v.note x.env.stage inst = v := by
    rw [← geometry]
    exact VertexCounts.note_of_ne declares (fun _ => ne) nofun nofun
  unfold lowerGeometryDeclaration at ran
  split at ran
  · rw [other nofun]
    unfold requireFirstStream at ran
    split at ran <;> cases ran
    exact hs
  · obtain ⟨⟨primitive, count⟩, _, looked, set⟩ := Emission.run_bind_eq_ok.1 ran
    obtain ⟨found, rfl⟩ := orFault_run_eq_ok.1 looked
    refine setStage_note hs set geometry ?_ ?_
    · simp [VertexCounts.note, ← geometry, declares, found, StageState.inputVertices]
    · simp [VertexCounts.note, ← geometry, declares, StageState.outputVertices, outputs]
  · rw [other nofun]
    obtain ⟨topology, _, looked, set⟩ := Emission.run_bind_eq_ok.1 ran
    obtain ⟨found, rfl⟩ := orFault_run_eq_ok.1 looked
    exact setStage_note hs set geometry inputs outputs
  · rw [other nofun]
    exact setStage_note hs ran geometry inputs outputs
  · rw [other nofun]
    exact setStage_note hs ran geometry inputs outputs
  · next ne _ _ _ =>
    rw [other ne]
    cases ran
    exact hs

theorem lowerStageDeclaration_note (hs : x.Invariant v s) (declares : inst.declaration? = some op)
    (ran : (lowerStageDeclaration inst op).run x.env s = (.ok (), t)) :
    x.Invariant (v.note x.env.stage inst) t := by
  replace ran := Emission.run_bind_eq_ok.1 ran
  obtain ⟨_, _, got, ran⟩ := ran
  cases got
  have kind := hs.kind
  have outputs := hs.outputs
  have same {stage : StageState} {notHull : stage.hull? = none}
      (set : (Emission.setStage stage notHull).run x.env s = (.ok (), t))
      (note : v.note x.env.stage inst = v) (kind : stage.kind = s.stage.kind)
      (inputs : stage.inputVertices = s.stage.inputVertices)
      (outputs : stage.outputVertices = s.stage.outputVertices) :
      x.Invariant (v.note x.env.stage inst) t := by
    rw [note]
    exact setStage_note hs set (kind.trans hs.kind) (inputs.trans hs.inputs)
      (outputs.trans hs.outputs)
  split at ran
  · next is =>
    rw [is] at same
    exact same ran (VertexCounts.note_of_ne declares nofun nofun nofun) rfl rfl rfl
  · have note : v.note x.env.stage inst = v := VertexCounts.note_of_ne declares nofun nofun nofun
    rw [note]
    cases ran
    exact hs
  · exact lowerHullDeclaration_note hs declares ran
  · next is _ => exact lowerGeometryDeclaration_note hs declares is ran
  · next is =>
    have note : v.note x.env.stage inst = v := VertexCounts.note_of_ne declares nofun nofun nofun
    rw [is] at same
    split at ran
    · exact same ran note rfl rfl rfl
    · rw [note]
      cases ran
      exact hs
  · next is =>
    rw [is] at kind outputs
    refine setStage_note hs ran kind ?_ ?_
    · simp [VertexCounts.note, ← kind, StageState.kind, declares, StageState.inputVertices]
    · simp only [VertexCounts.note, ← kind, StageState.kind, declares]
      exact outputs
  · next is =>
    rw [is] at same
    exact same ran (VertexCounts.note_of_ne declares nofun nofun nofun) rfl rfl rfl
  · next notHull notGeometry _ _ notDomain _ =>
    have note : v.note x.env.stage inst = v := by
      cases is : s.stage <;> rw [is] at kind <;> rw [← kind]
      case hull h => exact (notHull h is).elim
      case geometry => exact (notGeometry _ _ _ _ _ is).elim
      case domain => exact VertexCounts.note_of_ne declares nofun (fun _ => notDomain _ _ is) nofun
      all_goals exact VertexCounts.note_of_ne declares nofun nofun nofun
    rw [note]
    cases ran
    exact hs

theorem lowerVertexOutput_safe (inst : Instruction) :
    Safe x v m (lowerVertexOutput inst).run := by
  refine Yields.read_bind (.ite (fun _ => .failBind) fun geometry => ?_)
  have outputs (n : Module) : Safe x v n copyOutputs.run :=
    copyOutputs_safe fun hull => geometry (by rw [hull]; decide)
  change Safe x v m _
  unfold requireFirstStream
  grind

end Lower

end ShaderLowering

namespace ShaderLowering

open Spirv (Module)

variable {x : Shader} {v : VertexCounts} {m : Module} {s t : State} {inst : Instruction}
  {op : Opcode}

namespace Shader

/-- Declarations of inputs, and of outputs in hull shaders, depend on the vertex counts. -/
theorem At.sees (here : x.At v inst) (declares : inst.declaration? = some op)
    (asks : (op.declaresInput || (x.env.stage = .hull && op.declaresOutput)) = true) :
    x.Sees v := by
  refine .inl ⟨inst, here, ?_⟩
  rw [Instruction.asksVertices, declares]
  exact asks

end Shader

namespace Lower

@[grind ←]
theorem groupMemoryRegister_safe (inst : Instruction) : Safe x v m (groupMemoryRegister inst).run :=
  .bind (.orFault _ _) fun _ => .pure _

theorem lowerStructuredGroupMemory_safe (inst : Instruction) (stride count : UInt32) :
    Safe x v m (lowerStructuredGroupMemory inst stride count).run := by
  unfold lowerStructuredGroupMemory
  grind

theorem lowerRegisterDeclaration_safe (here : x.At v inst)
    (declares : inst.declaration? = some op) :
    Safe x v m (lowerRegisterDeclaration inst op).run := by
  have input (asks : op.declaresInput = true) : Safe x v m (lowerInputDeclaration inst).run :=
    lowerInputDeclaration_safe (here.sees declares (by rw [asks]; rfl))
  have output (asks : op.declaresOutput = true) : Safe x v m (lowerOutputDeclaration inst).run :=
    lowerOutputDeclaration_safe fun hull => here.sees declares (by simp [hull, asks])
  unfold lowerRegisterDeclaration
  extract_lets imm
  split
  · exact declareTemps_safe _
  · refine declareIndexableTemp_safe (.inr (.inl ⟨inst, here.mem, ?_⟩))
    rw [Instruction.tempLength?, declares]
  · exact Safe.bind (groupMemoryRegister_safe inst) fun reg => declareGroupMemory_safe _ _ _
  · exact lowerStructuredGroupMemory_safe _ _ _
  · exact input rfl
  · exact input rfl
  · exact input rfl
  · exact input rfl
  · exact input rfl
  · exact input rfl
  · exact output rfl
  · exact output rfl
  · exact output rfl
  · exact lowerConstantBufferDeclaration_safe here.mem declares
  · exact lowerSamplerDeclaration_safe
  · exact lowerResourceDeclaration_safe
  · exact lowerResourceDeclaration_safe
  · exact lowerResourceDeclaration_safe
  · exact lowerUavDeclaration_safe
  · exact lowerUavDeclaration_safe
  · exact lowerUavDeclaration_safe
  · exact unsupported_safe inst
  · exact unsupported_safe inst
  · exact unsupported_safe inst
  · exact .pureInterface fun _ _ => trivial

theorem lowerCustomData_safe (mem : inst ∈ x.insts) (family : inst.family = .customData) :
    Safe x v m (lowerCustomData inst).run := by
  unfold lowerCustomData
  split
  · next words is =>
    refine lowerImmediateConstants_safe mem ?_
    rw [Instruction.immediates?, family, is]
  · exact .pure _

theorem lowerOperation_safe (runs : x.Runs v inst) : Safe x v m (lowerOperation inst).run := by
  unfold lowerOperation
  split
  · exact .pure _
  · exact lowerVertexOutput_safe inst
  · next family => exact lowerAtomic_safe runs family
  · exact lowerCounter_safe runs
  · exact lowerBarrier_safe inst
  · exact lowerBufferQuery_safe runs
  · exact lowerBufferLoad_safe runs
  · exact lowerBufferStore_safe runs
  · exact lowerInterpolation_safe runs
  · exact lowerSizeQuery_safe runs
  · exact lowerLodQuery_safe runs
  · exact lowerSampleCountQuery_safe runs
  · next family => exact lowerFetch_safe runs family
  · exact lowerGather_safe runs
  · exact lowerSample_safe runs
  · next family => exact lowerTypedLoad_safe runs family
  · next family => exact lowerTypedStore_safe runs family
  all_goals first | exact lowerArithmetic_safe runs | exact unsupported_safe inst

theorem lowerExecutable_safe (runs : x.Runs v inst) :
    Safe x v m (result (lowerExecutable inst)) := by
  unfold lowerExecutable
  split
  · exact lowerControlFlow_safe runs
  · exact lowerOperation_safe runs

/-- Without a declaration the vertex counts stay. -/
theorem note_eq_self (none_ : inst.declaration? = none) (stage : ShaderStage) :
    v.note stage inst = v := by
  unfold VertexCounts.note
  rw [none_]
  split <;> first | rfl | contradiction

/-- Declarations may change the vertex counts. -/
theorem lowerDeclaration_note (here : x.At v inst) (family : inst.family = .declaration)
    (hs : x.Invariant v s) (ran : (lowerDeclaration inst).run x.env s = (.ok (), t)) :
    x.Invariant (v.note x.env.stage inst) t := by
  have declaration : inst.declaration? = inst.op? := if_pos family
  unfold lowerDeclaration at ran
  split at ran
  · next op is =>
    have declares : inst.declaration? = some op := declaration.trans is
    split at ran
    · exact lowerStageDeclaration_note hs declares ran
    · next register =>
      have same : v.note x.env.stage inst = v :=
        VertexCounts.note_of_ne declares (fun _ is => register (by rw [is]; rfl))
          (fun _ is => register (by rw [is]; rfl)) fun _ is => register (by rw [is]; rfl)
      rw [same]
      exact (lowerRegisterDeclaration_safe here declares s () t hs (.refl _) ran).1
  · next none_ =>
    rw [note_eq_self (declaration.trans none_)]
    cases ran
    exact hs

theorem lowerByFamily_note (here : x.At v inst) (hs : x.Invariant v s)
    (ran : result (lowerByFamily inst) x.env s = (.ok (), t)) :
    x.Invariant (v.note x.env.stage inst) t := by
  have same (other : inst.family ≠ .declaration) (safe : Safe x v s.builder.module
      (result (lowerByFamily inst))) : x.Invariant (v.note x.env.stage inst) t := by
    rw [note_eq_self (if_neg other)]
    exact (safe s () t hs (.refl _) ran).1
  unfold lowerByFamily at ran same
  split at ran
  · next family => exact lowerDeclaration_note here family hs ran
  · next family =>
    rw [family] at same
    exact same nofun (lowerCustomData_safe here.mem family)
  · next family =>
    rw [family] at same
    exact same nofun (lowerHullPhase_safe inst)
  · next family =>
    rw [family] at same
    exact same nofun (unsupported_safe inst)
  · next family =>
    rw [family] at same
    exact same nofun (unsupported_safe inst)
  · next declaration customData hullPhase _ _ =>
    have runs : x.Runs v inst := by
      refine ⟨here, ?_⟩
      unfold Instruction.isExecutable
      split
      · next family => exact (declaration family).elim
      · next family => exact (customData family).elim
      · next family => exact (hullPhase family).elim
      · rfl
    rw [note_eq_self (if_neg declaration)]
    obtain ⟨_, lowered⟩ := result_inFunction.1 ran
    exact (lowerExecutable_safe runs s () t hs (.refl _) lowered).1

theorem lowerInstruction_note (here : x.At v inst) (hs : x.Invariant v s)
    (ran : result (lowerInstruction inst) x.env s = (.ok (), t)) :
    x.Invariant (v.note x.env.stage inst) t := by
  obtain ⟨_, u, lowered, rest⟩ := result_bind_eq_ok.1 ran
  have hu := lowerByFamily_note here hs lowered
  cases rest
  exact hu.retable rfl rfl { hu.tables with }

end Lower

end ShaderLowering
