import ShaderLowering.Proofs.Control.Phases
import ShaderLowering.Proofs.Interface.Carriers
import ShaderLowering.Proofs.Memory.Buffers

/-!
Compiled programs. What a program was compiled to is kept together with how it came about: the state
that the entry function was made in, and what the entry function does to a memory. So what is said
of the copies of registers is said of a module.
-/

namespace ShaderLowering

open Spirv (Id World Invocation BuiltIn StorageClass Module)

/-- Variables of the interface are decorated with what they are there for. -/
structure State.Marked (s : State) : Prop where
  locates : ∀ side reg id, s.located side reg = some id → s.Locates id (side.locationOf reg)
  stands : ∀ key made, s.builtins.lookup key = some made →
    s.builder.module.Decorated made.id .builtIn [.word key.1.code]

theorem State.Recorded.marked {s : State} (h : s.Recorded) : s.Marked :=
  ⟨fun side reg id is => (h.placed.located side reg id is).2.2.1,
    fun key made is => (h.tagged.builtins key made is).2⟩

/-- What a component travels in has a variable that is decorated with it. -/
def State.Declares (s : State) (side : Side) : Carrier → Prop
  | .location reg => ∃ id, s.located side reg = some id ∧ s.Locates id (side.locationOf reg)
  | .builtin key | .element key _ => ∃ made, s.builtins.lookup (key, side.storage) = some made ∧
    s.builder.module.Decorated made.id .builtIn [.word key.code]

namespace State

variable {w : World} {env : Environment} {s u : State} {μ ν : Invocation} {side : Side}
  {reg : UInt32} {c : Nat} {k : Carrier}

theorem located_of_register {l : LocationVariable} (is : (s.register side reg).location? = some l) :
    s.located side reg = some l.id := by
  have same : s.located side reg =
      (((s.registers side).find? reg).bind (·.location?)).map (·.id) := by
    cases side <;> rfl
  rw [register] at is
  rw [same]
  cases found : (s.registers side).find? reg with
  | none =>
    rw [found] at is
    cases is
  | some r =>
    rw [found] at is
    exact congrArg (Option.map _) is

theorem Marked.declares (h : u.Marked) {vertex? : Option Nat} {p : Spirv.Address}
    (place : k.place? u side vertex? c = some p) : u.Declares side k := by
  cases k with
  | location reg =>
    obtain ⟨l, found, _⟩ := Option.map_eq_some_iff.1 place
    have at_ : u.located side reg = some l.id := by
      rw [located_inventory, found]
      rfl
    exact ⟨l.id, at_, h.locates side reg l.id at_⟩
  | builtin key | element key i =>
    obtain ⟨made, found, _⟩ := Option.map_eq_some_iff.1 place
    exact ⟨made, found, h.stands _ made found⟩

theorem Marked.declares_element (h : u.Marked) {builtin : BuiltIn}
    {l : List (UInt32 × Nat × Nat)} (mem : k ∈ elementsOf builtin l reg c)
    (found : ∀ i ∈ l, ∃ made, u.builtins.lookup (builtin, side.storage) = some made) :
    u.Declares side k := by
  obtain ⟨i, listed, rfl⟩ := mem_elementsOf.1 mem
  obtain ⟨made, found⟩ := found _ listed
  exact ⟨made, found, h.stands _ made found⟩

/-- Inputs are taken in from variables that are there. -/
theorem TakesIn.declares (h : s.TakesIn w env u μ ν) (marked : u.Marked)
    (mem : k ∈ s.sources env reg c) : u.Declares .input k := by
  obtain ⟨_, _, _, inputs, clips, culls, _⟩ := h
  have element {builtin : BuiltIn} {items : List ((UInt32 × Nat × Nat) × Option Nat)}
      {κ κ' : Invocation} (copied : (Lower.distanceInputs builtin).Copied u items κ κ')
      (mem : k ∈ elementsOf builtin (items.map (·.1)) reg c) : u.Declares .input k := by
    refine marked.declares_element mem fun i listed => ?_
    obtain ⟨j, member, rfl⟩ := List.mem_map.1 listed
    obtain ⟨⟨p, source⟩, _⟩ := copied.exists_places member
    obtain ⟨made, found, _⟩ := Option.map_eq_some_iff.1 source
    exact ⟨made, found⟩
  rcases List.mem_append.1 mem with mem | mem
  · obtain ⟨i, listed, _, rfl, rfl⟩ := mem_carriersOf.1 mem
    obtain ⟨_, x, word⟩ := inputs.exists_word listed
    obtain ⟨p, place, _⟩ := Option.bind_eq_some_iff.1 word
    exact marked.declares place
  · rcases List.mem_append.1 mem with mem | mem
    · exact element clips mem
    · exact element culls mem

/-- Outputs are put out to variables that are there. -/
theorem PutsOut.declares (h : s.PutsOut env u μ ν) (marked : u.Marked)
    (mem : k ∈ s.targets env reg c) : u.Declares .output k := by
  obtain ⟨_, _, outputs, clips, culls⟩ := h
  have element {builtin : BuiltIn} {items : List (UInt32 × Nat × Nat)} {κ κ' : Invocation}
      (copied : (Lower.distanceOutputs builtin).Copied u items κ κ')
      (mem : k ∈ elementsOf builtin items reg c) : u.Declares .output k := by
    refine marked.declares_element mem fun i listed => ?_
    obtain ⟨_, q, target⟩ := copied.exists_places listed
    obtain ⟨made, found, _⟩ := Option.map_eq_some_iff.1 target
    exact ⟨made, found⟩
  rcases List.mem_append.1 mem with mem | mem
  · obtain ⟨i, listed, _, rfl, rfl⟩ := mem_carriersOf.1 mem
    obtain ⟨⟨p, place⟩, _⟩ := outputs.exists_word listed
    exact marked.declares place
  · rcases List.mem_append.1 mem with mem | mem
    · exact element clips mem
    · exact element culls mem

end State

section Shader

variable {x : Shader} {l : Lowering}

theorem Shader.marked (lowered : lowerInstructions x.env x.insts = .ok l) : l.state.Marked := by
  obtain ⟨_, stage, y, z, _, course, path, announced⟩ := lowerInstructions_course lowered
  have marked := (path.recorded course.recorded).marked
  obtain ⟨modes, _, same⟩ := announced
  rw [same]
  exact ⟨marked.locates, marked.stands⟩

/-- Only hull shaders come to have phases. -/
theorem Shader.hull?_eq_none {first last : Lowering} {s : State} (notHull : x.env.stage ≠ .hull)
    (ends : x.Ends first last s) : s.stage.hull? = none := by
  obtain ⟨started, stepped, closed⟩ := ends
  obtain ⟨stage, initial, begun, _⟩ := Lowering.start_eq_ok.1 started
  have none₀ : stage.hull? = none := by
    cases of : x.env.stage with
    | hull => exact absurd of notHull
    | _ =>
      rw [of] at initial
      cases initial <;> rfl
  obtain ⟨d, id, hd, _, _, inFunction, _, hull?⟩ :=
    Lower.begin_opens notHull ⟨⟨rfl, rfl, rfl⟩, rfl, .refl _⟩ begun
  obtain ⟨e, _, he, setting⟩ := Lowering.steps_runs hd inFunction (hull? none₀) stepped
  obtain ⟨_, _, _, _, _, course⟩ :=
    Lower.of_closeBody he (setting.inFunction.trans inFunction) closed
  exact course.hull? (setting.hull? (hull? none₀))

/-- The stages other than hull shaders have one body, and the entry function runs around it. -/
theorem Shader.exists_body (notHull : x.env.stage ≠ .hull) (graphics : x.env.stage ≠ .compute)
    (counted : x.env.Counted) (lowered : lowerInstructions x.env x.insts = .ok l) :
    ∃ first last, ∃ s : State, ∃ body f, x.Ends first last s ∧ s.Maintains l.state ∧
      Lower.result Lower.lowerEntryPoint x.env s = (.ok (), l.state) ∧ s.body? = some body ∧
      l.state.builder.module.functions.back? = some f ∧
      ∀ w : World, ∀ μ, ∃ ν, w.Returns l.state.builder.module f μ ν ∧
        s.RunsBody w x.env body l.state μ ν := by
  obtain ⟨first, last, s, ends, rest, known, entered⟩ := Shader.exists_entry lowered
  have none_ := Shader.hull?_eq_none notHull ends
  have run := entered
  unfold Lower.lowerEntryPoint at run
  rw [Lower.result_get_bind] at run
  split at run
  · next h is =>
    rw [is] at none_
    cases none_
  · rw [Lower.result_get_bind] at run
    obtain ⟨body, t, found, ran⟩ := Lower.result_bind_eq_ok.1 run
    obtain ⟨is, rfl⟩ := Lower.orFault_run_eq_ok.1 found
    obtain ⟨maintains, f, pushed, _, returns⟩ := Lower.entry_returns (C := fun _ => True)
      (Q := fun w u μ ν => t.RunsBody w x.env body u μ ν) rest known
      (fun w _ builder _ μ => (Traverses.of_performs
        (Lower.runBody_performs counted graphics body)).mono fun _ _ _ _ ran u maintains _ parted =>
          ran u maintains parted)
      ⟨.idle, trivial⟩ ran (Shader.parted lowered) (x.invariant lowered).builder.distinct
      (lowerInstructions_sealed lowered).wellFormed
    exact ⟨first, last, t, body, f, ends, maintains, entered, is, by rw [pushed, Array.back?_push],
      fun w => returns w trivial⟩

end Shader

/-- An invocation that has put out a vertex, and ended the primitive if it is to. -/
def Spirv.Invocation.emitted (μ : Invocation) (cuts : Bool) : Invocation :=
  { μ with events := μ.events ++ .vertex :: if cuts then [.primitive] else [] }

/-- The instructions that put out a vertex. -/
def Instruction.putsVertex (inst : Instruction) : Bool :=
  inst.op? ∈ [some .emit, some .emitStream, some .emitThenCut, some .emitThenCutStream]

theorem Instruction.op?_of_putsVertex {inst : Instruction} (puts : inst.putsVertex = true) :
    inst.op? = some .emit ∨ inst.op? = some .emitStream ∨ inst.op? = some .emitThenCut ∨
      inst.op? = some .emitThenCutStream := by
  have mem := of_decide_eq_true puts
  simpa only [List.mem_cons, List.not_mem_nil, or_false] using mem

namespace Lower

variable {w : World} {env : Environment} {s t : State} {μ : Invocation} {inst : Instruction}

/-- What an instruction that puts out a vertex adds. -/
def vertexCode (cuts : Bool) : Emission Unit := do
  copyOutputs
  emit .emitVertex []
  if cuts then emit .endPrimitive []

theorem lowerVertexOutput_run (puts : inst.putsVertex = true)
    (ran : (lowerVertexOutput inst).run env s = (.ok (), t)) :
    (vertexCode (vertexOutput inst.op?).2).run env s = (.ok (), t) := by
  have emits : (vertexOutput inst.op?).1 = true := by
    rcases Instruction.op?_of_putsVertex puts with is | is | is | is
    all_goals
      rw [is]
      rfl
  unfold lowerVertexOutput at ran
  rw [← Prod.eta (vertexOutput inst.op?), emits] at ran
  dsimp only at ran
  obtain ⟨_, _, taken, ran⟩ := Emission.run_bind_eq_ok.1 ran
  cases taken
  split at ran
  · obtain ⟨_, _, failed, _⟩ := Emission.run_bind_eq_ok.1 ran
    cases failed
  · split at ran
    · obtain ⟨_, u, required, ran⟩ := Emission.run_bind_eq_ok.1 ran
      unfold requireFirstStream at required
      split at required
      · cases required
      · cases required
        exact ran
    · exact ran

theorem vertexCode_needs (cuts : Bool) : Needs (vertexCode cuts) :=
  .later fun _ => .first .emit

/-- The outputs are copied, and then the vertex is put out. -/
theorem vertexCode_performs (counted : env.Counted) (cuts : Bool) :
    Performs w env (vertexCode cuts) s μ fun _ t ν => ∃ κ, ν = κ.emitted cuts ∧
      ∀ u, t.Maintains u → u.Parted → s.PutsOut env u μ κ := by
  refine .bind (copyOutputs_performs counted) fun _ t ν since outputs => ?_
  refine .bind (.emit (ν := { ν with events := ν.events ++ [.vertex] }) fun _ _ _ => rfl)
    fun _ t₁ ν₁ since₁ is => ?_
  subst is
  refine .ite (fun yes => ?_) fun no => .pure fun _ => ?_
  · refine (Performs.emit (ν := ν.emitted cuts) fun _ _ _ => ?_).mono
      fun _ t₂ ν₂ since₂ is => ⟨ν, is, fun u maintains => ?_⟩
    · unfold Spirv.Invocation.emitted
      rw [if_pos yes]
      exact congrArg some (congrArg (Invocation.mk ν.values ν.addresses ν.memory)
        (List.append_assoc _ _ _))
    · exact outputs u ((since₁.trans since₂).maintains.trans maintains)
  · refine ⟨ν, ?_, fun u maintains => outputs u (since₁.maintains.trans maintains)⟩
    unfold Spirv.Invocation.emitted
    rw [if_neg no]

end Lower

namespace Lowering

variable {p : Program} {insts done : List Instruction} {entries : SignatureEntries}
  {options : Options} {first l m : Lowering} {inst : Instruction}

/-- Variables are told apart after each instruction. -/
theorem parted (decoded : p.instructions = .ok insts) (behind : done <+: insts)
    (started : start (p.environment insts entries options) = .ok first)
    (ran : first.steps done = .ok l) : l.state.Parted := by
  have known := invariant_upTo (x := p.shader decoded entries options) behind started ran
  obtain ⟨at_, stage, r, _, course, settled⟩ := start_course started
  obtain ⟨_, _, course, _⟩ := steps_course at_ rfl settled course ran
  exact known.parted course.unshared

/-- The lowering of an instruction of a program that puts out a vertex. -/
structure PutsVertex (insts : List Instruction) (first l m : Lowering) (inst : Instruction) :
    Prop where
  reached : ∃ done, done ++ [inst] <+: insts ∧ first.steps done = .ok l
  stepped : l.step inst = (.ok (), m)
  puts : inst.putsVertex = true

/-- The instruction adds what puts out a vertex, and it is remembered. -/
theorem PutsVertex.lowers (decoded : p.instructions = .ok insts)
    (h : PutsVertex insts first l m inst) :
    ∃ u : State, (Lower.vertexCode (Lower.vertexOutput inst.op?).2).run l.environment l.state =
      (.ok (), u) ∧ m.state = { u with lastOpcode? := some inst.opcode } := by
  obtain ⟨⟨done, behind, _⟩, stepped, puts⟩ := h
  obtain ⟨lowered, _⟩ := step_eq_ok.1 stepped
  obtain ⟨_, u, lowered, remembered⟩ := Lower.result_bind_eq_ok.1 lowered
  refine ⟨u, ?_, (congrArg Prod.snd remembered).symm⟩
  have mem : inst ∈ insts := behind.subset (List.mem_append_right _ (List.mem_singleton_self _))
  have known := p.hasFamily decoded inst mem
  have family : inst.family = .geometryEmit := by
    rcases Instruction.op?_of_putsVertex puts with is | is | is | is
    all_goals exact known.family_eq is
  unfold Lower.lowerByFamily Lower.lowerExecutable at lowered
  rw [family] at lowered
  have operated : (Lower.lowerOperation inst).run l.environment l.state = (.ok (), u) :=
    ((Lower.result_inFunction (m := liftM (Lower.lowerOperation inst))).1 lowered).2
  unfold Lower.lowerOperation at operated
  rw [family] at operated
  exact Lower.lowerVertexOutput_run puts operated

/-- With each vertex the outputs are copied that are declared in front of it. -/
theorem PutsVertex.performs (decoded : p.instructions = .ok insts)
    (started : start (p.environment insts entries options) = .ok first)
    (h : PutsVertex insts first l m inst) (w : World) (μ : Invocation) : ∃ κ,
      w.Spans l.state m.state μ (κ.emitted (Lower.vertexOutput inst.op?).2) ∧
        l.state.PutsOut (p.environment insts entries options) m.state μ κ := by
  obtain ⟨u, operated, state⟩ := h.lowers decoded
  obtain ⟨⟨done, behind, ran⟩, stepped, _⟩ := h
  obtain ⟨_, _, _, environment⟩ := start_eq_ok.1 started
  have env : l.environment = p.environment insts entries options :=
    (steps_environment ran).trans environment
  have ran' : first.steps (done ++ [inst]) = .ok m :=
    steps_append.2 ⟨l, ran, steps_cons.2 ⟨m, stepped, rfl⟩⟩
  have parted := parted decoded behind started ran'
  have code : m.state.builder = u.builder := by rw [state]
  have place := Lower.vertexCode_needs _ _ _ _ _ operated
  have settled := settled decoded ((List.prefix_append _ _).trans behind) started ran place
  rw [env] at operated
  obtain ⟨code', ν, follows, runs, maintains, _, κ, is, outputs⟩ :=
    Lower.vertexCode_performs (w := w) (μ := μ) (Program.counted ..) _ settled () u operated
  subst is
  refine ⟨κ, ⟨code', by rw [code]; exact follows.appends, by rw [code]; exact runs⟩, ?_⟩
  have later : u.Maintains m.state := by
    rw [state]
    exact ⟨List.prefix_refl _, .refl _⟩
  exact outputs m.state later parted

end Lowering

/-- What a control-point phase writes to an output register is stored in the location variable of
the register, in the element for the invocation. -/
def Environment.StoresPoint (env : Environment) (reg : UInt32) : Prop :=
  ∀ (w : World) (s : State) (μ : Invocation) (out : Operand) (v : Value) (ws : List UInt32)
    (g : Nat → UInt32), s.stage.inControlPointPhase = true → out.type = .output →
    out.index? 0 = some reg → out.mask.isEmpty = false →
    (v.type.count = 1 ∨ out.mask.count ≤ v.type.count) → s.Holds μ.processor v ws →
    (∀ c ∈ out.mask.components, v.wordFor out.mask ws c = g c) →
    Performs w env (Lower.writeOperand out v false) s μ fun _ t ν => ∀ u, t.Maintains u → ∃ l b,
      u.inventory.location? .output reg = some l ∧
      u.builtins.lookup (.invocationId, .input) = some b ∧
      ((∀ c ∈ out.mask.components, c < l.type.count) →
        μ.Stored ν ⟨l.id, [(μ.memory ⟨b.id, []⟩).toNat]⟩ l.type.count out.mask g)

namespace Lower

variable {env : Environment}

theorem writeOperand_point (hull : env.stage = .hull) (reg : UInt32) : env.StoresPoint reg := by
  intro w s μ out v ws g phase is immediate some_ wide holds words
  refine (writeOperand_performs wide holds words).mono fun _ t ν since received u later => ?_
  have taken : ¬(out.isNull || out.mask.isEmpty) = true := by
    rw [some_, Bool.or_false, Operand.isNull, is]
    decide
  have received := received u later
  rw [Operand.Receives, if_neg taken] at received
  obtain ⟨type, q, place, stored⟩ := received
  have same : u.stage = s.stage := (since.maintains.trans later).within_.stage
  have given : Indexed w env μ.memory out (indexSteps out.indices) _ := indexSteps_indexed out
  have index := given.immediate u 0 reg immediate
  rw [State.place?, is] at place
  dsimp only at place
  rw [if_pos hull, same, if_pos phase, index] at place
  obtain ⟨b, found, place⟩ := Option.bind_eq_some_iff.1 place
  obtain ⟨l, location, led⟩ := Option.map_eq_some_iff.1 place
  cases led
  exact ⟨l, b, location, found, stored⟩

end Lower

/-- A program with what it was compiled to, and how. -/
structure Compiled (p : Program) (entries : SignatureEntries) (options : Options)
    (artifact : Artifact) where
  insts : List Instruction
  /-- The lowering in front of the first instruction. -/
  first : Lowering
  /-- The lowering behind the last one. -/
  last : Lowering
  /-- The state that the entry function is added to. -/
  state : State
  lowering : Lowering
  function : Spirv.Function
  decoded : p.instructions = .ok insts
  ends : (p.shader decoded entries options).Ends first last state
  lowered : lowerInstructions (p.environment insts entries options) insts = .ok lowering
  entered : Lower.result Lower.lowerEntryPoint (p.environment insts entries options) state =
    (.ok (), lowering.state)
  maintains : state.Maintains lowering.state
  lowering_artifact : artifact = lowering.artifact
  back : lowering.state.builder.module.functions.back? = some function
  /-- A hull shader copies its inputs in, and runs its phases. -/
  hull : p.stage = .hull → ∃ h, lowering.state.stage = .hull h ∧
    ∀ w : World, (∀ q ∈ h.patchPhases, q.KeepsNumber w) → ∀ μ, ∃ ν,
      w.Returns lowering.state.builder.module function μ ν ∧
        h.Runs w (p.environment insts entries options) state lowering.state μ ν
  /-- The other stages copy their inputs in, run their body, and copy their outputs out, unless that
  is done with each vertex. -/
  body : p.stage ≠ .hull → ∃ body, state.body? = some body ∧ ∀ w : World, ∀ μ, ∃ ν,
    w.Returns lowering.state.builder.module function μ ν ∧
      state.RunsBody w (p.environment insts entries options) body lowering.state μ ν
  /-- With each vertex the outputs are copied that are declared in front of it. -/
  vertices : ∀ m n inst, Lowering.PutsVertex insts first m n inst → ∀ (w : World) (μ : Invocation),
    ∃ κ, w.Spans m.state n.state μ (κ.emitted (Lower.vertexOutput inst.op?).2) ∧
      m.state.PutsOut (p.environment insts entries options) n.state μ κ
  /-- A hull shader writes its control points where they go out. -/
  points : p.stage = .hull → ∀ reg, (p.environment insts entries options).StoresPoint reg

/-- What is compiled has an entry function that does what the stage is there for. -/
theorem Program.exists_compiled {p : Program} {entries : SignatureEntries} {options : Options}
    {artifact : Artifact} (compiles : compile p entries options = .ok artifact)
    (graphics : p.stage ≠ .compute) : Nonempty (Compiled p entries options artifact) := by
  obtain ⟨insts, l, decoded, lowered, rfl⟩ := compile_eq_ok.1 compiles
  let x : Shader := p.shader decoded entries options
  have counted : x.env.Counted := Program.counted ..
  by_cases hull : p.stage = .hull
  · obtain ⟨first, last, s, h, _, f, ends, maintains, is, _, _, _, back, entered, runs⟩ :=
      Shader.exists_run (x := x) hull counted (p.hasFamily decoded) lowered
    exact ⟨⟨insts, first, last, s, l, f, decoded, ends, lowered, entered, maintains, rfl, back,
      fun _ => ⟨h, is, runs⟩, fun other => absurd hull other,
      fun _ _ _ puts => puts.performs decoded ends.started,
      fun is => @Lower.writeOperand_point x.env is⟩⟩
  · obtain ⟨first, last, s, body, f, ends, maintains, entered, is, back, runs⟩ :=
      Shader.exists_body (x := x) hull graphics counted lowered
    exact ⟨⟨insts, first, last, s, l, f, decoded, ends, lowered, entered, maintains, rfl, back,
      fun other => absurd other hull, fun _ => ⟨body, is, runs⟩,
      fun _ _ _ puts => puts.performs decoded ends.started,
      fun is => @Lower.writeOperand_point x.env is⟩⟩

end ShaderLowering
