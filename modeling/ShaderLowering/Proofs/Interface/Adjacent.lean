import ShaderLowering.Proofs.Interface.Compiled

/-!
Stages that follow one another. What one puts out is what the next takes in, so both should send a
component the same way. They do, except for three system values: from a geometry shader the
primitive number goes through a location while pixel shaders read a built-in, and layer and viewport
numbers go out through built-ins while hull and geometry shaders read locations. Moreover layer and
viewport numbers go out from a single component.
-/

namespace ShaderLowering

open Spirv (World Invocation)

/-- Stages of which the second may take in what the first puts out. -/
inductive ShaderStage.Precedes : ShaderStage → ShaderStage → Prop
  | vertexHull : Precedes vertex hull
  | vertexGeometry : Precedes vertex geometry
  | vertexPixel : Precedes vertex pixel
  | hullDomain : Precedes hull domain
  | domainGeometry : Precedes domain geometry
  | domainPixel : Precedes domain pixel
  | geometryPixel : Precedes geometry pixel

theorem ShaderStage.Precedes.graphics {producer consumer : ShaderStage}
    (h : producer.Precedes consumer) : producer ≠ .compute ∧ consumer ≠ .compute := by
  cases h <;> exact ⟨nofun, nofun⟩

namespace SystemValue

/-- Values that the consumer does not get from the producer. -/
def isGenerated (producer consumer : ShaderStage) : SystemValue → Bool
  | position | isFrontFace | sampleIndex => consumer = .pixel
  | primitiveId => producer ≠ .geometry
  | _ => false

/-- Values that producer and consumer send differently. -/
def isSplit (producer consumer : ShaderStage) : SystemValue → Bool
  | primitiveId => producer = .geometry
  | renderTargetArrayIndex | viewportArrayIndex => consumer = .hull ∨ consumer = .geometry
  | _ => false

end SystemValue

/-- The system value that travels in a built-in. -/
def Carrier.value? : Carrier → Option SystemValue
  | .builtin .position | .builtin .fragCoord => some .position
  | .builtin .vertexIndex => some .vertexId
  | .builtin .instanceIndex => some .instanceId
  | .builtin .frontFacing => some .isFrontFace
  | .builtin .sampleId => some .sampleIndex
  | .builtin .primitiveId => some .primitiveId
  | .builtin .layer => some .renderTargetArrayIndex
  | .builtin .viewportIndex => some .viewportArrayIndex
  | _ => none

namespace SystemValue

/-- A built-in tells its system value. -/
theorem value?_of_carrier? {stage : ShaderStage} {side : Side} {value : SystemValue} {k : Carrier}
    (through : value.carrier? stage side = some k) : k.value? = some value := by
  unfold carrier? at through
  split at through
  · split at through <;> cases through <;> rfl
  all_goals
    cases through
    try rfl

/-- A routed value goes through a built-in, or it is a distance. -/
theorem exists_carrier {stage : ShaderStage} {side : Side} {value : SystemValue}
    (plain : side.isPatch = false) (routes : routesToBuiltin stage side value = true) :
    (∃ k, value.carrier? stage side = some k) ∨ value.isClipCull = true := by
  cases side with
  | patchInput | patchOutput => cases plain
  | input | output =>
    cases stage <;> cases value <;>
      first | exact .inl ⟨_, rfl⟩ | exact .inr rfl | exact absurd routes Bool.false_ne_true

theorem isNumber_of_isClipCull {value : SystemValue} (isDistance : value.isClipCull = true) :
    value.isNumber = false := by
  cases value with
  | clipDistance | cullDistance => rfl
  | _ => cases isDistance

end SystemValue

open SystemValue

section Values

variable {producer consumer : ShaderStage} {value : SystemValue}

/-- Both sides route a value, or neither does, unless it is split. -/
theorem routes_agree_iff (adjacent : producer.Precedes consumer)
    (own : value.isGenerated producer consumer = false) :
    routesToBuiltin producer .output value = routesToBuiltin consumer .input value ↔
      value.isSplit producer consumer = false := by
  cases adjacent <;> cases value <;>
    first
    | exact absurd own (by decide)
    | exact iff_of_true rfl rfl
    | exact iff_of_false (by decide) (by decide)

theorem carrier_agree (adjacent : producer.Precedes consumer)
    (own : value.isGenerated producer consumer = false)
    (routes : routesToBuiltin producer .output value = true) {k : Carrier}
    (through : value.carrier? producer .output = some k) :
    value.carrier? consumer .input = some k := by
  rw [← through]
  cases adjacent <;> cases value <;>
    first | rfl | exact absurd own (by decide) | exact absurd routes Bool.false_ne_true

theorem isSplit_of_isClipCull (isDistance : value.isClipCull = true) :
    value.isSplit producer consumer = false := by
  cases value with
  | clipDistance | cullDistance => rfl
  | _ => cases isDistance

end Values

namespace Signature

variable {producer consumer : ShaderStage} {s : Signature} {decls decls' : List Declaration}
  {reg : UInt32} {c : Nat}

theorem forall_tags_iff {holds : SystemValue → Prop} :
    (∀ value, s.Tags reg c value → holds value) ↔
      ∀ e ∈ s.elements, e.register = reg → e.mask.contains c = true → holds e.systemValue := by
  constructor
  · exact fun h e he register covers => h _ ⟨e, he, register, covers, rfl⟩
  · rintro h _ ⟨e, he, register, covers, rfl⟩
    exact h e he register covers

theorem exists_tags_iff : (∃ value, s.Tags reg c value) ↔
    ∃ e ∈ s.elements, e.register = reg ∧ e.mask.contains c = true := by
  constructor
  · rintro ⟨_, e, he, register, covers, rfl⟩
    exact ⟨e, he, register, covers⟩
  · rintro ⟨e, he, register, covers⟩
    exact ⟨_, e, he, register, covers, rfl⟩

/-- A component of an output goes through the built-in of a system value. -/
def Routes (s : Signature) (producer : ShaderStage) (decls : List Declaration) (reg : UInt32)
    (c : Nat) (value : SystemValue) : Prop :=
  routesToBuiltin producer .output value = true ∧
    (value.isNumber = true → s.Heads decls reg c value)

/-- A component goes through the same built-ins on both sides, and through the location on both or
on neither. -/
structure Meets (s : Signature) (producer consumer : ShaderStage) (decls : List Declaration)
    (reg : UInt32) (c : Nat) : Prop where
  values : ∀ value, s.Tags reg c value →
    (s.Routes producer decls reg c value ↔ routesToBuiltin consumer .input value = true)
  location : (∀ value, s.Tags reg c value → routesToBuiltin consumer .input value = false) →
    ∀ value, s.Tags reg c value → routesToBuiltin producer .output value = false

/-- Something carries every component of an input. -/
theorem exists_sends (s : Signature) (stage : ShaderStage) (decls : List Declaration) (reg : UInt32)
    (c : Nat) : ∃ k, s.Sends stage .input decls reg c k := by
  by_cases user : ∀ value, s.Tags reg c value → routesToBuiltin stage .input value = false
  · exact ⟨_, .location user⟩
  · obtain ⟨value, tags, routes⟩ : ∃ value, s.Tags reg c value ∧
        routesToBuiltin stage .input value = true := by
      simpa using user
    rcases exists_carrier rfl routes with ⟨k, through⟩ | isDistance
    · exact ⟨k, .value tags routes through nofun⟩
    · obtain ⟨i, number⟩ := exists_mem_numbered.2 tags
      exact ⟨_, .distance isDistance routes number⟩

/-- What carries a system value is used for it. -/
theorem Sends.of_value {stage : ShaderStage} {side : Side} {k : Carrier} {value : SystemValue}
    (sends : s.Sends stage side decls reg c k) (is : k.value? = some value) :
    routesToBuiltin stage side value = true ∧
      (side = .output → value.isNumber = true → s.Heads decls reg c value) := by
  cases sends with
  | location user => cases is
  | distance isDistance routes number => cases is
  | value tags routes through heads =>
    obtain rfl := Option.some.inj (is.symm.trans (value?_of_carrier? through))
    exact ⟨routes, heads⟩

theorem Sends.of_location {stage : ShaderStage} {side : Side} {n : UInt32}
    (sends : s.Sends stage side decls reg c (.location n)) :
    n = reg ∧ ∀ value, s.Tags reg c value → routesToBuiltin stage side value = false := by
  cases sends with
  | location user => exact ⟨rfl, user⟩
  | value tags routes through heads => cases value?_of_carrier? through

/-- Control points go out through locations. -/
theorem sends_hull_output {k : Carrier} :
    s.Sends .hull .output decls reg c k ↔ k = .location reg := by
  constructor
  · rintro (_ | ⟨_, routes, _, _⟩ | ⟨_, routes, _⟩)
    · rfl
    · exact absurd routes Bool.false_ne_true
    · exact absurd routes Bool.false_ne_true
  · rintro rfl
    exact .location fun _ _ => rfl

/-- Adjacent stages agree on a component exactly if it meets itself. -/
theorem sends_iff (adjacent : producer.Precedes consumer)
    (own : ∀ value, s.Tags reg c value → value.isGenerated producer consumer = false) :
    (∀ k, s.Sends producer .output decls reg c k ↔ s.Sends consumer .input decls' reg c k) ↔
      s.Meets producer consumer decls reg c := by
  have same {value : SystemValue} (tags : s.Tags reg c value)
      (isDistance : value.isClipCull = true) :
      routesToBuiltin producer .output value = routesToBuiltin consumer .input value :=
    (routes_agree_iff adjacent (own value tags)).2 (isSplit_of_isClipCull isDistance)
  constructor
  · intro agree
    refine ⟨fun value tags => ⟨fun ⟨routes, heads⟩ => ?_, fun routes => ?_⟩, fun user => ?_⟩
    · rcases exists_carrier rfl routes with ⟨k, through⟩ | isDistance
      · have sends := (agree k).1 (.value tags routes through fun _ => heads)
        exact (sends.of_value (value?_of_carrier? through)).1
      · exact same tags isDistance ▸ routes
    · rcases exists_carrier rfl routes with ⟨k, through⟩ | isDistance
      · have sends := (agree k).2 (.value tags routes through nofun)
        obtain ⟨routes, heads⟩ := sends.of_value (value?_of_carrier? through)
        exact ⟨routes, heads rfl⟩
      · refine ⟨same tags isDistance ▸ routes, fun number => ?_⟩
        rw [isNumber_of_isClipCull isDistance] at number
        cases number
    · exact ((agree _).2 (.location user)).of_location.2
  · rintro ⟨values, location⟩ k
    constructor
    · rintro (user | ⟨tags, routes, through, heads⟩ | ⟨isDistance, routes, number⟩)
      · refine .location fun value tags => ?_
        rw [← Bool.not_eq_true]
        intro routes
        have sent := ((values value tags).2 routes).1
        rw [user value tags] at sent
        cases sent
      · exact .value tags ((values _ tags).1 ⟨routes, heads rfl⟩)
          (carrier_agree adjacent (own _ tags) routes through) nofun
      · have tags := exists_mem_numbered.1 ⟨_, number⟩
        exact .distance isDistance (same tags isDistance ▸ routes) number
    · rintro (user | @⟨value, _, tags, routes, through, _⟩ | ⟨isDistance, routes, number⟩)
      · exact .location (location user)
      · obtain ⟨sent, heads⟩ := (values value tags).2 routes
        rcases exists_carrier rfl sent with ⟨k', through'⟩ | isDistance
        · have there := carrier_agree adjacent (own value tags) sent through'
          obtain rfl := Option.some.inj (through.symm.trans there)
          exact .value tags sent through' fun _ => heads
        · cases value with
          | clipDistance | cullDistance => cases through
          | _ => cases isDistance
      · have tags := exists_mem_numbered.1 ⟨_, number⟩
        exact .distance isDistance ((same tags isDistance).symm ▸ routes) number

/-- A component none of whose values is split goes the same way on both sides, if it is the one from
which its numbers go out. -/
theorem meets_of_whole (adjacent : producer.Precedes consumer)
    (own : ∀ value, s.Tags reg c value → value.isGenerated producer consumer = false)
    (whole : ∀ value, s.Tags reg c value → value.isSplit producer consumer = false)
    (heads : ∀ value, s.Tags reg c value → value.isNumber = true → s.Heads decls reg c value) :
    s.Meets producer consumer decls reg c := by
  have same {value : SystemValue} (tags : s.Tags reg c value) :
      routesToBuiltin producer .output value = routesToBuiltin consumer .input value :=
    (routes_agree_iff adjacent (own value tags)).2 (whole value tags)
  refine ⟨fun value tags => ⟨fun ⟨routes, _⟩ => same tags ▸ routes, fun routes => ?_⟩,
    fun user value tags => (same tags).trans (user value tags)⟩
  exact ⟨(same tags).trans routes, heads value tags⟩

end Signature

namespace Lower

theorem begin_keeps : Keeps begin := by
  refine .bind .read fun env => .lift_bind fun extendedSet => .and_then ?_ <| .lift_bind fun _ =>
    .lift_bind fun entryPoint => .and_then ?_ <| .lift_bind fun _ => .ite ?_ (.pure ())
  · exact .modify (fun _ => ⟨rfl, rfl, rfl, rfl, rfl⟩) fun _ => rfl
  · exact .modify (fun _ => ⟨rfl, rfl, rfl, rfl, rfl⟩) fun _ => rfl
  · exact .bind (beginBody_keeps _) fun _ =>
      .modify (fun _ => ⟨rfl, rfl, rfl, rfl, rfl⟩) fun _ => rfl

end Lower

/-- At the start nothing is declared, and no phase has begun. -/
theorem Lowering.start_sums {env : Environment} {l : Lowering} (side : Side)
    (run : start env = .ok l) : Sums env side [] l.state ∧
      l.state.stage.inControlPointPhase = false ∧ l.environment = env := by
  obtain ⟨stage, known, begun, environment⟩ := start_eq_ok.1 run
  have kept := Lower.begin_keeps.of_ok begun
  refine ⟨.initial ?_, ?_, environment⟩
  · rw [kept.registers side]
    cases side <;> rfl
  · rw [State.inControlPointPhase_eq, kept.phase?]
    unfold StageState.initial? at known
    split at known
    all_goals cases known
    all_goals rfl

namespace Program

/-- A program whose instructions are all lowered, before its entry point is added. -/
def lowered (p : Program) (entries : SignatureEntries) (options : Options) :
    Except CompileError Lowering :=
  match p.instructions with
  | .error e => .error (.malformed e)
  | .ok insts => (Lowering.start (p.environment insts entries options)).bind (·.steps insts)

/-- A program declares all components of a signature on one side, by plain declarations. -/
structure DeclaresAll (p : Program) (side : Side) (s : Signature) : Prop where
  plain : ∀ inst ∈ p.decode.instructions, inst.IsPlainOn side
  all : ∀ reg c value, s.Tags reg c value →
    ∃ m, (side, reg, m) ∈ declarations p.stage false p.decode.instructions ∧ m.contains c = true

variable {p : Program} {entries : SignatureEntries} {options : Options} {l : Lowering}
  {side : Side} {s : Signature}

/-- A program declares a signature in full if it declares every component of every element. -/
theorem declaresAll_iff : p.DeclaresAll side s ↔
    (∀ inst ∈ p.decode.instructions, inst.IsPlainOn side) ∧
      ∀ e ∈ s.elements, ∀ c ∈ e.mask.components,
        ∃ d ∈ declarations p.stage false p.decode.instructions,
          d.1 = side ∧ d.2.1 = e.register ∧ d.2.2.contains c = true := by
  constructor
  · rintro ⟨plain, all⟩
    refine ⟨plain, fun e he c hc => ?_⟩
    obtain ⟨m, declared, covers⟩ := all _ c _ ⟨e, he, rfl, WriteMask.mem_components.1 hc, rfl⟩
    exact ⟨_, declared, rfl, rfl, covers⟩
  · rintro ⟨plain, all⟩
    refine ⟨plain, ?_⟩
    rintro _ c _ ⟨e, he, rfl, covers, rfl⟩
    obtain ⟨⟨_, _, m⟩, declared, rfl, rfl, has⟩ := all e he c (WriteMask.mem_components.2 covers)
    exact ⟨m, declared, has⟩

instance (p : Program) (side : Side) (s : Signature) : Decidable (p.DeclaresAll side s) :=
  decidable_of_iff _ declaresAll_iff.symm

theorem lowered_eq_ok : p.lowered entries options = .ok l ↔
    ∃ insts first, p.instructions = .ok insts ∧
      Lowering.start (p.environment insts entries options) = .ok first ∧
        first.steps insts = .ok l := by
  unfold lowered
  cases p.instructions with
  | error e =>
    constructor
    · intro h
      cases h
    · rintro ⟨_, _, h, _⟩
      cases h
  | ok insts =>
    dsimp only
    cases started : Lowering.start (p.environment insts entries options) with
    | error e =>
      constructor
      · intro h
        cases h
      · rintro ⟨_, _, h, started', _⟩
        cases h
        rw [started] at started'
        cases started'
    | ok first =>
      constructor
      · intro h
        exact ⟨insts, first, rfl, started, h⟩
      · rintro ⟨_, _, h, started', steps⟩
        cases h
        rw [started] at started'
        cases started'
        exact steps

theorem instructions_eq {insts : List Instruction} (decoded : p.instructions = .ok insts) :
    insts = p.decode.instructions := by
  unfold instructions at decoded
  split at decoded
  · cases decoded
  · cases decoded
    rfl

end Program

/-- What the first instructions of a program declare of a side. -/
theorem Lowering.sums_upTo {p : Program} {entries : SignatureEntries} {options : Options}
    {side : Side} {insts done : List Instruction} {first m : Lowering}
    (decoded : p.instructions = .ok insts) (behind : done <+: insts)
    (started : start (p.environment insts entries options) = .ok first)
    (ran : first.steps done = .ok m)
    (plain : ∀ inst ∈ p.decode.instructions, inst.IsPlainOn side) :
    Sums (p.environment insts entries options) side (declarations p.stage false done) m.state := by
  obtain ⟨sums, phase, environment⟩ := start_sums side started
  rw [← environment] at sums
  have families := fun inst mem => p.hasFamily decoded inst (behind.subset mem)
  have plain := fun inst mem => plain inst (Program.instructions_eq decoded ▸ behind.subset mem)
  obtain ⟨sums, _⟩ := first.steps_sums families plain sums ran
  rw [phase, environment] at sums
  exact sums

namespace Compiled

variable {p : Program} {entries : SignatureEntries} {options : Options} {artifact : Artifact}
  (e : Compiled p entries options artifact) {s : Signature} {side : Side} {reg : UInt32} {c : Nat}
  {value : SystemValue} {k : Carrier}

def env : Environment :=
  p.environment e.insts entries options

/-- What a component of an input register is copied from. -/
def sources (reg : UInt32) (c : Nat) : List Carrier :=
  e.state.sources e.env reg c

/-- What a component of an output register is copied to. -/
def targets (reg : UInt32) (c : Nat) : List Carrier :=
  e.state.targets e.env reg c

/-- What is declared on either side of the interface. -/
def declared : List Declaration :=
  declarations p.stage false e.insts

/-- An instruction puts out a vertex, and nothing is declared behind it. -/
def PutsWhole (m n : Lowering) (inst : Instruction) : Prop :=
  ∃ done, done ++ [inst] <+: e.insts ∧ e.first.steps done = .ok m ∧ m.step inst = (.ok (), n) ∧
    inst.putsVertex = true ∧ declarations p.stage false done = e.declared

/-- Closing a body declares nothing. -/
theorem tables_eq : e.sources = e.last.state.sources e.env ∧
    e.targets = e.last.state.targets e.env := by
  obtain ⟨_, _, same⟩ := Lower.closeBody_eq e.ends.closed
  unfold sources targets
  rw [same]
  exact ⟨rfl, rfl⟩

theorem lowered_last {l : Lowering} (lowers : p.lowered entries options = .ok l) :
    l = e.last ∧ l.environment = e.env := by
  obtain ⟨_, _, _, environment⟩ := Lowering.start_eq_ok.1 e.ends.started
  have last : p.lowered entries options = .ok e.last :=
    Program.lowered_eq_ok.2 ⟨_, _, e.decoded, e.ends.started, e.ends.stepped⟩
  obtain rfl := Except.ok.inj (lowers.symm.trans last)
  exact ⟨rfl, (Lowering.steps_environment e.ends.stepped).trans environment⟩

theorem sources_of_lowered {l : Lowering} (lowers : p.lowered entries options = .ok l) :
    l.state.sources l.environment reg c = e.sources reg c := by
  obtain ⟨rfl, environment⟩ := e.lowered_last lowers
  rw [environment, e.tables_eq.1]

theorem targets_of_lowered {l : Lowering} (lowers : p.lowered entries options = .ok l) :
    l.state.targets l.environment reg c = e.targets reg c := by
  obtain ⟨rfl, environment⟩ := e.lowered_last lowers
  rw [environment, e.tables_eq.2]

theorem sums (plain : ∀ inst ∈ p.decode.instructions, inst.IsPlainOn side) :
    Sums e.env side e.declared e.last.state :=
  Lowering.sums_upTo e.decoded (List.prefix_refl _) e.ends.started e.ends.stepped plain

/-- The components of a signature that a program declares in full come in as the signature says. -/
theorem mem_sources (declares : p.DeclaresAll .input s) (tags : s.Tags reg c value) :
    k ∈ e.sources reg c ↔
      (Signature.ofEntries entries.inputs).Sends p.stage .input e.declared reg c k := by
  obtain ⟨m, declared, covers⟩ := declares.all reg c value tags
  rw [← Program.instructions_eq e.decoded] at declared
  rw [e.tables_eq.1, (e.sums declares.plain).mem_sources declared covers]
  exact Signature.sends_withInterpolation

/-- The components of a signature that a program declares in full go out as the signature says. -/
theorem mem_targets (declares : p.DeclaresAll .output s) (tags : s.Tags reg c value) :
    k ∈ e.targets reg c ↔
      (Signature.ofEntries entries.outputs).Sends p.stage .output e.declared reg c k := by
  obtain ⟨m, declared, covers⟩ := declares.all reg c value tags
  rw [← Program.instructions_eq e.decoded] at declared
  rw [e.tables_eq.2, (e.sums declares.plain).mem_targets declared covers]
  rfl

/-- With a vertex a component goes out as it does in the end. -/
theorem mem_targets_of_puts (declares : p.DeclaresAll .output s) (tags : s.Tags reg c value)
    {m n : Lowering} {inst : Instruction} (puts : e.PutsWhole m n inst) :
    k ∈ m.state.targets e.env reg c ↔ k ∈ e.targets reg c := by
  obtain ⟨done, behind, ran, _, _, all⟩ := puts
  have sums := Lowering.sums_upTo e.decoded ((List.prefix_append _ _).trans behind)
    e.ends.started ran declares.plain
  obtain ⟨mask, declared, covers⟩ := declares.all reg c value tags
  rw [← Program.instructions_eq e.decoded] at declared
  rw [all] at sums
  exact (sums.mem_targets declared covers).trans (e.mem_targets declares tags).symm

theorem marked : e.lowering.state.Marked :=
  Shader.marked (x := p.shader e.decoded entries options) e.lowered

/-- Inputs come in from variables of the module. -/
theorem declares_source (mem : k ∈ e.sources reg c) : e.lowering.state.Declares .input k := by
  have taken : ∃ w μ ν, e.state.TakesIn w e.env e.lowering.state μ ν := by
    by_cases hull : p.stage = .hull
    · obtain ⟨h, _, runs⟩ := e.hull hull
      obtain ⟨ν, _, μ₁, _, _, _, taken, _⟩ := runs .idle (fun q _ => q.keepsNumber_idle) .initial
      exact ⟨_, _, _, taken⟩
    · obtain ⟨_, _, runs⟩ := e.body hull
      obtain ⟨ν, _, μ₁, _, taken, _⟩ := runs .idle .initial
      exact ⟨_, _, _, taken⟩
  obtain ⟨_, _, _, taken⟩ := taken
  exact taken.declares e.marked mem

/-- Outputs go out to variables of the module, unless that is done with each vertex. -/
theorem declares_target (declares : p.DeclaresAll .output s) (tags : s.Tags reg c value)
    (other : p.stage ≠ .geometry) (mem : k ∈ e.targets reg c) :
    e.lowering.state.Declares .output k := by
  by_cases hull : p.stage = .hull
  · have sends := (e.mem_targets declares tags).1 mem
    rw [hull] at sends
    obtain rfl := Signature.sends_hull_output.1 sends
    obtain ⟨m, declared, covers⟩ := declares.all reg c value tags
    rw [← Program.instructions_eq e.decoded] at declared
    have sums := e.sums declares.plain
    have user : ∀ value, e.env.outputs.Tags reg c value →
        routesToBuiltin e.env.stage .output value = false := fun value _ => by
      change routesToBuiltin p.stage .output value = false
      rw [hull]
      rfl
    obtain ⟨some_, _⟩ := Bool.and_eq_true_iff.1 ((sums.located_iff declared covers).2 user)
    obtain ⟨l, is⟩ := Option.isSome_iff_exists.1 some_
    have holds : e.state.holder? (.port (.register .output reg)) = some l.id := by
      obtain ⟨_, _, same⟩ := Lower.closeBody_eq e.ends.closed
      have located := State.located_of_register is
      rw [same]
      exact located
    have located := e.maintains.holder? holds
    exact ⟨l.id, located, e.marked.locates .output reg _ located⟩
  · obtain ⟨_, _, runs⟩ := e.body hull
    obtain ⟨ν, _, _, _, _, _, puts⟩ := runs .idle .initial
    rw [if_neg (show ¬(p.environment e.insts entries options).stage = .geometry from other)] at puts
    exact puts.declares e.marked mem

theorem declares_put {m n : Lowering} {inst : Instruction} (puts : e.PutsWhole m n inst)
    (mem : k ∈ m.state.targets e.env reg c) : n.state.Declares .output k := by
  obtain ⟨done, behind, ran, stepped, is, _⟩ := puts
  obtain ⟨κ, _, out⟩ := e.vertices m n inst ⟨⟨done, behind, ran⟩, stepped, is⟩ .idle .initial
  have ran' : e.first.steps (done ++ [inst]) = .ok n :=
    Lowering.steps_append.2 ⟨m, ran, Lowering.steps_cons.2 ⟨n, stepped, rfl⟩⟩
  obtain ⟨at_, stage, r, _, course, settled⟩ := Lowering.start_course e.ends.started
  obtain ⟨_, _, course, _⟩ := Lowering.steps_course at_ rfl settled course ran'
  exact out.declares course.recorded.marked mem

end Compiled

section Agreement

theorem exists_ok_of_isOk {α : Type} {a? : Except CompileError α} (h : a?.isOk = true) :
    ∃ a, a? = .ok a := by
  cases a? with
  | error e => cases h
  | ok a => exact ⟨a, rfl⟩

theorem exists_ok_of_toOption {α β : Type} {a? : Except CompileError α} {f : α → β} {b : β}
    (h : (a?.map f).toOption = some b) : ∃ a, a? = .ok a ∧ f a = b := by
  cases a? with
  | error e => cases h
  | ok a => exact ⟨a, rfl, Option.some.inj h⟩

variable {producer consumer : Program} {given taken : SignatureEntries}
  {producerOptions consumerOptions : Options} {produced consumed : Artifact}

/-- Two adjacent stages that share a signature agree on what a component is copied to and from
exactly if it goes through the same built-ins and locations; values are routed alike on both sides
unless they are split. What it is copied to and from has variables in the modules, decorated with
the location of the register or with the built-in. Geometry shaders copy with each vertex. -/
theorem carriers_agree_iff (adjacent : producer.stage.Precedes consumer.stage)
    (shared : taken.inputs = given.outputs)
    (compilesProducer : compile producer given producerOptions = .ok produced)
    (compilesConsumer : compile consumer taken consumerOptions = .ok consumed)
    (putsOut : producer.DeclaresAll .output (.ofEntries given.outputs))
    (takesIn : consumer.DeclaresAll .input (.ofEntries taken.inputs)) :
    ∃ (out : Compiled producer given producerOptions produced)
      (in_ : Compiled consumer taken consumerOptions consumed), ∀ reg c,
      (∃ value, (Signature.ofEntries given.outputs).Tags reg c value) →
      (∀ value, (Signature.ofEntries given.outputs).Tags reg c value →
        value.isGenerated producer.stage consumer.stage = false) →
      ((∀ k, k ∈ out.targets reg c ↔ k ∈ in_.sources reg c) ↔
        (Signature.ofEntries given.outputs).Meets producer.stage consumer.stage out.declared
          reg c) ∧
      (∀ value, (Signature.ofEntries given.outputs).Tags reg c value →
        (routesToBuiltin producer.stage .output value =
            routesToBuiltin consumer.stage .input value ↔
          value.isSplit producer.stage consumer.stage = false)) ∧
      (∃ k, k ∈ in_.sources reg c) ∧
      (∀ k ∈ in_.sources reg c, in_.lowering.state.Declares .input k) ∧
      (producer.stage ≠ .geometry →
        ∀ k ∈ out.targets reg c, out.lowering.state.Declares .output k) ∧
      ∀ m n inst, out.PutsWhole m n inst →
        (∀ k, k ∈ m.state.targets out.env reg c ↔ k ∈ out.targets reg c) ∧
          ∀ k ∈ out.targets reg c, n.state.Declares .output k := by
  have ⟨out⟩ := Program.exists_compiled compilesProducer adjacent.graphics.1
  have ⟨in_⟩ := Program.exists_compiled compilesConsumer adjacent.graphics.2
  refine ⟨out, in_, fun reg c tagged own => ?_⟩
  obtain ⟨value, tags⟩ := tagged
  have sentOut (k : Carrier) := out.mem_targets (k := k) putsOut tags
  have sentIn (k : Carrier) := in_.mem_sources (k := k) takesIn (shared ▸ tags)
  rw [shared] at sentIn
  refine ⟨?_, fun value tags => routes_agree_iff adjacent (own value tags), ?_,
    fun k mem => in_.declares_source mem,
    fun other k mem => out.declares_target putsOut tags other mem, fun m n inst puts => ?_⟩
  · simp only [sentOut, sentIn]
    exact Signature.sends_iff adjacent own
  · simp only [sentIn]
    exact Signature.exists_sends _ _ _ _ _
  · have same (k : Carrier) : k ∈ m.state.targets out.env reg c ↔ k ∈ out.targets reg c :=
      out.mem_targets_of_puts putsOut tags puts
    exact ⟨same, fun k mem => out.declares_put puts ((same k).2 mem)⟩

/-- Clip distances packed behind a texture coordinate, from a vertex to a pixel shader. -/
def packedDistances : List SignatureEntry :=
  [⟨"TEXCOORD", 0, 0, 0, 3, 0x3, 0x3, 0⟩, ⟨"SV_ClipDistance", 0, 0, 2, 3, 0xc, 0xc, 0⟩]

def distanceWriter : Program :=
  .assume [0x10050, 6, 0x03000065, 0x001020f2, 0, 0x0100003e]

def distanceReader : Program :=
  .assume [0x50, 9, 0x03000062, 0x00101032, 0, 0x03000062, 0x001010c2, 0, 0x0100003e]

theorem carriers_agree_packedDistances :
    ∃ produced consumed,
      compile distanceWriter ⟨[], packedDistances, []⟩ .default = .ok produced ∧
      compile distanceReader ⟨packedDistances, [], []⟩ .default = .ok consumed ∧
      ∃ (out : Compiled distanceWriter ⟨[], packedDistances, []⟩ .default produced)
        (in_ : Compiled distanceReader ⟨packedDistances, [], []⟩ .default consumed),
        (∀ k, k ∈ out.targets 0 3 ↔ k ∈ in_.sources 0 3) ∧ ∃ k, k ∈ in_.sources 0 3 := by
  have writes : (compile distanceWriter ⟨[], packedDistances, []⟩ .default).isOk = true := by
    decide +kernel
  have reads : (compile distanceReader ⟨packedDistances, [], []⟩ .default).isOk = true := by
    decide +kernel
  obtain ⟨produced, compilesWriter⟩ := exists_ok_of_isOk writes
  obtain ⟨consumed, compilesReader⟩ := exists_ok_of_isOk reads
  have own : ∀ value, (Signature.ofEntries packedDistances).Tags 0 3 value →
      value.isGenerated .vertex .pixel = false := Signature.forall_tags_iff.2 (by decide +kernel)
  have whole : ∀ value, (Signature.ofEntries packedDistances).Tags 0 3 value →
      value.isSplit .vertex .pixel = false := Signature.forall_tags_iff.2 (by decide +kernel)
  have plain : ∀ value, (Signature.ofEntries packedDistances).Tags 0 3 value →
      value.isNumber = false := Signature.forall_tags_iff.2 (by decide +kernel)
  obtain ⟨out, in_, agrees⟩ := carriers_agree_iff .vertexPixel rfl compilesWriter compilesReader
    (by decide +kernel) (by decide +kernel)
  obtain ⟨iff, _, some_, _⟩ := agrees 0 3 (Signature.exists_tags_iff.2 (by decide +kernel)) own
  refine ⟨produced, consumed, compilesWriter, compilesReader, out, in_, iff.2 ?_, some_⟩
  exact Signature.meets_of_whole .vertexPixel own whole fun value tags number =>
    absurd (number.symm.trans (plain value tags)) Bool.noConfusion

/-- The number of a primitive, from a geometry to a pixel shader. -/
def primitiveNumber : List SignatureEntry :=
  [⟨"SV_PrimitiveID", 0, 0, 7, 1, 0x1, 0x1, 0⟩]

def numberWriter : Program :=
  .assume [0x20050, 9, 0x0100185d, 0x0100285c, 0x0200005e, 3, 0x03000065, 0x00102012, 0, 0x0100003e]

def numberReader : Program :=
  .assume [0x50, 6, 0x03000062, 0x00101012, 0, 0x0100003e]

/-- A primitive number declared in full on both sides goes out through a location, and pixel shaders
do not read that location. -/
theorem carriers_split_primitiveNumber :
    numberWriter.stage.Precedes numberReader.stage ∧
      numberWriter.DeclaresAll .output (.ofEntries primitiveNumber) ∧
      numberReader.DeclaresAll .input (.ofEntries primitiveNumber) ∧
      SystemValue.isGenerated .geometry .pixel .primitiveId = false ∧
      ∃ produced consumed,
        compile numberWriter ⟨[], primitiveNumber, []⟩ .default = .ok produced ∧
        compile numberReader ⟨primitiveNumber, [], []⟩ .default = .ok consumed ∧
        ∃ (out : Compiled numberWriter ⟨[], primitiveNumber, []⟩ .default produced)
          (in_ : Compiled numberReader ⟨primitiveNumber, [], []⟩ .default consumed),
          out.targets 0 0 = [.location 0] ∧ in_.sources 0 0 = [.builtin .primitiveId] := by
  have writes : (compile numberWriter ⟨[], primitiveNumber, []⟩ .default).isOk = true := by
    decide +kernel
  have reads : (compile numberReader ⟨primitiveNumber, [], []⟩ .default).isOk = true := by
    decide +kernel
  obtain ⟨produced, compilesWriter⟩ := exists_ok_of_isOk writes
  obtain ⟨consumed, compilesReader⟩ := exists_ok_of_isOk reads
  have ⟨out⟩ := Program.exists_compiled compilesWriter (by decide)
  have ⟨in_⟩ := Program.exists_compiled compilesReader (by decide)
  have sent : ((numberWriter.lowered ⟨[], primitiveNumber, []⟩ .default).map fun l =>
      l.state.targets l.environment 0 0).toOption = some [.location 0] := by decide +kernel
  have taken : ((numberReader.lowered ⟨primitiveNumber, [], []⟩ .default).map fun l =>
      l.state.sources l.environment 0 0).toOption = some [.builtin .primitiveId] := by
    decide +kernel
  obtain ⟨l, lowers, sent⟩ := exists_ok_of_toOption sent
  obtain ⟨l', lowers', taken⟩ := exists_ok_of_toOption taken
  exact ⟨.geometryPixel, by decide +kernel, by decide +kernel, rfl, produced, consumed,
    compilesWriter, compilesReader, out, in_, out.targets_of_lowered lowers ▸ sent,
    in_.sources_of_lowered lowers' ▸ taken⟩

end Agreement

end ShaderLowering
