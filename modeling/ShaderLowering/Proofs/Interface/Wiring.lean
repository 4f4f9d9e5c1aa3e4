import ShaderLowering.Proofs.Interface.Adjacent

/-!
How entry points connect the registers of a shader with the variables of its interface.

A hull shader without a control-point phase copies each register of its input signature from a
location to the same location of its outputs. A shader that declares the signature and copies the
registers itself sends them out through the same locations, but takes system values that the stage
routes from built-ins.

Clip and cull distances are numbered through the components of a signature, and each number is an
element of an array. The numbers agree in the length of the array, in the copies of inputs, and in
the copies of outputs, be they made at the end or with each vertex.
-/

namespace ShaderLowering

open Spirv (Id World Invocation BuiltIn StorageClass Module)

theorem exists_of_mem_phasesOf {insts : List Instruction} {p : PhaseKind × UInt32}
    (mem : p ∈ phasesOf insts) : ∃ inst ∈ insts, inst.phase? = some p.1 := by
  induction insts with
  | nil => cases mem
  | cons inst rest ih =>
    rcases List.mem_append.1 mem with first | later
    · obtain ⟨kind, is, rfl⟩ := Option.map_eq_some_iff.1 (Option.mem_toList.1 first)
      exact ⟨inst, List.mem_cons_self, is⟩
    · obtain ⟨other, listed, is⟩ := ih later
      exact ⟨other, List.mem_cons_of_mem _ listed, is⟩

/-- A program without a control-point phase has no function for it. -/
theorem HullState.Knows.controlPoint?_eq_none {h : HullState} {bodies : List PhaseBody}
    {insts : List Instruction} (knows : h.Knows bodies)
    (all : bodies.map PhaseBody.summary = phasesOf insts)
    (passes : ∀ inst ∈ insts, inst.phase? ≠ some .controlPoint) : h.controlPoint? = none := by
  have none_ : bodiesOf .controlPoint bodies = [] := by
    refine List.filter_eq_nil_iff.2 fun b listed is => ?_
    have summary : b.summary ∈ phasesOf insts := all ▸ List.mem_map_of_mem listed
    obtain ⟨inst, mem, phase⟩ := exists_of_mem_phasesOf summary
    exact passes inst mem (phase.trans (congrArg some (of_decide_eq_true is)))
  have point := knows.controlPoint
  rw [none_] at point
  exact Option.toList_eq_nil_iff.1 point

namespace Lower

theorem mem_signatureRegisters {s : Signature} {e : SignatureElement} (mem : e ∈ s.elements) :
    e.register ∈ (signatureRegisters s).map (·.1) := by
  -- Registers that are there stay, so the induction is on the elements for any beginning.
  have collects {f : List (UInt32 × WriteMask) → SignatureElement → List (UInt32 × WriteMask)}
      (keeps : ∀ acc e reg, reg ∈ acc.map (·.1) ∨ e.register = reg → reg ∈ (f acc e).map (·.1))
      (es : List SignatureElement) (acc : List (UInt32 × WriteMask)) (reg : UInt32)
      (is : reg ∈ acc.map (·.1) ∨ ∃ e ∈ es, e.register = reg) :
      reg ∈ (es.foldl f acc).map (·.1) := by
    induction es generalizing acc with
    | nil => exact is.resolve_right fun ⟨_, none_, _⟩ => absurd none_ List.not_mem_nil
    | cons first rest ih =>
      refine ih _ ?_
      rcases is with old | ⟨e, listed, same⟩
      · exact .inl (keeps acc first reg (.inl old))
      · rcases List.mem_cons.1 listed with rfl | listed
        · exact .inl (keeps acc e reg (.inr same))
        · exact .inr ⟨e, listed, same⟩
  refine collects (fun acc e reg is => ?_) s.elements [] e.register (.inr ⟨e, mem, rfl⟩)
  dsimp only
  split
  · next there =>
    rw [List.map_map]
    change reg ∈ acc.map (·.1)
    rcases is with old | rfl
    · exact old
    · obtain ⟨p, held, is⟩ := List.any_eq_true.1 there
      exact of_decide_eq_true is ▸ List.mem_map_of_mem held
  · rw [List.map_append]
    rcases is with old | rfl
    · exact List.mem_append_left _ old
    · exact List.mem_append_right _ (List.mem_singleton.2 rfl)

/-- Every register of the signature is passed on that there is. -/
theorem mem_passedRegisters {env : Environment} {reg : UInt32} {c : Nat} {value : SystemValue}
    (small : reg.toNat < maxInterfaceRegisters) (tags : env.inputs.Tags reg c value) :
    reg ∈ passedRegisters env := by
  obtain ⟨e, mem, rfl, _⟩ := tags
  exact List.mem_filter.2 ⟨mem_signatureRegisters mem, decide_eq_true small⟩

end Lower

/-- Nothing but a location carries an input exactly if none of its values is routed. -/
theorem Signature.forall_sends_input_iff {s : Signature} {stage : ShaderStage}
    {decls : List Declaration} {reg : UInt32} {c : Nat} :
    (∀ k, s.Sends stage .input decls reg c k ↔ k = .location reg) ↔
      ∀ value, s.Tags reg c value → routesToBuiltin stage .input value = false := by
  constructor
  · intro only
    exact ((only _).2 rfl).of_location.2
  · intro user k
    constructor
    · rintro (_ | ⟨tags, routes, _⟩ | ⟨_, routes, number⟩)
      · rfl
      · exact absurd (routes.symm.trans (user _ tags)) Bool.noConfusion
      · have tags := exists_mem_numbered.1 ⟨_, number⟩
        exact absurd (routes.symm.trans (user _ tags)) Bool.noConfusion
    · rintro rfl
      exact .location user

/-- A register is passed on, from a variable at its location to another one there. -/
structure Lowering.PassesOn (l : Lowering) (env : Environment) (reg : UInt32) : Prop where
  passed : reg ∈ Lower.passedRegisters env
  input : ∃ id, l.state.located .input reg = some id ∧ l.state.Locates id reg
  output : ∃ id, l.state.located .output reg = some id ∧ l.state.Locates id reg

namespace Compiled

variable {p : Program} {entries : SignatureEntries} {options : Options} {artifact : Artifact}
  (e : Compiled p entries options artifact) {reg : UInt32}

/-- Without a control-point phase there is no function for it. -/
theorem passes_through (hull : p.stage = .hull)
    (passes : ∀ inst ∈ e.insts, inst.phase? ≠ some .controlPoint) :
    ∃ h, e.lowering.state.stage = .hull h ∧ h.controlPoint? = none := by
  let x : Shader := p.shader e.decoded entries options
  obtain ⟨_, _, _, h, bodies, _, _, _, stage, knows, all, _⟩ :=
    Shader.exists_run (x := x) hull (Program.counted ..) (p.hasFamily e.decoded) e.lowered
  exact ⟨h, stage, knows.controlPoint?_eq_none all passes⟩

/-- Every register that is passed on has a variable on either side. -/
theorem passesOn {h : HullState} (hull : p.stage = .hull) (is : e.lowering.state.stage = .hull h)
    (none_ : h.controlPoint? = none) (mem : reg ∈ Lower.passedRegisters e.env) :
    e.lowering.PassesOn e.env reg := by
  obtain ⟨h', is', runs⟩ := e.hull hull
  cases is.symm.trans is'
  -- The copies are there whatever the world does, so any world shows their variables.
  obtain ⟨_, _, _, _, _, _, _, point, _⟩ := runs .idle (fun p _ => p.keepsNumber_idle) .initial
  rw [HullState.RunsPoint, none_] at point
  obtain ⟨_, _, copied⟩ := point
  obtain ⟨⟨p, source⟩, q, target⟩ := copied.exists_places mem
  obtain ⟨a, from_, -⟩ := Option.map_eq_some_iff.1 source
  obtain ⟨b, into, -⟩ := Option.map_eq_some_iff.1 target
  have located {side : Side} {v : LocationVariable}
      (is : e.lowering.state.inventory.location? side reg = some v) :
      e.lowering.state.located side reg = some v.id := by
    rw [State.located_inventory, is]
    rfl
  exact ⟨mem, ⟨_, located from_, e.marked.locates .input reg _ (located from_)⟩, _, located into,
    e.marked.locates .output reg _ (located into)⟩

end Compiled

section PassThrough

variable {p q : Program} {entries : SignatureEntries} {options options' : Options}
  {artifact artifact' : Artifact} {insts : List Instruction}

/-- A hull shader without a control-point phase copies each register of its input signature, as a
whole, from a location to the same location of its outputs. A hull shader that declares the
signature on both sides puts out its components through the same locations. It takes them in from
there exactly if they have no system value that the stage routes from built-ins. -/
theorem passThrough_agrees_iff (compiles : compile p entries options = .ok artifact)
    (decoded : p.instructions = .ok insts) (hull : p.stage = .hull)
    (passes : ∀ inst ∈ insts, inst.phase? ≠ some .controlPoint)
    (compiles' : compile q entries options' = .ok artifact') (hull' : q.stage = .hull)
    (takesIn : q.DeclaresAll .input (.ofEntries entries.inputs))
    (putsOut : q.DeclaresAll .output (.ofEntries entries.inputs)) :
    ∃ (through : Compiled p entries options artifact)
      (explicit : Compiled q entries options' artifact') (h : HullState),
      through.lowering.state.stage = .hull h ∧ h.controlPoint? = none ∧
      ∀ reg c, reg.toNat < maxInterfaceRegisters →
        (∃ value, (Signature.ofEntries entries.inputs).Tags reg c value) →
          through.lowering.PassesOn through.env reg ∧
          (∀ k, k ∈ explicit.targets reg c ↔ k = .location reg) ∧
          explicit.lowering.state.Declares .output (.location reg) ∧
          (∀ k ∈ explicit.sources reg c, explicit.lowering.state.Declares .input k) ∧
          ((∀ k, k ∈ explicit.sources reg c ↔ k = .location reg) ↔
            ∀ value, (Signature.ofEntries entries.inputs).Tags reg c value →
              routesToBuiltin .hull .input value = false) := by
  have graphics {r : Program} (is : r.stage = .hull) : r.stage ≠ .compute := by
    rw [is]
    nofun
  have ⟨through⟩ := Program.exists_compiled compiles (graphics hull)
  have ⟨explicit⟩ := Program.exists_compiled compiles' (graphics hull')
  obtain rfl : insts = through.insts := Except.ok.inj (decoded.symm.trans through.decoded)
  obtain ⟨h, stage, none_⟩ := through.passes_through hull passes
  refine ⟨through, explicit, h, stage, none_, fun reg c small tagged => ?_⟩
  obtain ⟨value, tags⟩ := tagged
  have mem : reg ∈ Lower.passedRegisters through.env :=
    Lower.mem_passedRegisters small (Signature.tags_withInterpolation.2 tags)
  have sentIn (k : Carrier) := explicit.mem_sources (k := k) takesIn tags
  have sentOut (k : Carrier) := explicit.mem_targets (k := k) putsOut tags
  rw [hull'] at sentIn sentOut
  have out (k : Carrier) : k ∈ explicit.targets reg c ↔ k = .location reg :=
    (sentOut k).trans Signature.sends_hull_output
  refine ⟨through.passesOn hull stage none_ mem, out, ?_, fun k => explicit.declares_source, ?_⟩
  · exact explicit.declares_target putsOut tags (by rw [hull']; nofun) ((out _).2 rfl)
  · simp only [sentIn]
    exact Signature.forall_sends_input_iff

/-- A hull shader that has only its declarations. -/
def passesThrough : Program :=
  .assume [0x30050, 3, 0x01000071]

/-- A hull shader that copies its control points itself. -/
def copiesItself : Program :=
  .assume [0x30050, 18, 0x01000071, 0x01000072, 0x0400005f, 0x002010f2, 32, 0, 0x03000065,
    0x001020f2, 0, 0x06000036, 0x001020f2, 0, 0x00a01e46, 0x00016001, 0, 0x0100003e]

/-- A value of the user. -/
def coordinate : List SignatureEntry :=
  [⟨"TEXCOORD", 0, 0, 0, 3, 0xf, 0xf, 0⟩]

theorem passThrough_agrees_coordinate :
    ∃ artifact artifact',
      compile passesThrough ⟨coordinate, coordinate, []⟩ .default = .ok artifact ∧
      compile copiesItself ⟨coordinate, coordinate, []⟩ .default = .ok artifact' ∧
      ∃ (through : Compiled passesThrough ⟨coordinate, coordinate, []⟩ .default artifact)
        (explicit : Compiled copiesItself ⟨coordinate, coordinate, []⟩ .default artifact')
        (h : HullState), through.lowering.state.stage = .hull h ∧ h.controlPoint? = none ∧
        through.lowering.PassesOn through.env 0 ∧
        ∀ k, k ∈ explicit.sources 0 3 ↔ k = .location 0 := by
  obtain ⟨artifact, insts, _, compiles, _, _, decoded, passes⟩ :=
    exists_compile passesThrough ⟨coordinate, coordinate, []⟩ .default (fun insts _ _ =>
      decide (∀ inst ∈ insts, inst.phase? ≠ some .controlPoint)) (by decide +kernel)
  obtain ⟨artifact', compiles'⟩ := exists_ok_of_isOk
    (show (compile copiesItself ⟨coordinate, coordinate, []⟩ .default).isOk = true by
      decide +kernel)
  obtain ⟨through, explicit, h, stage, none_, agrees⟩ :=
    passThrough_agrees_iff compiles decoded (by decide) (of_decide_eq_true passes) compiles'
      (by decide) (by decide +kernel) (by decide +kernel)
  obtain ⟨passed, _, _, _, iff⟩ :=
    agrees 0 3 (by decide) (Signature.exists_tags_iff.2 (by decide +kernel))
  exact ⟨artifact, artifact', compiles, compiles', through, explicit, h, stage, none_, passed,
    iff.2 (Signature.forall_tags_iff.2 (by decide +kernel))⟩

/-- A position. -/
def positions : List SignatureEntry :=
  [⟨"SV_Position", 0, 0, 1, 3, 0xf, 0xf, 0⟩]

/-- Positions are passed through from a location, and taken in from a built-in, for each vertex. -/
theorem exists_not_agrees :
    copiesItself.DeclaresAll .input (.ofEntries positions) ∧
      copiesItself.DeclaresAll .output (.ofEntries positions) ∧
      ∃ artifact artifact',
        compile passesThrough ⟨positions, positions, []⟩ .default = .ok artifact ∧
        compile copiesItself ⟨positions, positions, []⟩ .default = .ok artifact' ∧
        ∃ (through : Compiled passesThrough ⟨positions, positions, []⟩ .default artifact)
          (explicit : Compiled copiesItself ⟨positions, positions, []⟩ .default artifact')
          (h : HullState), through.lowering.state.stage = .hull h ∧ h.controlPoint? = none ∧
          through.lowering.PassesOn through.env 0 ∧
          explicit.sources 0 0 = List.replicate 32 (.builtin .position) := by
  have takenIn : ((copiesItself.lowered ⟨positions, positions, []⟩ .default).map fun l =>
      l.state.sources l.environment 0 0).toOption =
        some (List.replicate 32 (.builtin .position)) := by
    decide +kernel
  obtain ⟨l, lowers, taken⟩ := exists_ok_of_toOption takenIn
  obtain ⟨artifact, insts, _, compiles, _, _, decoded, passes⟩ :=
    exists_compile passesThrough ⟨positions, positions, []⟩ .default (fun insts _ _ =>
      decide (∀ inst ∈ insts, inst.phase? ≠ some .controlPoint)) (by decide +kernel)
  obtain ⟨artifact', compiles'⟩ := exists_ok_of_isOk
    (show (compile copiesItself ⟨positions, positions, []⟩ .default).isOk = true by
      decide +kernel)
  have ⟨through⟩ := Program.exists_compiled compiles (by decide)
  have ⟨explicit⟩ := Program.exists_compiled compiles' (by decide)
  obtain rfl : insts = through.insts := Except.ok.inj (decoded.symm.trans through.decoded)
  obtain ⟨h, stage, none_⟩ := through.passes_through (by decide) (of_decide_eq_true passes)
  obtain ⟨value, tags⟩ : ∃ value, (Signature.ofEntries positions).Tags 0 0 value :=
    Signature.exists_tags_iff.2 (by decide +kernel)
  have mem : 0 ∈ Lower.passedRegisters through.env :=
    Lower.mem_passedRegisters (by decide) (Signature.tags_withInterpolation.2 tags)
  exact ⟨by decide +kernel, by decide +kernel, artifact, artifact', compiles, compiles', through,
    explicit, h, stage, none_, through.passesOn (by decide) stage none_ mem,
    explicit.sources_of_lowered lowers ▸ taken⟩

end PassThrough

namespace WriteMask

/-- All components of one mask come before those of another. -/
def IsLeftOf (a b : WriteMask) : Prop :=
  ∀ c ∈ a.components, ∀ d ∈ b.components, c < d

theorem pairwise_components (m : WriteMask) : m.components.Pairwise (· < ·) :=
  List.pairwise_lt_range.filter _

/-- A mask that is not empty has its first component. -/
theorem first_mem_components {m : WriteMask} {c : Nat} (mem : c ∈ m.components) :
    m.first?.getD 4 ∈ m.components := by
  unfold first?
  cases components : m.components with
  | nil => exact absurd (components ▸ mem) List.not_mem_nil
  | cons first rest => exact List.mem_cons_self

end WriteMask

/-- Masks in order: by register, and on one register by first component. -/
def Ahead (a b : UInt32 × WriteMask) : Prop :=
  a.1 < b.1 ∨ a.1 = b.1 ∧ a.2.first?.getD 4 ≤ b.2.first?.getD 4

namespace Ahead

variable {a b c : UInt32 × WriteMask}

theorem le (h : Ahead a b) : a.1 ≤ b.1 := by
  rcases h with less | ⟨same, _⟩
  · exact UInt32.le_of_lt less
  · exact UInt32.le_of_eq same

theorem trans (h : Ahead a b) (h' : Ahead b c) : Ahead a c := by
  rcases h with less | ⟨same, first⟩
  · exact .inl (UInt32.lt_of_lt_of_le less h'.le)
  · rcases h' with less | ⟨same', first'⟩
    · exact .inl (same ▸ less)
    · exact .inr ⟨same.trans same', Nat.le_trans first first'⟩

/-- What is ahead is on the left where it does not interleave. -/
theorem isLeftOf (h : Ahead a b) (same : a.1 = b.1)
    (separate : a.2.IsLeftOf b.2 ∨ b.2.IsLeftOf a.2) : a.2.IsLeftOf b.2 := by
  intro c hc d hd
  rcases separate with left | right
  · exact left c hc d hd
  · have less := right _ (WriteMask.first_mem_components hd) _ (WriteMask.first_mem_components hc)
    rcases h with other | ⟨_, first⟩
    · exact absurd (same ▸ other) (UInt32.lt_irrefl _)
    · exact absurd first (Nat.not_le.2 less)

end Ahead

namespace SignatureElement

variable {a b : SignatureElement}

/-- The place of an element, without its stream. -/
def place (e : SignatureElement) : UInt32 × WriteMask :=
  (e.register, e.mask)

theorem ahead_of_before (h : a.before b = true) : Ahead a.place b.place := by
  unfold before at h
  rcases Bool.or_eq_true_iff.1 h with less | on
  · exact .inl (of_decide_eq_true less)
  · obtain ⟨same, first⟩ := Bool.and_eq_true_iff.1 on
    refine .inr ⟨of_decide_eq_true same, ?_⟩
    rcases Bool.or_eq_true_iff.1 first with less | equal
    · exact Nat.le_of_lt (of_decide_eq_true less)
    · exact Nat.le_of_eq (of_decide_eq_true (Bool.and_eq_true_iff.1 equal).1)

theorem ahead_of_not_before (h : ¬a.before b = true) : Ahead b.place a.place := by
  unfold before at h
  have notLess : ¬a.register < b.register := fun less =>
    h (Bool.or_eq_true_iff.2 (.inl (decide_eq_true less)))
  rcases UInt32.lt_or_eq_of_le (UInt32.not_lt.1 notLess) with less | same
  · exact .inl less
  · refine .inr ⟨same, Nat.not_lt.1 fun less => h ?_⟩
    exact Bool.or_eq_true_iff.2 (.inr (Bool.and_eq_true_iff.2
      ⟨decide_eq_true same.symm, Bool.or_eq_true_iff.2 (.inl (decide_eq_true less))⟩))

end SignatureElement

namespace Signature

/-- An element stays in order when it is put where it belongs. -/
theorem pairwise_insertElement {e : SignatureElement} {l : List SignatureElement}
    (sorted : l.Pairwise fun a b => Ahead a.place b.place) :
    (insertElement e l).Pairwise fun a b => Ahead a.place b.place := by
  induction l with
  | nil => exact List.pairwise_singleton _ _
  | cons f rest ih =>
    obtain ⟨first, others⟩ := List.pairwise_cons.1 sorted
    unfold insertElement
    split
    · next before =>
      refine List.pairwise_cons.2 ⟨fun g mem => ?_, ih others⟩
      rcases mem_insertElement mem with rfl | mem
      · exact SignatureElement.ahead_of_before before
      · exact first g mem
    · next notBefore =>
      have ahead := SignatureElement.ahead_of_not_before notBefore
      refine List.pairwise_cons.2 ⟨fun g mem => ?_, sorted⟩
      rcases List.mem_cons.1 mem with rfl | mem
      · exact ahead
      · exact ahead.trans (first g mem)

theorem pairwise_ofEntries (entries : List SignatureEntry) :
    (ofEntries entries).elements.Pairwise fun a b => Ahead a.place b.place := by
  unfold ofEntries
  induction entries.map SignatureElement.ofEntry with
  | nil => exact .nil
  | cons e rest ih => exact pairwise_insertElement ih

theorem pairwise_layoutOf (entries : List SignatureEntry) (value : SystemValue) :
    ((ofEntries entries).layoutOf value).Pairwise Ahead :=
  List.pairwise_map.2 ((pairwise_ofEntries entries).filter _)

/-- No element with a system value has a component between those of another one. -/
def Separates (s : Signature) (value : SystemValue) : Prop :=
  (s.layoutOf value).Pairwise fun a b => a.1 = b.1 → a.2.IsLeftOf b.2 ∨ b.2.IsLeftOf a.2

/-- The tagged components come register by register. On a register they come one by one, but for
elements that interleave, which come one after another. -/
structure Orders (s : Signature) (value : SystemValue) : Prop where
  layout : (s.layoutOf value).Pairwise Ahead
  registers : (s.tagged value).Pairwise fun a b => a.1 ≤ b.1
  components : s.Separates value →
    (s.tagged value).Pairwise fun a b => a.1 < b.1 ∨ a.1 = b.1 ∧ a.2 < b.2

theorem orders_of_layout {s : Signature} {value : SystemValue}
    (sorted : (s.layoutOf value).Pairwise Ahead) : s.Orders value := by
  refine ⟨sorted, List.pairwise_flatMap.2 ⟨fun p _ => ?_, ?_⟩,
    fun separate => List.pairwise_flatMap.2 ⟨fun p _ => ?_, ?_⟩⟩
  · exact List.pairwise_map.2 (List.pairwise_of_forall fun _ _ => UInt32.le_refl _)
  · refine sorted.imp fun ahead x hx y hy => ?_
    obtain ⟨_, _, rfl⟩ := List.mem_map.1 hx
    obtain ⟨_, _, rfl⟩ := List.mem_map.1 hy
    exact ahead.le
  · exact List.pairwise_map.2 (p.2.pairwise_components.imp fun less => .inr ⟨rfl, less⟩)
  · refine (sorted.and separate).imp fun both x hx y hy => ?_
    obtain ⟨ahead, apart⟩ := both
    obtain ⟨c, hc, rfl⟩ := List.mem_map.1 hx
    obtain ⟨d, hd, rfl⟩ := List.mem_map.1 hy
    rcases UInt32.lt_or_eq_of_le ahead.le with less | same
    · exact .inl less
    · exact .inr ⟨same, ahead.isLeftOf same (apart same) c hc d hd⟩

end Signature

/-- The distances with the built-ins that they go through. -/
def distances : List (SystemValue × BuiltIn) :=
  [(.clipDistance, .clipDistance), (.cullDistance, .cullDistance)]

/-- An array of distances that are put out has an element for each component of the signature with
that system value. -/
def State.SizesDistances (s : State) (env : Environment) : Prop :=
  ∀ value builtin b, (value, builtin) ∈ distances →
    s.builtins.lookup (builtin, .output) = some b → 0 < env.outputs.componentsOf value →
      b.length = env.outputs.componentsOf value ∧
        s.builder.module.Houses b.id .output
          (.array (.ofNat (env.outputs.componentsOf value)) (.vector (.single .f32)))

/-- The arrays of the distances that a stage puts out are there. -/
def State.HasDistances (s : State) (env : Environment) : Prop :=
  ∀ value builtin, (value, builtin) ∈ distances →
    routesToBuiltin env.stage .output value = true → 0 < env.outputs.componentsOf value →
      ∃ b, s.builtins.lookup (builtin, .output) = some b

/-- Outputs are copied to arrays that are there. -/
theorem State.PutsOut.hasDistances {env : Environment} {s u : State} {μ ν : Invocation}
    (h : s.PutsOut env u μ ν) : u.HasDistances env := by
  intro value builtin among routes some_
  have copies {κ κ' : Invocation}
      (copied : (Lower.distanceOutputs builtin).Copied u (Lower.outputItems env value) κ κ') :
      ∃ b, u.builtins.lookup (builtin, .output) = some b := by
    rw [Lower.outputItems, if_pos routes] at copied
    have length : (env.outputs.numbered value).length = env.outputs.componentsOf value := by
      rw [Signature.numbered, List.length_map, List.length_zipIdx, Signature.length_tagged]
    obtain ⟨_, q, target⟩ := copied.exists_places (List.getElem_mem (length ▸ some_))
    obtain ⟨b, found, _⟩ := Option.map_eq_some_iff.1 target
    exact ⟨b, found⟩
  obtain ⟨_, _, _, clips, culls⟩ := h
  rcases List.mem_pair.1 among with same | same <;> cases same
  · exact copies clips
  · exact copies culls

section Shader

variable {x : Shader} {v : VertexCounts} {s : State} {l : Lowering}

theorem Shader.Invariant.sizesDistances (known : x.Invariant v s) (counted : x.env.Counted) :
    s.SizesDistances x.env := by
  intro value builtin b among found some_
  have made := known.tables.builtins _ (Lower.mem_of_lookup found)
  have shape := made.shape
  have none_ : b.vertices = 0 := by
    have vertices := made.vertices
    unfold Shader.BuiltinVertices at vertices
    rwa [if_neg (by rw [Lower.isPerVertex]; exact Bool.false_ne_true)] at vertices
  have is : (b.type, b.length) = (.single .f32, x.env.outputs.componentsOf value) := by
    rw [shape]
    rcases List.mem_pair.1 among with same | same <;> cases same
    all_goals
      unfold Lower.builtinShape
      rw [counted.outputs]
      exact congrArg (Prod.mk _) (Nat.max_eq_left some_)
  obtain ⟨type, length⟩ := Prod.mk.inj is
  have houses := made.houses
  rw [none_, type, length, Shape.arrayOf, Shape.arrayOf, if_pos rfl, if_neg (Nat.ne_of_gt some_)]
    at houses
  exact ⟨length, houses⟩

end Shader

/-- With each vertex distances are copied to arrays of their sizes. -/
theorem Compiled.putsVertex_sizes {p : Program} {entries : SignatureEntries} {options : Options}
    {artifact : Artifact} (e : Compiled p entries options artifact) {m n : Lowering}
    {inst : Instruction} (puts : Lowering.PutsVertex e.insts e.first m n inst) :
    n.state.SizesDistances e.env ∧ n.state.HasDistances e.env := by
  obtain ⟨_, _, outputs⟩ := e.vertices m n inst puts .idle .initial
  obtain ⟨⟨done, behind, ran⟩, stepped, _⟩ := puts
  have ran' : e.first.steps (done ++ [inst]) = .ok n :=
    Lowering.steps_append.2 ⟨m, ran, Lowering.steps_cons.2 ⟨n, stepped, rfl⟩⟩
  have known := Lowering.invariant_upTo (x := p.shader e.decoded entries options) behind
    e.ends.started ran'
  exact ⟨known.sizesDistances (Program.counted ..), outputs.hasDistances⟩

section Distances

variable {p : Program} {entries : SignatureEntries} {options : Options} {artifact : Artifact}
  {insts : List Instruction}

/-- Distances are numbered through the components of a signature that are tagged with them, in its
order, for inputs and outputs alike. Each array of distances that are put out has an element
for each of them. The entry function copies every declared one in from the element of its number,
for each vertex where there are several, and every one out to the element of its number once. A
geometry shader copies them out with each vertex instead. -/
theorem compile_distances (compiles : compile p entries options = .ok artifact)
    (decoded : p.instructions = .ok insts) (graphics : p.stage ≠ .compute) :
    let env := p.environment insts entries options
    ∃ l first f, ∃ s : State, lowerInstructions env insts = .ok l ∧ artifact = l.artifact ∧
      Lowering.start env = .ok first ∧
      Lower.result Lower.lowerEntryPoint env s = (.ok (), l.state) ∧
      l.state.builder.module.functions.back? = some f ∧
      (∀ value, env.inputs.Orders value ∧ env.outputs.Orders value) ∧
      l.state.SizesDistances env ∧
      (p.stage = .hull → ∃ h, l.state.stage = .hull h ∧
        ∀ w : World, (∀ q ∈ h.patchPhases, q.KeepsNumber w) → ∀ μ, ∃ ν,
          w.Returns l.state.builder.module f μ ν ∧ h.Runs w env s l.state μ ν) ∧
      (p.stage ≠ .hull → ∃ body, s.body? = some body ∧ ∀ w : World, ∀ μ, ∃ ν,
        w.Returns l.state.builder.module f μ ν ∧ s.RunsBody w env body l.state μ ν) ∧
      (p.stage ≠ .hull → p.stage ≠ .geometry → l.state.HasDistances env) ∧
      ∀ m n inst, Lowering.PutsVertex insts first m n inst →
        n.state.SizesDistances env ∧ n.state.HasDistances env ∧
        ∀ (w : World) (μ : Invocation), ∃ κ,
          w.Spans m.state n.state μ (κ.emitted (Lower.vertexOutput inst.op?).2) ∧
            m.state.PutsOut env n.state μ κ := by
  intro env
  have ⟨e⟩ := Program.exists_compiled compiles graphics
  obtain rfl : insts = e.insts := Except.ok.inj (decoded.symm.trans e.decoded)
  let x : Shader := p.shader e.decoded entries options
  have sizes := (x.invariant e.lowered).sizesDistances (Program.counted ..)
  have sorted (value : SystemValue) : env.inputs.Orders value ∧ env.outputs.Orders value := by
    have same : env.inputs.layoutOf value = (Signature.ofEntries entries.inputs).layoutOf value :=
      Signature.layoutOf_withInterpolation _ _ _
    exact ⟨Signature.orders_of_layout (same ▸ Signature.pairwise_layoutOf _ _),
      Signature.orders_of_layout (Signature.pairwise_layoutOf _ _)⟩
  refine ⟨e.lowering, e.first, e.function, e.state, e.lowered, e.lowering_artifact, e.ends.started,
    e.entered, e.back, sorted, sizes, e.hull, e.body, fun notHull other => ?_,
    fun m n inst puts => ?_⟩
  · obtain ⟨_, _, runs⟩ := e.body notHull
    obtain ⟨_, _, _, _, _, _, outputs⟩ := runs .idle .initial
    rw [if_neg (show ¬(p.environment e.insts entries options).stage = .geometry from other)]
      at outputs
    exact outputs.hasDistances
  · obtain ⟨sizes, has⟩ := e.putsVertex_sizes puts
    exact ⟨sizes, has, e.vertices m n inst puts⟩

theorem compile_distances_distanceWriter :
    ∃ artifact insts, ∃ l : Lowering, ∃ s : State, ∃ body f,
      compile distanceWriter ⟨[], packedDistances, []⟩ .default = .ok artifact ∧
      artifact = l.artifact ∧
      (distanceWriter.environment insts ⟨[], packedDistances, []⟩ .default).outputs.numbered
        .clipDistance = [(0, 2, 0), (0, 3, 1)] ∧
      l.state.SizesDistances
        (distanceWriter.environment insts ⟨[], packedDistances, []⟩ .default) ∧
      l.state.HasDistances (distanceWriter.environment insts ⟨[], packedDistances, []⟩ .default) ∧
      l.state.builder.module.functions.back? = some f ∧ s.body? = some body ∧
      ∀ w : World, ∀ μ, ∃ ν, w.Returns l.state.builder.module f μ ν ∧
        s.RunsBody w (distanceWriter.environment insts ⟨[], packedDistances, []⟩ .default) body
          l.state μ ν := by
  obtain ⟨artifact, insts, _, compiles, _, _, decoded, tagged⟩ :=
    exists_compile distanceWriter ⟨[], packedDistances, []⟩ .default (fun insts _ _ => decide
      ((distanceWriter.environment insts ⟨[], packedDistances, []⟩ .default).outputs.numbered
        .clipDistance = [(0, 2, 0), (0, 3, 1)])) (by decide +kernel)
  obtain ⟨l, _, f, s, _, same, _, _, last, _, sizes, _, others, has, _⟩ :=
    compile_distances compiles decoded (by decide)
  obtain ⟨body, is, runs⟩ := others (by decide)
  exact ⟨artifact, insts, l, s, body, f, compiles, same, of_decide_eq_true tagged, sizes,
    has (by decide) (by decide), last, is, runs⟩

end Distances

end ShaderLowering
