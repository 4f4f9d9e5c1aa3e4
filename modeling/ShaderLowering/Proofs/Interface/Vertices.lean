import ShaderLowering.Proofs.Scope.Listing
import ShaderLowering.Proofs.Typing.Bounds

/-!
The inputs of a geometry shader are arrays over the vertices of its primitive. A variable takes its
length when it is made, from what has been declared so far, so the length is that of the primitive
unless something asked for the vertices before the primitive was declared.
-/

namespace ShaderLowering

open Spirv (Id Module StorageClass BuiltIn)

namespace Spirv.Module

variable {m : Module} {id : Id} {storage : StorageClass} {element : Shape} {length : Nat}

/-- The length of a variable that is an array; of an array of arrays, that of the outer one. -/
def outerLength? (m : Module) (id : Id) : Option UInt32 :=
  (m.place? id).bind fun (_, type) => m.length? type

/-- The inputs of a geometry shader that have a value for every vertex. -/
def IsPerVertex (m : Module) (id : Id) : Prop :=
  m.HasVariable id .input ∧
    ((∃ reg, m.Decorated id .location [.word reg] ∧ ¬m.Decorated id .patch []) ∨
      ∃ builtin : BuiltIn,
        (builtin = .position ∨ builtin = .clipDistance ∨ builtin = .cullDistance) ∧
        m.Decorated id .builtIn [.word builtin.code])

theorem Distinct.outerLength? (distinct : m.Distinct)
    (places : m.Places id storage (element.arrayOf length)) (arrayed : length ≠ 0) :
    m.outerLength? id = some (.ofNat length) := by
  obtain ⟨root, is, place⟩ := distinct.place? places
  rw [Shape.arrayOf, if_neg arrayed] at is
  rw [Module.outerLength?, place, Option.bind_some]
  exact (distinct.array is root).1

end Spirv.Module

/-- The declaration of the primitive that a geometry shader works on. -/
def Instruction.declaresPrimitive (inst : Instruction) : Bool :=
  inst.declaration? = some .dclGsInputPrimitive

/-- The number of vertices that an instruction declares for the primitive. -/
def Instruction.primitive? (inst : Instruction) : Option Nat :=
  if inst.declaresPrimitive then (inputPrimitive? inst.inputPrimitive).map (·.2) else none

theorem Instruction.declaresPrimitive_of_primitive? {inst : Instruction} {n : Nat}
    (is : inst.primitive? = some n) : inst.declaresPrimitive = true :=
  (Option.ite_none_right_eq_some.1 is).1

theorem Instruction.asksVertices_of_primitive? {inst : Instruction} {n : Nat}
    (is : inst.primitive? = some n) : inst.asksVertices .geometry = false := by
  rw [asksVertices, of_decide_eq_true (declaresPrimitive_of_primitive? is)]
  rfl

theorem Instruction.primitive?_ne_zero {inst : Instruction} {n : Nat}
    (is : inst.primitive? = some n) : n ≠ 0 := by
  obtain ⟨_, primitive, rfl⟩ := Option.map_eq_some_iff.1 (Option.ite_none_right_eq_some.1 is).2
  unfold inputPrimitive? at primitive
  split at primitive <;> cases primitive <;> decide

namespace VertexCounts

variable {inst : Instruction} {insts : List Instruction}

theorem note_of_not_declaresPrimitive (v : VertexCounts)
    (other : inst.declaresPrimitive = false) : v.note .geometry inst = v := by
  have other : inst.declaration? ≠ some .dclGsInputPrimitive := of_decide_eq_false other
  unfold note
  split
  · next h => exact absurd h other
  all_goals first | rfl | contradiction

theorem note_of_declaresPrimitive (v : VertexCounts) {n : Nat} (is : inst.primitive? = some n) :
    v.note .geometry inst = { v with inputs := n } := by
  obtain ⟨declares, is⟩ := Option.ite_none_right_eq_some.1 is
  obtain ⟨_, primitive, rfl⟩ := Option.map_eq_some_iff.1 is
  unfold note
  rw [of_decide_eq_true declares, primitive]
  rfl

theorem arrayed_geometry {v : VertexCounts} (declared : v.inputs ≠ 0) :
    v.arrayed .geometry = v.inputs :=
  (if_pos rfl).trans (if_neg declared)

end VertexCounts

namespace Shader

variable {x : Shader} {v : VertexCounts} {s t : State} {id : Id}

/-- A geometry shader declares one primitive, of `n` vertices, in instruction `k`. -/
structure DeclaresPrimitive (x : Shader) (k n : Nat) : Prop where
  stage : x.env.stage = .geometry
  declared : x.insts[k]?.bind (·.primitive?) = some n
  once : ∀ p ∈ x.insts.zipIdx, p.1.declaresPrimitive = true → p.2 = k

instance {k n : Nat} : Decidable (x.DeclaresPrimitive k n) :=
  decidable_of_iff (x.env.stage = .geometry ∧ x.insts[k]?.bind (·.primitive?) = some n ∧
    ∀ p ∈ x.insts.zipIdx, p.1.declaresPrimitive = true → p.2 = k)
    ⟨fun ⟨stage, declared, once⟩ => ⟨stage, declared, once⟩,
      fun h => ⟨h.stage, h.declared, h.once⟩⟩

/-- The counts behind the first instructions are those of the primitive once it is declared. -/
theorem DeclaresPrimitive.arrayed_take {k n : Nat} (one : x.DeclaresPrimitive k n) (j : Nat) :
    (VertexCounts.after .geometry (x.insts.take j)).arrayed .geometry =
      if k < j then n else maxInterfaceRegisters := by
  obtain ⟨inst, at_, is⟩ := Option.bind_eq_some_iff.1 one.declared
  have others {i : Instruction} {l : Nat} (hi : x.insts[l]? = some i) (other : l ≠ k) :
      i.declaresPrimitive = false := by
    refine Bool.eq_false_iff.2 fun declares => other (one.once (i, l) ?_ declares)
    exact List.mem_zipIdx_iff_getElem?.2 hi
  -- One instruction more changes the counts only if it is the declaration.
  induction j with
  | zero => rfl
  | succ j ih =>
    rw [List.take_add_one, VertexCounts.after, List.foldl_append, ← VertexCounts.after]
    cases hi : x.insts[j]? with
    | none =>
      have : k < j := Nat.lt_of_lt_of_le (List.getElem?_eq_some_iff.1 at_).1
        (List.getElem?_eq_none_iff.1 hi)
      rw [if_pos this] at ih
      rw [if_pos (Nat.lt_succ_of_lt this)]
      exact ih
    | some i =>
      by_cases here : j = k
      · subst here
        cases at_.symm.trans hi
        rw [if_pos (Nat.lt_succ_self _)]
        exact (congrArg (·.arrayed .geometry) (VertexCounts.note_of_declaresPrimitive _ is)).trans
          (VertexCounts.arrayed_geometry (Instruction.primitive?_ne_zero is))
      · have same : k < j ↔ k < j + 1 := by omega
        rw [← ih.trans (if_congr same rfl rfl)]
        exact congrArg (·.arrayed .geometry)
          (VertexCounts.note_of_not_declaresPrimitive _ (others hi here))

/-- What depends on the vertex counts finds those of the primitive, or none where something asks
for them in front of it. -/
theorem DeclaresPrimitive.arrayed {k n : Nat} (one : x.DeclaresPrimitive k n) (sees : x.Sees v) :
    v.arrayed .geometry = n ∨ v.arrayed .geometry = maxInterfaceRegisters ∧
      ∃ i ∈ x.insts.take k, i.asksVertices .geometry = true := by
  obtain ⟨inst, at_, is⟩ := Option.bind_eq_some_iff.1 one.declared
  obtain ⟨asking, ⟨done, later, split, rfl⟩, asks⟩ | rfl := sees
  · have front : x.insts.take done.length = done := by rw [split, List.take_left]
    have here : x.insts[done.length]? = some asking := by
      rw [split, List.getElem?_append_right (Nat.le_refl _), Nat.sub_self]
      rfl
    have counts := one.arrayed_take done.length
    rw [one.stage] at asks ⊢
    rw [front] at counts
    rw [counts]
    rcases Nat.lt_trichotomy k done.length with behind | rfl | before
    · exact .inl (if_pos behind)
    · cases at_.symm.trans here
      cases (Instruction.asksVertices_of_primitive? is).symm.trans asks
    · refine .inr ⟨if_neg (Nat.lt_asymm before), asking, ?_, asks⟩
      exact List.mem_of_getElem? ((List.getElem?_take_of_lt before).trans here)
  · have counts := one.arrayed_take x.insts.length
    rw [List.take_length, if_pos (List.getElem?_eq_some_iff.1 at_).1] at counts
    rw [Shader.counts, one.stage]
    exact .inl counts

/-- A variable under a location has an element for every vertex. -/
theorem Invariant.located (known : x.Invariant v s) (geometry : x.env.stage = .geometry)
    {reg : UInt32} (is : s.located .input reg = some id) :
    ∃ w, x.Sees w ∧ s.builder.module.outerLength? id = some (.ofNat (w.arrayed .geometry)) := by
  obtain ⟨l, at_, rfl⟩ := Option.map_eq_some_iff.1 is
  obtain ⟨r, found, is⟩ := Option.bind_eq_some_iff.1 at_
  obtain ⟨w, sees, vertices⟩ := ((known.tables.inputs.find? found).2.location l is).vertices
  have places := ((known.tables.inputs.find? found).2.location l is).houses.places
  have vertices : l.vertices = w.arrayed .geometry := by rw [vertices, Side.vertices, geometry]
  have some_ : l.vertices ≠ 0 := fun none_ => by
    cases VertexCounts.arrayed_eq_zero.1 (vertices.symm.trans none_)
  refine ⟨w, sees (by rw [geometry]; rfl), ?_⟩
  rw [known.builder.distinct.outerLength? places some_, vertices]

/-- So has a built-in that is per vertex. -/
theorem Invariant.tagged (known : x.Invariant v s) (geometry : x.env.stage = .geometry)
    {builtin : BuiltIn} {made : BuiltinVariable}
    (perVertex : Lower.isPerVertex .geometry builtin .input = true)
    (found : s.builtins.lookup (builtin, .input) = some made) :
    ∃ w, x.Sees w ∧
      s.builder.module.outerLength? made.id = some (.ofNat (w.arrayed .geometry)) := by
  have is := known.tables.builtins _ (Lower.mem_of_lookup found)
  obtain ⟨w, sees, vertices⟩ : ∃ w, x.Sees w ∧ made.vertices = w.arrayed .geometry := by
    simpa only [BuiltinVertices, geometry, perVertex, if_true] using is.vertices
  have some_ : made.vertices ≠ 0 := fun none_ => by
    cases VertexCounts.arrayed_eq_zero.1 (vertices.symm.trans none_)
  exact ⟨w, sees, by rw [known.builder.distinct.outerLength? is.houses.places some_, vertices]⟩

/-- So has the private array of the input registers. -/
theorem Invariant.inputArray (known : x.Invariant v s) (geometry : x.env.stage = .geometry)
    (is : s.inputArray? = some id) :
    ∃ w, x.Sees w ∧ s.builder.module.outerLength? id = some (.ofNat (w.arrayed .geometry)) := by
  obtain ⟨w, sees, houses⟩ := known.tables.inputArray id is
  rw [geometry] at houses
  have some_ : w.arrayed .geometry ≠ 0 := fun none_ => by
    cases VertexCounts.arrayed_eq_zero.1 none_
  exact ⟨w, sees, known.builder.distinct.outerLength? houses.places some_⟩

/-- All of them are arrays over the vertices that something saw. -/
theorem Invariant.outerLength? (known : x.Invariant v t) (geometry : x.env.stage = .geometry)
    (recorded : s.Recorded) (announced : s.Announced x.env t)
    (is : t.builder.module.IsPerVertex id ∨ t.inputArray? = some id) :
    ∃ w, x.Sees w ∧ t.builder.module.outerLength? id = some (.ofNat (w.arrayed .geometry)) := by
  obtain ⟨modes, _, rfl⟩ := announced
  rcases is with ⟨isVariable, ⟨reg, location, noPatch⟩ | ⟨builtin, which, mark⟩⟩ | is
  · obtain ⟨side, reg, at_, _⟩ := recorded.placed.locations id _ location
    obtain ⟨_, mem, _, patch⟩ := recorded.placed.located side reg id at_
    have storage := recorded.storage_eq mem (recorded.mem_globals.1 isVariable)
    obtain rfl := @Side.ext_of side .input storage
      (Bool.eq_false_iff.2 fun patched => noPatch (patch.2 patched))
    exact known.located geometry at_
  · obtain ⟨⟨builtin', storage⟩, made, found, rfl, same⟩ := recorded.tagged.tags id _ mark
    cases recorded.storage_eq (recorded.tagged.builtins _ _ found).1
      (recorded.mem_globals.1 isVariable)
    obtain rfl := BuiltIn.code_injective (Spirv.Arg.word.inj (List.cons.inj same).1)
    exact known.tagged geometry (by rcases which with rfl | rfl | rfl <;> rfl) found
  · exact known.inputArray geometry is

end Shader

section Compilation

variable {program : Program} {entries : SignatureEntries} {options : Options}
  {artifact : Artifact} {insts : List Instruction}

/-- In a compiled geometry shader that declares one input primitive, the inputs that are per vertex
and the private array of the input registers have an element for each vertex of the primitive. Only
where an instruction in front of the declaration asks for the vertices may they have the most there
can be. -/
theorem compile_outerLength (h : compile program entries options = .ok artifact)
    (decoded : program.instructions = .ok insts) {k n : Nat}
    (one : (program.shader decoded entries options).DeclaresPrimitive k n) :
    ∃ l, lowerInstructions (program.environment insts entries options) insts = .ok l ∧
      artifact = l.artifact ∧
      ∀ id, l.state.builder.module.IsPerVertex id ∨ l.state.inputArray? = some id →
        l.state.builder.module.outerLength? id = some (.ofNat n) ∨
        l.state.builder.module.outerLength? id = some (.ofNat maxInterfaceRegisters) ∧
          ∃ i ∈ insts.take k, i.asksVertices .geometry = true := by
  obtain ⟨insts', l, decoded', lowered, rfl⟩ := compile_eq_ok.1 h
  obtain rfl : insts' = insts := Except.ok.inj (decoded'.symm.trans decoded)
  have known := (program.shader decoded entries options).invariant lowered
  obtain ⟨_, stage, x, y, _, course, path, announced⟩ := lowerInstructions_course lowered
  refine ⟨l, lowered, rfl, fun id is => ?_⟩
  obtain ⟨w, sees, length⟩ :=
    known.outerLength? one.stage (path.recorded course.recorded) announced is
  rw [length]
  rcases one.arrayed sees with declared | ⟨most, asks⟩
  · exact .inl (by rw [declared])
  · exact .inr ⟨by rw [most], asks⟩

/-- A geometry shader over triangles that passes on the position of its first vertex. -/
def firstVertex : Program :=
  .assume [0x20050, 17, 0x0100185d, 0x0100285c, 0x0200005e, 3, 0x0400005f, 0x002010f2, 3, 0,
    0x06000036, 0x001020f2, 0, 0x00201e46, 0, 0, 0x0100003e]

theorem compile_outerLength_firstVertex :
    ∃ artifact insts l, compile firstVertex ⟨[], [], []⟩ .default = .ok artifact ∧
      lowerInstructions (firstVertex.environment insts ⟨[], [], []⟩ .default) insts = .ok l ∧
      artifact = l.artifact ∧
      ∀ id, l.state.builder.module.IsPerVertex id ∨ l.state.inputArray? = some id →
        l.state.builder.module.outerLength? id = some 3 := by
  obtain ⟨artifact, insts, _, compiles, _, _, decoded, one⟩ :=
    exists_compile firstVertex ⟨[], [], []⟩ .default (fun insts decoded _ =>
      decide ((firstVertex.shader decoded ⟨[], [], []⟩ .default).DeclaresPrimitive 0 3))
      (by decide +kernel)
  obtain ⟨l, lowered, same, lengths⟩ := compile_outerLength compiles decoded (of_decide_eq_true one)
  refine ⟨artifact, insts, l, compiles, lowered, same, fun id is => ?_⟩
  exact (lengths id is).resolve_right fun ⟨_, _, mem, _⟩ => absurd mem List.not_mem_nil

/-- The same shader with its input declared in front of the primitive. -/
def latePrimitive : Program :=
  .assume [0x20050, 17, 0x0400005f, 0x002010f2, 3, 0, 0x0100185d, 0x0100285c, 0x0200005e, 3,
    0x06000036, 0x001020f2, 0, 0x00201e46, 0, 0, 0x0100003e]

/-- The variable of that input has 32 elements, and the array that it is copied to three. -/
theorem exists_not_outerLength :
    ∃ artifact insts l, compile latePrimitive ⟨[], [], []⟩ .default = .ok artifact ∧
      lowerInstructions (latePrimitive.environment insts ⟨[], [], []⟩ .default) insts = .ok l ∧
      artifact = l.artifact ∧
      (∃ decoded : latePrimitive.instructions = .ok insts,
        (latePrimitive.shader decoded ⟨[], [], []⟩ .default).DeclaresPrimitive 1 3) ∧
      ∃ id, l.state.builder.module.IsPerVertex id ∧
        l.state.builder.module.outerLength? id = some 32 := by
  obtain ⟨artifact, insts, l, compiles, lowered, same, decoded, holds⟩ :=
    exists_compile latePrimitive ⟨[], [], []⟩ .default (fun insts decoded l =>
      decide ((latePrimitive.shader decoded ⟨[], [], []⟩ .default).DeclaresPrimitive 1 3) &&
      decide (∃ i ∈ l.state.builder.module.definitions, ∃ id ∈ i.result?,
        i.Introduces id .input ∧ l.state.builder.module.Decorated id .location [.word 0] ∧
        ¬l.state.builder.module.Decorated id .patch [] ∧
        l.state.builder.module.outerLength? id = some 32)) (by decide +kernel)
  obtain ⟨one, long⟩ := Bool.and_eq_true_iff.1 holds
  obtain ⟨i, hi, id, _, is, location, noPatch, length⟩ := of_decide_eq_true long
  exact ⟨artifact, insts, l, compiles, lowered, same, ⟨decoded, of_decide_eq_true one⟩, id,
    ⟨⟨i, hi, is⟩, .inl ⟨0, location, noPatch⟩⟩, length⟩

end Compilation

end ShaderLowering
