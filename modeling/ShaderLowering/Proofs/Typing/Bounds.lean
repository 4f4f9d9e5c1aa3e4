import ShaderLowering.Proofs.Typing.Lowered

/-!
Access chains are typed by what the lowering expects of their base, while the number of their
indices comes from the program. They fit as soon as each input register has the indices that its
stage asks for: two where inputs are arrayed over vertices, one elsewhere.

The constant indices of access chains come from operands, from signatures and from loops over the
vertices of an input. Those of operands are lowered unchecked, and loops go by the vertex counts
that are declared at their time. All of them are within their arrays if the indices of the program
are, and no vertex count is declared late.
-/

namespace ShaderLowering

open Spirv (Id Instr Arg Op Module StorageClass)

namespace Shader

variable {x : Shader} {m : Module} {i : Instr}

theorem Uses.fits (fits : ∀ inst ∈ x.insts, inst.FitsStage x.env.stage = true) {op : Operand}
    (uses : x.Uses op) : op.Fits x.env.stage = true := by
  obtain ⟨inst, mem, executable, part⟩ := uses
  have all := fits inst mem
  rw [Instruction.FitsStage, executable, Bool.not_true, Bool.false_or, List.all_eq_true] at all
  exact all op part

/-- A path can be walked in the module; by induction on the path. -/
theorem Path.walk? (fits : ∀ inst ∈ x.insts, inst.FitsStage x.env.stage = true)
    (distinct : m.Distinct) {shape : Shape} {indices : List Id} {type : VectorType}
    (path : x.Path m shape indices type) {root : Id} (is : m.Is shape root) :
    ∃ leaf, m.walk? root (indices.map .id) = some leaf ∧ m.IsVector type leaf := by
  have onward {element : Shape} {rest : List Id} {type : VectorType} {index e : Id}
      (ih : ∀ {root : Id}, m.Is element root →
        ∃ leaf, m.walk? root (rest.map .id) = some leaf ∧ m.IsVector type leaf)
      (is : m.Is element e) {root : Id} (part : m.part? root index = some e) :
      ∃ leaf, m.walk? root ((index :: rest).map .id) = some leaf ∧ m.IsVector type leaf := by
    obtain ⟨leaf, walked, vector⟩ := ih is
    refine ⟨leaf, ?_, vector⟩
    rw [List.map_cons, Module.walk?, part]
    exact walked
  induction path generalizing root with
  | here type => exact ⟨root, rfl, is⟩
  | component type index several =>
    obtain ⟨e, scalar, _, part⟩ := distinct.vector (Nat.not_le.2 several) is index
    exact onward (fun (is : m.Is (.vector (.single type.scalar)) _) => ⟨_, rfl, is⟩) scalar part
  | element _ _ ih =>
    obtain ⟨_, e, is, _, part⟩ := distinct.array is _
    exact onward ih is part
  | unsized _ ih =>
    obtain ⟨_, e, is, part⟩ := distinct.unsized is _
    exact onward ih is part
  | member first _ ih =>
    obtain ⟨_, e, is, part⟩ := distinct.block is first
    exact onward ih is part
  | misfit op uses misfits =>
    rw [uses.fits fits] at misfits
    cases misfits

theorem Chain.fits (fits : ∀ inst ∈ x.insts, inst.FitsStage x.env.stage = true)
    (distinct : m.Distinct) (interned : m.Interned) (chain : x.Chain m i) :
    m.chainFits i = true := by
  obtain ⟨base, indices, storage, shape, type, id, args, typed, pointer, places, path⟩ := chain
  obtain ⟨root, is, place⟩ := distinct.place? places
  obtain ⟨pointee, vector, pointer⟩ := distinct.pointer? pointer
  obtain ⟨leaf, walked, arrived⟩ := path.walk? fits distinct is
  obtain rfl := interned.vector arrived vector
  simp only [Module.chainFits, args, typed, place, Option.bind_some, pointer, walked,
    decide_true, Bool.and_self]

end Shader

section Compilation

variable {program : Program} {entries : SignatureEntries} {options : Options}
  {artifact : Artifact} {insts : List Instruction}

/-- Every access chain of a compiled program leads, within one storage class, from the type of its
base to the type that it claims, if each input register has the indices its stage asks for. -/
theorem compile_chainFits (h : compile program entries options = .ok artifact)
    (decoded : program.instructions = .ok insts)
    (fits : ∀ inst ∈ insts, inst.FitsStage program.stage = true) :
    ∃ l, lowerInstructions (program.environment insts entries options) insts = .ok l ∧
      artifact = l.artifact ∧
      ∀ i ∈ l.state.builder.module.definitions, i.op = .ordinary .accessChain →
        l.state.builder.module.chainFits i = true := by
  obtain ⟨insts', l, decoded', lowered, rfl⟩ := compile_eq_ok.1 h
  obtain rfl : insts' = insts := Except.ok.inj (decoded'.symm.trans decoded)
  have known := (program.shader decoded entries options).invariant lowered
  refine ⟨l, lowered, rfl, fun i hi chain => ?_⟩
  have accounts := known.explains.definitions i hi
  rw [Shader.Accounts, chain] at accounts
  exact accounts.fits fits known.builder.distinct known.builder.interned

/-- A geometry shader that reads a register of its second vertex. -/
def vertexRead : Program :=
  .assume [0x20050, 17, 0x0100185d, 0x0100285c, 0x0200005e, 3, 0x0400005f, 0x002010f2, 3, 0,
    0x06000036, 0x001000f2, 0, 0x00201e46, 1, 0, 0x0100003e]

theorem compile_chainFits_vertexRead :
    ∃ artifact insts l, compile vertexRead ⟨[], [], []⟩ .default = .ok artifact ∧
      lowerInstructions (vertexRead.environment insts ⟨[], [], []⟩ .default) insts = .ok l ∧
      artifact = l.artifact ∧
      ∀ i ∈ l.state.builder.module.definitions, i.op = .ordinary .accessChain →
        l.state.builder.module.chainFits i = true := by
  obtain ⟨artifact, insts, _, compiles, _, _, decoded, fits⟩ :=
    exists_compile vertexRead ⟨[], [], []⟩ .default
      (fun insts _ _ => insts.all (·.FitsStage vertexRead.stage)) (by decide +kernel)
  obtain ⟨l, lowered, same, chains⟩ :=
    compile_chainFits compiles decoded (List.all_eq_true.1 fits)
  exact ⟨artifact, insts, l, compiles, lowered, same, chains⟩

/-- A pixel shader that reads a register as if there were vertices. -/
def misfitRead : Program :=
  .assume [0x50, 9, 0x06000036, 0x00100012, 0, 0x00201e46, 0, 1, 0x0100003e]

/-- The register file of a pixel shader has one dimension, and the chain takes two steps. -/
theorem exists_not_chainFits :
    ∃ artifact insts l, compile misfitRead ⟨[], [], []⟩ .default = .ok artifact ∧
      lowerInstructions (misfitRead.environment insts ⟨[], [], []⟩ .default) insts = .ok l ∧
      artifact = l.artifact ∧
      ∃ i ∈ l.state.builder.module.definitions, i.op = .ordinary .accessChain ∧
        l.state.builder.module.chainFits i = false := by
  obtain ⟨artifact, insts, l, compiles, lowered, same, _, misfits⟩ :=
    exists_compile misfitRead ⟨[], [], []⟩ .default
      (fun _ _ l => decide (∃ i ∈ l.state.builder.module.definitions,
        i.op = .ordinary .accessChain ∧ l.state.builder.module.chainFits i = false))
      (by decide +kernel)
  exact ⟨artifact, insts, l, compiles, lowered, same, of_decide_eq_true misfits⟩

end Compilation

end ShaderLowering

namespace ShaderLowering

open Spirv (Id Instr Arg Op Module StorageClass)

theorem inputPrimitive?_le {code : UInt32} {p : Spirv.ExecutionMode × Nat}
    (h : inputPrimitive? code = some p) : p.2 ≤ 6 := by
  unfold inputPrimitive? at h
  split at h <;> cases h <;> decide

namespace VertexCounts

/-- The number of vertices that a stage takes in fits a word. -/
theorem arrayed_after_lt (stage : ShaderStage) (insts : List Instruction) :
    (after stage insts).arrayed stage < UInt32.size := by
  have inputs : (after stage insts).inputs < UInt32.size := by
    unfold after
    refine List.foldlRecOn insts _ (motive := fun v : VertexCounts => v.inputs < UInt32.size)
      (Nat.zero_lt_succ _) fun v hv inst _ => ?_
    unfold note
    split
    · cases primitive : inputPrimitive? inst.inputPrimitive with
      | none => exact hv
      | some p => exact Nat.lt_of_le_of_lt (inputPrimitive?_le primitive) (by decide)
    · exact inst.controlPointCount.toNat_lt
    · exact inst.controlPointCount.toNat_lt
    · exact hv
    · exact hv
  unfold arrayed
  split
  · split
    · decide
    · exact inputs
  · decide

end VertexCounts

namespace Shader

variable {x : Shader} {v : VertexCounts} {m : Module} {i : Instr} {op : Operand} {d : Nat}

/-- Whether the indices of an operand that add no register are within their arrays. -/
def isWithin (x : Shader) (op : Operand) : Bool :=
  (List.range op.indices.length).all fun d =>
    (op.index? d).all fun k => (x.extents x.counts op d).all (k < ·)

/-- What keeps the indices of a program within their arrays. -/
structure Bounded (x : Shader) : Prop where
  settled : x.Settled
  operands : ∀ inst ∈ x.insts, inst.isExecutable = true → ∀ op ∈ inst.parts, x.isWithin op = true
  /-- The registers that clip and cull distances go out of. -/
  registers : ∀ e ∈ x.env.outputs.elements, e.systemValue.isClipCull = true → e.register < 32
  distances : ∀ n ∈ x.distances, n < UInt32.size

instance : Decidable x.Bounded :=
  decidable_of_iff (x.Settled ∧
    (∀ inst ∈ x.insts, inst.isExecutable = true → ∀ op ∈ inst.parts, x.isWithin op = true) ∧
    (∀ e ∈ x.env.outputs.elements, e.systemValue.isClipCull = true → e.register < 32) ∧
    ∀ n ∈ x.distances, n < UInt32.size)
    ⟨fun ⟨settled, operands, registers, distances⟩ => ⟨settled, operands, registers, distances⟩,
      fun h => ⟨h.settled, h.operands, h.registers, h.distances⟩⟩

/-- Only where an operand has a vertex do its arrays depend on the vertex counts. -/
theorem extents_of_not_hasVertex (none_ : op.hasVertex = false) (v w : VertexCounts) :
    x.extents v op d = x.extents w op d := by
  unfold extents
  split <;> first | rfl | simp_all [Operand.hasVertex, Operand.isInput]

theorem Bounded.operand (bounded : x.Bounded) (uses : x.Uses op)
    (sees : op.hasVertex = true → x.Sees v) {k n : UInt32} (is : op.index? d = some k)
    (extent : n ∈ x.extents v op d) : k < n := by
  obtain ⟨inst, mem, executable, part⟩ := uses
  have within := bounded.operands inst mem executable op part
  have here : d < op.indices.length := by
    unfold Operand.index? at is
    obtain ⟨index, at_, _⟩ := Option.bind_eq_some_iff.1 is
    exact (List.getElem?_eq_some_iff.1 at_).1
  rw [isWithin, List.all_eq_true] at within
  have all := within d (List.mem_range.2 here)
  rw [is, Option.all_some, List.all_eq_true] at all
  have same : x.extents v op d = x.extents x.counts op d := by
    cases vertex : op.hasVertex with
    | true => rw [bounded.settled.eq_counts (sees vertex)]
    | false => exact extents_of_not_hasVertex vertex _ _
  exact of_decide_eq_true (all n (same ▸ extent))

/-- A constant among the indices is below the length of the array. -/
theorem Entry.lt (bounded : x.Bounded) (distinct : m.Distinct) {length : UInt32} {id : Id}
    (entry : x.Entry m length id) : (m.constant? id).all (· < length) = true := by
  have below {k : UInt32} (h : m.IsConstant id k) (inside : k < length) :
      (m.constant? id).all (· < length) = true := by
    rw [distinct.constant? h, Option.all_some]
    exact decide_eq_true inside
  cases entry with
  | computed h =>
    rw [distinct.constant?_computes h]
    rfl
  | below k h inside => exact below h inside
  | vertex k v w h inside counted arrayed is =>
    rw [bounded.settled.eq_counts counted] at inside
    rw [bounded.settled.eq_counts arrayed] at is
    have small := VertexCounts.arrayed_after_lt x.env.stage x.insts
    refine below h ?_
    rw [is, counts, UInt32.ofNat_lt_iff_lt (Nat.lt_trans inside small) small]
    exact inside
  | operand op d k v h uses sees is extent => exact below h (bounded.operand uses sees is extent)
  | counted k n h inside is distances =>
    have small := bounded.distances n distances
    refine below h ?_
    rw [is, UInt32.ofNat_lt_iff_lt (Nat.lt_trans inside small) small]
    exact inside
  | distance value reg h mem is length =>
    obtain ⟨_, placed, rfl⟩ := List.mem_map.1 mem
    obtain ⟨e, he, rfl⟩ := List.mem_map.1 placed
    obtain ⟨he, tagged⟩ := List.mem_filter.1 he
    rw [length] at below ⊢
    exact below h (bounded.registers e he (of_decide_eq_true tagged ▸ is))

/-- The indices of a path are within the arrays they step into; by induction on the path. -/
theorem Path.inBounds (fits : ∀ inst ∈ x.insts, inst.FitsStage x.env.stage = true)
    (bounded : x.Bounded) (distinct : m.Distinct) {shape : Shape} {indices : List Id}
    {type : VectorType}
    (path : x.Path m shape indices type) {root : Id} (is : m.Is shape root) :
    m.inBounds root (indices.map .id) = true := by
  have onward {root e index : Id} {rest : List Id}
      (inside : (m.length? root).all (fun n => (m.constant? index).all (· < n)) = true)
      (part : m.part? root index = some e) (more : m.inBounds e (rest.map .id) = true) :
      m.inBounds root ((index :: rest).map .id) = true := by
    rw [List.map_cons, Module.inBounds, inside, part, Option.all_some, more]
    rfl
  induction path generalizing root with
  | here type => rfl
  | component type index several =>
    obtain ⟨e, _, _, part⟩ := distinct.vector (Nat.not_le.2 several) is index
    refine onward ?_ part rfl
    rw [distinct.vector_length? is]
    rfl
  | @element _ _ index _ _ entry _ ih =>
    obtain ⟨length, e, is, _, part⟩ := distinct.array is index
    refine onward ?_ part (ih is)
    rw [length, Option.all_some]
    exact entry.lt bounded distinct
  | @unsized _ index _ _ _ ih =>
    obtain ⟨length, e, is, part⟩ := distinct.unsized is index
    refine onward ?_ part (ih is)
    rw [length]
    rfl
  | member first _ ih =>
    obtain ⟨length, e, is, part⟩ := distinct.block is first
    refine onward ?_ part (ih is)
    rw [length]
    rfl
  | misfit op uses misfits =>
    rw [uses.fits fits] at misfits
    cases misfits

theorem Chain.inBounds (fits : ∀ inst ∈ x.insts, inst.FitsStage x.env.stage = true)
    (bounded : x.Bounded) (distinct : m.Distinct) (chain : x.Chain m i) :
    m.chainInBounds i = true := by
  obtain ⟨base, indices, storage, shape, type, id, args, _, _, places, path⟩ := chain
  obtain ⟨root, is, place⟩ := distinct.place? places
  rw [Module.chainInBounds, args]
  simp only [place, Option.any_some]
  exact path.inBounds fits bounded distinct is

end Shader

section Compilation

variable {program : Program} {entries : SignatureEntries} {options : Options}
  {artifact : Artifact} {insts : List Instruction}

/-- Every constant index of an access chain of a compiled program is below the length of the array
that it steps into, if the indices of the program are within their arrays. -/
theorem compile_chainInBounds (h : compile program entries options = .ok artifact)
    (decoded : program.instructions = .ok insts)
    (fits : ∀ inst ∈ insts, inst.FitsStage program.stage = true)
    (bounded : (program.shader decoded entries options).Bounded) :
    ∃ l, lowerInstructions (program.environment insts entries options) insts = .ok l ∧
      artifact = l.artifact ∧
      ∀ i ∈ l.state.builder.module.definitions, i.op = .ordinary .accessChain →
        l.state.builder.module.chainInBounds i = true := by
  obtain ⟨insts', l, decoded', lowered, rfl⟩ := compile_eq_ok.1 h
  obtain rfl : insts' = insts := Except.ok.inj (decoded'.symm.trans decoded)
  have known := (program.shader decoded entries options).invariant lowered
  refine ⟨l, lowered, rfl, fun i hi chain => ?_⟩
  have accounts := known.explains.definitions i hi
  rw [Shader.Accounts, chain] at accounts
  exact accounts.inBounds fits bounded known.builder.distinct

/-- A geometry shader that reads the last of three vertices and the last of four constants. -/
def lastReads : Program :=
  .assume [0x20050, 30, 0x0100185d, 0x0100285c, 0x0200005e, 3, 0x0400005f, 0x002010f2, 3, 0,
    0x04000059, 0x00208e46, 0, 4, 0x03000065, 0x001020f2, 0, 0x06000036, 0x00100012, 0, 0x00201e46,
    2, 0, 0x06000036, 0x001020f2, 0, 0x00208e46, 0, 3, 0x0100003e]

theorem compile_chainInBounds_lastReads :
    ∃ artifact insts l, compile lastReads ⟨[], [], []⟩ .default = .ok artifact ∧
      lowerInstructions (lastReads.environment insts ⟨[], [], []⟩ .default) insts = .ok l ∧
      artifact = l.artifact ∧
      ∀ i ∈ l.state.builder.module.definitions, i.op = .ordinary .accessChain →
        l.state.builder.module.chainInBounds i = true := by
  obtain ⟨artifact, insts, _, compiles, _, _, decoded, holds⟩ :=
    exists_compile lastReads ⟨[], [], []⟩ .default (fun insts decoded _ =>
      insts.all (·.FitsStage lastReads.stage) &&
        decide (lastReads.shader decoded ⟨[], [], []⟩ .default).Bounded) (by decide +kernel)
  obtain ⟨fits, bounded⟩ := Bool.and_eq_true_iff.1 holds
  obtain ⟨l, lowered, same, chains⟩ := compile_chainInBounds compiles decoded
    (List.all_eq_true.1 fits) (of_decide_eq_true bounded)
  exact ⟨artifact, insts, l, compiles, lowered, same, chains⟩

/-- A pixel shader that reads its register 40. -/
def distantRead : Program :=
  .assume [0x50, 8, 0x05000036, 0x00100012, 0, 0x00101e46, 40, 0x0100003e]

/-- The register file has 32 registers. -/
theorem exists_not_chainInBounds :
    ∃ artifact insts l, compile distantRead ⟨[], [], []⟩ .default = .ok artifact ∧
      lowerInstructions (distantRead.environment insts ⟨[], [], []⟩ .default) insts = .ok l ∧
      artifact = l.artifact ∧
      ∃ i ∈ l.state.builder.module.definitions, i.op = .ordinary .accessChain ∧
        l.state.builder.module.chainInBounds i = false := by
  obtain ⟨artifact, insts, l, compiles, lowered, same, _, outside⟩ :=
    exists_compile distantRead ⟨[], [], []⟩ .default
      (fun _ _ l => decide (∃ i ∈ l.state.builder.module.definitions,
        i.op = .ordinary .accessChain ∧ l.state.builder.module.chainInBounds i = false))
      (by decide +kernel)
  exact ⟨artifact, insts, l, compiles, lowered, same, of_decide_eq_true outside⟩

end Compilation

end ShaderLowering
