import ShaderLowering.Lowering
import ShaderLowering.Proofs.Interface.Declarations

/-!
What a program asks of the lowering: which operands its instructions name, how many vertices and
buffer elements it declares, and which of its views the analysis sees. The arrays that operands
index into get their lengths from here.
-/

namespace ShaderLowering

mutual

/-- An operand and all that its indices add. -/
def Operand.parts : Operand → List Operand
  | ⟨type, data, components, selection, mask, swizzle, modifier, indices, imm⟩ =>
    ⟨type, data, components, selection, mask, swizzle, modifier, indices, imm⟩ ::
      indexParts indices

def indexParts : List (Index Operand) → List Operand
  | [] => []
  | index :: rest => indexPart index ++ indexParts rest

def indexPart : Index Operand → List Operand
  | ⟨_, relative⟩ => relativeParts relative

def relativeParts : Option Operand → List Operand
  | none => []
  | some op => op.parts

end

namespace Operand

theorem parts_eq (op : Operand) : op.parts = op :: indexParts op.indices := by
  cases op
  simp only [parts]

theorem self_mem_parts (op : Operand) : op ∈ op.parts := by
  rw [parts_eq]
  exact List.mem_cons_self

theorem parts_of_index {index : Index Operand} {indices : List (Index Operand)}
    (h : index ∈ indices) {r : Operand} (added : index.relative = some r) {part : Operand}
    (hp : part ∈ r.parts) : part ∈ indexParts indices := by
  induction indices with
  | nil => cases h
  | cons first rest ih =>
    rw [indexParts]
    rcases List.mem_cons.1 h with rfl | h
    · obtain ⟨offset, relative⟩ := index
      subst added
      exact List.mem_append_left _ (by simpa only [indexPart, relativeParts] using hp)
    · exact List.mem_append_right _ (ih h)

/-- What an index adds is part of the operand. -/
theorem parts_of_relative {op r : Operand} {index : Index Operand} (h : index ∈ op.indices)
    (added : index.relative = some r) {part : Operand} (hp : part ∈ r.parts) : part ∈ op.parts := by
  rw [parts_eq]
  exact List.mem_cons_of_mem _ (parts_of_index h added hp)

/-- The registers that a stage arrays over the vertices of its input. -/
def isInput (op : Operand) : Bool :=
  op.type = .input || op.type = .inputControlPoint

/-- The registers that have an index over vertices or control points in some stage. -/
def hasVertex (op : Operand) : Bool :=
  op.isInput || op.type = .outputControlPoint

end Operand

/-- Whether the inputs of a stage are arrayed over vertices. -/
def ShaderStage.hasVertices : ShaderStage → Bool
  | geometry | hull | domain => true
  | _ => false

/-- Whether a register has the indices that its stage asks for: inputs have a vertex exactly where
they are arrayed, and outputs of control points are a thing of hull shaders. -/
def Operand.Fits (stage : ShaderStage) (op : Operand) : Bool :=
  match op.type with
  | .input | .inputControlPoint => decide (2 ≤ op.indices.length) = stage.hasVertices
  | .outputControlPoint => stage = .hull
  | _ => true

namespace Instruction

/-- Whether an instruction stands in a function body. -/
def isExecutable (inst : Instruction) : Bool :=
  match inst.family with
  | .declaration | .customData | .hullShaderPhase => false
  | _ => true

/-- All operands of an instruction, and those in their indices. -/
def parts (inst : Instruction) : List Operand :=
  (inst.dst ++ inst.src).flatMap Operand.parts

/-- Whether the registers that an instruction works on have the indices its stage asks for. -/
def FitsStage (stage : ShaderStage) (inst : Instruction) : Bool :=
  !inst.isExecutable || inst.parts.all (·.Fits stage)

/-- The opcode of a declaration. -/
def declaration? (inst : Instruction) : Option Opcode :=
  if inst.family = .declaration then inst.op? else none

/-- Whether an instruction depends on the number of vertices or control points. -/
def asksVertices (stage : ShaderStage) (inst : Instruction) : Bool :=
  match inst.declaration? with
  | some op => op.declaresInput || (stage = .hull && op.declaresOutput)
  | none => inst.isExecutable && inst.parts.any (·.hasVertex)

/-- Slot and number of elements of a constant buffer declaration. -/
def declaredBuffer? (inst : Instruction) : Option (UInt32 × Nat) :=
  match inst.declaration?, inst.src[0]? with
  | some .dclConstantBuffer, some op =>
    (op.index? 0).map fun slot =>
      (slot, max 1 (min ((op.index? 1).elim maxConstantBufferElements (·.toNat))
        maxConstantBufferElements))
  | _, _ => none

/-- The number of immediate constants in a block of them. -/
def immediates? (inst : Instruction) : Option UInt32 :=
  match inst.family, inst.customData? with
  | .customData, some (.immediateConstantBuffer words) =>
    some (.ofNat (max (Words4.chunks words).length 1))
  | _, _ => none

/-- The length of an indexable temporary declaration. -/
def tempLength? (inst : Instruction) : Option UInt32 :=
  match inst.declaration? with
  | some .dclIndexableTemp => some (.ofNat (max (inst.imm.getD 1 0).toNat 1))
  | _ => none

/-- The operand through which an instruction accesses the texels of a view. -/
def view? (inst : Instruction) : Option Operand :=
  match inst.family with
  | .textureFetch | .typedUavLoad => inst.src[1]?
  | .typedUavStore => inst.dst[0]?
  | .atomic => if inst.dst.length = 2 then inst.dst[1]? else inst.dst[0]?
  | _ => none

end Instruction

/-- The numbers of vertices that a stage takes in, zero while undeclared, and of control points
that it puts out. -/
structure VertexCounts where
  inputs : Nat
  outputs : Nat
deriving DecidableEq, Repr

namespace VertexCounts

def initial (stage : ShaderStage) : VertexCounts :=
  ⟨0, if stage = .hull then 1 else 0⟩

/-- The numbers behind an instruction. -/
def note (stage : ShaderStage) (v : VertexCounts) (inst : Instruction) : VertexCounts :=
  match stage, inst.declaration? with
  | .geometry, some .dclGsInputPrimitive =>
    { v with inputs := (inputPrimitive? inst.inputPrimitive).elim v.inputs (·.2) }
  | .hull, some .dclInputControlPointCount | .domain, some .dclInputControlPointCount =>
    { v with inputs := inst.controlPointCount.toNat }
  | .hull, some .dclOutputControlPointCount =>
    { v with outputs := max inst.controlPointCount.toNat 1 }
  | _, _ => v

/-- The numbers behind a list of instructions. -/
def after (stage : ShaderStage) (insts : List Instruction) : VertexCounts :=
  insts.foldl (note stage) (initial stage)

/-- How many vertices the input registers are arrayed over: the most there can be while none is
declared, zero where they are not arrayed. -/
def arrayed (v : VertexCounts) (stage : ShaderStage) : Nat :=
  if stage.hasVertices then if v.inputs = 0 then maxInterfaceRegisters else v.inputs else 0

theorem arrayed_eq_zero {v : VertexCounts} {stage : ShaderStage} :
    v.arrayed stage = 0 ↔ stage.hasVertices = false := by
  unfold arrayed
  split <;> rename_i h <;> simp only [h]
  split <;> simp_all [maxInterfaceRegisters]

end VertexCounts

/-- The elements of a tessellation level. -/
def TessLevel.length : TessLevel → Nat
  | outer => 4
  | inner => 2

/-- A tessellation factor belongs to an element that its level has. -/
def SystemValue.IsProper (value : SystemValue) : Prop :=
  ∀ level i, value.tessLevel? = some (level, i) → i < level.length

theorem SystemValue.isProper_ofCode (code : UInt32) : (SystemValue.ofCode code).IsProper := by
  unfold ofCode
  split <;> (intro level i h; cases h) <;> decide

/-- A program with what is fixed for it. What its indices add is read as signed integers, and the
system values of its patch constants are those that have a code. -/
structure Shader where
  env : Environment
  insts : List Instruction
  signed : ∀ inst ∈ insts, ∀ op ∈ inst.parts, ∀ index ∈ op.indices, ∀ r,
    index.relative = some r → r.data = .sint32
  proper : ∀ e ∈ env.patch.elements, e.systemValue.IsProper

namespace Shader

variable {x : Shader} {v : VertexCounts} {inst : Instruction} {op : Operand}

/-- The lowering has come to an instruction, and so far the vertex counts are `v`. -/
def At (x : Shader) (v : VertexCounts) (inst : Instruction) : Prop :=
  ∃ done rest, x.insts = done ++ inst :: rest ∧ v = .after x.env.stage done

theorem At.mem (h : x.At v inst) : inst ∈ x.insts := by
  obtain ⟨done, rest, same, _⟩ := h
  rw [same]
  exact List.mem_append_right _ List.mem_cons_self

/-- The lowering has come to an executable instruction. -/
def Runs (x : Shader) (v : VertexCounts) (inst : Instruction) : Prop :=
  x.At v inst ∧ inst.isExecutable = true

/-- The vertex counts that the whole program declares. -/
def counts (x : Shader) : VertexCounts :=
  .after x.env.stage x.insts

/-- Some instruction, or the entry function at the end, depends on the vertex counts `v`. -/
def Sees (x : Shader) (v : VertexCounts) : Prop :=
  (∃ inst, x.At v inst ∧ inst.asksVertices x.env.stage = true) ∨ v = x.counts

/-- No vertex count is declared anew once an instruction depends on it. -/
def Settled (x : Shader) : Prop :=
  ∀ p ∈ x.insts.zipIdx, p.1.asksVertices x.env.stage = true →
    .after x.env.stage (x.insts.take p.2) = x.counts

instance : Decidable x.Settled :=
  inferInstanceAs (Decidable (∀ p ∈ x.insts.zipIdx, _))

theorem Settled.eq_counts (settled : x.Settled) (sees : x.Sees v) : v = x.counts := by
  obtain ⟨inst, ⟨done, rest, same, rfl⟩, asks⟩ | rfl := sees
  · have mem : (inst, done.length) ∈ x.insts.zipIdx := by
      rw [List.mem_zipIdx_iff_getElem?, same]
      simp
    have := settled _ mem asks
    rwa [same, List.take_left] at this
  · rfl

/-- A hull shader puts out at least one control point. -/
theorem Sees.outputs (h : x.Sees v) (hull : x.env.stage = .hull) : v.outputs ≠ 0 := by
  have after (insts : List Instruction) : (VertexCounts.after .hull insts).outputs ≠ 0 := by
    unfold VertexCounts.after
    refine List.foldlRecOn insts _ (motive := fun v : VertexCounts => v.outputs ≠ 0) (by decide)
      fun v hv inst _ => ?_
    unfold VertexCounts.note
    split
    · exact hv
    · exact hv
    · exact hv
    · change max _ 1 ≠ 0
      omega
    · exact hv
  obtain ⟨inst, ⟨done, rest, _, rfl⟩, _⟩ | rfl := h
  · rw [hull]
    exact after done
  · rw [counts, hull]
    exact after x.insts

/-- An executable instruction uses an operand. -/
def Uses (x : Shader) (op : Operand) : Prop :=
  ∃ inst ∈ x.insts, inst.isExecutable = true ∧ op ∈ inst.parts

/-- The lowering has come to an executable instruction that names an operand. -/
def Names (x : Shader) (v : VertexCounts) (op : Operand) : Prop :=
  ∃ inst, x.Runs v inst ∧ ∀ part ∈ op.parts, part ∈ inst.parts

namespace Names

theorem of_mem (runs : x.Runs v inst) (h : op ∈ inst.dst ++ inst.src) : x.Names v op :=
  ⟨inst, runs, fun _ hp => List.mem_flatMap.2 ⟨op, h, hp⟩⟩

theorem uses (h : x.Names v op) : x.Uses op := by
  obtain ⟨inst, ⟨here, executable⟩, parts⟩ := h
  exact ⟨inst, here.mem, executable, parts op op.self_mem_parts⟩

theorem sees (h : x.Names v op) (vertex : op.hasVertex = true) : x.Sees v := by
  obtain ⟨inst, ⟨here, executable⟩, parts⟩ := h
  refine .inl ⟨inst, here, ?_⟩
  have notDeclaration : inst.declaration? = none := by
    refine if_neg fun declaration => ?_
    rw [Instruction.isExecutable, declaration] at executable
    cases executable
  rw [Instruction.asksVertices, notDeclaration]
  simp only [executable, Bool.true_and, List.any_eq_true]
  exact ⟨op, parts op op.self_mem_parts, vertex⟩

/-- What an index adds is named with the operand, and read as signed integers. -/
theorem relative (h : x.Names v op) {index : Index Operand} (hi : index ∈ op.indices) {r : Operand}
    (added : index.relative = some r) : x.Names v r ∧ r.data = .sint32 := by
  obtain ⟨inst, runs, parts⟩ := h
  refine ⟨⟨inst, runs, fun part hp => ?_⟩, ?_⟩
  · exact parts part (Operand.parts_of_relative hi added hp)
  · exact x.signed inst runs.1.mem op (parts op op.self_mem_parts) index hi r added

end Names

/-- The lengths of the arrays that index `d` of an operand may step into, if the vertex counts are
`v`. -/
def extents (x : Shader) (v : VertexCounts) (op : Operand) (d : Nat) : List UInt32 :=
  match op.type, d with
  | .input, 0 | .inputControlPoint, 0 =>
    [if x.env.stage.hasVertices then .ofNat (v.arrayed x.env.stage) else 32]
  | .input, 1 | .inputControlPoint, 1 => [32]
  | .output, 0 | .inputPatchConstant, 0 => [32]
  | .outputControlPoint, 0 => [.ofNat v.outputs]
  | .constantBuffer, 1 =>
    x.insts.filterMap fun inst => inst.declaredBuffer?.bind fun (slot, size) =>
      if op.index? 0 = some slot then some (.ofNat size) else none
  | .immediateConstantBuffer, 0 => x.insts.filterMap (·.immediates?)
  | _, _ => []

/-- A vertex first, where inputs are arrayed, and then a register. -/
theorem extents_of_isInput (x : Shader) (v : VertexCounts) {op : Operand}
    (is : op.isInput = true) :
    x.extents v op 0 = [if x.env.stage.hasVertices then .ofNat (v.arrayed x.env.stage) else 32] ∧
      x.extents v op 1 = [32] := by
  have type : op.type = .input ∨ op.type = .inputControlPoint := by
    simpa [Operand.isInput] using is
  unfold extents
  rcases type with type | type <;> rw [type] <;> exact ⟨rfl, rfl⟩

/-- The lengths of plain arrays of four floats: the register arrays, indexable temporaries, and
what is arrayed over vertices or control points. -/
def PlainLength (x : Shader) (n : UInt32) : Prop :=
  n = 32 ∨ (∃ inst ∈ x.insts, inst.tempLength? = some n) ∨
    ∃ v, x.Sees v ∧ (n = .ofNat (v.arrayed x.env.stage) ∨ n = .ofNat v.outputs)

/-- The lengths of the arrays in constant buffers. -/
def BufferLength (x : Shader) (n : UInt32) : Prop :=
  ∃ inst ∈ x.insts, ∃ slot size, inst.declaredBuffer? = some (slot, size) ∧ n = .ofNat size

end Shader

end ShaderLowering
