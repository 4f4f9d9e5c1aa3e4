import ShaderLowering.Proofs.Execution.Values
import ShaderLowering.Proofs.Scope.Agreement

/-!
The layout of structured thread group memory. It is declared as an array of dwords, with room for
the whole dwords of each structure, and accessed at bytes that are counted in strides. No access
inside of a structure wraps around, and no two of them meet. The two ways of counting agree as long
as the bytes that strides have beyond whole dwords do not add up to a dword.
-/

namespace ShaderLowering

open Spirv (Id Device Processor)

/-- The dword at an offset in a structure. -/
def structureDword (stride element offset : UInt32) : UInt32 :=
  (element * stride + offset) >>> 2

/-- A dword of one of `count` structures, by its offset in bytes. -/
structure IsField (stride count element offset : UInt32) : Prop where
  element : element < count
  aligned : 4 ∣ offset.toNat
  inside : offset.toNat + 4 ≤ stride.toNat

/-- The bytes beyond whole dwords that lie in front of the last structure. -/
def excess (stride count : UInt32) : Nat :=
  (count.toNat - 1) * (stride.toNat % 4)

instance (stride count element offset : UInt32) :
    Decidable (IsField stride count element offset) :=
  decidable_of_iff (element < count ∧ 4 ∣ offset.toNat ∧ offset.toNat + 4 ≤ stride.toNat)
    ⟨fun h => ⟨h.1, h.2.1, h.2.2⟩, fun h => ⟨h.element, h.aligned, h.inside⟩⟩

section Layout

variable {stride count e b e' b' : UInt32}

/-- Structures that fit with their whole dwords end in front of the last byte address. -/
theorem structures_end (fits : stride.toNat / 4 * count.toNat ≤ maxGroupDwords)
    (whole : 4 ≤ stride.toNat) : count.toNat * stride.toNat < UInt32.size := by
  have short : stride.toNat ≤ 7 * (stride.toNat / 4) := by omega
  calc count.toNat * stride.toNat
      ≤ count.toNat * (7 * (stride.toNat / 4)) := Nat.mul_le_mul_left _ short
    _ = 7 * (stride.toNat / 4 * count.toNat) := by
        rw [Nat.mul_left_comm, Nat.mul_comm count.toNat]
    _ ≤ 7 * maxGroupDwords := Nat.mul_le_mul_left 7 fits
    _ < UInt32.size := by decide

namespace IsField

/-- A field ends with its structure at the latest. -/
theorem end_le (h : IsField stride count e b) :
    e.toNat * stride.toNat + b.toNat + 4 ≤ (e.toNat + 1) * stride.toNat := by
  have inside := h.inside
  rw [Nat.succ_mul]
  omega

/-- A field lies in front of the end of all structures. -/
theorem end_le_all (h : IsField stride count e b) :
    e.toNat * stride.toNat + b.toNat + 4 ≤ count.toNat * stride.toNat :=
  Nat.le_trans h.end_le (Nat.mul_le_mul_right _ (UInt32.lt_iff_toNat_lt.1 h.element))

/-- The byte that a field starts at is the number of an address. -/
theorem start_lt (h : IsField stride count e b)
    (fits : stride.toNat / 4 * count.toNat ≤ maxGroupDwords) :
    e.toNat * stride.toNat + b.toNat < UInt32.size := by
  have inside := h.inside
  have before := structures_end fits (by omega)
  have last := h.end_le_all
  omega

theorem toNat_structureDword (h : IsField stride count e b)
    (fits : stride.toNat / 4 * count.toNat ≤ maxGroupDwords) :
    (structureDword stride e b).toNat = (e.toNat * stride.toNat + b.toNat) / 4 := by
  have start := h.start_lt fits
  simp only [UInt32.size] at start
  have small : e.toNat * stride.toNat < 2 ^ 32 := by omega
  rw [structureDword, UInt32.toNat_shiftRight, UInt32.toNat_add, UInt32.toNat_mul,
    Nat.mod_eq_of_lt small, Nat.mod_eq_of_lt start, Nat.shiftRight_eq_div_pow]
  rfl

/-- A field of an earlier structure ends where one of a later structure starts, or before. -/
theorem end_le_start (h : IsField stride count e b) (before : e.toNat < e'.toNat) :
    e.toNat * stride.toNat + b.toNat + 4 ≤ e'.toNat * stride.toNat + b'.toNat :=
  Nat.le_trans h.end_le
    (Nat.le_trans (Nat.mul_le_mul_right _ before) (Nat.le_add_right _ b'.toNat))

/-- Fields with one dword are the same. -/
theorem eq_of_structureDword (fits : stride.toNat / 4 * count.toNat ≤ maxGroupDwords)
    (h : IsField stride count e b) (h' : IsField stride count e' b')
    (same : structureDword stride e b = structureDword stride e' b') : e = e' ∧ b = b' := by
  have dwords : (e.toNat * stride.toNat + b.toNat) / 4 =
      (e'.toNat * stride.toNat + b'.toNat) / 4 := by
    rw [← h.toNat_structureDword fits, ← h'.toNat_structureDword fits, same]
  rcases Nat.lt_trichotomy e.toNat e'.toNat with before | here | behind
  · have apart : e.toNat * stride.toNat + b.toNat + 4 ≤ e'.toNat * stride.toNat + b'.toNat :=
      h.end_le_start before
    omega
  · have aligned := h.aligned
    have aligned' := h'.aligned
    rw [here] at dwords
    exact ⟨UInt32.toNat_inj.1 here, UInt32.toNat_inj.1 (by omega)⟩
  · have apart : e'.toNat * stride.toNat + b'.toNat + 4 ≤ e.toNat * stride.toNat + b.toNat :=
      h'.end_le_start behind
    omega

/-- A field lies in the array if the bytes beyond whole dwords add up to less than a dword. -/
theorem structureDword_lt (h : IsField stride count e b)
    (fits : stride.toNat / 4 * count.toNat ≤ maxGroupDwords) (few : excess stride count < 4) :
    (structureDword stride e b).toNat < stride.toNat / 4 * count.toNat := by
  have inside := h.inside
  have aligned := h.aligned
  have element := UInt32.lt_iff_toNat_lt.1 h.element
  have beyond : e.toNat * (stride.toNat % 4) < 4 :=
    Nat.lt_of_le_of_lt (Nat.mul_le_mul_right _ (Nat.le_sub_one_of_lt element)) few
  have wholes : stride.toNat / 4 * e.toNat + stride.toNat / 4 ≤ stride.toNat / 4 * count.toNat :=
    Nat.mul_le_mul_left (stride.toNat / 4) element
  have start : e.toNat * stride.toNat =
      4 * (stride.toNat / 4 * e.toNat) + e.toNat * (stride.toNat % 4) := by
    conv_lhs => rw [← Nat.div_add_mod stride.toNat 4, Nat.mul_add]
    rw [Nat.mul_comm e.toNat, Nat.mul_assoc]
  rw [h.toNat_structureDword fits, start]
  omega

end IsField

/-- Otherwise the last field of the last structure lies behind the array. -/
theorem exists_le_structureDword (fits : stride.toNat / 4 * count.toNat ≤ maxGroupDwords)
    (some_ : 0 < count) (whole : 4 ≤ stride.toNat) (many : 4 ≤ excess stride count) :
    ∃ e b, IsField stride count e b ∧
      stride.toNat / 4 * count.toNat ≤ (structureDword stride e b).toNat := by
  have positive : 0 < count.toNat := UInt32.lt_iff_toNat_lt.1 some_
  have last : (count - 1).toNat = count.toNat - 1 :=
    UInt32.toNat_sub_of_le _ _ (UInt32.le_iff_toNat_le.2 positive)
  have room := stride.toNat_lt_size
  have offset : (UInt32.ofNat (stride.toNat / 4 * 4 - 4)).toNat = stride.toNat / 4 * 4 - 4 :=
    UInt32.toNat_ofNat_of_lt' (by omega)
  have field : IsField stride count (count - 1) (.ofNat (stride.toNat / 4 * 4 - 4)) := by
    refine ⟨UInt32.lt_iff_toNat_lt.2 (by omega), ?_, ?_⟩
    · rw [offset]
      omega
    · rw [offset]
      omega
  refine ⟨_, _, field, ?_⟩
  have all : stride.toNat / 4 * count.toNat =
      stride.toNat / 4 * (count.toNat - 1) + stride.toNat / 4 := by
    conv_lhs => rw [← Nat.sub_add_cancel positive, Nat.mul_succ]
  have start : (count.toNat - 1) * stride.toNat =
      4 * (stride.toNat / 4 * (count.toNat - 1)) + excess stride count := by
    conv_lhs => rw [← Nat.div_add_mod stride.toNat 4, Nat.mul_add]
    rw [Nat.mul_comm (count.toNat - 1), Nat.mul_assoc]
    rfl
  rw [field.toNat_structureDword fits, last, offset, start, all]
  omega

end Layout

namespace Lower

/-- The code of an access computes the dword of an offset in a structure. -/
theorem structureByte_reads {d : Device} {L : Id → Prop} {env : Environment} {s : State}
    {μ : Processor} {element offset : Id} {e b : UInt32} (stride : UInt32)
    (he : s.Knows μ element (.words [e])) (hb : s.Knows μ offset (.words [b])) :
    Reads d L env (structureByte stride element offset >>= dwordAt) s μ fun id t ν =>
      t.Knows ν id (.words [structureDword stride e b]) := by
  refine .bind (Q := fun id t ν => t.Knows ν id (.words [e * stride + b])) ?_
    fun byte t ν _ hbyte => ?_
  · refine .bind (scalarType_reads .u32) fun word t ν toWord _ => ?_
    refine .bind (constant_reads (by decide) stride) fun strideId u κ toStride isStride => ?_
    refine .bind (number_reads rfl (toStride.knows (toWord.knows he))
      (.of_constant toStride.ready isStride) rfl) fun start v ξ toStart hstart => ?_
    exact number_reads rfl hstart (toStart.knows (toStride.knows (toWord.knows hb))) rfl
  · refine .bind (scalarType_reads .u32) fun word u κ toWord _ => ?_
    refine .bind (constant_reads (by decide) 2) fun two v ξ toTwo isTwo => ?_
    exact number_reads rfl (toTwo.knows (toWord.knows hbyte)) (.of_constant toTwo.ready isTwo) rfl

end Lower

/-- The array of structured thread group memory has the dwords that the accesses of structures
compute. -/
structure GroupMemory.Houses (g : GroupMemory) (m : Spirv.Module) (stride count : UInt32) :
    Prop where
  strided : g.stride = stride
  sized : g.length = max (stride.toNat / 4 * count.toNat) 1
  array : m.Places g.variable_ .workgroup (.array (.ofNat g.length) (.vector (.single .u32)))
  /-- The start of a field does not wrap around. -/
  start : ∀ e b, IsField stride count e b → e.toNat * stride.toNat + b.toNat < UInt32.size
  /-- Accesses compute the dword of a field. -/
  reads : ∀ (d : Device) (L : Id → Prop) (env : Environment) (s : State) (μ : Processor)
    (element offset : Id) (e b : UInt32), s.Knows μ element (.words [e]) →
      s.Knows μ offset (.words [b]) →
        Reads d L env (Lower.structureByte g.stride element offset >>= Lower.dwordAt) s μ
          fun id t ν => t.Knows ν id (.words [structureDword stride e b])
  apart : ∀ e b e' b', IsField stride count e b → IsField stride count e' b' →
    structureDword stride e b = structureDword stride e' b' → e = e' ∧ b = b'
  /-- All fields lie in the array exactly if the bytes beyond whole dwords do not add up. -/
  inside : (∀ e b, IsField stride count e b → (structureDword stride e b).toNat < g.length) ↔
    stride < 4 ∨ excess stride count < 4

/-- There are no fields in structures without whole dwords. -/
theorem IsField.whole {stride count e b : UInt32} (h : IsField stride count e b) : ¬stride < 4 := by
  intro short
  have inside := h.inside
  have short := UInt32.lt_iff_toNat_lt.1 short
  have four : (4 : UInt32).toNat = 4 := rfl
  omega

theorem forall_structureDword_lt_iff {stride count : UInt32}
    (fits : stride.toNat / 4 * count.toNat ≤ maxGroupDwords) (some_ : 0 < count) :
    (∀ e b, IsField stride count e b →
      (structureDword stride e b).toNat < max (stride.toNat / 4 * count.toNat) 1) ↔
    stride < 4 ∨ excess stride count < 4 := by
  constructor
  · intro inside
    by_contra many
    obtain ⟨whole, many⟩ := not_or.1 many
    have four : 4 ≤ stride.toNat := UInt32.le_iff_toNat_le.1 (UInt32.not_lt.1 whole)
    obtain ⟨e, b, field, behind⟩ :=
      exists_le_structureDword fits some_ four (Nat.le_of_not_lt many)
    have before := inside e b field
    have positive : 0 < stride.toNat / 4 * count.toNat :=
      Nat.mul_pos (by omega) (UInt32.lt_iff_toNat_lt.1 some_)
    omega
  · rintro (short | few) e b field
    · exact absurd short field.whole
    · exact Nat.lt_of_lt_of_le (field.structureDword_lt fits few) (Nat.le_max_left _ _)

theorem Lower.lowerInstruction_structuredGroupMemory {env : Environment} {s t : State}
    {inst : Instruction} (family : inst.family = .declaration)
    (is : inst.op? = some .dclTgsmStructured)
    (ran : result (lowerInstruction inst) env s = (.ok (), t)) :
    (inst.imm.getD 0 0).toNat / 4 * (inst.imm.getD 1 0).toNat ≤ maxGroupDwords ∧
      ∃ r, inst.groupRegister? = some r ∧ t.shape? r = some (.dwords (inst.imm.getD 0 0)
        (max ((inst.imm.getD 0 0).toNat / 4 * (inst.imm.getD 1 0).toNat) 1)) := by
  obtain ⟨_, u, lowered, remembered⟩ := result_bind_eq_ok.1 ran
  cases remembered
  have lowers : lowerDeclaration inst =
      lowerStructuredGroupMemory inst (inst.imm.getD 0 0) (inst.imm.getD 1 0) := by
    rw [lowerDeclaration, is]
    rfl
  rw [lowerByFamily_declaration family, lowers] at lowered
  obtain ⟨fits, r, register, shape⟩ := lowerStructuredGroupMemory_shape lowered
  exact ⟨fits, r, register, (shape : u.shape? r = _)⟩

namespace Lowering

/-- Thread group memory is an array of dwords, as long as it has been declared. -/
theorem groupMemory_places (x : Shader) {first l : Lowering} {done : List Instruction}
    (started : start x.env = .ok first) (prefix_ : done <+: x.insts)
    (accepted : first.steps done = .ok l) : l.state.groupMemory.All fun _ g =>
      l.state.builder.module.Places g.variable_ .workgroup
        (.array (.ofNat g.length) (.vector (.single .u32))) := by
  have known := invariant_upTo prefix_ started accepted
  exact known.tables.groupMemory.imp fun _ _ houses => houses.places

variable {program : Program} {insts before : List Instruction} {inst : Instruction}
  {entries : SignatureEntries} {options : Options} {first l : Lowering}

/-- Structured thread group memory that is accepted, with at least one structure, is an array of
dwords in which no two fields meet. It has all of them if the strides are made of whole dwords, or
if what they have beyond those does not add up to a dword. -/
theorem steps_houses (decoded : program.instructions = .ok insts)
    (started : start (program.environment insts entries options) = .ok first)
    (prefix_ : before ++ [inst] <+: insts) (accepted : first.steps (before ++ [inst]) = .ok l)
    (is : inst.op? = some .dclTgsmStructured) (some_ : 0 < inst.imm.getD 1 0) :
    ∃ reg g, inst.groupRegister? = some (.groupMemory reg) ∧
      l.state.groupMemory.find? reg = some g ∧
      g.Houses l.state.builder.module (inst.imm.getD 0 0) (inst.imm.getD 1 0) := by
  have mem : inst ∈ insts := prefix_.subset (List.mem_append_right _ (List.mem_singleton_self _))
  have family : inst.family = .declaration := (program.hasFamily decoded inst mem).family_eq is
  have arrays := groupMemory_places (program.shader decoded entries options) started
    prefix_ accepted
  obtain ⟨k, _, last⟩ := steps_append.1 accepted
  obtain ⟨m, stepped, none_⟩ := steps_cons.1 last
  cases none_
  obtain ⟨fits, r, register, shape⟩ :=
    Lower.lowerInstruction_structuredGroupMemory family is (step_eq_ok.1 stepped).1
  obtain ⟨op, _, rfl⟩ := Option.map_eq_some_iff.1 register
  obtain ⟨g, found, same⟩ := Option.map_eq_some_iff.1 shape
  obtain ⟨strided, sized⟩ := RegisterShape.dwords.inj same
  refine ⟨_, g, register, found, ?_⟩
  refine
    { strided, sized
      array := arrays.find? found
      start := fun e b field => field.start_lt fits
      reads := ?_
      apart := fun e b e' b' field field' => field.eq_of_structureDword fits field'
      inside := ?_ }
  · intro d L env s μ element offset e b he hb
    rw [strided]
    exact Lower.structureByte_reads _ he hb
  · rw [sized]
    exact forall_structureDword_lt_iff fits some_

end Lowering

/-- A compute shader that declares structured thread group memory. -/
def structured (stride count : UInt32) : Program :=
  .assume [0x50050, 11, 0x0400009b, 1, 1, 1, 0x050000a0, 0x0011f000, 0, stride, count]

namespace Lowering

theorem steps_houses_structured :
    ∃ insts before inst first l reg g, (structured 6 2).instructions = .ok insts ∧
      start ((structured 6 2).environment insts ⟨[], [], []⟩ .default) = .ok first ∧
      before ++ [inst] <+: insts ∧ first.steps (before ++ [inst]) = .ok l ∧
      inst.op? = some .dclTgsmStructured ∧ 0 < inst.imm.getD 1 0 ∧
      inst.groupRegister? = some (.groupMemory reg) ∧ l.state.groupMemory.find? reg = some g ∧
      g.Houses l.state.builder.module (inst.imm.getD 0 0) (inst.imm.getD 1 0) := by
  obtain ⟨_, insts, _, _, lowered, _, decoded, evaluates⟩ :=
    exists_compile (structured 6 2) ⟨[], [], []⟩ .default (fun insts _ _ => decide
      (insts.getLast?.map (fun i => (i.op?, i.imm)) = some (some .dclTgsmStructured, [6, 2])))
      (by decide +kernel)
  obtain ⟨inst, last, declares⟩ := Option.map_eq_some_iff.1 (of_decide_eq_true evaluates)
  obtain ⟨before, rfl⟩ := List.getLast?_eq_some_iff.1 last
  obtain ⟨is, imm⟩ := Prod.mk.inj declares
  obtain ⟨first, l, started, accepted, _⟩ := lowerInstructions_eq_ok.1 lowered
  have some_ : 0 < inst.imm.getD 1 0 := by
    rw [imm]
    decide
  have all : before ++ [inst] <+: before ++ [inst] := List.prefix_rfl
  obtain ⟨reg, g, register, found, houses⟩ :=
    steps_houses decoded started all accepted is some_
  exact ⟨_, before, inst, first, l, reg, g, decoded, started, all, accepted, is, some_,
    register, found, houses⟩

end Lowering

/-- Three structures of six bytes get three dwords, and the last of them starts in a fourth. -/
theorem exists_structureDword_outside :
    ∃ insts l g, (structured 6 3).instructions = .ok insts ∧
      lowerInstructions ((structured 6 3).environment insts ⟨[], [], []⟩ .default) insts = .ok l ∧
      (∃ inst ∈ insts, inst.op? = some .dclTgsmStructured ∧ inst.imm = [6, 3]) ∧
      l.state.groupMemory.find? 0 = some g ∧ g.stride = 6 ∧ g.length = 3 ∧
      IsField 6 3 2 0 ∧ (structureDword 6 2 0).toNat = 3 := by
  obtain ⟨_, insts, l, _, lowered, _, decoded, evaluates⟩ :=
    exists_compile (structured 6 3) ⟨[], [], []⟩ .default (fun insts _ l => decide
      ((∃ inst ∈ insts, inst.op? = some .dclTgsmStructured ∧ inst.imm = [6, 3]) ∧
      (l.state.groupMemory.find? 0).map (fun g => (g.stride, g.length)) = some (6, 3)))
      (by decide +kernel)
  obtain ⟨declares, sized⟩ := of_decide_eq_true evaluates
  obtain ⟨g, found, same⟩ := Option.map_eq_some_iff.1 sized
  obtain ⟨stride, length⟩ := Prod.mk.inj same
  exact ⟨insts, l, g, decoded, lowered, declares, found, stride, length, by decide, by decide⟩

end ShaderLowering
