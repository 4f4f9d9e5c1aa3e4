/-!
Write masks and swizzles of four-component registers. A mask is a set of components among
x, y, z, w (0 to 3); a swizzle says for each lane which component is read.
-/

namespace ShaderLowering

/-- A component mask in the low four bits; the high bits are kept but mean nothing. -/
structure WriteMask where
  bits : UInt8
deriving DecidableEq, Repr, Inhabited

namespace WriteMask

def none : WriteMask := ⟨0⟩
def x : WriteMask := ⟨1⟩
def y : WriteMask := ⟨2⟩
def z : WriteMask := ⟨4⟩
def w : WriteMask := ⟨8⟩
def xyzw : WriteMask := ⟨15⟩

/-- The first `count` components, at most all four. -/
def firstN (count : Nat) : WriteMask :=
  ⟨.ofNat (Nat.pow 2 (min count 4) - 1)⟩

/-- The single component `index`, taken modulo four. -/
def component (index : Nat) : WriteMask :=
  ⟨.ofNat (Nat.pow 2 (index % 4))⟩

def contains (m : WriteMask) (c : Nat) : Bool :=
  decide (c < 4) && m.bits.toNat.testBit c

/-- The components of the mask in increasing order. -/
def components (m : WriteMask) : List Nat :=
  (List.range 4).filter m.contains

def count (m : WriteMask) : Nat :=
  m.components.length

def isEmpty (m : WriteMask) : Bool :=
  m.bits &&& 0xf == 0

def first? (m : WriteMask) : Option Nat :=
  m.components.head?

/-- The components of either mask. -/
def union (a b : WriteMask) : WriteMask :=
  ⟨a.bits ||| b.bits⟩

instance : OrOp WriteMask := ⟨union⟩

/-- How many components of the mask come before `c`. -/
def rank (m : WriteMask) (c : Nat) : Nat :=
  ((List.range c).filter m.contains).length

theorem mem_components {m : WriteMask} {c : Nat} :
    c ∈ m.components ↔ m.contains c = true := by
  simp only [components, List.mem_filter, List.mem_range, and_iff_right_iff_imp, contains,
    Bool.and_eq_true, decide_eq_true_eq]
  exact And.left

theorem count_le (m : WriteMask) : m.count ≤ 4 :=
  Nat.le_trans (List.length_filter_le _ _) (by simp)

theorem contains_eq_getLsbD (m : WriteMask) (c : Nat) :
    m.contains c = (decide (c < 4) && m.bits.toBitVec.getLsbD c) := by
  rw [contains, ← BitVec.testBit_toNat]
  rfl

theorem contains_or (a b : WriteMask) (c : Nat) :
    (a ||| b).contains c = (a.contains c || b.contains c) := by
  change WriteMask.contains ⟨a.bits ||| b.bits⟩ c = _
  simp only [contains_eq_getLsbD, UInt8.toBitVec_or, BitVec.getLsbD_or, Bool.and_or_distrib_left]

theorem contains_and (a b : UInt8) (c : Nat) :
    contains ⟨a &&& b⟩ c = (contains ⟨a⟩ c && contains ⟨b⟩ c) := by
  simp only [contains_eq_getLsbD, UInt8.toBitVec_and, BitVec.getLsbD_and]
  cases decide (c < 4) <;> simp

theorem contains_not (a : UInt8) (c : Nat) :
    contains ⟨~~~a⟩ c = (decide (c < 4) && !contains ⟨a⟩ c) := by
  simp only [contains_eq_getLsbD, UInt8.toBitVec_not, BitVec.getLsbD_not]
  by_cases h : c < 4
  · have : c < 8 := by omega
    simp [h, this]
  · simp [h]

theorem isEmpty_iff (m : WriteMask) : m.isEmpty = true ↔ ∀ c, m.contains c = false := by
  have same : m.isEmpty = true ↔ (m.bits.toBitVec &&& 15#8) = 0#8 := by
    rw [isEmpty, beq_iff_eq, ← UInt8.toBitVec_inj]
    rfl
  rw [same]
  constructor
  · intro empty c
    rw [contains_eq_getLsbD]
    by_cases low : c < 4
    · have : (m.bits.toBitVec &&& 15#8).getLsbD c = false := by rw [empty]; simp
      rw [BitVec.getLsbD_and] at this
      have one : (15#8).getLsbD c = true := by
        match c, low with
        | 0, _ | 1, _ | 2, _ | 3, _ => rfl
      rw [one, Bool.and_true] at this
      rw [this, Bool.and_false]
    · simp [low]
  · intro none_
    apply BitVec.eq_of_getLsbD_eq
    intro c inside
    rw [BitVec.getLsbD_and]
    have absent := none_ c
    rw [contains_eq_getLsbD] at absent
    match c, inside with
    | 0, _ | 1, _ | 2, _ | 3, _ => simpa using absent
    | 4, _ | 5, _ | 6, _ | 7, _ => simp

theorem contains_component (index c : Nat) :
    (component index).contains c = decide (c = index % 4) := by
  have low : index % 4 < 4 := Nat.mod_lt _ (by decide)
  rw [component, contains]
  generalize index % 4 = lane at low ⊢
  match lane, low with
  | 0, _ | 1, _ | 2, _ | 3, _ =>
    match c with
    | 0 | 1 | 2 | 3 => rfl
    | c + 4 =>
      rw [decide_eq_false (show ¬c + 4 < 4 by omega), Bool.false_and]
      exact (decide_eq_false (by omega)).symm

theorem contains_none (c : Nat) : none.contains c = false := by
  simp [contains, none]

end WriteMask

/-- For each of the lanes x, y, z, w the component that is read. -/
structure Swizzle where
  x : Fin 4
  y : Fin 4
  z : Fin 4
  w : Fin 4
deriving DecidableEq, Repr, Inhabited

namespace Swizzle

def identity : Swizzle := ⟨0, 1, 2, 3⟩

/-- One component, taken modulo four, in every lane. -/
def replicate (c : Nat) : Swizzle :=
  ⟨.ofNat 4 c, .ofNat 4 c, .ofNat 4 c, .ofNat 4 c⟩

/-- Two bits a lane, lowest lane first. -/
def ofBits (bits : UInt32) : Swizzle :=
  let n := bits.toNat
  ⟨.ofNat 4 n, .ofNat 4 (n / 4), .ofNat 4 (n / 16), .ofNat 4 (n / 64)⟩

/-- The component read in a lane, the lane taken modulo four. -/
def lane (s : Swizzle) (index : Nat) : Nat :=
  match index % 4 with
  | 0 => s.x
  | 1 => s.y
  | 2 => s.z
  | _ => s.w

def lanes (s : Swizzle) : List Nat :=
  [s.x, s.y, s.z, s.w]

/-- The components read in the lanes of `mask`, packed to the front: what a source operand
supplies to a destination written under `mask`. -/
def picked (s : Swizzle) (mask : WriteMask) : List Nat :=
  mask.components.map s.lane

/-- The packed lanes as a swizzle, filled up with x. -/
def pick (s : Swizzle) (mask : WriteMask) : Swizzle :=
  let lanes := s.picked mask
  let at_ (i : Nat) : Fin 4 := .ofNat 4 (lanes.getD i 0)
  ⟨at_ 0, at_ 1, at_ 2, at_ 3⟩

/-- The components read through `mask`. -/
def readMask (s : Swizzle) (mask : WriteMask) : WriteMask :=
  mask.components.foldl (fun acc c => acc ||| WriteMask.component (s.lane c)) .none

def isIdentity (s : Swizzle) : Bool :=
  s = identity

theorem lane_lt (s : Swizzle) (index : Nat) : s.lane index < 4 := by
  unfold lane
  split <;> exact Fin.isLt _

@[simp] theorem length_picked (s : Swizzle) (mask : WriteMask) :
    (s.picked mask).length = mask.count := by
  simp [picked, WriteMask.count]

/-- What is read through a mask is what its lanes pick. -/
theorem contains_readMask (s : Swizzle) (mask : WriteMask) (c : Nat) :
    (s.readMask mask).contains c = decide (c ∈ s.picked mask) := by
  have gathers (list : List Nat) (acc : WriteMask) :
      (list.foldl (fun acc c => acc ||| WriteMask.component (s.lane c)) acc).contains c =
        (acc.contains c || decide (c ∈ list.map s.lane)) := by
    induction list generalizing acc with
    | nil => simp
    | cons first rest ih =>
      rw [List.foldl_cons, ih, WriteMask.contains_or, WriteMask.contains_component,
        Nat.mod_eq_of_lt (s.lane_lt first), List.map_cons, Bool.or_assoc]
      simp
  rw [readMask, gathers, picked, WriteMask.contains_none, Bool.false_or]

theorem lane_identity {c : Nat} (low : c < 4) : identity.lane c = c := by
  revert c
  decide

/-- The identity is the swizzle that picks the components of a mask as they stand. -/
theorem isIdentity_iff (s : Swizzle) :
    s.isIdentity = true ↔ ∀ mask, s.picked mask = mask.components := by
  rw [isIdentity, decide_eq_true_iff]
  constructor
  · rintro rfl mask
    refine (List.map_congr_left fun c mem => ?_).trans (List.map_id _)
    exact lane_identity (List.mem_range.1 (List.mem_filter.1 mem).1)
  · intro same
    have all : [s.lane 0, s.lane 1, s.lane 2, s.lane 3] = [0, 1, 2, 3] := same .xyzw
    obtain ⟨x, y, z, w⟩ := s
    simp only [List.cons.injEq, and_true] at all
    obtain ⟨hx, hy, hz, hw⟩ := all
    rw [show x = 0 from Fin.ext hx, show y = 1 from Fin.ext hy, show z = 2 from Fin.ext hz,
      show w = 3 from Fin.ext hw]
    rfl

end Swizzle

end ShaderLowering
