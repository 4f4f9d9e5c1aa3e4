import ShaderLowering.Proofs.Execution.Processor
import ShaderLowering.Proofs.Program.Slots
import Mathlib.Data.BitVec
import Mathlib.Tactic.SplitIfs

/-!
What integer instructions make of words. The definitions follow the description of the instruction
set: shifts go by the low five bits of their distance, bit fields are cut out by shifting to both
ends, first bits are counted from where the search begins. The lemmas say how operations of the
processor compute them.
-/

namespace ShaderLowering

open Spirv (Op ExtOp Device bit signed)

namespace Word

/-- Comparisons give all ones or all zeros. -/
def mask (b : Bool) : UInt32 :=
  if b then 0xffffffff else 0

def shiftLeft (a n : UInt32) : UInt32 :=
  ⟨a.toBitVec <<< (n.toNat % 32)⟩

def shiftRight (a n : UInt32) : UInt32 :=
  ⟨a.toBitVec >>> (n.toNat % 32)⟩

/-- The sign moves in from the top. -/
def shiftRightSigned (a n : UInt32) : UInt32 :=
  ⟨a.toBitVec.sshiftRight (n.toNat % 32)⟩

/-- A bit field: shifted up to the end of the word and down again, or only down where it reaches
past the end. -/
def field (width offset a : UInt32) : UInt32 :=
  let w := width.toNat % 32
  let o := offset.toNat % 32
  if w = 0 then 0
  else if w + o < 32 then ⟨a.toBitVec <<< (32 - (w + o)) >>> (32 - w)⟩
  else ⟨a.toBitVec >>> o⟩

/-- A bit field that is a signed number. -/
def signedField (width offset a : UInt32) : UInt32 :=
  let w := width.toNat % 32
  let o := offset.toNat % 32
  if w = 0 then 0
  else if w + o < 32 then ⟨(a.toBitVec <<< (32 - (w + o))).sshiftRight (32 - w)⟩
  else ⟨a.toBitVec.sshiftRight o⟩

/-- A bit field of `base` replaced, as far as it is inside of the word. -/
def insertField (width offset field base : UInt32) : UInt32 :=
  let w := width.toNat % 32
  let o := offset.toNat % 32
  let inside : BitVec 32 := (1#32 <<< w - 1#32) <<< o
  ⟨field.toBitVec <<< o &&& inside ||| base.toBitVec &&& ~~~inside⟩

/-- How far the first set bit is from the top, all ones if no bit is set. -/
def firstBitHigh (a : UInt32) : UInt32 :=
  ((List.range 32).find? fun i => bit a (31 - i)).elim 0xffffffff .ofNat

/-- How far the first set bit is from the bottom. -/
def firstBitLow (a : UInt32) : UInt32 :=
  ((List.range 32).find? (bit a)).elim 0xffffffff .ofNat

/-- How far the first bit that differs from the sign is from the top. -/
def firstBitSigned (a : UInt32) : UInt32 :=
  firstBitHigh (if signed a < 0 then ~~~a else a)

/-- High and low word of a product. -/
def product (p : Int) : List UInt32 :=
  [⟨.ofInt 32 (p / UInt32.size)⟩, ⟨.ofInt 32 p⟩]

end Word

/-- What an integer instruction computes from a component of each of its sources: a word for each of
its destinations, in their order. -/
def Opcode.words? (op : Opcode) (sources : List UInt32) : Option (List UInt32) :=
  match op, sources with
  | and, [a, b] => some [a &&& b]
  | or, [a, b] => some [a ||| b]
  | xor, [a, b] => some [a ^^^ b]
  | not, [a] => some [~~~a]
  | iadd, [a, b] => some [a + b]
  | ineg, [a] => some [-a]
  | imad, [a, b, c] | umad, [a, b, c] => some [a * b + c]
  | imin, [a, b] => some [if signed a ≤ signed b then a else b]
  | imax, [a, b] => some [if signed b ≤ signed a then a else b]
  | umin, [a, b] => some [if a ≤ b then a else b]
  | umax, [a, b] => some [if b ≤ a then a else b]
  | ishl, [a, n] => some [Word.shiftLeft a n]
  | ishr, [a, n] => some [Word.shiftRightSigned a n]
  | ushr, [a, n] => some [Word.shiftRight a n]
  | ieq, [a, b] => some [Word.mask (a = b)]
  | ine, [a, b] => some [Word.mask (a ≠ b)]
  | ilt, [a, b] => some [Word.mask (signed a < signed b)]
  | ige, [a, b] => some [Word.mask (signed b ≤ signed a)]
  | ult, [a, b] => some [Word.mask (a < b)]
  | uge, [a, b] => some [Word.mask (b ≤ a)]
  | imul, [a, b] => some (Word.product (signed a * signed b))
  | umul, [a, b] => some (Word.product (a.toNat * b.toNat))
  | udiv, [a, b] => 
    some [if b = 0 then 0xffffffff else a / b, if b = 0 then 0xffffffff else a % b]
  | uaddc, [a, b] => some [a + b, if UInt32.size ≤ a.toNat + b.toNat then 1 else 0]
  | usubb, [a, b] => some [a - b, if a < b then 1 else 0]
  | bfi, [width, offset, field, base] => some [Word.insertField width offset field base]
  | ubfe, [width, offset, a] => some [Word.field width offset a]
  | ibfe, [width, offset, a] => some [Word.signedField width offset a]
  | bfrev, [a] => some [⟨a.toBitVec.reverse⟩]
  | countBits, [a] => some [.ofNat ((List.range 32).countP (bit a))]
  | firstbitHi, [a] => some [Word.firstBitHigh a]
  | firstbitLo, [a] => some [Word.firstBitLow a]
  | firstbitShi, [a] => some [Word.firstBitSigned a]
  | _, _ => none

/-- The words for the destinations of an integer instruction. -/
def Opcode.words (op : Opcode) (sources : List UInt32) : List UInt32 :=
  (op.words? sources).getD []

/-- The integer instructions that `Opcode.words?` describes. -/
def Opcode.integers : List Opcode :=
  [.and, .or, .xor, .not, .iadd, .ineg, .imad, .umad, .imin, .imax, .umin, .umax, .ishl, .ishr,
    .ushr, .ieq, .ine, .ilt, .ige, .ult, .uge, .imul, .umul, .udiv, .uaddc, .usubb, .bfi, .ubfe,
    .ibfe, .bfrev, .countBits, .firstbitHi, .firstbitLo, .firstbitShi]

namespace Opcode

/-- Every integer instruction has a word for each destination, given one for each source. -/
theorem exists_words {op : Opcode} (integer : op ∈ integers) {ws : List UInt32}
    (size : ws.length = op.sources.length) :
    ∃ out, op.words? ws = some out ∧ out.length = op.destinations.length := by
  have few : ∀ op ∈ integers, op.sources.length ≤ 4 := by decide
  match ws, size, few op integer with
  | [], size, _ | [_], size, _ | [_, _], size, _ | [_, _, _], size, _ | [_, _, _, _], size, _ =>
    simp only [integers, List.mem_cons, List.not_mem_nil, or_false] at integer
    rcases integer with rfl | rfl | rfl | rfl | rfl | rfl | rfl | rfl | rfl | rfl | rfl | rfl | rfl
      | rfl | rfl | rfl | rfl | rfl | rfl | rfl | rfl | rfl | rfl | rfl | rfl | rfl | rfl
      | rfl | rfl | rfl | rfl | rfl | rfl | rfl <;> first | exact ⟨_, rfl, rfl⟩ | cases size
  | _ :: _ :: _ :: _ :: _ :: _, size, few =>
    rw [← size] at few
    simp only [List.length_cons] at few
    omega

end Opcode

namespace Word

/-- The low five bits of a word. -/
theorem toNat_and_low (n : UInt32) : (n &&& 0x1f).toNat = n.toNat % 32 := by
  rw [UInt32.toNat_and]
  exact Nat.and_two_pow_sub_one_eq_mod n.toNat 5

/-- The width of a bit field, cut at the end of the word. -/
def fieldCount (width offset : UInt32) : UInt32 :=
  let room := 32 - (offset &&& 0x1f)
  if room < width &&& 0x1f then room else width &&& 0x1f

theorem toNat_fieldCount (width offset : UInt32) :
    (fieldCount width offset).toNat = min (width.toNat % 32) (32 - offset.toNat % 32) := by
  have w := toNat_and_low width
  have o := toNat_and_low offset
  have room : (32 - (offset &&& 0x1f)).toNat = 32 - offset.toNat % 32 := by
    rw [UInt32.toNat_sub_of_le _ _ (by rw [UInt32.le_iff_toNat_le, o]; simp; omega), o]
    rfl
  unfold fieldCount
  dsimp only
  split
  · next less =>
    rw [UInt32.lt_iff_toNat_lt] at less
    omega
  · next more =>
    rw [UInt32.lt_iff_toNat_lt] at more
    omega

/-- A bit field that is cut so is inside of the word. -/
theorem fieldCount_fits (width offset : UInt32) :
    (offset &&& 0x1f).toNat + (fieldCount width offset).toNat ≤ 32 := by
  rw [toNat_and_low, toNat_fieldCount]
  have := Nat.mod_lt offset.toNat (by decide : 0 < 32)
  omega

/-- What is cut out of a word is what shifting to both ends leaves of it. -/
theorem fieldOf_eq (width offset a : UInt32) :
    Op.fieldOf a (offset &&& 0x1f).toNat (fieldCount width offset).toNat =
      field width offset a := by
  rw [toNat_and_low, toNat_fieldCount]
  have o := Nat.mod_lt offset.toNat (by decide : 0 < 32)
  apply UInt32.toBitVec_inj.1
  apply BitVec.eq_of_getLsbD_eq
  intro i hi
  unfold field Op.fieldOf
  dsimp only
  split_ifs with none_ short
  · simp [none_]
  · simp [hi]
    grind
  · simp [hi]
    grind

theorem getLsbD_signedField {o n i : Nat} (a : BitVec 32) (hi : i < 32) :
    ((a.extractLsb' o n).signExtend 32).getLsbD i =
      (decide (0 < n) && a.getLsbD (min i (n - 1) + o)) := by
  rw [BitVec.getLsbD_signExtend, BitVec.msb_eq_getLsbD_last, BitVec.getLsbD_extractLsb',
    BitVec.getLsbD_extractLsb']
  grind

theorem signedFieldOf_eq (width offset a : UInt32) :
    Op.signedFieldOf a (offset &&& 0x1f).toNat (fieldCount width offset).toNat =
      signedField width offset a := by
  rw [toNat_and_low, toNat_fieldCount]
  have o := Nat.mod_lt offset.toNat (by decide : 0 < 32)
  apply UInt32.toBitVec_inj.1
  apply BitVec.eq_of_getLsbD_eq
  intro i hi
  unfold signedField Op.signedFieldOf
  dsimp only
  rw [getLsbD_signedField _ hi]
  split_ifs with none_ short
  · simp [none_]
  · rw [BitVec.getLsbD_sshiftRight, BitVec.msb_eq_getLsbD_last, BitVec.getLsbD_shiftLeft,
      BitVec.getLsbD_shiftLeft]
    grind
  · rw [BitVec.getLsbD_sshiftRight, BitVec.msb_eq_getLsbD_last]
    grind

/-- The bits of a word between two positions. -/
theorem getLsbD_inside {w o i : Nat} (hi : i < 32) (few : w < 32) :
    ((1#32 <<< w - 1#32) <<< o).getLsbD i = (decide (o ≤ i) && decide (i < o + w)) := by
  have ones : (1#32 <<< w - 1#32) = (BitVec.allOnes w).setWidth 32 := by
    apply BitVec.eq_of_toNat_eq
    have small : 2 ^ w < 2 ^ 32 := Nat.pow_lt_pow_right (by decide) few
    have pos : 0 < 2 ^ w := Nat.two_pow_pos w
    simp [Nat.shiftLeft_eq]
    omega
  rw [ones]
  simp [hi]
  grind

/-- Only the part of a field that is inside of the word is put in. -/
theorem insertInto_eq (width offset field base : UInt32) :
    Op.insertInto base field (offset &&& 0x1f).toNat (fieldCount width offset).toNat =
      insertField width offset field base := by
  rw [toNat_and_low, toNat_fieldCount]
  have o := Nat.mod_lt offset.toNat (by decide : 0 < 32)
  have w := Nat.mod_lt width.toNat (by decide : 0 < 32)
  apply UInt32.toBitVec_inj.1
  apply BitVec.eq_of_getLsbD_eq
  intro i hi
  unfold insertField Op.insertInto
  dsimp only
  rw [BitVec.getLsbD_or, BitVec.getLsbD_or, BitVec.getLsbD_or, BitVec.getLsbD_and,
    BitVec.getLsbD_and, BitVec.getLsbD_not, getLsbD_inside hi w]
  simp [hi]
  grind

theorem low_lt (n : UInt32) : n &&& 0x1f < 32 := by
  rw [UInt32.lt_iff_toNat_lt, toNat_and_low]
  exact Nat.mod_lt _ (by decide)

theorem number?_shiftLeft (d : Device) (a n : UInt32) :
    Op.number? d .shiftLeftLogical [a, n &&& 0x1f] = some (shiftLeft a n) := by
  change some (if _ then _ else _) = _
  rw [if_pos (low_lt n), shiftLeft]
  congr 1
  apply UInt32.toBitVec_inj.1
  rw [UInt32.toBitVec_shiftLeft, BitVec.shiftLeft_eq']
  congr 1
  rw [BitVec.toNat_umod, UInt32.toNat_toBitVec, toNat_and_low]
  exact Nat.mod_mod _ _

theorem number?_shiftRight (d : Device) (a n : UInt32) :
    Op.number? d .shiftRightLogical [a, n &&& 0x1f] = some (shiftRight a n) := by
  change some (if _ then _ else _) = _
  rw [if_pos (low_lt n), shiftRight]
  congr 1
  apply UInt32.toBitVec_inj.1
  rw [UInt32.toBitVec_shiftRight, BitVec.ushiftRight_eq']
  congr 1
  rw [BitVec.toNat_umod, UInt32.toNat_toBitVec, toNat_and_low]
  exact Nat.mod_mod _ _

theorem number?_shiftRightSigned (d : Device) (a n : UInt32) :
    Op.number? d .shiftRightArithmetic [a, n &&& 0x1f] = some (shiftRightSigned a n) := by
  change some (if _ then _ else _) = _
  rw [if_pos (low_lt n), toNat_and_low]
  rfl

theorem field?_unsigned (d : Device) (width offset a : UInt32) :
    Op.field? d .bitFieldUExtract [a, offset &&& 0x1f, fieldCount width offset] =
      some (field width offset a) := by
  change some (if _ then _ else _) = _
  rw [if_pos (fieldCount_fits _ _), fieldOf_eq]

theorem field?_signed (d : Device) (width offset a : UInt32) :
    Op.field? d .bitFieldSExtract [a, offset &&& 0x1f, fieldCount width offset] =
      some (signedField width offset a) := by
  change some (if _ then _ else _) = _
  rw [if_pos (fieldCount_fits _ _), signedFieldOf_eq]

theorem field?_insert (d : Device) (width offset field base : UInt32) :
    Op.field? d .bitFieldInsert [base, field, offset &&& 0x1f, fieldCount width offset] =
      some (insertField width offset field base) := by
  change some (if _ then _ else _) = _
  rw [if_pos (fieldCount_fits _ _), insertInto_eq]

/-- The highest position is as far from the top as a search from there finds it. -/
theorem highest_eq (p : Nat → Bool) : Spirv.highest p =
    ((List.range 32).find? fun i => p (31 - i)).elim 0xffffffff fun i => .ofNat (31 - i) := by
  have down : (List.range 32).reverse = (List.range 32).map (31 - ·) := by decide
  rw [Spirv.highest, down, List.find?_map]
  change (((List.range 32).find? fun i => p (31 - i)).map (31 - ·)).elim _ _ = _
  cases (List.range 32).find? fun i => p (31 - i) <;> rfl

/-- A position counted from the top. -/
theorem flipped_highest (p : Nat → Bool) :
    (if Spirv.highest p = 0xffffffff then 0xffffffff else 31 - Spirv.highest p) =
      ((List.range 32).find? fun i => p (31 - i)).elim 0xffffffff .ofNat := by
  rw [highest_eq]
  cases found : (List.range 32).find? fun i => p (31 - i) with
  | none => rfl
  | some i =>
    have inside : i < 32 := List.mem_range.1 (List.mem_of_find?_eq_some found)
    rw [Option.elim_some, Option.elim_some]
    have all : ∀ i < 32, (if UInt32.ofNat (31 - i) = 0xffffffff then 0xffffffff
        else 31 - UInt32.ofNat (31 - i)) = UInt32.ofNat i := by decide
    exact all i inside

theorem firstBitHigh_eq (a : UInt32) :
    (if Spirv.highest (bit a) = 0xffffffff then 0xffffffff else 31 - Spirv.highest (bit a)) =
      firstBitHigh a :=
  flipped_highest (bit a)

theorem bit_not (a : UInt32) {i : Nat} (inside : i < 32) : bit (~~~a) i = !bit a i := by
  unfold bit
  rw [← UInt32.toNat_toBitVec, ← UInt32.toNat_toBitVec, BitVec.testBit_toNat, BitVec.testBit_toNat,
    UInt32.toBitVec_not, BitVec.getLsbD_not]
  simp [inside]

theorem signed_neg_iff (a : UInt32) : signed a < 0 ↔ bit a 31 = true := by
  unfold signed bit
  rw [← UInt32.toNat_toBitVec, BitVec.testBit_toNat, ← BitVec.msb_eq_getLsbD_last,
    BitVec.msb_eq_toInt, decide_eq_true_iff]

theorem firstBitSigned_eq (a : UInt32) :
    let p : Nat → Bool := fun i => bit a i ≠ bit a 31
    (if Spirv.highest p = 0xffffffff then 0xffffffff else 31 - Spirv.highest p) =
      firstBitSigned a := by
  dsimp only
  rw [flipped_highest, firstBitSigned, firstBitHigh]
  congr 2
  funext i
  have inside : 31 - i < 32 := by omega
  split
  · next negative =>
    rw [bit_not a inside, (signed_neg_iff a).1 negative]
    simp
  · next other =>
    rw [Bool.eq_false_iff.2 (mt (signed_neg_iff a).2 other)]
    simp

end Word

end ShaderLowering
