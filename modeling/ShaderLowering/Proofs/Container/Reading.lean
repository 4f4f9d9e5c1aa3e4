import Mathlib.Algebra.Group.Nat.Defs
import Mathlib.Data.List.Forall2
import Mathlib.Data.List.GetD
import Mathlib.Logic.Function.Basic
import ShaderLowering.Container.FourCC

/-!
What is read from a byte string: numbers and identifiers at an offset, inside a prefix, and where
a part of the string is known to stand.
-/

namespace ShaderLowering

/-- A traversal returns results just when each of them is what its element gives. -/
theorem mapM_eq_ok {ε α β : Type} {f : α → Except ε β} {list : List α} {results : List β} :
    list.mapM f = .ok results ↔ List.Forall₂ (fun a b => f a = .ok b) list results := by
  induction list generalizing results with
  | nil => cases results <;> simp [pure, Except.pure]
  | cons a rest ih =>
    rw [List.mapM_cons]
    cases h : f a with
    | error e => cases results <;> simp [bind, Except.bind, h]
    | ok b =>
      cases h' : rest.mapM f with
      | error e => cases results <;> simp [bind, Except.bind, ← ih, h, h']
      | ok bs => cases results <;> simp [bind, Except.bind, pure, Except.pure, ← ih, h, h']

/-- A list around one of its elements. -/
theorem eq_take_cons_drop {α : Type} {list : List α} {i : Nat} (inside : i < list.length) :
    list = list.take i ++ list[i] :: list.drop (i + 1) := by
  rw [← List.drop_eq_getElem_cons inside, List.take_append_drop]

namespace Bytes

variable {bytes : Bytes} {offset n len : Nat}

/-- The little-endian number in the four bytes from `offset` on. Bytes behind the end count as
zeros. -/
def numberAt (bytes : Bytes) (offset : Nat) : Nat :=
  (bytes.getD offset 0).toNat + 0x100 * (bytes.getD (offset + 1) 0).toNat +
  0x10000 * (bytes.getD (offset + 2) 0).toNat + 0x1000000 * (bytes.getD (offset + 3) 0).toNat

theorem numberAt_lt (bytes : Bytes) (offset : Nat) : bytes.numberAt offset < 2 ^ 32 := by
  have first := (bytes.getD offset 0).toNat_lt
  have second := (bytes.getD (offset + 1) 0).toNat_lt
  have third := (bytes.getD (offset + 2) 0).toNat_lt
  have fourth := (bytes.getD (offset + 3) 0).toNat_lt
  unfold numberAt
  omega

theorem drop_eq_getD_cons (inside : offset < bytes.length) :
    bytes.drop offset = bytes.getD offset 0 :: bytes.drop (offset + 1) := by
  rw [List.drop_eq_getElem_cons inside, List.getD_eq_getElem _ _ inside]

@[simp] theorem toNat_numberAt (bytes : Bytes) (offset : Nat) :
    (UInt32.ofNat (bytes.numberAt offset)).toNat = bytes.numberAt offset :=
  UInt32.toNat_ofNat_of_lt' (bytes.numberAt_lt offset)

variable (a b c d : UInt8)

theorem toNat_word :
    (word a b c d).toNat =
      a.toNat + 0x100 * b.toNat + 0x10000 * c.toNat + 0x1000000 * d.toNat := by
  have first := a.toNat_lt
  have second := b.toNat_lt
  have third := c.toNat_lt
  have fourth := d.toNat_lt
  rw [word]
  exact UInt32.toNat_ofNat_of_lt' (by unfold UInt32.size; omega)

theorem toUInt8_word : (word a b c d).toUInt8 = a := by
  have small := a.toNat_lt
  rw [← UInt8.toNat_inj, UInt32.toNat_toUInt8, toNat_word]
  omega

theorem toUInt8_word_shiftRight : (word a b c d >>> 8).toUInt8 = b := by
  have first := a.toNat_lt
  have second := b.toNat_lt
  have shifted : (word a b c d >>> 8).toNat = (word a b c d).toNat / 2 ^ 8 := by
    rw [UInt32.toNat_shiftRight, Nat.shiftRight_eq_div_pow]
    rfl
  rw [← UInt8.toNat_inj, UInt32.toNat_toUInt8, shifted, toNat_word]
  omega

theorem toNat_word_third : (word a b c d >>> 16 &&& 0xff).toNat = c.toNat := by
  have first := a.toNat_lt
  have second := b.toNat_lt
  have third := c.toNat_lt
  have shifted : (word a b c d >>> 16).toNat = (word a b c d).toNat / 2 ^ 16 := by
    rw [UInt32.toNat_shiftRight, Nat.shiftRight_eq_div_pow]
    rfl
  have masked : (word a b c d >>> 16 &&& 0xff).toNat = (word a b c d >>> 16).toNat % 2 ^ 8 := by
    rw [UInt32.toNat_and]
    exact Nat.and_two_pow_sub_one_eq_mod _ 8
  rw [masked, shifted, toNat_word]
  omega

/-- Four bytes that are there, one by one. -/
theorem drop_eq_cons (inside : offset + 4 ≤ bytes.length) :
    bytes.drop offset =
      bytes.getD offset 0 :: bytes.getD (offset + 1) 0 :: bytes.getD (offset + 2) 0 ::
        bytes.getD (offset + 3) 0 :: bytes.drop (offset + 4) := by
  rw [drop_eq_getD_cons (by omega), drop_eq_getD_cons (by omega), drop_eq_getD_cons (by omega),
    drop_eq_getD_cons (by omega)]

theorem word?_eq_some (inside : offset + 4 ≤ bytes.length) :
    bytes.word? offset = some (.ofNat (bytes.numberAt offset)) := by
  rw [word?, drop_eq_cons inside]
  rfl

theorem word?_eq_none (outside : bytes.length < offset + 4) : bytes.word? offset = none := by
  have short : (bytes.drop offset).length < 4 := by
    rw [List.length_drop]
    omega
  unfold word?
  split
  · next is =>
    rw [is] at short
    simp only [List.length_cons] at short
    omega
  · rfl

/-- What is read inside a prefix. -/
theorem getD_take (inside : offset < n) : (bytes.take n).getD offset 0 = bytes.getD offset 0 := by
  rw [List.getD_eq_getElem?_getD, List.getElem?_take_of_lt inside, ← List.getD_eq_getElem?_getD]

theorem numberAt_take (inside : offset + 4 ≤ n) :
    numberAt (bytes.take n) offset = bytes.numberAt offset := by
  unfold numberAt
  rw [getD_take (by omega), getD_take (by omega), getD_take (by omega), getD_take (by omega)]

/-- The part stands at `offset`. -/
def Has (bytes : Bytes) (offset : Nat) (part : Bytes) : Prop :=
  ∃ front back, bytes = front ++ (part ++ back) ∧ front.length = offset

namespace Has

variable {part more : Bytes}

theorem intro (front part back : Bytes) : Has (front ++ (part ++ back)) front.length part :=
  ⟨front, back, rfl, rfl⟩

theorem left (has : Has bytes offset (part ++ more)) : Has bytes offset part := by
  obtain ⟨front, back, rfl, rfl⟩ := has
  exact ⟨front, more ++ back, by rw [List.append_assoc], rfl⟩

theorem right (has : Has bytes offset (part ++ more)) :
    Has bytes (offset + part.length) more := by
  obtain ⟨front, back, rfl, rfl⟩ := has
  exact ⟨front ++ part, back, by simp only [List.append_assoc], List.length_append⟩

theorem le (has : Has bytes offset part) : offset + part.length ≤ bytes.length := by
  obtain ⟨front, back, rfl, rfl⟩ := has
  simp only [List.length_append]
  omega

theorem take_drop (has : Has bytes offset part) :
    (bytes.drop offset).take part.length = part := by
  obtain ⟨front, back, rfl, rfl⟩ := has
  rw [List.drop_left, List.take_left]

theorem word_bytes {a b c d : UInt8} (has : Has bytes offset [a, b, c, d]) :
    bytes.word? offset = some (Bytes.word a b c d) := by
  obtain ⟨front, back, rfl, rfl⟩ := has
  rw [word?, List.drop_left]
  rfl

theorem word {w : UInt32} (has : Has bytes offset (ofWord w)) : bytes.word? offset = some w := by
  rw [has.word_bytes, word_byte]

theorem numberAt {w : UInt32} (has : Has bytes offset (ofWord w)) :
    bytes.numberAt offset = w.toNat := by
  have there := word?_eq_some has.le
  rw [has.word, Option.some.injEq] at there
  rw [there, toNat_numberAt]

/-- The words of a row, one by one. -/
theorem words {words : List UInt32} (has : Has bytes offset (ofWords words)) (i : Nat)
    (inRow : i < words.length) : Has bytes (offset + 4 * i) (ofWord words[i]) := by
  induction words generalizing offset i with
  | nil => cases inRow
  | cons w rest ih =>
    rw [ofWords, List.flatMap_cons] at has
    cases i with
    | zero => exact has.left
    | succ i =>
      have behind := ih has.right i (Nat.lt_of_succ_lt_succ inRow)
      rw [length_ofWord] at behind
      rwa [show offset + 4 * (i + 1) = offset + 4 + 4 * i by omega]

end Has

@[simp] theorem length_ofWords (words : List UInt32) :
    (ofWords words).length = 4 * words.length := by
  induction words with
  | nil => rfl
  | cons w rest ih =>
    rw [ofWords, List.flatMap_cons, List.length_append, length_ofWord, ← ofWords, ih,
      List.length_cons]
    omega

end Bytes

namespace FourCC

variable {bytes : Bytes} {offset n : Nat}

/-- The identifier that the four bytes from `offset` on spell. -/
def spelledAt (bytes : Bytes) (offset : Nat) : FourCC :=
  ⟨bytes.getD offset 0, bytes.getD (offset + 1) 0, bytes.getD (offset + 2) 0,
    bytes.getD (offset + 3) 0⟩

theorem at?_eq_some (inside : offset + 4 ≤ bytes.length) :
    at? bytes offset = some (spelledAt bytes offset) := by
  rw [at?, Bytes.drop_eq_cons inside]
  rfl

theorem toBytes_injective : Function.Injective toBytes := fun a b same => by
  have spelled := congrArg ofBytes? same
  rwa [ofBytes?_toBytes, ofBytes?_toBytes, Option.some.injEq] at spelled

theorem take_drop_eq_toBytes (inside : offset + 4 ≤ bytes.length) :
    (bytes.drop offset).take 4 = (spelledAt bytes offset).toBytes :=
  congrArg (List.take 4) (Bytes.drop_eq_cons inside)

theorem spelledAt_of_has {id : FourCC} (has : bytes.Has offset id.toBytes) :
    spelledAt bytes offset = id :=
  toBytes_injective ((take_drop_eq_toBytes has.le).symm.trans has.take_drop)

theorem spelledAt_take (inside : offset + 4 ≤ n) :
    spelledAt (bytes.take n) offset = spelledAt bytes offset := by
  unfold spelledAt
  rw [Bytes.getD_take (by omega), Bytes.getD_take (by omega), Bytes.getD_take (by omega),
    Bytes.getD_take (by omega)]

end FourCC

end ShaderLowering
