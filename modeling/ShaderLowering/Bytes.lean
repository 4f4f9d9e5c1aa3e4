/-!
Byte strings and the 32-bit words in them, and hexadecimal text. Words are little-endian everywhere:
in shader containers, in instruction streams and in the binaries that come out. Hexadecimal text is
lower-case, with a fixed number of digits.
-/

namespace ShaderLowering

abbrev Bytes := List UInt8

namespace Bytes

/-- The word whose bytes are `a`, `b`, `c`, `d`, lowest first. -/
def word (a b c d : UInt8) : UInt32 :=
  .ofNat (a.toNat + 0x100 * b.toNat + 0x10000 * c.toNat + 0x1000000 * d.toNat)

/-- Byte `i` of a word, counted from the lowest. -/
def byte (w : UInt32) (i : Nat) : UInt8 :=
  .ofNat (w.toNat / Nat.pow 256 i)

/-- The four bytes of a word, lowest first. -/
def ofWord (w : UInt32) : Bytes :=
  [byte w 0, byte w 1, byte w 2, byte w 3]

/-- The `len` bytes that start at `offset`, if the string holds all of them. -/
def slice? (bytes : Bytes) (offset len : Nat) : Option Bytes :=
  if offset + len ≤ bytes.length then some ((bytes.drop offset).take len) else none

/-- The word at `offset`, if the string holds all four of its bytes. -/
def word? (bytes : Bytes) (offset : Nat) : Option UInt32 :=
  match bytes.drop offset with
  | a :: b :: c :: d :: _ => some (word a b c d)
  | _ => none

/-- Reads the string as consecutive words; one to three bytes left over are dropped. -/
def toWords : Bytes → List UInt32
  | a :: b :: c :: d :: rest => word a b c d :: toWords rest
  | _ => []

/-- Writes words one after another. -/
def ofWords (words : List UInt32) : Bytes :=
  words.flatMap ofWord

@[simp] theorem length_ofWord (w : UInt32) : (ofWord w).length = 4 := rfl

theorem word_byte (w : UInt32) :
    word (byte w 0) (byte w 1) (byte w 2) (byte w 3) = w := by
  apply UInt32.toNat_inj.1
  have h := w.toNat_lt
  simp only [word, byte, Nat.pow_eq, UInt32.toNat_ofNat', UInt8.toNat_ofNat']
  omega

theorem slice?_eq_some {bytes : Bytes} {offset len : Nat} (h : offset + len ≤ bytes.length) :
    bytes.slice? offset len = some ((bytes.drop offset).take len) := if_pos h

theorem slice?_eq_none_iff {bytes : Bytes} {offset len : Nat} :
    bytes.slice? offset len = none ↔ bytes.length < offset + len := by
  simp [slice?]

end Bytes

end ShaderLowering

namespace ShaderLowering.Hex

/-- The digit for a value below sixteen. -/
def digit (n : Nat) : Char :=
  if n < 10 then Char.ofNat (48 + n) else Char.ofNat (87 + n)

/-- The last `width` hexadecimal digits of `n`, highest first. -/
def digits : (width n : Nat) → List Char
  | 0, _ => []
  | width + 1, n => digits width (n / 16) ++ [digit (n % 16)]

def text (width n : Nat) : String :=
  String.ofList (digits width n)

/-- Two digits a byte. -/
def ofBytes (bytes : List UInt8) : String :=
  String.ofList (bytes.flatMap fun b => digits 2 b.toNat)

end ShaderLowering.Hex
