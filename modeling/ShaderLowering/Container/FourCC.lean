import ShaderLowering.Bytes

/-!
Four-character chunk identifiers such as `SHEX` or `ISGN`. Signature chunks come under two
spellings, one for each entry layout, and `alternateSpelling?` goes from one to the other.
-/

namespace ShaderLowering

structure FourCC where
  b0 : UInt8
  b1 : UInt8
  b2 : UInt8
  b3 : UInt8
deriving DecidableEq, Repr, Inhabited

namespace FourCC

def ofChars (a b c d : Char) : FourCC :=
  ⟨a.toUInt8, b.toUInt8, c.toUInt8, d.toUInt8⟩

def toBytes (id : FourCC) : Bytes :=
  [id.b0, id.b1, id.b2, id.b3]

def ofBytes? : Bytes → Option FourCC
  | [a, b, c, d] => some ⟨a, b, c, d⟩
  | _ => none

/-- The identifier at `offset`, if the string holds all four of its bytes. -/
def at? (bytes : Bytes) (offset : Nat) : Option FourCC :=
  match bytes.drop offset with
  | a :: b :: c :: d :: _ => some ⟨a, b, c, d⟩
  | _ => none

/-- Identifier of the container itself. -/
def dxbc : FourCC := ofChars 'D' 'X' 'B' 'C'
/-- Program chunk of shader model 5. -/
def shex : FourCC := ofChars 'S' 'H' 'E' 'X'
/-- Program chunk of shader model 4. -/
def shdr : FourCC := ofChars 'S' 'H' 'D' 'R'
/-- Input signature. -/
def isgn : FourCC := ofChars 'I' 'S' 'G' 'N'
/-- Output signature. -/
def osgn : FourCC := ofChars 'O' 'S' 'G' 'N'
/-- Patch-constant signature. -/
def pcsg : FourCC := ofChars 'P' 'C' 'S' 'G'

/-- The signature identifiers, each with the spelling for the longer entry layout beside it. -/
def signatureSpellings : List (FourCC × FourCC) :=
  [(isgn, ofChars 'I' 'S' 'G' '1'),
   (osgn, ofChars 'O' 'S' 'G' '1'),
   (ofChars 'P' 'S' 'G' 'N', ofChars 'P' 'S' 'G' '1'),
   (pcsg, ofChars 'P' 'C' 'G' '1')]

/-- The other spelling of a signature identifier. -/
def alternateSpelling? (id : FourCC) : Option FourCC :=
  match signatureSpellings.find? (·.1 = id) with
  | some (_, long) => some long
  | none => (signatureSpellings.find? (·.2 = id)).map (·.1)

/-- Whether the identifier announces the longer signature entry layout: its last character
is the digit one. -/
def announcesLongEntries (id : FourCC) : Bool :=
  id.b3 = '1'.toUInt8

/-- One byte of an identifier as text: printable ASCII and the blank as they are. -/
def byteText (b : UInt8) : List Char :=
  if 0x20 ≤ b ∧ b < 0x7f then [Char.ofNat b.toNat]
  else '\\' :: 'x' :: Hex.digits 2 b.toNat

def text (id : FourCC) : String :=
  String.ofList (id.toBytes.flatMap byteText)

@[simp] theorem ofBytes?_toBytes (id : FourCC) : ofBytes? id.toBytes = some id := rfl

end FourCC

end ShaderLowering
