import ShaderLowering.Program.Basic
import ShaderLowering.Program.Instruction

/-!
Decoding. The decoder walks the dwords of a program and yields one instruction after another. It
stops at the end of the program or at the first instruction that does not decode, and reports the
dword at fault. Instructions tile the body: each starts where the one before it ends.

Positions need no counter. While an instruction that ends at dword `stop` is read, the next dword
stands at `stop` less the number of dwords left.
-/

namespace ShaderLowering

inductive DecodeFault
  | unexpectedEnd (wanted : Nat)
  | zeroLength
  | lengthPastEnd (len available : Nat)
  | unknownOpcode (opcode : UInt32)
  | operandType (type : UInt32)
  | componentCount (encoding : UInt32)
  | selectionMode (mode : UInt32)
  | indexRepresentation (representation : UInt32)
  | extendedOperand (type : UInt32)
  | extendedOpcode (type : UInt32)
  /-- A 64-bit register index whose high half is not zero. -/
  | indexTooLarge (value : Nat)
  | emptyImmediate
  | trailingTokens (name : String) (count : Nat)
  | customDataLength (len : Nat)
deriving DecidableEq, Repr, Inhabited

namespace DecodeFault

def message : DecodeFault → String
  | unexpectedEnd wanted => s!"unexpected end of instruction (wanted {wanted} more dwords)"
  | zeroLength => "instruction length is zero"
  | lengthPastEnd len available =>
    s!"instruction with length {len} overruns program ({available} dwords left)"
  | unknownOpcode opcode => s!"unknown opcode {opcode}"
  | operandType type => s!"unsupported operand type {type}"
  | componentCount encoding => s!"unsupported operand component count encoding {encoding}"
  | selectionMode mode => s!"unsupported component selection mode {mode}"
  | indexRepresentation representation =>
    s!"unsupported operand index representation {representation}"
  | extendedOperand type => s!"unsupported extended operand token type {type}"
  | extendedOpcode type => s!"unsupported extended opcode token type {type}"
  | indexTooLarge value =>
    let hex := String.ofList (Nat.toDigits 16 value)
    s!"64-bit register index 0x{hex} does not fit in 32 bits"
  | emptyImmediate => "immediate operand has no components"
  | trailingTokens name count => s!"{count} trailing dwords after the last operand of {name}"
  | customDataLength len => s!"customdata block length {len} is invalid"

end DecodeFault

structure DecodeError where
  /-- The dword at fault. -/
  position : Nat
  fault : DecodeFault
deriving DecidableEq, Repr, Inhabited

namespace DecodeError

def message (e : DecodeError) : String :=
  s!"SM4/5 decode error at dword {e.position}: {e.fault.message}"

end DecodeError

namespace Decode

/-- Bits `lo` to `lo + width - 1` of a token. -/
def field (token : UInt32) (lo width : Nat) : UInt32 :=
  .ofNat (token.toNat / Nat.pow 2 lo % Nat.pow 2 width)

/-- Whether another extended token follows. -/
def isExtended (token : UInt32) : Bool :=
  token.toNat.testBit 31

/-- Reads from the dwords left of an instruction that ends at a given position. -/
abbrev TokenReader := ReaderT Nat (StateT (List UInt32) (Except DecodeError))

/-- The next dword. -/
def next : TokenReader UInt32 := fun stop toks =>
  match toks with
  | t :: rest => .ok (t, rest)
  | [] => .error ⟨stop, .unexpectedEnd 1⟩

/-- Where the next dword stands. -/
def here : TokenReader Nat := fun stop toks => .ok (stop - toks.length, toks)

def fail {α : Type} (position : Nat) (fault : DecodeFault) : TokenReader α := fun _ _ =>
  .error ⟨position, fault⟩

/-- Folds a chain of extended tokens into a value. `more` says whether a token follows; each
token says so of the next one. -/
def chainFrom {σ : Type} (step : σ → UInt32 → Except DecodeFault σ) (stop : Nat) :
    σ → (more : Bool) → List UInt32 → Except DecodeError (σ × List UInt32)
  | s, false, toks => .ok (s, toks)
  | _, true, [] => .error ⟨stop, .unexpectedEnd 1⟩
  | s, true, t :: rest =>
    match step s t with
    | .ok s => chainFrom step stop s (isExtended t) rest
    | .error fault => .error ⟨stop - (rest.length + 1), fault⟩

def chain {σ : Type} (step : σ → UInt32 → Except DecodeFault σ) (s : σ) (more : Bool) :
    TokenReader σ := fun stop toks => chainFrom step stop s more toks

/-- Two's complement on four bits. -/
def signed4 (bits : UInt32) : Int :=
  (bits.toNat : Int) - if bits.toNat < 8 then 0 else 16

/-- What the extended tokens of an opcode add to an instruction. -/
def extendOpcode (inst : Instruction) (ext : UInt32) : Except DecodeFault Instruction :=
  match (field ext 0 6).toNat with
  | 0 => .ok inst
  | 1 =>
    .ok { inst with
      sampleOffsets := ⟨signed4 (field ext 9 4), signed4 (field ext 13 4),
        signed4 (field ext 17 4)⟩ }
  | 2 => .ok { inst with resourceDim? := some (field ext 6 5) }
  | 3 =>
    .ok { inst with
      returnType? := some ⟨field ext 6 4, field ext 10 4, field ext 14 4, field ext 18 4⟩ }
  | _ => .error (.extendedOpcode (field ext 0 6))

/-- What the extended tokens of an operand make of its modifier. -/
def extendModifier (m : Modifier) (ext : UInt32) : Except DecodeFault Modifier :=
  match (field ext 0 6).toNat with
  | 0 => .ok m
  | 1 =>
    .ok <| match (field ext 6 8).toNat with
      | 1 => .neg
      | 2 => .abs
      | 3 => .absNeg
      | _ => .none
  | _ => .error (.extendedOperand (field ext 0 6))

/-- The components that an operand token selects. -/
structure Components where
  count : ComponentCount
  selection : Selection
  mask : WriteMask
  swizzle : Swizzle

def components (token : UInt32) : Except DecodeFault Components :=
  match (field token 0 2).toNat with
  | 0 => .ok ⟨.zero, .mask, .none, .identity⟩
  | 1 => .ok ⟨.one, .select1, .x, .replicate 0⟩
  | 2 =>
    match (field token 2 2).toNat with
    | 0 => .ok ⟨.four, .mask, ⟨(field token 4 4).toUInt8⟩, .identity⟩
    | 1 => .ok ⟨.four, .swizzle, .xyzw, .ofBits (field token 4 8)⟩
    | 2 =>
      let c := (field token 4 2).toNat
      .ok ⟨.four, .select1, .component c, .replicate c⟩
    | _ => .error (.selectionMode (field token 2 2))
  | _ => .error (.componentCount (field token 0 2))

/-- A 64-bit index, high half first. -/
def index64 : TokenReader UInt32 := do
  let position ← here
  let hi ← next
  let lo ← next
  if hi = 0 then return lo
  else fail position (.indexTooLarge (hi.toNat * UInt32.size + lo.toNat))

/-- One register index in a given representation; `operand` reads the relative part and
`tokenAt` is the position of the operand token. -/
def index (operand : TokenReader Operand) (tokenAt : Nat) (representation : UInt32) :
    TokenReader (Index Operand) := do
  match representation.toNat with
  | 0 => return .immediate (← next)
  | 1 => return .immediate (← index64)
  | 2 => return ⟨0, some (← operand)⟩
  | 3 =>
    let offset ← next
    return ⟨offset, some (← operand)⟩
  | 4 =>
    let offset ← index64
    return ⟨offset, some (← operand)⟩
  | _ => fail tokenAt (.indexRepresentation representation)

/-- The words of an immediate. Of four 64-bit components only the first two are kept. -/
def immediate (tokenAt : Nat) (type : OperandType) (count : ComponentCount) :
    TokenReader Words4 := do
  match type, count with
  | .imm32, .one => return .replicate (← next)
  | .imm32, .four => return ⟨← next, ← next, ← next, ← next⟩
  | .imm64, .one => return ⟨← next, ← next, 0, 0⟩
  | .imm64, .four =>
    let words : Words4 := ⟨← next, ← next, ← next, ← next⟩
    for _ in List.range 4 do
      let _ ← next
    return words
  | .imm32, .zero | .imm64, .zero => fail tokenAt .emptyImmediate
  | _, _ => return .zero

/-- An operand whose relative indices nest at most `depth` deep. The number of dwords left is
always deep enough, since every level takes at least one. -/
def operandWithin : (depth : Nat) → DataType → TokenReader Operand
  | 0, _ => do
    let _ ← next
    fail 0 (.unexpectedEnd 1)
  | depth + 1, data => do
    let tokenAt ← here
    let token ← next
    let some type := OperandType.ofCode? (field token 12 8).toNat
      | fail tokenAt (.operandType (field token 12 8))
    let selected ← match components token with
      | .ok selected => pure selected
      | .error fault => fail tokenAt fault
    let modifier ← chain extendModifier .none (isExtended token)
    let indices ← (List.range (field token 20 2).toNat).mapM fun dim =>
      index (operandWithin depth .sint32) tokenAt (field token (22 + 3 * dim) 3)
    let imm ← immediate tokenAt type selected.count
    return {
      type, data, modifier, indices, imm
      components := selected.count
      selection := selected.selection
      mask := selected.mask
      swizzle := selected.swizzle }

def operand (data : DataType) : TokenReader Operand := fun stop toks =>
  operandWithin toks.length data stop toks

/-- Reads what one slot of the format asks for into an instruction. -/
def slot (inst : Instruction) : OperandSlot → TokenReader Instruction
  | .dst data => do
    let op ← operand data
    return { inst with dst := inst.dst ++ [op] }
  | .src data => do
    let op ← operand data
    return { inst with src := inst.src ++ [op] }
  | .imm32 => do
    let w ← next
    return { inst with imm := inst.imm ++ [w] }
  | .rest => fun _ toks => .ok ({ inst with imm := inst.imm ++ toks }, [])

/-- The instruction with nothing but its opcode token read. -/
def blank (opcode : UInt32) (family : Opcode.Family) (position : Nat) (token : UInt32) :
    Instruction :=
  { opcode, family, position, token, sampleOffsets := .zero, resourceDim? := none,
    returnType? := none, dst := [], src := [], imm := [], customData? := none }

/-- Extended tokens and operands of an instruction, from the dwords behind its opcode token;
none may be left over. -/
def operands (format : Opcode.Format) (inst : Instruction) : TokenReader Instruction := do
  let inst ← chain extendOpcode inst (isExtended inst.token)
  let inst ← format.operands.foldlM slot inst
  let position ← here
  fun _ toks =>
    match toks with
    | [] => .ok (inst, [])
    | _ => .error ⟨position, .trailingTokens format.name toks.length⟩

/-- A block of raw data. Its class is in the controls, its length in the next dword. -/
def customData (token : UInt32) (rest : List UInt32) (position : Nat) :
    Except DecodeError (Instruction × Nat) :=
  match rest with
  | [] => .error ⟨position, .unexpectedEnd 1⟩
  | len :: payload =>
    let len := len.toNat
    if len < 2 ∨ payload.length + 2 < len then .error ⟨position, .customDataLength len⟩
    else
      let family := field token 11 21
      let data := if family = 3 then .immediateConstantBuffer (payload.take (len - 2))
        else .other family
      .ok ({ blank Opcode.customData.code .customData position token with
        customData? := some data }, len)

/-- The instruction at the front of `token :: rest`, which starts at `position`, and its length
in dwords. -/
def instruction (token : UInt32) (rest : List UInt32) (position : Nat) :
    Except DecodeError (Instruction × Nat) :=
  let opcode := field token 0 11
  if opcode = Opcode.customData.code then customData token rest position
  else
    let len := (field token 24 7).toNat
    if len = 0 then .error ⟨position, .zeroLength⟩
    else if rest.length + 1 < len then
      .error ⟨position, .lengthPastEnd len (rest.length + 1)⟩
    else
      match Opcode.ofCode? opcode with
      | none => .error ⟨position, .unknownOpcode opcode⟩
      | some op =>
        match operands op.format (blank opcode op.family position token) (position + len)
            (rest.take (len - 1)) with
        | .ok (inst, _) => .ok (inst, len)
        | .error e => .error e

/-- What decoding a run of dwords yields. -/
structure Run where
  instructions : List Instruction
  /-- The start of the instruction that failed, or the end of the program. -/
  position : Nat
  error? : Option DecodeError

/-- Decodes the dwords from `position` on. -/
def run (toks : List UInt32) (position : Nat) : Run :=
  match toks with
  | [] => ⟨[], position, none⟩
  | token :: rest =>
    match instruction token rest position with
    | .error e => ⟨[], position, some e⟩
    | .ok (inst, len) =>
      let tail := run (rest.drop (len - 1)) (position + len)
      { tail with instructions := inst :: tail.instructions }
termination_by toks.length
decreasing_by simp only [List.length_cons, List.length_drop]; omega

end Decode

namespace Program

def decode (p : Program) : Decode.Run :=
  Decode.run p.body 2

/-- All instructions of a program, if every one decodes. -/
def instructions (p : Program) : Except DecodeError (List Instruction) :=
  match p.decode.error? with
  | some e => .error e
  | none => .ok p.decode.instructions

end Program

end ShaderLowering
