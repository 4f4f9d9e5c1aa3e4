import ShaderLowering.Lowering.Operand

/-!
Arithmetic, logic, comparison and conversion. Most instructions compute one result for the
components of their destination mask. Those with two destinations compute both results for the
union of the masks before anything is written, and each destination takes its part.
-/

namespace ShaderLowering.Lower

open Spirv

/-- Where the components of `sub` stand in a value computed for the components of `full`. -/
def subLanes (full sub : WriteMask) : List Nat :=
  sub.components.filterMap fun c => full.components.idxOf? c

/-- All source operands, for a destination written under `mask`. -/
def readSources (inst : Instruction) (mask : WriteMask) : Emission (List Value) :=
  inst.src.mapM (readOperand · mask)

/-- Computes each of `count` components by itself and puts the results together, for operations
that are defined on scalars only. -/
def perComponent (count : Nat) (scalar : ScalarType) (f : Nat → Emission Id) : Emission Value := do
  let results ← (List.range count).mapM f
  compose scalar results

/-- Writes the part of a value, computed for the components of `full`, that a destination takes. -/
def writePart (op : Operand) (value : Value) (full : WriteMask) : Emission Unit := do
  if op.isNull || op.mask.isEmpty then return
  let part ← swizzle value (subLanes full op.mask)
  writeOperand op part false

/-- The low five bits of a bit-field's offset, and its width: the low five bits of that, cut at
the end of the word. -/
def fieldRange (width offset : Id) : Emission (Id × Id) := do
  let word ← scalarType .u32
  let lowBits ← constantU32 0x1f
  let size ← constantU32 32
  let width ← emitValue .bitwiseAnd word [.id width, .id lowBits]
  let offset ← emitValue .bitwiseAnd word [.id offset, .id lowBits]
  let room ← emitValue .iSub word [.id size, .id offset]
  let count ← extended .uMin (.single .u32) [width, room]
  return (offset, count.id)

/-- Bit patterns of the floats that bound the conversions to integers: the least integer, the
greatest float below 2^31, and the greatest below 2^32. -/
def floatLeastInt : UInt32 := 0xcf000000
def floatGreatestInt : UInt32 := 0x4effffff
def floatGreatestWord : UInt32 := 0x4f7fffff

/-- The comparison an opcode makes. -/
def comparison? : Opcode → Option Op
  | .eq => some .fOrdEqual
  | .ne => some .fUnordNotEqual
  | .lt => some .fOrdLessThan
  | .ge => some .fOrdGreaterThanEqual
  | .ieq => some .iEqual
  | .ine => some .iNotEqual
  | .ilt => some .sLessThan
  | .ige => some .sGreaterThanEqual
  | .ult => some .uLessThan
  | .uge => some .uGreaterThanEqual
  | _ => none

/-- The derivative an opcode takes, and whether it asks for a particular precision. -/
def derivative? : Opcode → Option (Op × Bool)
  | .derivRtx => some (.dPdx, false)
  | .derivRty => some (.dPdy, false)
  | .derivRtxCoarse => some (.dPdxCoarse, true)
  | .derivRtxFine => some (.dPdxFine, true)
  | .derivRtyCoarse => some (.dPdyCoarse, true)
  | .derivRtyFine => some (.dPdyFine, true)
  | _ => none

/-- Float functions of the extended set with the number of their sources. -/
def floatFunction? : Opcode → Option (ExtOp × Nat)
  | .mad => some (.fma, 3)
  | .min => some (.nMin, 2)
  | .max => some (.nMax, 2)
  | .frc => some (.fract, 1)
  | .sqrt => some (.sqrt, 1)
  | .rsq => some (.inverseSqrt, 1)
  | .exp => some (.exp2, 1)
  | .log => some (.log2, 1)
  | .roundNe => some (.roundEven, 1)
  | .roundNi => some (.floor, 1)
  | .roundPi => some (.ceil, 1)
  | .roundZ => some (.trunc, 1)
  | _ => none

def floatBinary? : Opcode → Option Op
  | .add => some .fAdd
  | .mul => some .fMul
  | .div => some .fDiv
  | _ => none

def integerExtremum? : Opcode → Option (ExtOp × ScalarType)
  | .imax => some (.sMax, .i32)
  | .imin => some (.sMin, .i32)
  | .umax => some (.uMax, .u32)
  | .umin => some (.uMin, .u32)
  | _ => none

def bitwise? : Opcode → Option Op
  | .and => some .bitwiseAnd
  | .or => some .bitwiseOr
  | .xor => some .bitwiseXor
  | _ => none

def shift? : Opcode → Option Op
  | .ishl => some .shiftLeftLogical
  | .ishr => some .shiftRightArithmetic
  | .ushr => some .shiftRightLogical
  | _ => none

def wordUnary? : Opcode → Option Op
  | .not => some .not
  | .countBits => some .bitCount
  | .bfrev => some .bitReverse
  | _ => none

/-- The position of the first set bit from the top: all ones where there is none, like the search
from the bottom that it is derived from. -/
def firstBitFromTop (op : ExtOp) (a : Value) (count : Nat) : Emission Value := do
  let msb ← extended op ⟨a.type.scalar, count⟩ [a.id]
  let msb ← bitcast msb .u32
  let missing ← splat .u32 0xffffffff count
  let top ← splat .u32 31 count
  let flipped ← operate .iSub ⟨.u32, count⟩ [top.id, msb.id]
  let isMissing ← operate .iEqual ⟨.bool, count⟩ [msb.id, missing.id]
  operate .select ⟨.u32, count⟩ [isMissing.id, missing.id, flipped.id]

/-- A bit field of each component, sign-extended if `isSigned`. -/
def extractField (isSigned : Bool) (width offset value : Value) : Emission Value := do
  let scalar : ScalarType := if isSigned then .i32 else .u32
  let width ← bitcast width .u32
  let offset ← bitcast offset .u32
  let value ← bitcast value scalar
  perComponent width.type.count scalar fun c => do
    let width ← extract width c
    let offset ← extract offset c
    let value ← extract value c
    let (start, count) ← fieldRange width.id offset.id
    let type ← scalarType scalar
    emitValue (if isSigned then .bitFieldSExtract else .bitFieldUExtract) type
      [.id value.id, .id start, .id count]

/-- Replaces a bit field of each component of `base`. -/
def insertField (width offset field base : Value) : Emission Value := do
  let width ← bitcast width .u32
  let offset ← bitcast offset .u32
  let field ← bitcast field .u32
  let base ← bitcast base .u32
  perComponent width.type.count .u32 fun c => do
    let width ← extract width c
    let offset ← extract offset c
    let field ← extract field c
    let base ← extract base c
    let (start, count) ← fieldRange width.id offset.id
    let type ← scalarType .u32
    emitValue .bitFieldInsert type [.id base.id, .id field.id, .id start, .id count]

/-- Each float as a half float in the low half of a word. -/
def packHalf (a : Value) : Emission Value :=
  perComponent a.type.count .u32 fun c => do
    let part ← extract a c
    let empty ← constant .f32 0
    let pair ← compose .f32 [part.id, empty]
    return (← extended .packHalf2x16 (.single .u32) [pair.id]).id

/-- The float whose half-float form is in the low half of each word. -/
def unpackHalf (a : Value) : Emission Value := do
  let a ← bitcast a .u32
  perComponent a.type.count .f32 fun c => do
    let part ← extract a c
    let pair ← extended .unpackHalf2x16 ⟨.f32, 2⟩ [part.id]
    return (← extract pair 0).id

/-- The result of a one-destination instruction for `count` components. Sources are read already;
`src n` is the n-th. -/
def computeVector (inst : Instruction) (op : Opcode) (src : Nat → Emission Value) (count : Nat) :
    Emission Value := do
  let floats : VectorType := ⟨.f32, count⟩
  let words : VectorType := ⟨.u32, count⟩
  let ints : VectorType := ⟨.i32, count⟩
  let bools : VectorType := ⟨.bool, count⟩
  if let some f := floatBinary? op then
    let a ← src 0
    let b ← src 1
    operate f floats [a.id, b.id]
  else if let some (f, arity) := floatFunction? op then
    let args ← (List.range arity).mapM src
    extended f floats (args.map (·.id))
  else if let some f := comparison? op then
    let a ← src 0
    let b ← bitcast (← src 1) a.type.scalar
    let result ← operate f bools [a.id, b.id]
    boolToMask result
  else if let some (f, precise) := derivative? op then
    if precise then requireCapability .derivativeControl
    let a ← src 0
    operate f floats [a.id]
  else if let some (f, scalar) := integerExtremum? op then
    let a ← bitcast (← src 0) scalar
    let b ← bitcast (← src 1) scalar
    extended f ⟨scalar, count⟩ [a.id, b.id]
  else if let some f := bitwise? op then
    let a ← bitcast (← src 0) .u32
    let b ← bitcast (← src 1) .u32
    operate f words [a.id, b.id]
  else if let some f := shift? op then
    let a ← src 0
    let lowBits ← splat .u32 0x1f count
    let b ← bitcast (← src 1) .u32
    let b ← operate .bitwiseAnd words [b.id, lowBits.id]
    operate f a.type [a.id, b.id]
  else if let some f := wordUnary? op then
    let a ← bitcast (← src 0) .u32
    operate f words [a.id]
  else
    match op with
    | .mov => src 0
    | .movc =>
      let condition ← zeroTest (← src 0) .ifNonZero
      let a ← src 1
      let b ← src 2
      let b ← bitcast b a.type.scalar
      operate .select a.type [condition.id, a.id, b.id]
    | .rcp =>
      let one ← splat .f32 floatOne count
      let a ← src 0
      operate .fDiv floats [one.id, a.id]
    | .ftoi =>
      let lo ← splat .f32 floatLeastInt count
      let hi ← splat .f32 floatGreatestInt count
      let a ← src 0
      let clamped ← extended .fClamp floats [a.id, lo.id, hi.id]
      operate .convertFToS ints [clamped.id]
    | .ftou =>
      let lo ← splat .f32 0 count
      let hi ← splat .f32 floatGreatestWord count
      let a ← src 0
      let clamped ← extended .fClamp floats [a.id, lo.id, hi.id]
      operate .convertFToU words [clamped.id]
    | .itof =>
      let a ← bitcast (← src 0) .i32
      operate .convertSToF floats [a.id]
    | .utof =>
      let a ← bitcast (← src 0) .u32
      operate .convertUToF floats [a.id]
    | .iadd =>
      let a ← src 0
      let b ← bitcast (← src 1) a.type.scalar
      operate .iAdd a.type [a.id, b.id]
    | .imad | .umad =>
      let a ← src 0
      let b ← bitcast (← src 1) a.type.scalar
      let c ← bitcast (← src 2) a.type.scalar
      let product ← operate .iMul a.type [a.id, b.id]
      operate .iAdd a.type [product.id, c.id]
    | .ineg =>
      let a ← bitcast (← src 0) .i32
      operate .sNegate ints [a.id]
    | .firstbitLo =>
      let a ← bitcast (← src 0) .u32
      extended .findILsb words [a.id]
    | .firstbitHi =>
      let a ← bitcast (← src 0) .u32
      firstBitFromTop .findUMsb a count
    | .firstbitShi =>
      let a ← bitcast (← src 0) .i32
      firstBitFromTop .findSMsb a count
    | .ubfe => extractField false (← src 0) (← src 1) (← src 2)
    | .ibfe => extractField true (← src 0) (← src 1) (← src 2)
    | .bfi => insertField (← src 0) (← src 1) (← src 2) (← src 3)
    | .f32ToF16 => packHalf (← src 0)
    | .f16ToF32 => unpackHalf (← src 0)
    | _ => unsupported inst

/-- An instruction with one destination. -/
def lowerVector (inst : Instruction) : Emission Unit := do
  let out ← destination inst 0
  if out.isNull || out.mask.isEmpty then return
  let sources ← readSources inst out.mask
  let src (n : Nat) : Emission Value := orFault sources[n]? (.missingSource inst.name n)
  let value ← match inst.op? with
    | some op => computeVector inst op src out.mask.count
    | none => unsupported inst
  markPrecise inst value
  writeOperand out value inst.saturate

/-- Dot product of the first `width` components. -/
def lowerDot (inst : Instruction) (width : Nat) : Emission Unit := do
  let out ← destination inst 0
  let mask := WriteMask.firstN width
  let a ← readOperand (← source inst 0) mask
  let b ← readOperand (← source inst 1) mask
  let value ← operate .dot (.single .f32) [a.id, b.id]
  markPrecise inst value
  writeOperand out value inst.saturate

/-- Sine and cosine, each read for the mask of its own destination. -/
def lowerSinCos (inst : Instruction) : Emission Unit := do
  let input ← source inst 0
  for (f, n) in [(ExtOp.sin, 0), (ExtOp.cos, 1)] do
    let out ← destination inst n
    unless out.isNull || out.mask.isEmpty do
      let value ← readOperand input out.mask
      let result ← extended f value.type [value.id]
      markPrecise inst result
      writeOperand out result inst.saturate

/-- Member `n` of a pair of vectors. -/
def pairMember (type : VectorType) (pair : Id) (n : UInt32) : Emission Value := do
  let typeId ← vectorType type
  let id ← emitValue .compositeExtract typeId [.id pair, .word n]
  return ⟨type, id⟩

/-- A pair of vectors computed from two vectors of the same type. -/
def operatePair (op : Op) (type : VectorType) (a b : Value) : Emission Id := do
  let member ← vectorType type
  let pair ← structType [member, member]
  emitValue op pair [.id a.id, .id b.id]

/-- High and low half of a product. Only the low half is computed if nothing takes the high one. -/
def lowerWideMultiply (inst : Instruction) (isSigned : Bool) : Emission Unit := do
  let hi ← destination inst 0
  let lo ← destination inst 1
  let full := hi.mask ||| lo.mask
  if full.isEmpty then return
  match ← readSources inst full with
  | [a, b] =>
    let scalar : ScalarType := if isSigned then .i32 else .u32
    let a ← bitcast a scalar
    let b ← bitcast b scalar
    let type : VectorType := ⟨scalar, full.count⟩
    if hi.isNull || hi.mask.isEmpty then
      let product ← operate .iMul type [a.id, b.id]
      writePart lo product full
    else
      let wide ← operatePair (if isSigned then .sMulExtended else .uMulExtended) type a b
      let low ← pairMember type wide 0
      let high ← pairMember type wide 1
      writePart hi high full
      writePart lo low full
  | _ => failWith (.needsSources inst.name "two")

/-- Quotient and remainder; both are all ones where the divisor is zero. -/
def lowerDivide (inst : Instruction) : Emission Unit := do
  let quotient ← destination inst 0
  let remainder ← destination inst 1
  let full := quotient.mask ||| remainder.mask
  if full.isEmpty then return
  match ← readSources inst full with
  | [a, b] =>
    let a ← bitcast a .u32
    let b ← bitcast b .u32
    let count := full.count
    let type : VectorType := ⟨.u32, count⟩
    let _ ← vectorType type
    let zero ← splat .u32 0 count
    let ones ← splat .u32 0xffffffff count
    let byZero ← operate .iEqual ⟨.bool, count⟩ [b.id, zero.id]
    for (out, op) in [(quotient, Op.uDiv), (remainder, Op.uMod)] do
      unless out.isNull || out.mask.isEmpty do
        let result ← operate op type [a.id, b.id]
        let chosen ← operate .select type [byZero.id, ones.id, result.id]
        writePart out chosen full
  | _ => failWith (.needsSources "udiv" "two")

/-- Sum with carry or difference with borrow. -/
def lowerCarry (inst : Instruction) (op : Op) : Emission Unit := do
  let result ← destination inst 0
  let carry ← destination inst 1
  let full := result.mask ||| carry.mask
  if full.isEmpty then return
  match ← readSources inst full with
  | [a, b] =>
    let a ← bitcast a .u32
    let b ← bitcast b .u32
    let type : VectorType := ⟨.u32, full.count⟩
    let wide ← operatePair op type a b
    let value ← pairMember type wide 0
    let flag ← pairMember type wide 1
    writePart result value full
    writePart carry flag full
  | _ => failWith (.needsSources inst.name "two")

/-- Two values, exchanged where the condition holds. -/
def lowerSwap (inst : Instruction) : Emission Unit := do
  let first ← destination inst 0
  let second ← destination inst 1
  let full := first.mask ||| second.mask
  if full.isEmpty then return
  match ← readSources inst full with
  | [condition, a, b] =>
    let condition ← zeroTest condition .ifNonZero
    let b ← bitcast b a.type.scalar
    let swapped ← operate .select a.type [condition.id, b.id, a.id]
    let kept ← operate .select a.type [condition.id, a.id, b.id]
    writePart first swapped full
    writePart second kept full
  | _ => failWith (.needsSources "swapc" "three")

def lowerArithmetic (inst : Instruction) : Emission Unit :=
  match inst.op? with
  | some .nop => pure ()
  | some .dp2 => lowerDot inst 2
  | some .dp3 => lowerDot inst 3
  | some .dp4 => lowerDot inst 4
  | some .sinCos => lowerSinCos inst
  | some .umul => lowerWideMultiply inst false
  | some .imul => lowerWideMultiply inst true
  | some .udiv => lowerDivide inst
  | some .uaddc => lowerCarry inst .iAddCarry
  | some .usubb => lowerCarry inst .iSubBorrow
  | some .swapc => lowerSwap inst
  | _ => lowerVector inst

end ShaderLowering.Lower
