import ShaderLowering.Lowering.Types

/-!
Computing with values: reinterpreting them, picking and packing components, constants, sign
modifiers and tests. A value knows its type, so every operation declares the types it needs.
-/

namespace ShaderLowering.Lower

open Spirv

/-- An instruction of the extended set. -/
def extended (op : ExtOp) (type : VectorType) (args : List Id) : Emission Value := do
  let typeId ← vectorType type
  let set := (← .state).extendedSet
  let id ← emitValue .extInst typeId (.id set :: .word op.code :: args.map .id)
  return ⟨type, id⟩

/-- An instruction on ids with a result of type `type`. -/
def operate (op : Op) (type : VectorType) (args : List Id) : Emission Value := do
  let typeId ← vectorType type
  let id ← emitValue op typeId (args.map .id)
  return ⟨type, id⟩

/-- A constant with one component for each bit pattern. -/
def constantValue (scalar : ScalarType) (bits : List UInt32) : Emission Value := do
  let id ← constantVector scalar bits
  return ⟨⟨scalar, bits.length⟩, id⟩

/-- A constant with the same bits in all of `count` components, at least one. -/
def splat (scalar : ScalarType) (bits : UInt32) (count : Nat) : Emission Value :=
  constantValue scalar (List.replicate (max count 1) bits)

/-- Booleans as words of all ones or all zeros. -/
def boolToMask (value : Value) : Emission Value := do
  let count := value.type.count
  let ones ← splat .u32 0xffffffff count
  let zero ← splat .u32 0 count
  operate .select ⟨.u32, count⟩ [value.id, ones.id, zero.id]

/-- Reads the bits of a number as another scalar type. -/
def recast (value : Value) (scalar : ScalarType) : Emission Value := do
  if value.type.scalar = scalar then return value
  operate .bitcast ⟨scalar, value.type.count⟩ [value.id]

/-- Reads the bits of a value as another scalar type. Booleans become masks first. -/
def bitcast (value : Value) (scalar : ScalarType) : Emission Value := do
  if value.type.scalar = scalar then return value
  let value ← if value.type.scalar = .bool then boolToMask value else pure value
  recast value scalar

/-- One component; a scalar gives itself. -/
def extract (value : Value) (component : Nat) : Emission Value := do
  if value.type.count = 1 then return value
  let type := VectorType.single value.type.scalar
  let typeId ← vectorType type
  let id ← emitValue .compositeExtract typeId [.id value.id, .word (.ofNat component)]
  return ⟨type, id⟩

/-- The first component in all of `count` components. -/
def extend (value : Value) (count : Nat) : Emission Value := do
  if count ≤ 1 ∨ value.type.count = count then return value
  let part ← extract value 0
  operate .compositeConstruct ⟨value.type.scalar, count⟩ (List.replicate count part.id)

/-- Fills a value of fewer than four components up with zeros. -/
def padToFour (value : Value) : Emission Value := do
  if 4 ≤ value.type.count then return value
  let filler ← constant value.type.scalar 0
  let parts ← (List.range value.type.count).mapM fun c => return (← extract value c).id
  operate .compositeConstruct (.four value.type.scalar)
    (parts ++ List.replicate (4 - parts.length) filler)

/-- Two or three components filled up to four. -/
def completed (value : Value) : Emission Value :=
  if value.type.count = 2 ∨ value.type.count = 3 then padToFour value else return value

/-- The components `lanes` of a value that has them all, in that order. -/
def pick (value : Value) (lanes : List Nat) : Emission Value := do
  if lanes = List.range value.type.count then return value
  if value.type.count = 1 then extend value lanes.length
  else
    match lanes with
    | [lane] => extract value lane
    | _ =>
      let type : VectorType := ⟨value.type.scalar, lanes.length⟩
      let typeId ← vectorType type
      let id ← emitValue .vectorShuffle typeId
        (.id value.id :: .id value.id :: lanes.map fun lane => .word (.ofNat lane))
      return ⟨type, id⟩

/-- The components `lanes` of a value, in that order. Lanes past its end read zeros. -/
def swizzle (value : Value) (lanes : List Nat) : Emission Value := do
  if lanes.isEmpty then return value
  let value ← if lanes.any (value.type.count ≤ ·) then padToFour value else pure value
  pick value lanes

/-- The components of a mask, packed to the front. -/
def selectMask (value : Value) (mask : WriteMask) : Emission Value :=
  swizzle value mask.components

/-- A vector of scalars of one type; a single one stands for itself. -/
def compose (scalar : ScalarType) (parts : List Id) : Emission Value := do
  match parts with
  | [part] => return ⟨.single scalar, part⟩
  | _ => operate .compositeConstruct ⟨scalar, parts.length⟩ parts

/-- Whether sign modifiers work on floats. All other values count as signed integers. -/
def Value.isFloat (value : Value) : Bool :=
  value.type.scalar = .f32

def absolute (value : Value) : Emission Value :=
  extended (if Value.isFloat value then .fAbs else .sAbs) value.type [value.id]

def negate (value : Value) : Emission Value :=
  operate (if Value.isFloat value then .fNegate else .sNegate) value.type [value.id]

def applyAbs (value : Value) (modifier : Modifier) : Emission Value :=
  if modifier = .abs ∨ modifier = .absNeg then absolute value else return value

def applyNeg (value : Value) (modifier : Modifier) : Emission Value :=
  if modifier = .neg ∨ modifier = .absNeg then negate value else return value

/-- Absolute value, then negation, as the modifier says. -/
def applyModifier (value : Value) (modifier : Modifier) : Emission Value := do
  applyNeg (← applyAbs value modifier) modifier

/-- The bit pattern of the float one. -/
def floatOne : UInt32 := 0x3f800000

/-- Clamps floats to the unit interval. -/
def saturate (value : Value) : Emission Value := do
  if value.type.scalar ≠ .f32 then return value
  let zero ← splat .f32 0 value.type.count
  let one ← splat .f32 floatOne value.type.count
  extended .fClamp value.type [value.id, zero.id, one.id]

/-- How a word is compared with zero for a test. -/
def comparison : ZeroTest → Op
  | .ifZero => .iEqual
  | .ifNonZero => .iNotEqual

/-- Compares every component with zero. -/
def zeroTest (value : Value) (test : ZeroTest) : Emission Value := do
  let value ← bitcast value .u32
  let zero ← splat .u32 0 value.type.count
  operate (comparison test) ⟨.bool, value.type.count⟩ [value.id, zero.id]

/-- Keeps a float result of a precise instruction from being contracted. -/
def markPrecise (inst : Instruction) (value : Value) : Emission Unit := do
  if value.type.scalar = .f32 ∧ ¬inst.preciseMask.isEmpty then
    decorate value.id .noContraction []

end ShaderLowering.Lower
