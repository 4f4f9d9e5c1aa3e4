import ShaderLowering.Program.Operand
import ShaderLowering.Proofs.Typing.Module
import Mathlib.Logic.Function.Basic

/-!
Running straight-line code on words of 32 bits. A processor knows what the ids that were computed so
far stand for, and what the variables of four components hold; what constants and variables stand
for is read off the module. Every instruction acts as the SPIR-V specification defines it on words.
Where that leaves a result undefined, and where a result is a float, the device decides; code that
the processor does not know, or that does not fit its arguments, has no run.
-/

namespace ShaderLowering

namespace Words4

/-- The four words with another one in component `c`, taken modulo four. -/
def set (v : Words4) (c : Nat) (w : UInt32) : Words4 :=
  match c % 4 with
  | 0 => { v with x := w }
  | 1 => { v with y := w }
  | 2 => { v with z := w }
  | _ => { v with w := w }

def ofList? : List UInt32 → Option Words4
  | [x, y, z, w] => some ⟨x, y, z, w⟩
  | _ => none

end Words4

namespace Spirv

/-- What an id stands for. Vectors have a word or a truth value for each component. -/
inductive Datum
  | words (ws : List UInt32)
  | truths (bs : List Bool)
  /-- A struct of two vectors, by components. -/
  | pairs (ps : List (UInt32 × UInt32))
  /-- A variable of four components, or one of its components. -/
  | place (variable_ : Id) (component? : Option Nat)
deriving DecidableEq, Repr

/-- What devices are free to choose. -/
structure Device where
  /-- Results that the specification leaves undefined. -/
  undefined : Op → List UInt32 → UInt32
  /-- Float results, on the bit patterns of floats. -/
  float : Op → List UInt32 → UInt32
  /-- Results of the float functions of the extended set. -/
  extended : ExtOp → List UInt32 → UInt32

structure Processor where
  values : Id → Option Datum
  memory : Id → Words4

/-- The position of the highest bit with a property, all ones if there is none. -/
def highest (bit : Nat → Bool) : UInt32 :=
  ((List.range 32).reverse.find? bit).elim 0xffffffff .ofNat

/-- The position of the lowest bit with a property, all ones if there is none. -/
def lowest (bit : Nat → Bool) : UInt32 :=
  ((List.range 32).find? bit).elim 0xffffffff .ofNat

/-- Bit `i` of a word. -/
def bit (a : UInt32) (i : Nat) : Bool :=
  a.toNat.testBit i

def bitCount (a : UInt32) : UInt32 :=
  .ofNat ((List.range 32).countP (bit a))

/-- The high word of a product of two integers. -/
def highWord (product : Int) : UInt32 :=
  ⟨.ofInt 32 (product / UInt32.size)⟩

def lowWord (product : Int) : UInt32 :=
  ⟨.ofInt 32 product⟩

/-- The signed number that a word stands for. -/
def signed (a : UInt32) : Int :=
  a.toBitVec.toInt

namespace Op

/-- Bits `offset` to `offset + count - 1` of a word, and zeros above. -/
def fieldOf (a : UInt32) (offset count : Nat) : UInt32 :=
  ⟨(a.toBitVec.extractLsb' offset count).setWidth 32⟩

/-- Bits `offset` to `offset + count - 1` of a word, and copies of the last of them above. -/
def signedFieldOf (a : UInt32) (offset count : Nat) : UInt32 :=
  ⟨(a.toBitVec.extractLsb' offset count).signExtend 32⟩

/-- A word with bits `offset` to `offset + count - 1` taken from the low end of another. -/
def insertInto (a field : UInt32) (offset count : Nat) : UInt32 :=
  let above := a.toBitVec >>> (offset + count) <<< (offset + count)
  let inside := (field.toBitVec.setWidth count).setWidth 32 <<< offset
  ⟨above ||| inside ||| (a.toBitVec.setWidth offset).setWidth 32⟩

/-- The operations on words that give a word in each component. -/
def number? (d : Device) (op : Op) (args : List UInt32) : Option UInt32 :=
  match op, args with
  | bitcast, [a] => some a
  | not, [a] => some (~~~a)
  | sNegate, [a] => some (-a)
  | Op.bitCount, [a] => some (Spirv.bitCount a)
  | bitReverse, [a] => some ⟨a.toBitVec.reverse⟩
  | bitwiseAnd, [a, b] => some (a &&& b)
  | bitwiseOr, [a, b] => some (a ||| b)
  | bitwiseXor, [a, b] => some (a ^^^ b)
  | iAdd, [a, b] => some (a + b)
  | iSub, [a, b] => some (a - b)
  | iMul, [a, b] => some (a * b)
  | uDiv, [a, b] => some (if b = 0 then d.undefined uDiv [a, b] else a / b)
  | uMod, [a, b] => some (if b = 0 then d.undefined uMod [a, b] else a % b)
  | shiftLeftLogical, [a, n] =>
    some (if n < 32 then a <<< n else d.undefined shiftLeftLogical [a, n])
  | shiftRightLogical, [a, n] =>
    some (if n < 32 then a >>> n else d.undefined shiftRightLogical [a, n])
  | shiftRightArithmetic, [a, n] =>
    some (if n < 32 then ⟨a.toBitVec.sshiftRight n.toNat⟩
      else d.undefined shiftRightArithmetic [a, n])
  | fNegate, [a] => some (d.float fNegate [a])
  | _, _ => none

/-- The operations on bit fields, whose offset and count are scalars. -/
def field? (d : Device) (op : Op) (args : List UInt32) : Option UInt32 :=
  match op, args with
  | bitFieldUExtract, [a, offset, count] =>
    some (if offset.toNat + count.toNat ≤ 32 then fieldOf a offset.toNat count.toNat
      else d.undefined bitFieldUExtract [a, offset, count])
  | bitFieldSExtract, [a, offset, count] =>
    some (if offset.toNat + count.toNat ≤ 32 then signedFieldOf a offset.toNat count.toNat
      else d.undefined bitFieldSExtract [a, offset, count])
  | bitFieldInsert, [a, field, offset, count] =>
    some (if offset.toNat + count.toNat ≤ 32 then insertInto a field offset.toNat count.toNat
      else d.undefined bitFieldInsert [a, field, offset, count])
  | _, _ => none

/-- The comparisons of words. -/
def test? (op : Op) (args : List UInt32) : Option Bool :=
  match op, args with
  | iEqual, [a, b] => some (a = b)
  | iNotEqual, [a, b] => some (a ≠ b)
  | sLessThan, [a, b] => some (signed a < signed b)
  | sGreaterThanEqual, [a, b] => some (signed b ≤ signed a)
  | uLessThan, [a, b] => some (a < b)
  | uGreaterThanEqual, [a, b] => some (b ≤ a)
  | _, _ => none

/-- The operations that give a struct of two words. -/
def pair? (op : Op) (args : List UInt32) : Option (UInt32 × UInt32) :=
  match op, args with
  | uMulExtended, [a, b] => some (lowWord (a.toNat * b.toNat), highWord (a.toNat * b.toNat))
  | sMulExtended, [a, b] => some (lowWord (signed a * signed b), highWord (signed a * signed b))
  | iAddCarry, [a, b] => some (a + b, if UInt32.size ≤ a.toNat + b.toNat then 1 else 0)
  | iSubBorrow, [a, b] => some (a - b, if a < b then 1 else 0)
  | _, _ => none

end Op

/-- The functions of the extended set. -/
def ExtOp.number? (d : Device) (op : ExtOp) (args : List UInt32) : Option UInt32 :=
  match op, args with
  | sAbs, [a] => some (if signed a < 0 then -a else a)
  | uMin, [a, b] => some (if b < a then b else a)
  | uMax, [a, b] => some (if a < b then b else a)
  | sMin, [a, b] => some (if signed b < signed a then b else a)
  | sMax, [a, b] => some (if signed a < signed b then b else a)
  | findILsb, [a] => some (lowest (bit a))
  | findUMsb, [a] => some (highest (bit a))
  | findSMsb, [a] => some (highest fun i => bit a i ≠ bit a 31)
  | fAbs, [a] => some (d.extended fAbs [a])
  | sin, [a] => some (d.extended sin [a])
  | cos, [a] => some (d.extended cos [a])
  | fClamp, [a, low, high] => some (d.extended fClamp [a, low, high])
  | _, _ => none

/-- The functions of the extended set that the processor knows. -/
def ExtOp.known : List ExtOp :=
  [.sAbs, .uMin, .uMax, .sMin, .sMax, .findILsb, .findUMsb, .findSMsb, .fAbs, .sin, .cos, .fClamp]

def ExtOp.ofCode? (code : UInt32) : Option ExtOp :=
  known.find? (·.code = code)

/-- A function applied to each component of vectors of one size. -/
def lanewise? {α : Type} (f : List UInt32 → Option α) : List (List UInt32) → Option (List α)
  | [] => none
  | first :: rest =>
    if rest.all (·.length = first.length) then
      (List.range first.length).mapM fun i => f ((first :: rest).map (·.getD i 0))
    else none

/-- One of two words for each component. -/
def select? : List Bool → List UInt32 → List UInt32 → Option (List UInt32)
  | [], [], [] => some []
  | c :: cs, a :: as, b :: bs => (select? cs as bs).map ((if c then a else b) :: ·)
  | _, _, _ => none

namespace Module

variable (m : Module)

/-- The word of a constant that is part of another. -/
def word? : Arg → Option UInt32
  | .id part => m.constant? part
  | _ => none

/-- What an id stands for, given what those stand for that are computed. -/
def datum? (computed : Id → Option Datum) (id : Id) : Option Datum :=
  match m.definition? id with
  | some ⟨.ordinary .constant, _, _, [.word w]⟩ => some (.words [w])
  | some ⟨.ordinary .constantComposite, _, _, parts⟩ =>
    (parts.mapM m.word?).map .words
  | some ⟨.ordinary .var, _, _, _⟩ => some (.place id none)
  | _ => computed id

end Module

namespace Datum

def words? : Datum → Option (List UInt32)
  | words ws => some ws
  | _ => none

def truths? : Datum → Option (List Bool)
  | truths bs => some bs
  | _ => none

/-- Member `n` of a composite. -/
def member? (x : Datum) (n : UInt32) : Option Datum :=
  match x with
  | words ws => (ws[n.toNat]?).map fun w => words [w]
  | pairs ps =>
    if n = 0 then some (words (ps.map (·.1)))
    else if n = 1 then some (words (ps.map (·.2)))
    else none
  | _ => none

/-- What a place holds. -/
def load? (x : Datum) (memory : Id → Words4) : Option Datum :=
  match x with
  | place v none => some (words (memory v).toList)
  | place v (some c) => some (words [(memory v).get c])
  | _ => none

/-- The memory once words are written to a place. -/
def store? (x : Datum) (ws : List UInt32) (memory : Id → Words4) : Option (Id → Words4) :=
  match x, ws with
  | place v none, ws => (Words4.ofList? ws).map fun all => Function.update memory v all
  | place v (some c), [w] => some (Function.update memory v ((memory v).set c w))
  | _, _ => none

/-- The component of a place. -/
def component? (x : Datum) (n : UInt32) : Option Datum :=
  match x with
  | place v none => if n < 4 then some (place v (some n.toNat)) else none
  | _ => none

end Datum

namespace Device

variable (d : Device) (m : Module) (μ : Processor)

/-- What an argument stands for. -/
def datum? : Arg → Option Datum
  | .id id => m.datum? μ.values id
  | _ => none

def words? (arg : Arg) : Option (List UInt32) :=
  (datum? m μ arg).bind Datum.words?

def literal? : Arg → Option UInt32
  | .word w => some w
  | _ => none

/-- A function of words applied to vectors, component by component. -/
def lanes? {α : Type} (f : List UInt32 → Option α) (args : List Arg) : Option (List α) :=
  (args.mapM (words? m μ)).bind (lanewise? f)

/-- What an instruction computes. There is one extended set, so its id says nothing. -/
def evaluate? (op : Op) (args : List Arg) : Option Datum :=
  match op, args with
  | .load, [p] => (datum? m μ p).bind (·.load? μ.memory)
  | .accessChain, [base, index] => do
    let [n] ← words? m μ index | none
    (← datum? m μ base).component? n
  | .compositeExtract, [x, n] => do (← datum? m μ x).member? (← literal? n)
  | .compositeConstruct, parts => return .words (← parts.mapM (words? m μ)).flatten
  | .vectorShuffle, a :: b :: lanes => do
    let all := (← words? m μ a) ++ (← words? m μ b)
    return .words (← lanes.mapM fun lane => (literal? lane).bind fun n => all[n.toNat]?)
  | .select, [c, a, b] => do
    let truths ← (← datum? m μ c).truths?
    return .words (← select? truths (← words? m μ a) (← words? m μ b))
  | .extInst, _ :: code :: args => do
    let op ← ExtOp.ofCode? (← literal? code)
    (lanes? m μ (op.number? d) args).map .words
  | .bitFieldUExtract, args | .bitFieldSExtract, args | .bitFieldInsert, args => do
    let [w] ← lanes? m μ (op.field? d) args | none
    return .words [w]
  | .iEqual, args | .iNotEqual, args | .sLessThan, args | .sGreaterThanEqual, args
  | .uLessThan, args | .uGreaterThanEqual, args => (lanes? m μ op.test? args).map .truths
  | .uMulExtended, args | .sMulExtended, args | .iAddCarry, args | .iSubBorrow, args =>
    (lanes? m μ op.pair? args).map .pairs
  | op, args => (lanes? m μ (op.number? d) args).map .words

/-- One instruction. A variable without initial value keeps what its memory happens to hold. -/
def step (i : Instr) : Option Processor :=
  match i with
  | ⟨.ordinary .var, _, some _, [_]⟩ => some μ
  | ⟨.ordinary .store, _, none, [p, value]⟩ => do
    let memory ← (← datum? m μ p).store? (← words? m μ value) μ.memory
    return { μ with memory }
  | ⟨.ordinary op, _, some id, args⟩ => do
    let x ← d.evaluate? m μ op args
    return { μ with values := Function.update μ.values id (some x) }
  | _ => none

/-- Instructions one after the other. -/
def run (d : Device) (m : Module) (code : List Instr) (μ : Processor) : Option Processor :=
  code.foldlM (d.step m) μ

end Device

end Spirv

end ShaderLowering
