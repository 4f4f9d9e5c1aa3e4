import ShaderLowering.Bytes
import ShaderLowering.Spirv.Grammar

/-!
SPIR-V instructions and their binary form. Ids are kept apart from literal words, so what an
instruction refers to can be read off its arguments. `frames` walks a stream of instruction words
by the word counts in it and gives back the words of each instruction.
-/

namespace ShaderLowering.Spirv

/-- Names a type, constant, variable, value, label or function of a module. -/
abbrev Id := Nat

inductive Arg
  | id (id : Id)
  /-- A literal number or the number of an enumerant. -/
  | word (w : UInt32)
  | text (s : String)
deriving DecidableEq, Repr, Inhabited

structure Instr where
  op : OpCode
  resultType? : Option Id
  result? : Option Id
  args : List Arg
deriving DecidableEq, Repr

namespace Arg

/-- The words of a text: its UTF-8 bytes and one to four zero bytes. -/
def textWords (s : String) : List UInt32 :=
  let bytes := s.toUTF8.data.toList
  Bytes.toWords (bytes ++ List.replicate (4 - bytes.length % 4) 0)

def words : Arg → List UInt32
  | id n => [.ofNat n]
  | word w => [w]
  | text s => textWords s

end Arg

namespace Instr

/-- An ordinary instruction without a result. -/
def plain (op : Op) (args : List Arg) : Instr :=
  ⟨.ordinary op, none, none, args⟩

/-- An instruction that directs control. None of them has a result. -/
def control (op : ControlOp) (args : List Arg) : Instr :=
  ⟨.control op, none, none, args⟩

/-- Result type, result and arguments as words. -/
def operandWords (i : Instr) : List UInt32 :=
  (i.resultType?.toList ++ i.result?.toList).map UInt32.ofNat ++ i.args.flatMap Arg.words

/-- The words of an instruction. The first holds the word count in its high half, as far as it
fits there, and the opcode in its low half. -/
def words (i : Instr) : List UInt32 :=
  let operands := i.operandWords
  (UInt32.ofNat (operands.length + 1) <<< 16 ||| i.op.code) :: operands

end Instr

/-- Cuts a word stream into instructions by the word counts in it. Fails on a count of zero and
on one that runs past the end. -/
def frames (ws : List UInt32) : Option (List (List UInt32)) :=
  match ws with
  | [] => some []
  | first :: rest =>
    let count := (first >>> 16).toNat
    if count = 0 ∨ rest.length + 1 < count then none
    else (frames (rest.drop (count - 1))).map ((first :: rest.take (count - 1)) :: ·)
termination_by ws.length
decreasing_by simp only [List.length_cons, List.length_drop]; omega

end ShaderLowering.Spirv
