import ShaderLowering.Program.Instruction

/-!
The structure of a program, read off its instructions. Constructs are marked by the instructions
that open, divide and end them, so where a construct goes on is found by counting.
-/

namespace ShaderLowering

namespace Opcode

/-- The instructions that open a construct. -/
def opens : Opcode → Bool
  | .ifOp | .loop | .switch => true
  | _ => false

/-- The instructions that end one. -/
def closes : Opcode → Bool
  | .endIf | .endLoop | .endSwitch => true
  | _ => false

/-- The instructions that divide one into parts. -/
def divides : Opcode → Bool
  | .elseOp | .caseOp | .defaultOp => true
  | _ => false

/-- The jumps that depend on a condition. -/
def isJumpOn : Opcode → Bool
  | .breakIf | .continueIf | .retIf | .discard => true
  | _ => false

end Opcode

namespace Instruction

/-- The opcode of an instruction that directs control. -/
def control? (inst : Instruction) : Option Opcode :=
  if inst.family = .controlFlow then inst.op? else none

/-- The literal of a case label. -/
def caseLiteral (inst : Instruction) : UInt32 :=
  (inst.src[0]?).elim 0 (·.imm.x)

def opens (inst : Instruction) : Bool := inst.control?.any Opcode.opens

def closes (inst : Instruction) : Bool := inst.control?.any Opcode.closes

def divides (inst : Instruction) : Bool := inst.control?.any Opcode.divides

/-- Whether an instruction is the case for a word. -/
def isCase (word : UInt32) (inst : Instruction) : Bool :=
  inst.control? = some .caseOp && inst.caseLiteral = word

def isDefault (inst : Instruction) : Bool := inst.control? = some .defaultOp

/-- The labels inside a switch. -/
def isLabel (inst : Instruction) : Bool :=
  inst.control? = some .caseOp || inst.isDefault

/-- An instruction whose opcode directs control says so in its family. Decoding sees to it. -/
def Classified (inst : Instruction) : Prop :=
  ∀ op, inst.op? = some op → op.format.family = .controlFlow → inst.family = .controlFlow

end Instruction

/-- The instructions that divide the construct around and the one that ends it, each with what
follows on it. Inside that construct, `depth` others are open at the beginning of the list. -/
def divisions : Nat → List Instruction → List (Instruction × List Instruction)
  | _, [] => []
  | depth, inst :: rest =>
    if inst.opens then divisions (depth + 1) rest
    else if inst.closes then
      match depth with
      | 0 => [(inst, rest)]
      | depth + 1 => divisions depth rest
    else if inst.divides && depth = 0 then (inst, rest) :: divisions depth rest
    else divisions depth rest

section Divisions

variable {inst : Instruction} {rest : List Instruction}

/-- One instruction of the list. -/
theorem divisions_cons (depth : Nat) : divisions depth (inst :: rest) =
    if inst.opens then divisions (depth + 1) rest
    else if inst.closes then
      match depth with
      | 0 => [(inst, rest)]
      | depth + 1 => divisions depth rest
    else if inst.divides && depth = 0 then (inst, rest) :: divisions depth rest
    else divisions depth rest := by
  rw [divisions.eq_def]

theorem divisions_opens (opens : inst.opens = true) (depth : Nat) :
    divisions depth (inst :: rest) = divisions (depth + 1) rest := by
  rw [divisions_cons]
  exact if_pos opens

theorem divisions_closes (opens : inst.opens = false) (closes : inst.closes = true) :
    divisions 0 (inst :: rest) = [(inst, rest)] := by
  rw [divisions_cons, opens, closes]
  rfl

theorem divisions_closes_inner (opens : inst.opens = false) (closes : inst.closes = true)
    (depth : Nat) : divisions (depth + 1) (inst :: rest) = divisions depth rest := by
  rw [divisions_cons, opens, closes]
  rfl

theorem divisions_divides (opens : inst.opens = false) (closes : inst.closes = false)
    (divides : inst.divides = true) :
    divisions 0 (inst :: rest) = (inst, rest) :: divisions 0 rest := by
  rw [divisions_cons, opens, closes, divides]
  rfl

theorem divisions_divides_inner (opens : inst.opens = false) (closes : inst.closes = false)
    (depth : Nat) : divisions (depth + 1) (inst :: rest) = divisions (depth + 1) rest := by
  have inside : (inst.divides && decide (depth + 1 = 0)) = false := by simp
  rw [divisions_cons, opens, closes, inside]
  rfl

theorem divisions_other (opens : inst.opens = false) (closes : inst.closes = false)
    (divides : inst.divides = false) (depth : Nat) :
    divisions depth (inst :: rest) = divisions depth rest := by
  rw [divisions_cons, opens, closes, divides]
  rfl

end Divisions

/-- What follows on the end of the construct around. -/
def behind (depth : Nat) (insts : List Instruction) : List Instruction :=
  ((divisions depth insts).getLast?).elim [] (·.2)

end ShaderLowering
