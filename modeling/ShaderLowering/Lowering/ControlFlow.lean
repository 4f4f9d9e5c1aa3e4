import ShaderLowering.Lowering.Operand

/-!
Structured control flow. Programs are structured already, so every construct becomes a selection
or a loop. Open constructs lie on a stack; an instruction that ends its block early opens a block
that nothing reaches, so that there is always a place for what follows.

A switch has to wait for its cases. Its header stays without an end, and the merge and the switch
instruction are appended to it when the switch is closed.
-/

namespace ShaderLowering.Lower

open Spirv

def setConstructs (constructs : List Construct) : Lower Unit :=
  modify fun s => { s with constructs }

def pushConstruct (c : Construct) : Lower Unit :=
  modify fun s => { s with constructs := c :: s.constructs }

/-- Takes the innermost construct off the stack, if there is one. -/
def popConstruct : Lower (Option Construct) :=
  modifyGet fun s =>
    match s.constructs with
    | [] => (none, s)
    | c :: rest => (some c, { s with constructs := rest })

/-- Tests the first component of the first source as the instruction asks. -/
def condition (inst : Instruction) : Emission Id := do
  let value ← readOperand (← source inst 0) .x
  return (← zeroTest value inst.zeroTest).id

/-- Ends a block with `jump` if the condition holds and goes on otherwise. -/
def jumpOn (condition : Id) (jump : Lower Unit) : Lower Unit := do
  let taken ← fresh
  let merge ← fresh
  selectionMerge merge
  branchConditional condition taken merge
  beginBlock taken
  jump
  beginBlock merge

def jumpIf (inst : Instruction) (jump : Lower Unit) : Lower Unit := do
  let condition ← condition inst
  jumpOn condition jump

/-- Ends a block with a jump. -/
def jumpTo (label : Id) : Lower Unit := do
  branch label
  beginFreshBlock

/-- Where a break goes: behind the nearest loop or switch. -/
def breakTarget? : List Construct → Option Id
  | [] => none
  | .loop _ _ breakLabel :: _ => some breakLabel
  | .switch s :: _ => some s.breakLabel
  | .branch .. :: rest => breakTarget? rest

/-- Where a continue goes: to the end of the nearest loop. -/
def continueTarget? : List Construct → Option Id
  | [] => none
  | .loop _ continueLabel _ :: _ => some continueLabel
  | _ :: rest => continueTarget? rest

def breakTarget : Lower Id := do
  orFault (breakTarget? (← get).constructs) .breakOutside

def continueTarget : Lower Id := do
  orFault (continueTarget? (← get).constructs) .continueOutside

def openIf (condition : Id) : Lower Unit := do
  let thenLabel ← fresh
  let elseLabel ← fresh
  let endLabel ← fresh
  selectionMerge endLabel
  branchConditional condition thenLabel elseLabel
  beginBlock thenLabel
  pushConstruct (.branch elseLabel endLabel false)

def lowerIf (inst : Instruction) : Lower Unit := do
  let condition ← condition inst
  openIf condition

def lowerElse : Lower Unit := do
  match (← get).constructs with
  | .branch elseLabel endLabel hadElse :: rest =>
    if hadElse then failWith .secondElse
    setConstructs (.branch elseLabel endLabel true :: rest)
    branch endLabel
    beginBlock elseLabel
  | _ => failWith .elseWithoutIf

def lowerEndIf : Lower Unit := do
  match ← popConstruct with
  | some (.branch elseLabel endLabel hadElse) =>
    branch endLabel
    unless hadElse do
      beginBlock elseLabel
      branch endLabel
    beginBlock endLabel
  | _ => failWith .endIfWithoutIf

def lowerLoop : Lower Unit := do
  let headerLabel ← fresh
  let bodyLabel ← fresh
  let continueLabel ← fresh
  let breakLabel ← fresh
  branch headerLabel
  beginBlock headerLabel
  loopMerge breakLabel continueLabel
  branch bodyLabel
  beginBlock bodyLabel
  pushConstruct (.loop headerLabel continueLabel breakLabel)

def lowerEndLoop : Lower Unit := do
  match ← popConstruct with
  | some (.loop headerLabel continueLabel breakLabel) =>
    branch continueLabel
    beginBlock continueLabel
    branch headerLabel
    beginBlock breakLabel
  | _ => failWith .endLoopWithoutLoop

/-- The word that a switch selects by: the first component of its source. -/
def selector (inst : Instruction) : Emission Id := do
  readScalar (← source inst 0) .u32

def openSwitch (selector : Id) : Lower Unit := do
  let headerLabel ← fresh
  let breakLabel ← fresh
  branch headerLabel
  beginBlock headerLabel
  let header ← orFault (← openBlock?) .switchHeaderNotOpen
  modify fun s => { s with builder := s.builder.leaveBlock }
  pushConstruct <| .switch
    { header, selector, breakLabel, defaultLabel? := none, currentLabel? := none,
      cases := [] }

def lowerSwitch (inst : Instruction) : Lower Unit := do
  let selector ← selector inst
  openSwitch selector

/-- The instruction lowered last, if its number belongs to a known opcode. -/
def lastOp? : Lower (Option Opcode) :=
  return (← get).lastOpcode?.bind Opcode.ofCode?

/-- Whether control never comes behind an instruction. -/
def isJump : Option Opcode → Bool
  | some .breakOp | some .continueOp | some .ret => true
  | _ => false

def isLabel : Option Opcode → Bool
  | some .caseOp | some .defaultOp => true
  | _ => false

/-- Ends the open block in front of a case: it falls through, unless it is the block that nothing
reaches behind a jump. -/
def closeCase (next : Id) : Lower Unit := do
  if (← openBlock?).isNone then return
  if isJump (← lastOp?) then terminate .unreachable [] else branch next

/-- The label for a case of the innermost switch. Labels that directly follow one another share a
block; any other opens a new one. -/
def caseLabel : Lower Id := do
  let last? ← lastOp?
  match (← get).constructs with
  | .switch s :: rest =>
    match isLabel last?, s.currentLabel? with
    | true, some label => return label
    | _, _ =>
      let label ← fresh
      closeCase label
      beginBlock label
      setConstructs (.switch { s with currentLabel? := some label } :: rest)
      return label
  | _ => failWith .caseOutsideSwitch

/-- Changes the innermost construct if it is a switch. -/
def modifySwitch (f : Switch → Switch) : Lower Unit :=
  modify fun s =>
    match s.constructs with
    | .switch sw :: rest => { s with constructs := .switch (f sw) :: rest }
    | _ => s

/-- Adds a case, unless its literal is taken. -/
def Switch.addCase (s : Switch) (literal : UInt32) (label : Id) : Switch :=
  if s.cases.any (·.literal = literal) then s
  else { s with cases := s.cases ++ [⟨literal, label⟩] }

def lowerCase (inst : Instruction) : Lower Unit := do
  let op ← source inst 0
  if op.type ≠ .imm32 then failWith (.caseLabel op.type)
  let label ← caseLabel
  modifySwitch fun s => Switch.addCase s op.imm.x label

def lowerDefault : Lower Unit := do
  let label ← caseLabel
  modifySwitch fun s => { s with defaultLabel? := some label }

/-- Ends the header of a switch whose cases are known. -/
def closeHeader (s : Switch) : Lower Unit := do
  tryBuild (·.reopenBlock s.header)
  selectionMerge s.breakLabel
  terminate .switch
    (.id s.selector :: .id (s.defaultLabel?.getD s.breakLabel) ::
      s.cases.flatMap fun c => [.word c.literal, .id c.label])

def lowerEndSwitch : Lower Unit := do
  match ← popConstruct with
  | some (.switch s) =>
    closeCase s.breakLabel
    closeHeader s
    beginBlock s.breakLabel
  | _ => failWith .endSwitchWithoutSwitch

def lowerControlFlow (inst : Instruction) : Lower Unit := do
  match inst.op? with
  | some .ifOp => lowerIf inst
  | some .elseOp => lowerElse
  | some .endIf => lowerEndIf
  | some .loop => lowerLoop
  | some .endLoop => lowerEndLoop
  | some .switch => lowerSwitch inst
  | some .caseOp => lowerCase inst
  | some .defaultOp => lowerDefault
  | some .endSwitch => lowerEndSwitch
  | some .breakOp => jumpTo (← breakTarget)
  | some .continueOp => jumpTo (← continueTarget)
  | some .breakIf =>
    let label ← breakTarget
    jumpIf inst (branch label)
  | some .continueIf =>
    let label ← continueTarget
    jumpIf inst (branch label)
  | some .ret =>
    ret
    beginFreshBlock
  | some .retIf => jumpIf inst ret
  | some .discard =>
    if (← read).stage ≠ .pixel then failWith (.outsideStage "discard" .pixel)
    jumpIf inst (terminate .kill [])
  | _ => unsupported inst

end ShaderLowering.Lower
