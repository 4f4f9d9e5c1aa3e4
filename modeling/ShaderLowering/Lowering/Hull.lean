import ShaderLowering.Lowering.Types

/-!
Function bodies, and the hull shaders that have several. A body is open between `beginBody` and
`closeBody`; executable instructions go into it, so they are refused while none is open.

A hull shader is a sequence of phases: declarations, at most one control-point phase, then any
number of fork and join phases for the patch constants. Each phase with instructions becomes a
function of its own, which the entry point calls.
-/

namespace ShaderLowering.Lower

open Spirv

/-- Opens a function without parameters or result, under a given id or a new one. -/
def openFunction (id? : Option Id) : Lower Id := do
  let void ← voidType
  let type ← voidFunctionType
  beginFunction void type id?

/-- Opens a body. -/
def beginBody (text : String) : Lower Id := do
  let id ← openFunction none
  name id text
  beginFreshBlock
  modify fun s => { s with inFunction := true }
  return id

/-- Closes the body that is open, if any. All its constructs have to be closed. -/
def closeBody : Lower Unit := do
  if (← get).inFunction then
    let left := (← get).constructs.length
    if left ≠ 0 then failWith (.constructsLeftOpen left "a function")
    if (← openBlock?).isSome then ret
    endFunction
    modify fun s => { s with inFunction := false }

/-- Calls a body. -/
def call (function : Id) : Emission Unit := do
  let void ← voidType
  let _ ← emitValue .functionCall void [.id function]

end ShaderLowering.Lower

namespace ShaderLowering

open Spirv (Id ExecutionMode)

/-- A float, given by its bit pattern, clamped between one and the greatest tessellation factor.
What is not a number stays as it is. -/
def clampTessFactor (bits : UInt32) : UInt32 :=
  if 0x7f800000 < bits &&& 0x7fffffff then bits
  else if bits < 0x3f800000 ∨ 0x80000000 ≤ bits then 0x3f800000
  else if StageState.greatestTessFactor < bits then StageState.greatestTessFactor
  else bits

/-- The domain that a patch is tessellated over. -/
def tessDomain? : UInt32 → Option ExecutionMode
  | 1 => some .isolines
  | 2 => some .triangles
  | 3 => some .quads
  | _ => none

/-- How edges are divided; integer and power-of-two partitioning are the same here. -/
def tessPartitioning? : UInt32 → Option ExecutionMode
  | 1 | 2 => some .spacingEqual
  | 3 => some .spacingFractionalOdd
  | 4 => some .spacingFractionalEven
  | _ => none

namespace HullState

/-- Points, or triangles with a winding; the vertical axis points the other way than in programs,
which turns the winding around. -/
def declareOutputPrimitive (h : HullState) : UInt32 → HullState
  | 1 => { h with pointMode := true }
  | 3 => { h with outputPrimitive? := some .vertexOrderCcw }
  | 4 => { h with outputPrimitive? := some .vertexOrderCw }
  | _ => h

/-- Changes the patch-constant phase that is open, if there is one. -/
def modifyPhase? (h : HullState) (f : PatchPhase → PatchPhase) : Option HullState :=
  match h.phase with
  | .fork index =>
    if index < h.fork.length then some { h with fork := h.fork.modify index f } else none
  | .join index =>
    if index < h.join.length then some { h with join := h.join.modify index f } else none
  | _ => none

/-- What a declaration says of the whole shader. -/
def declare (h : HullState) (inst : Instruction) : HullState :=
  match inst.op? with
  | some .dclInputControlPointCount =>
    { h with inputControlPoints := inst.controlPointCount.toNat }
  | some .dclOutputControlPointCount =>
    { h with outputControlPoints := inst.controlPointCount.toNat }
  | some .dclTessDomain => { h with domain? := tessDomain? inst.tessDomain }
  | some .dclTessPartitioning =>
    { h with partitioning? := tessPartitioning? inst.tessPartitioning }
  | some .dclTessOutputPrimitive => h.declareOutputPrimitive inst.tessOutputPrimitive
  | some .dclHsMaxTessfactor => { h with maxTessFactor := clampTessFactor (inst.imm.headD 0) }
  | _ => h

/-- The execution modes of a hull shader with their literals. -/
def executionModes (h : HullState) : List (ExecutionMode × List UInt32) :=
  let plain (mode? : Option ExecutionMode) : List (ExecutionMode × List UInt32) :=
    mode?.toList.map fun mode => (mode, [])
  [(.outputVertices, [.ofNat (max h.outputControlPoints 1)])] ++
  plain h.partitioning? ++
  (if h.pointMode then [] else plain h.outputPrimitive?) ++
  plain h.domain? ++
  (if h.pointMode then [(.pointMode, [])] else [])

end HullState

namespace Lower

def hullState : Emission HullState := do
  orFault (← .state).stage.hull? .notInHull

/-- Sets the state of a hull shader, its phase included. Other stages have none. -/
def setHullState (h : HullState) : InterfaceStep Unit :=
  .note (fun s => { s with stage := if s.stage.hull?.isSome then .hull h else s.stage })
    fun s => by
      constructor
      case hull? =>
        by_cases isHull : s.stage.hull?.isSome = true
        · rw [if_pos isHull, isHull]; rfl
        · rw [if_neg isHull]
      all_goals rfl

/-- Sets the state of a hull shader within a phase. -/
def updateHullState (h : HullState) : Emission Unit :=
  .note (fun s => { s with stage := s.stage.update h })
    (fun s => by
      constructor
      case hull? => exact s.stage.isSome_hull?_update h
      all_goals rfl)
    fun s => ⟨rfl, rfl, rfl, rfl, s.stage.phase?_update h⟩

/-- Sets how often the open patch-constant phase runs, at least once. -/
def declareInstanceCount (inst : Instruction) : Emission Unit := do
  let count := max (inst.imm.headD 0) 1
  let h ← hullState
  let h ← orFault (h.modifyPhase? fun phase => { phase with instanceCount := count })
    (.notInForkOrJoin inst.name)
  updateHullState h

def lowerHullDeclaration (inst : Instruction) : Emission Unit := do
  match inst.op? with
  | some .dclHsForkPhaseInstanceCount | some .dclHsJoinPhaseInstanceCount =>
    declareInstanceCount inst
  | _ =>
    let h ← hullState
    updateHullState (h.declare inst)

def beginControlPointPhase : Lower Unit := do
  if (← hullState).controlPoint?.isSome then failWith .secondControlPointPhase
  let function ← beginBody "hs_control_point"
  let h ← hullState
  setHullState { h with controlPoint? := some function, phase := .controlPoint }

/-- Opens a patch-constant phase. A private variable holds the number of the running instance. -/
def beginPatchPhase (isJoin : Bool) : Lower Unit := do
  let h ← hullState
  let index := if isJoin then h.join.length else h.fork.length
  let kind := if isJoin then "join" else "fork"
  let label := s!"hs_{kind}_{index}"
  let word ← scalarType .u32
  let instanceId ← newVariable word .priv none
  name instanceId s!"{label}_instance"
  let function ← beginBody label
  let phase : PatchPhase := { function, instanceCount := 1, instanceId }
  let h ← hullState
  setHullState <|
    if isJoin then { h with join := h.join ++ [phase], phase := .join index }
    else { h with fork := h.fork ++ [phase], phase := .fork index }

/-- Ends the phase that is open and begins the next. -/
def lowerHullPhase (inst : Instruction) : Lower Unit := do
  let _ ← hullState
  closeBody
  match inst.op? with
  | some .hsDecls =>
    let h ← hullState
    setHullState { h with phase := .declarations }
  | some .hsControlPointPhase => beginControlPointPhase
  | some .hsForkPhase => beginPatchPhase false
  | some .hsJoinPhase => beginPatchPhase true
  | _ => unsupported inst

end Lower

end ShaderLowering
