import ShaderLowering.Analysis
import ShaderLowering.Error
import ShaderLowering.Options

/-!
The state of lowering one shader: the module under construction, what has been declared, and the
constructs that are open.
-/

namespace ShaderLowering

open Spirv (Id)

def ScalarType.ofData : DataType → ScalarType
  | .float32 => f32
  | .uint32 => u32
  | .sint32 => i32

/-- A computed value. -/
structure Value where
  type : VectorType
  id : Id
deriving DecidableEq, Repr, Inhabited

/-- A place in memory that holds a value. -/
structure Pointer where
  type : VectorType
  storage : Spirv.StorageClass
  id : Id
deriving DecidableEq, Repr

structure IndexableTemp where
  variable_ : Id
  length : Nat
deriving DecidableEq, Repr, Inhabited

structure GroupMemory where
  variable_ : Id
  /-- Bytes per structure; zero for raw memory. -/
  stride : UInt32
  /-- Size in dwords. -/
  length : Nat
deriving DecidableEq, Repr, Inhabited

/-- A variable that carries an interface register under a location. -/
structure LocationVariable where
  id : Id
  /-- Type of one element; a variable with vertices holds one for each. -/
  type : VectorType
  vertices : Nat
deriving DecidableEq, Repr, Inhabited

/-- What is declared of an interface register. -/
structure InterfaceRegister where
  mask : WriteMask
  location? : Option LocationVariable
  /-- Components that travel through built-ins, in the order they were found. -/
  systemValues : List (WriteMask × SystemValue)
deriving DecidableEq, Repr, Inhabited

namespace InterfaceRegister

def empty : InterfaceRegister := ⟨.none, none, []⟩

def builtinMask (r : InterfaceRegister) : WriteMask :=
  r.systemValues.foldl (fun acc p => acc ||| p.1) .none

/-- The components that the location variable carries. -/
def userMask (r : InterfaceRegister) : WriteMask :=
  ⟨r.mask.bits &&& ~~~ r.builtinMask.bits⟩

end InterfaceRegister

structure BuiltinVariable where
  id : Id
  type : VectorType
  /-- Array elements; zero for a plain value. -/
  length : Nat
  /-- Elements of the outer array over vertices; zero without one. -/
  vertices : Nat
deriving DecidableEq, Repr, Inhabited

structure ConstantBuffer where
  variable_ : Id
  /-- In four-component elements. -/
  size : Nat
deriving DecidableEq, Repr, Inhabited

/-- A declared shader resource or unordered access view. -/
structure Resource where
  variable_ : Id
  dimension : ViewDimension
  /-- The image type of a typed view; buffers have none. -/
  image? : Option ImageType
  /-- Bytes per structure; zero for typed views and raw buffers. -/
  stride : UInt32
  /-- The append and consume counter, once it is used. -/
  counter? : Option Id
deriving DecidableEq, Repr

structure SwitchCase where
  literal : UInt32
  label : Id
deriving DecidableEq, Repr, Inhabited

structure Switch where
  /-- Position of the header block, which stays without end until the switch is closed. -/
  header : Nat
  selector : Id
  breakLabel : Id
  defaultLabel? : Option Id
  /-- The label of the case that is open. -/
  currentLabel? : Option Id
  /-- In order of declaration, without repeated literals. -/
  cases : List SwitchCase
deriving DecidableEq, Repr, Inhabited

/-- An open control-flow construct with the labels that are still to be placed. -/
inductive Construct
  | branch (elseLabel endLabel : Id) (hadElse : Bool)
  | loop (headerLabel continueLabel breakLabel : Id)
  | switch (s : Switch)
deriving DecidableEq, Repr

/-- A patch-constant phase of a hull shader. -/
structure PatchPhase where
  function : Id
  instanceCount : UInt32
  /-- The variable that holds the number of the running instance. -/
  instanceId : Id
deriving DecidableEq, Repr, Inhabited

/-- Which phase of a hull shader is being lowered. -/
inductive HullPhase
  | none
  | declarations
  | controlPoint
  | fork (index : Nat)
  | join (index : Nat)
deriving DecidableEq, Repr, Inhabited

structure HullState where
  phase : HullPhase
  /-- The bit pattern of the float that tessellation factors are clamped to. -/
  maxTessFactor : UInt32
  inputControlPoints : Nat
  outputControlPoints : Nat
  domain? : Option Spirv.ExecutionMode
  partitioning? : Option Spirv.ExecutionMode
  outputPrimitive? : Option Spirv.ExecutionMode
  pointMode : Bool
  controlPoint? : Option Id
  fork : List PatchPhase
  join : List PatchPhase
deriving DecidableEq, Repr

/-- What is declared for the stage as a whole. -/
inductive StageState
  | vertex
  | pixel (depthMode? : Option Spirv.ExecutionMode) (earlyFragmentTests : Bool)
  | compute (x y z : UInt32)
  | geometry (inputPrimitive? : Option Spirv.ExecutionMode) (inputVertices : Nat)
      (outputTopology? : Option Spirv.ExecutionMode) (maxVertices instances : UInt32)
  | domain (controlPoints : Nat) (domain? : Option Spirv.ExecutionMode)
  | hull (state : HullState)
deriving DecidableEq, Repr

namespace StageState

/-- The bit pattern of the greatest tessellation factor, 64. -/
def greatestTessFactor : UInt32 := 0x42800000

/-- The state before any declaration; stages outside the six have none. -/
def initial? : ShaderStage → Option StageState
  | .vertex => some vertex
  | .pixel => some (pixel none false)
  | .compute => some (compute 1 1 1)
  | .geometry => some (geometry none 0 none 0 1)
  | .domain => some (domain 0 none)
  | .hull =>
    some <| hull
      { phase := .none, maxTessFactor := greatestTessFactor, inputControlPoints := 0,
        outputControlPoints := 0, domain? := none, partitioning? := none,
        outputPrimitive? := none, pointMode := false, controlPoint? := none, fork := [],
        join := [] }
  | .unknown _ => none

def hull? : StageState → Option HullState
  | hull state => some state
  | _ => none

/-- Vertices of an input primitive or patch; zero while undeclared. -/
def inputVertices : StageState → Nat
  | geometry _ n _ _ _ => n
  | domain n _ => n
  | hull state => state.inputControlPoints
  | _ => 0

/-- Control points that a hull shader puts out, at least one; zero in other stages. -/
def outputVertices : StageState → Nat
  | hull state => max state.outputControlPoints 1
  | _ => 0

/-- Which phase a hull shader is in. -/
def phase? (stage : StageState) : Option HullPhase :=
  stage.hull?.map (·.phase)

/-- What a stage knows of itself once it is told something new. Hull shaders keep what they
know. -/
def become (old new : StageState) : StageState :=
  if old.hull?.isSome then old else new

theorem hull?_become {old new : StageState} (notHull : new.hull? = none)
    (h : old.hull? = none) : (old.become new).hull? = none := by
  unfold become
  split
  · exact h
  · exact notHull

theorem phase?_become (old : StageState) {new : StageState} (notHull : new.hull? = none) :
    (old.become new).phase? = old.phase? := by
  unfold become
  split
  · rfl
  · next h =>
    have : old.hull? = none := Option.not_isSome_iff_eq_none.1 h
    rw [phase?, phase?, notHull, this]

/-- What a hull shader knows of itself once it knows more, in the same phase. -/
def update : StageState → HullState → StageState
  | hull old, new => hull { new with phase := old.phase }
  | other, _ => other

theorem isSome_hull?_update (stage : StageState) (h : HullState) :
    (stage.update h).hull?.isSome = stage.hull?.isSome := by
  cases stage <;> rfl

theorem phase?_update (stage : StageState) (h : HullState) :
    (stage.update h).phase? = stage.phase? := by
  cases stage <;> rfl

def inControlPointPhase : StageState → Bool
  | hull state => state.phase = .controlPoint
  | _ => false

/-- The phase of a hull shader that runs on patch constants, if it is open. -/
def currentPhase? : StageState → Option PatchPhase
  | hull state =>
    match state.phase with
    | .fork index => state.fork[index]?
    | .join index => state.join[index]?
    | _ => none
  | _ => none

end StageState

/-- What is fixed for the whole shader. -/
structure Environment where
  stage : ShaderStage
  options : Options
  inputs : Signature
  outputs : Signature
  /-- Patch constants. -/
  patch : Signature
  analysis : Analysis

structure State where
  builder : Spirv.Builder
  /-- The extended instruction set. -/
  extendedSet : Id
  /-- Module-scope variables, latest first. -/
  globals : List (Id × Spirv.StorageClass)
  capabilities : List Spirv.Capability
  extensions : List String
  uniformBlocks : List (Nat × Id)
  storageBlock? : Option Id
  counterBlock? : Option Id
  entryPoint : Id
  stage : StageState
  /-- The body of a stage with a single function. -/
  body? : Option Id
  /-- Whether a function is open for executable instructions. -/
  inFunction : Bool
  /-- Innermost first. -/
  constructs : List Construct
  /-- The last instruction that was lowered. -/
  lastOpcode? : Option UInt32
  temps : Array Id
  indexableTemps : Table IndexableTemp
  groupMemory : Table GroupMemory
  immediateConstants? : Option Id
  inputArray? : Option Id
  outputArray? : Option Id
  patchArray? : Option Id
  inputs : Table InterfaceRegister
  outputs : Table InterfaceRegister
  patchInputs : Table InterfaceRegister
  patchOutputs : Table InterfaceRegister
  builtins : List ((Spirv.BuiltIn × Spirv.StorageClass) × BuiltinVariable)
  constantBuffers : Table ConstantBuffer
  samplers : Table Id
  textures : Table Resource
  uavs : Table Resource
  /-- Descriptors by binding. -/
  slots : Table ResourceSlot

end ShaderLowering
