import ShaderLowering.Proofs.Execution.Instructions
import ShaderLowering.Proofs.Memory.Places
import ShaderLowering.Proofs.Typing.Operands

/-!
What source operands read. A place is a variable with the numbers that lead into it, and these are
sums of offsets and of what other operands read, so what an operand reads is a recursion over
operands, as is the code for it. The code computes just that, and changes nothing.
-/

namespace ShaderLowering

open Spirv (Id Instr Arg Op Module StorageClass BuiltIn Device Invocation World Address Memory)

/-- What lies in a component of a vector in memory, with zeros behind its end. -/
def Spirv.Memory.lane (memory : Memory) (count : Nat) (p : Address) (c : Nat) : UInt32 :=
  if c < count then memory (p.component count c) else 0

/-- The built-in that an operand names by its type alone. -/
def OperandType.builtin? : OperandType → Option (BuiltIn × StorageClass)
  | .inputPrimitiveId => some (.primitiveId, .input)
  | .outputControlPointId | .inputGsInstanceId => some (.invocationId, .input)
  | .inputDomainPoint => some (.tessCoord, .input)
  | .inputThreadId => some (.globalInvocationId, .input)
  | .inputThreadGroupId => some (.workgroupId, .input)
  | .inputThreadIdInGroup => some (.localInvocationId, .input)
  | .inputThreadIdInGroupFlattened => some (.localInvocationIndex, .input)
  | .inputCoverageMask => some (.sampleMask, .input)
  | .outputCoverageMask => some (.sampleMask, .output)
  | .outputDepth | .outputDepthGreaterEqual | .outputDepthLessEqual => some (.fragDepth, .output)
  | _ => none

namespace State

/-- The place of an output of a control point. -/
def controlPoint? (t : State) (reg vertex : UInt32) : Option (VectorType × Address) :=
  ((t.outputs.find? reg).bind (·.location?)).map fun l => (l.type, ⟨l.id, [vertex.toNat]⟩)

/-- The place that an operand names, by the values of its indices, with the type of what lies
there. -/
def place? (env : Environment) (t : State) (memory : Memory) (op : Operand)
    (index : Nat → Option UInt32) : Option (VectorType × Address) :=
  match op.type with
  | .temp => do return (float4, ⟨← t.temps[(← index 0).toNat]?, []⟩)
  | .indexableTemp => do
    let array ← t.indexableTemps.find? (← index 0)
    return (float4, ⟨array.variable_, [(← index 1).toNat]⟩)
  | .input | .inputControlPoint => do
    let first := (← index 0).toNat
    let path ← if 2 ≤ op.indices.length then (index 1).map fun reg => [first, reg.toNat]
      else some [first]
    return (float4, ⟨← t.inputArray?, path⟩)
  | .inputPatchConstant => do return (float4, ⟨← t.patchArray?, [(← index 0).toNat]⟩)
  | .outputControlPoint => do t.controlPoint? (← index 1) (← index 0)
  | .output =>
    if env.stage = .hull then
      if t.stage.inControlPointPhase then do
        let number ← t.builtins.lookup (.invocationId, .input)
        t.controlPoint? (← index 0) (memory ⟨number.id, []⟩)
      else do return (float4, ⟨← t.patchArray?, [(← index 0).toNat]⟩)
    else do return (float4, ⟨← t.outputArray?, [(← index 0).toNat]⟩)
  | .constantBuffer => do
    let buffer ← t.constantBuffers.find? (← index 0)
    return (float4, ⟨buffer.variable_, [0, (← index 1).toNat]⟩)
  | .immediateConstantBuffer => do
    return (.four .u32, ⟨← t.immediateConstants?, [(← index 0).toNat]⟩)
  | .inputForkInstanceId | .inputJoinInstanceId => do
    return (.single .u32, ⟨(← t.stage.currentPhase?).instanceId, []⟩)
  | type => do
    let found ← t.builtins.lookup (← type.builtin?)
    return (found.type, ⟨found.id, if 0 < found.length then [0] else []⟩)

theorem place?_builtin {env : Environment} {t : State} {memory : Memory} {op : Operand}
    {index : Nat → Option UInt32} {key : BuiltIn × StorageClass}
    (is : op.type.builtin? = some key) : t.place? env memory op index =
      (t.builtins.lookup key).map fun found =>
        (found.type, ⟨found.id, if 0 < found.length then [0] else []⟩) := by
  unfold place?
  split
  case h_12 =>
    rw [is]
    simp only [Option.bind_eq_bind, Option.bind_some]
    cases t.builtins.lookup key <;> rfl
  all_goals
    next same =>
      rw [same] at is
      cases is

end State

namespace Operand

/-- What an operand has in a lane, by its indices. -/
def part? (env : Environment) (t : State) (memory : Memory) (op : Operand)
    (index : Nat → Option UInt32) (lane : Nat) : Option UInt32 :=
  if op.type = .imm32 then some (op.imm.get lane)
  else (t.place? env memory op index).map fun place => memory.lane place.1.count place.2 lane

/-- The word that an operand supplies to component `c` of a destination, by its indices. -/
def wordWith? (d : Device) (env : Environment) (t : State) (memory : Memory) (op : Operand)
    (index : Nat → Option UInt32) (c : Nat) : Option UInt32 :=
  (op.part? env t memory index (op.lane c)).map (Lower.modified d (.ofData op.data) op.modifier)

/-- The sum of an offset and what is added to it, if anything is. -/
def sum? (offset : UInt32) : Option (Option UInt32) → Option UInt32
  | none => some offset
  | some added? => added?.map (offset + ·)

section

variable (d : Device) (env : Environment) (t : State) (memory : Memory)

mutual

/-- The word that an operand supplies to a component of a destination. -/
def word? : Operand → Nat → Option UInt32
  | ⟨type, data, components, selection, mask, swizzle, modifier, indices, imm⟩, c =>
    wordWith? d env t memory
      ⟨type, data, components, selection, mask, swizzle, modifier, indices, imm⟩
      (fun dim => (indexWords indices)[dim]?.join) c

/-- The values of indices. -/
def indexWords : List (Index Operand) → List (Option UInt32)
  | [] => []
  | index :: rest => indexWord index :: indexWords rest

def indexWord : Index Operand → Option UInt32
  | ⟨offset, relative⟩ => sum? offset (relativeWord relative)

/-- What the first component of an operand adds to an index. -/
def relativeWord : Option Operand → Option (Option UInt32)
  | none => none
  | some op => some (word? op 0)

end

end

end Operand

section Places

variable (w : World) (env : Environment) (memory : Memory)

/-- A step that computes a word, whatever comes later. -/
def Computes (step : Emission Id) (word? : State → Option UInt32) : Prop :=
  ∀ s μ, μ.memory = memory → Looks w env step s μ fun id t ν =>
    ∃ a, t.Knows ν.processor id (.words [a]) ∧ ∀ u, t.Maintains u → word? u = some a

/-- The steps for the indices of an operand compute them. -/
structure Indexed (op : Operand) (steps : List (Emission Id))
    (index : State → Nat → Option UInt32) : Prop where
  immediate : ∀ u dim a, op.index? dim = some a → index u dim = some a
  computes : ∀ dim step, steps[dim]? = some step → Computes w env memory step (index · dim)

/-- A pointer leads where an operand says, whatever comes later. -/
structure Names (op : Operand) (index : State → Nat → Option UInt32) (p : Pointer) (t : State)
    (ν : Invocation) (q : Address) : Prop where
  leads : t.Leads ν p.id q
  number : p.type.scalar ≠ .bool
  some_ : 0 < p.type.count
  few : p.type.count ≤ 4
  place : ∀ u, t.Maintains u → u.place? env memory op (index u) = some (p.type, q)

end Places

namespace Lower

variable {w : World} {env : Environment} {s : State} {μ : Invocation} {op : Operand}
  {steps : List (Emission Id)} {index : State → Nat → Option UInt32}

theorem runIndex_looks (given : Indexed w env μ.memory op steps index) (type : OperandType)
    (dim : Nat) : Looks w env (runIndex type steps dim) s μ fun id t ν =>
      ∃ a, t.Knows ν.processor id (.words [a]) ∧ ∀ u, t.Maintains u → index u dim = some a := by
  unfold runIndex
  split
  · next step at_ => exact given.computes dim step at_ s μ rfl
  · exact Performs.failWith

/-- The place that known numbers lead to. -/
theorem chain_names {type : VectorType} {storage : StorageClass} {base : Id} {start : Address}
    {indices : List Id} {ws : List UInt32} {memory : Memory}
    (leads : s.Leads μ base start) (number : type.scalar ≠ .bool) (some_ : 0 < type.count)
    (few : type.count ≤ 4)
    (numbers : List.Forall₂ (fun id w => s.Knows μ.processor id (.words [w])) indices ws)
    (place : ∀ u, s.Maintains u → u.place? env memory op (index u) =
      some (type, start.inside (ws.map UInt32.toNat))) :
    Looks w env (chain type storage base indices) s μ fun p t ν =>
      ∃ q, Names env memory op index p t ν q := by
  refine (chain_looks leads numbers).mono fun p t ν since _ h =>
    ⟨start.inside (ws.map UInt32.toNat), ?_⟩
  obtain ⟨rfl, leads⟩ := h
  exact ⟨leads, number, some_, few, fun u later => place u (since.maintains.trans later)⟩

theorem temp_names (is : op.type = .temp) (given : Indexed w env μ.memory op steps index) :
    Looks w env (do
      let reg ← immediateIndex op 0
      let id ← temp reg
      chain float4 .priv id []) s μ fun p t ν => ∃ q, Names env μ.memory op index p t ν q := by
  refine .orFault_bind fun reg immediate => .bind (temp_looks reg) fun id t ν since _ h => ?_
  obtain ⟨at_, leads⟩ := h
  refine chain_names leads (by decide) (by decide) (by decide) .nil fun u later => ?_
  rw [State.place?, is]
  simp only [given.immediate u 0 reg immediate, Option.bind_eq_bind, Option.bind_some,
    State.temps_later later.temps at_]
  rfl

theorem indexableTemp_names (is : op.type = .indexableTemp)
    (given : Indexed w env μ.memory op steps index) {type : OperandType} :
    Looks w env (do
      let reg ← immediateIndex op 0
      let array ← orFault ((← .state).indexableTemps.find? reg) (.undeclared "x" reg)
      if let some element := op.index? 1 then
        if array.length ≤ element.toNat then
          failWith (.indexableTempElement reg element array.length)
      let element ← runIndex type steps 1
      chain float4 .priv array.variable_ [element]) s μ fun p t ν =>
        ∃ q, Names env μ.memory op index p t ν q := by
  refine .orFault_bind fun reg immediate => .state_bind fun settled => ?_
  refine .orFault_bind fun array found => ?_
  have start := State.Leads.of_variable (μ := μ) settled.sound
    (settled.furnished.indexableTemps.find? found)
  have rest : Looks w env (do
      let element ← runIndex type steps 1
      chain float4 .priv array.variable_ [element]) s μ fun p t ν =>
        ∃ q, Names env μ.memory op index p t ν q := by
    refine .bind (runIndex_looks given type 1) fun element t ν since _ h => ?_
    obtain ⟨a, known, computes⟩ := h
    refine chain_names (since.leads start) (by decide) (by decide) (by decide)
      (.cons known .nil) fun u later => ?_
    have same : u.indexableTemps = s.indexableTemps :=
      (since.maintains.trans later).within_.indexableTemps
    rw [State.place?, is]
    simp only [given.immediate u 0 reg immediate, Option.bind_eq_bind, Option.bind_some, same,
      found, computes u later]
    rfl
  split
  · exact .ite (fun _ => Performs.failWith_bind) fun _ => rest
  · exact rest

theorem inputPointer_names (is : op.type = .input ∨ op.type = .inputControlPoint)
    (given : Indexed w env μ.memory op steps index) {type : OperandType} :
    Looks w env (if 2 ≤ op.indices.length then do
        let vertex ← runIndex type steps 0
        let reg ← runIndex type steps 1
        inputPointer (some vertex) reg
      else do
        let reg ← runIndex type steps 0
        inputPointer none reg) s μ fun p t ν => ∃ q, Names env μ.memory op index p t ν q := by
  have place (u : State) : u.place? env μ.memory op (index u) = do
      let first := (← index u 0).toNat
      let path ← if 2 ≤ op.indices.length then (index u 1).map fun reg => [first, reg.toNat]
        else some [first]
      return (float4, ⟨← u.inputArray?, path⟩) := by
    rcases is with is | is <;> rw [State.place?, is]
  refine .ite (fun two => ?_) fun one => ?_
  · refine .bind (runIndex_looks given type 0) fun vertex t ν since unmoved h => ?_
    obtain ⟨a, known, computes⟩ := h
    refine .bind (runIndex_looks (unmoved.memory ▸ given) type 1) fun reg t' ν' since' _ h => ?_
    obtain ⟨b, known', computes'⟩ := h
    refine .bind inputArray_looks fun array u κ since'' _ h => ?_
    obtain ⟨here, start⟩ := h
    refine chain_names start (by decide) (by decide) (by decide)
      (.cons (since''.knows (since'.knows known)) (.cons (since''.knows known') .nil))
      fun v later => ?_
    have same : v.inputArray? = some array := later.within_.inputArray _ here
    have later := since''.maintains.trans later
    rw [place]
    simp only [computes v (since'.maintains.trans later), computes' v later, Option.bind_eq_bind,
      Option.bind_some, Option.map_some, if_pos two, same]
    rfl
  · refine .bind (runIndex_looks given type 0) fun reg t ν since _ h => ?_
    obtain ⟨a, known, computes⟩ := h
    refine .bind inputArray_looks fun array u κ since' _ h => ?_
    obtain ⟨here, start⟩ := h
    refine chain_names start (by decide) (by decide) (by decide)
      (.cons (since'.knows known) .nil) fun v later => ?_
    have same : v.inputArray? = some array := later.within_.inputArray _ here
    rw [place]
    simp only [computes v (since'.maintains.trans later), Option.bind_eq_bind, Option.bind_some,
      if_neg one, same]
    rfl

theorem patchPointer_names
    (place : ∀ (u : State) array reg, s.Maintains u → u.patchArray? = some array →
      index u 0 = some reg →
        u.place? env μ.memory op (index u) = some (float4, ⟨array, [reg.toNat]⟩))
    (given : Indexed w env μ.memory op steps index) {type : OperandType} :
    Looks w env (do
      let reg ← runIndex type steps 0
      patchPointer reg) s μ fun p t ν => ∃ q, Names env μ.memory op index p t ν q := by
  refine .bind (runIndex_looks given type 0) fun reg t ν since _ h => ?_
  obtain ⟨a, known, computes⟩ := h
  refine .bind patchArray_looks fun array u κ since' _ h => ?_
  obtain ⟨here, start⟩ := h
  refine chain_names start (by decide) (by decide) (by decide)
    (.cons (since'.knows known) .nil) fun v later => ?_
  have later' := since'.maintains.trans later
  exact place v array a (since.maintains.trans later') (later.within_.patchArray _ here)
    (computes v later')

theorem outputPointer_names (is : op.type = .output) (stage : env.stage ≠ .hull)
    (given : Indexed w env μ.memory op steps index) {type : OperandType} :
    Looks w env (do
      let reg ← runIndex type steps 0
      outputPointer reg) s μ fun p t ν => ∃ q, Names env μ.memory op index p t ν q := by
  refine .bind (runIndex_looks given type 0) fun reg t ν since _ h => ?_
  obtain ⟨a, known, computes⟩ := h
  refine .bind outputArray_looks fun array u κ since' _ h => ?_
  obtain ⟨here, start⟩ := h
  refine chain_names start (by decide) (by decide) (by decide)
    (.cons (since'.knows known) .nil) fun v later => ?_
  have same : v.outputArray? = some array := later.within_.outputArray _ here
  rw [State.place?, is]
  simp only [if_neg stage, computes v (since'.maintains.trans later), same, Option.bind_eq_bind,
    Option.bind_some]
  rfl

/-- The output of a control point, whose number is known. -/
theorem controlPointOutput_names {reg : UInt32} {vertex : Id} {a : UInt32} {memory : Memory}
    (known : s.Knows μ.processor vertex (.words [a]))
    (place : ∀ u, s.Maintains u → u.place? env memory op (index u) = u.controlPoint? reg a) :
    Looks w env (controlPointOutput reg vertex) s μ fun p t ν =>
      ∃ q, Names env memory op index p t ν q := by
  refine .state_bind fun settled => .orFault_bind fun location found => ?_
  obtain ⟨r, at_, is⟩ := Option.bind_eq_some_iff.1 found
  obtain ⟨variable_, four, number⟩ :=
    (settled.furnished.registers .output).find? (at_ : (s.registers .output).find? reg = some r)
      location is
  refine chain_names (.of_variable settled.sound variable_) number (by omega) (by omega)
    (.cons known .nil) fun u later => ?_
  have same : (u.outputs.find? reg).bind (·.location?) = some location :=
    later.within_.locations .output reg location found
  rw [place u later, State.controlPoint?, same]
  rfl

theorem outputControlPoint_names (is : op.type = .outputControlPoint)
    (given : Indexed w env μ.memory op steps index) {type : OperandType} :
    Looks w env (do
      let vertex ← runIndex type steps 0
      let reg ← immediateIndex op 1
      controlPointOutput reg vertex) s μ fun p t ν =>
        ∃ q, Names env μ.memory op index p t ν q := by
  refine .bind (runIndex_looks given type 0) fun vertex t ν since _ h => ?_
  obtain ⟨a, known, computes⟩ := h
  refine .orFault_bind fun reg immediate => controlPointOutput_names known fun u later => ?_
  rw [State.place?, is]
  simp only [given.immediate u 1 reg immediate, computes u later, Option.bind_eq_bind,
    Option.bind_some]

theorem outputOperand_names (is : op.type = .output)
    (given : Indexed w env μ.memory op steps index) :
    Looks w env (outputOperand op steps) s μ fun p t ν =>
      ∃ q, Names env μ.memory op index p t ν q := by
  refine .read_bind (.ite (fun hull => .state_bind fun settled => ?_) fun other => ?_)
  · refine .ite (fun phase => .orFault_bind fun reg immediate => ?_) fun phase => ?_
    · refine .bind invocationId_looks fun invocation t ν since unmoved h => ?_
      obtain ⟨number, made, known⟩ := h
      refine controlPointOutput_names known fun u later => ?_
      have same : u.stage = s.stage := (since.maintains.trans later).within_.stage
      have found : u.builtins.lookup (.invocationId, .input) = some number :=
        later.within_.builtins _ _ made.found
      rw [State.place?, is]
      simp only [if_pos hull, same, if_pos phase, found, given.immediate u 0 reg immediate,
        Option.bind_eq_bind, Option.bind_some]
    · refine patchPointer_names (fun u array reg later found first => ?_) given
      have same : u.stage = s.stage := later.within_.stage
      rw [State.place?, is]
      simp only [if_pos hull, same, if_neg phase, found, first, Option.bind_eq_bind,
        Option.bind_some]
      rfl
  · exact outputPointer_names is other given

theorem constantBuffer_names (is : op.type = .constantBuffer)
    (given : Indexed w env μ.memory op steps index) {type : OperandType} :
    Looks w env (do
      let slot ← immediateIndex op 0
      let element ← runIndex type steps 1
      constantBufferPointer slot element) s μ fun p t ν =>
        ∃ q, Names env μ.memory op index p t ν q := by
  refine .orFault_bind fun slot immediate => ?_
  refine .bind (runIndex_looks given type 1) fun element t ν since _ h => ?_
  obtain ⟨a, known, computes⟩ := h
  refine .state_bind fun settled => .orFault_bind fun buffer found => ?_
  have start := State.Leads.of_variable (μ := ν) settled.sound
    (settled.furnished.constantBuffers.find? found)
  refine .bind (constant_looks 0) fun member u κ since' _ zero => ?_
  refine chain_names (since'.leads start) (by decide) (by decide) (by decide)
    (.cons zero (.cons (since'.knows known) .nil)) fun v later => ?_
  have later := since'.maintains.trans later
  have same : v.constantBuffers = t.constantBuffers := later.within_.constantBuffers
  rw [State.place?, is]
  simp only [given.immediate v 0 slot immediate, computes v later, same, found,
    Option.bind_eq_bind, Option.bind_some]
  rfl

theorem immediateConstants_names (is : op.type = .immediateConstantBuffer)
    (given : Indexed w env μ.memory op steps index) {type : OperandType} :
    Looks w env (do
      let array ← orFault (← .state).immediateConstants? .noImmediateConstants
      let element ← runIndex type steps 0
      chain (.four .u32) .priv array [element]) s μ fun p t ν =>
        ∃ q, Names env μ.memory op index p t ν q := by
  refine .state_bind fun settled => .orFault_bind fun array found => ?_
  have start := State.Leads.of_variable (μ := μ) settled.sound
    (settled.furnished.immediates _ found)
  refine .bind (runIndex_looks given type 0) fun element t ν since _ h => ?_
  obtain ⟨a, known, computes⟩ := h
  refine chain_names (since.leads start) (by decide) (by decide) (by decide)
    (.cons known .nil) fun u later => ?_
  have same : u.immediateConstants? = s.immediateConstants? :=
    (since.maintains.trans later).within_.immediates
  rw [State.place?, is]
  simp only [same, found, computes u later, Option.bind_eq_bind, Option.bind_some]
  rfl

theorem instanceId_names (is : op.type = .inputForkInstanceId ∨ op.type = .inputJoinInstanceId)
    {memory : Memory} : Looks w env (do
      let phase ← orFault (← .state).stage.currentPhase? .instanceIdOutsidePhase
      chain (.single .u32) .priv phase.instanceId []) s μ fun p t ν =>
        ∃ q, Names env memory op index p t ν q := by
  refine .state_bind fun settled => .orFault_bind fun phase found => ?_
  have start := State.Leads.of_variable (μ := μ) settled.sound
    (settled.furnished.phase _ found)
  refine chain_names start (by decide) (by decide) (by decide) .nil fun u later => ?_
  have same : u.stage = s.stage := later.within_.stage
  rcases is with is | is <;>
  · rw [State.place?, is]
    simp only [same, found, Option.bind_eq_bind, Option.bind_some]
    rfl

/-- A built-in, of no particular vertex. -/
theorem builtinPointer_names {builtin : BuiltIn} {storage : StorageClass} {element? : Option Id}
    {memory : Memory} (other : builtin ≠ .frontFacing)
    (element : ∀ a, 0 < (builtinShape a builtin storage).2 ↔ element?.isSome)
    (zero : ∀ id, element? = some id → s.Knows μ.processor id (.words [0]))
    (place : ∀ u : State, u.place? env memory op (index u) =
      (u.builtins.lookup (builtin, storage)).map fun found =>
        (found.type, ⟨found.id, if 0 < found.length then [0] else []⟩)) :
    Looks w env (builtinPointer builtin storage none element?) s μ fun p t ν =>
      ∃ q, Names env memory op index p t ν q := by
  have known : Numbered s μ element? (element?.map fun _ => 0) := by
    cases element? with
    | none => exact .none
    | some id => exact .some (zero id rfl)
  refine (builtinPointer_looks .none known).mono fun p t ν since _ h => ?_
  obtain ⟨b, made, type, leads⟩ := h
  have shape : b.type = (builtinShape env.analysis builtin storage).1 :=
    congrArg Prod.fst made.shape
  have length : b.length = (builtinShape env.analysis builtin storage).2 :=
    congrArg Prod.snd made.shape
  have path : b.path ((none : Option UInt32).map UInt32.toNat)
      ((element?.map fun _ => (0 : UInt32)).map UInt32.toNat) =
      if 0 < b.length then [0] else [] := by
    have some_ := element env.analysis
    rw [← length] at some_
    unfold BuiltinVariable.path
    cases element? with
    | none => simpa using some_
    | some id => simp
  rw [path] at leads
  refine ⟨_, leads, ?_, ?_, ?_, fun u later => ?_⟩
  · rw [type, shape]
    exact builtinShape_number other
  · rw [type, shape]
    exact builtinShape_count _ _ _
  · rw [type, shape]
    exact builtinShape_count_le _ _ _
  · have found : u.builtins.lookup (builtin, storage) = some b :=
      later.within_.builtins _ _ made.found
    rw [place, found, type]
    rfl

/-- The place that an operand names, given the steps that compute its indices. -/
theorem pointerWith_names (given : Indexed w env μ.memory op steps index) :
    Looks w env (pointerWith op steps) s μ fun p t ν =>
      ∃ q, Names env μ.memory op index p t ν q := by
  have single {builtin : BuiltIn} {storage : StorageClass}
      (is : op.type.builtin? = some (builtin, storage))
      (other : builtin ≠ .frontFacing) (one : isSingle builtin = true) :
      Looks w env (builtinPointer builtin storage none none) s μ fun p t ν =>
        ∃ q, Names env μ.memory op index p t ν q := by
    refine builtinPointer_names other (fun a => ?_) (fun id is => ?_)
      fun u => State.place?_builtin is
    · rw [isSingle_plain one]
      decide
    · cases is
  have coverage {storage : StorageClass} (is : op.type.builtin? = some (.sampleMask, storage)) :
      Looks w env (do
        let element ← constantU32 0
        builtinPointer .sampleMask storage none (some element)) s μ fun p t ν =>
          ∃ q, Names env μ.memory op index p t ν q := by
    refine .bind (constant_looks 0) fun element t ν _ _ zero => ?_
    refine builtinPointer_names (by decide) (fun a => ?_) (fun id is => ?_) fun u =>
      State.place?_builtin is
    · exact iff_of_true Nat.one_pos rfl
    · cases is
      exact zero
  unfold pointerWith
  dsimp only
  split
  next is => exact temp_names is given
  next is => exact indexableTemp_names is given
  next is => exact inputPointer_names (.inl is) given
  next is => exact inputPointer_names (.inr is) given
  next is =>
    refine patchPointer_names (fun u array reg _ found first => ?_) given
    rw [State.place?, is]
    simp only [found, first, Option.bind_eq_bind, Option.bind_some]
    rfl
  next is => exact outputControlPoint_names is given
  next is => exact outputOperand_names is given
  next is => exact constantBuffer_names is given
  next is => exact immediateConstants_names is given
  next is => exact instanceId_names (.inl is)
  next is => exact instanceId_names (.inr is)
  next is => exact single (by rw [is]; rfl) (by decide) rfl
  next is => exact single (by rw [is]; rfl) (by decide) rfl
  next is => exact single (by rw [is]; rfl) (by decide) rfl
  next is => exact single (by rw [is]; rfl) (by decide) rfl
  next is => exact single (by rw [is]; rfl) (by decide) rfl
  next is => exact single (by rw [is]; rfl) (by decide) rfl
  next is => exact single (by rw [is]; rfl) (by decide) rfl
  next is => exact single (by rw [is]; rfl) (by decide) rfl
  next is => exact coverage (by rw [is]; rfl)
  next is => exact coverage (by rw [is]; rfl)
  next is => exact single (by rw [is]; rfl) (by decide) rfl
  next is => exact single (by rw [is]; rfl) (by decide) rfl
  next is => exact single (by rw [is]; rfl) (by decide) rfl
  next => exact Performs.failWith

/-- The lanes of the place that an operand names. Without lanes it is some of them. -/
theorem readPlace_looks (given : Indexed w env μ.memory op steps index) {lanes : List Nat}
    (inside : ∀ i ∈ lanes, i < 4) (scalar : ScalarType) :
    Looks w env (readPlace op steps lanes scalar) s μ fun v t ν => ∃ type q cs,
      (∀ u, t.Maintains u → u.place? env μ.memory op (index u) = some (type, q)) ∧
        (lanes ≠ [] → cs = lanes) ∧
          t.Carries ν.processor v scalar cs (μ.memory.lane type.count q) := by
  refine .bind (pointerWith_names given) fun p t ν since unmoved named => ?_
  obtain ⟨q, named⟩ := named
  have few : p.type.count < UInt32.size := Nat.lt_of_le_of_lt named.few (by decide)
  refine .bind (load_looks named.leads named.number named.some_ few)
    fun v t₁ ν₁ since₁ unmoved₁ loaded => ?_
  rw [unmoved.memory] at loaded
  refine .bind (.of_reads (completed_steady v) (completed_reads named.number loaded named.few))
    fun v t₂ ν₂ since₂ unmoved₂ full => ?_
  obtain ⟨m, same, full⟩ := full
  have short : m ≤ 4 := by
    have := named.few
    omega
  refine .bind (.of_reads (swizzle_steady v lanes)
    (swizzle_range_reads named.number full short inside)) fun v t₃ ν₃ since₃ unmoved₃ picked => ?_
  obtain ⟨cs, taken, picked⟩ := picked
  refine (Looks.of_reads (bitcast_steady v scalar) (bitcast_reads named.number picked scalar)).mono
    fun v t₄ ν₄ since₄ unmoved₄ cast => ⟨p.type, q, cs, fun u later => ?_, taken, ?_⟩
  · exact named.place u
      ((((since₁.trans since₂).trans since₃).trans since₄).maintains.trans later)
  · refine cast.congr fun c _ => ?_
    unfold Spirv.Memory.lane
    split
    · rfl
    · next beyond =>
      have := named.few
      rw [if_neg (by omega)]

/-- The components that an operand supplies. -/
theorem readWith_looks (given : Indexed w env μ.memory op steps index) (mask : WriteMask) :
    Looks w env (readWith op steps mask) s μ fun v t ν => ∃ g,
      (∀ u, t.Maintains u → ∀ c, op.wordWith? w.device env u μ.memory (index u) c = some (g c)) ∧
        (mask.components ≠ [] → t.Carries ν.processor v (.ofData op.data) mask.components g) := by
  have number : ScalarType.ofData op.data ≠ .bool := by cases op.data <;> decide
  have inside : ∀ i ∈ mask.components.map op.lane, i < 4 := by
    intro i hi
    obtain ⟨c, hc, rfl⟩ := List.mem_map.1 hi
    exact op.lane_lt (WriteMask.lt_of_mem_components hc)
  have lanes : Looks w env (readLanes op steps (sourceLanes op mask)) s μ fun v t ν => ∃ h cs,
      (∀ u, t.Maintains u → ∀ c, op.part? env u μ.memory (index u) c = some (h c)) ∧
        (mask.components.map op.lane ≠ [] → cs = mask.components.map op.lane) ∧
          t.Carries ν.processor v (.ofData op.data) cs h := by
    unfold readLanes
    rw [op.sourceLanes_eq]
    split
    · next is =>
      refine (Looks.of_reads (constantValue_steady _ _) (constantValue_reads number _)).mono
        fun v t ν _ _ carries => ⟨op.imm.get, _, fun u _ c => ?_, fun _ => rfl, carries⟩
      rw [Operand.part?, if_pos is]
    · exact Performs.failWith
    · next other _ =>
      refine (readPlace_looks given inside _).mono fun v t ν _ _ h => ?_
      obtain ⟨type, q, cs, place, taken, carries⟩ := h
      refine ⟨_, cs, fun u later c => ?_, taken, carries⟩
      rw [Operand.part?, if_neg other, place u later]
      rfl
  refine .bind lanes fun v t ν since unmoved h => ?_
  obtain ⟨h, cs, parts, taken, carries⟩ := h
  refine (Looks.of_reads (applyModifier_steady v op.modifier)
    (applyModifier_reads carries op.modifier)).mono fun v u κ since' _ modified => ?_
  refine ⟨fun c => Lower.modified w.device (.ofData op.data) op.modifier (h (op.lane c)),
    fun u later c => ?_, fun some_ => ?_⟩
  · rw [Operand.wordWith?, parts u (since'.maintains.trans later)]
    rfl
  · rw [taken fun none_ => some_ (List.map_eq_nil_iff.1 none_)] at modified
    exact modified.reindex

end Lower

namespace Operand

variable {d : Device} {env : Environment} {t : State} {memory : Memory}

theorem word?_eq (op : Operand) (c : Nat) : op.word? d env t memory c =
    op.wordWith? d env t memory
      (fun dim => (indexWords d env t memory op.indices)[dim]?.join) c := by
  cases op
  rw [word?]

theorem getElem?_indexWords {indices : List (Index Operand)} {dim : Nat} :
    (indexWords d env t memory indices)[dim]?.join = (indices[dim]?).bind fun index =>
      sum? index.offset (index.relative.map (word? d env t memory · 0)) := by
  induction indices generalizing dim with
  | nil =>
    rw [indexWords]
    rfl
  | cons index rest ih =>
    rw [indexWords]
    cases dim with
    | zero =>
      obtain ⟨offset, relative⟩ := index
      cases relative <;> rfl
    | succ dim => exact ih

end Operand

namespace Lower

variable {w : World} {env : Environment} {memory : Memory}

/-- An operand supplies the words that it is to supply, and nothing else happens. -/
def Delivers (w : World) (env : Environment) (memory : Memory) (op : Operand) (mask : WriteMask) :
    Prop :=
  ∀ s μ, μ.memory = memory → Looks w env (readOperand op mask) s μ fun v t ν => ∃ g,
    (∀ u, t.Maintains u → ∀ c, op.word? w.device env u memory c = some (g c)) ∧
      (mask.components ≠ [] → t.Carries ν.processor v (.ofData op.data) mask.components g)

/-- An index is a number, or the sum of one with what an operand supplies. -/
theorem indexFrom_computes {offset : UInt32} {relative? : Option Operand}
    (each : ∀ r, relative? = some r → Delivers w env memory r .x) :
    Computes w env memory (indexFrom offset (relative?.map (readOperand · .x))) fun u =>
      Operand.sum? offset (relative?.map (Operand.word? w.device env u memory · 0)) := by
  intro s μ same
  cases relative? with
  | none =>
    exact (constant_looks offset).mono fun id t ν _ _ known => ⟨offset, known, fun _ _ => rfl⟩
  | some r =>
    have number : ScalarType.ofData r.data ≠ .bool := by cases r.data <;> decide
    refine .bind (each r rfl s μ same) fun value t ν since unmoved h => ?_
    obtain ⟨g, words, carries⟩ := h
    have carries := carries (by decide)
    refine .bind (.of_reads (bitcast_steady value .u32) (bitcast_reads number carries .u32))
      fun value t₁ ν₁ since₁ _ cast => ?_
    have sum {t' : State} (later : t.Maintains t') (u : State) (later' : t'.Maintains u) :
        Operand.sum? offset ((some r).map (Operand.word? w.device env u memory · 0)) =
          some (offset + g 0) :=
      congrArg (Option.map (offset + ·)) (words u (later.trans later') 0)
    refine .ite (fun zero => .pure fun _ => ⟨offset + g 0, ?_, sum since₁.maintains⟩) fun _ => ?_
    · rw [zero, UInt32.zero_add]
      exact cast.knows
    · refine .bind (.of_reads (scalarType_steady .u32) (scalarType_reads .u32))
        fun word t₂ ν₂ since₂ _ _ => ?_
      refine .bind (constant_looks offset) fun constantOffset t₃ ν₃ since₃ _ known => ?_
      refine (Looks.of_reads (.emitValue rfl _ _) (number_reads rfl
        (since₃.knows (since₂.knows cast.knows)) known rfl)).mono fun id u κ since₄ _ is => ?_
      refine ⟨offset + g 0, ?_, sum (((since₁.trans since₂).trans since₃).trans since₄).maintains⟩
      rw [UInt32.add_comm]
      exact is

/-- The steps for the indices of an operand compute them; by induction on the operands in them. -/
theorem indexSteps_indexed (op : Operand) : Indexed w env memory op (indexSteps op.indices)
    fun u dim => (Operand.indexWords w.device env u memory op.indices)[dim]?.join := by
  refine ⟨fun u dim a is => ?_, fun dim step found => ?_⟩
  · obtain ⟨⟨offset, relative⟩, at_, is⟩ := Option.bind_eq_some_iff.1 is
    cases relative with
    | none =>
      rw [Operand.getElem?_indexWords, at_]
      exact is
    | some _ => cases is
  · obtain ⟨index, at_, rfl⟩ := getElem?_indexSteps found
    simp only [Operand.getElem?_indexWords, at_, Option.bind_some]
    refine indexFrom_computes fun r relative s μ same => ?_
    have smaller := sizeOf_relative (List.mem_of_getElem? at_) relative
    have given := indexSteps_indexed r
    subst same
    rw [readOperand_eq]
    simp only [Operand.word?_eq]
    exact readWith_looks given .x
termination_by sizeOf op

/-- What a source operand supplies, whatever is nested in it. -/
theorem readOperand_delivers (op : Operand) (mask : WriteMask) :
    Delivers w env memory op mask := by
  intro s μ same
  subst same
  rw [readOperand_eq]
  simp only [Operand.word?_eq]
  exact readWith_looks (indexSteps_indexed op) mask

/-- Code was added that computes the words of an operand, and does nothing else. A value under an
empty mask stands for nothing. -/
def Reading (w : World) (env : Environment) (op : Operand) (mask : WriteMask) (s t : State)
    (v : Value) (μ : Invocation) : Prop :=
  ∃ code ν ws, t.builder.openCode = s.builder.openCode ++ code ∧
    w.Runs t.builder.module code μ ν ∧ μ.Unmoved ν ∧
      mask.components.mapM (op.word? w.device env t μ.memory) = some ws ∧
        (ws ≠ [] → v.type = ⟨.ofData op.data, ws.length⟩ ∧
          t.Knows ν.processor v.id (.words ws))

/-- Reading a source operand adds code that computes its words from the memory, whatever there is in
it, and that writes nothing. -/
theorem readOperand_reading {s t : State} {op : Operand} {mask : WriteMask} {v : Value}
    (settled : s.Settled env) (ran : (readOperand op mask).run env s = (.ok v, t)) :
    t.Settled env ∧ ∀ w μ, Reading w env op mask s t v μ := by
  have reads (w : World) (μ : Invocation) :=
    readOperand_delivers (w := w) op mask s μ rfl settled v t ran
  refine ⟨?_, fun w μ => ?_⟩
  · let nothing : World := ⟨⟨fun _ _ => 0, fun _ _ => 0, fun _ _ => 0⟩, fun _ m => m, id⟩
    obtain ⟨code, ν, follows, _, _, furnished, _⟩ :=
      reads nothing ⟨fun _ => none, fun _ => none, fun _ => 0, []⟩
    exact ⟨follows.ready, furnished⟩
  · obtain ⟨code, ν, follows, runs, _, _, unmoved, g, words, carries⟩ := reads w μ
    refine ⟨code, ν, mask.components.map g, follows.appends, runs, unmoved, ?_, fun some_ => ?_⟩
    · exact Spirv.mapM_of_forall fun c _ => words t (.refl t) c
    · have carries := carries fun none_ => some_ (by rw [none_]; rfl)
      exact ⟨by rw [carries.type, List.length_map], carries.knows⟩

end Lower

/-- `dcl_indexableTemp x0[4], 4` -/
def indexable : Program :=
  .assume [0x10050, 7, 0x04000069, 0, 4, 4, 0x0100003e]

/-- `-x0[r1.x + 2].wzyx`, of integers -/
def nestedOperand : Operand :=
  let r1 : Operand :=
    ⟨.temp, .sint32, .four, .select1, .none, .replicate 0, .none, [.immediate 1], .zero⟩
  ⟨.indexableTemp, .sint32, .four, .swizzle, .xyzw, .ofBits 0x1b, .neg,
    [.immediate 0, ⟨2, some r1⟩], .zero⟩

namespace Lower

theorem readOperand_reading_nested : ∃ env s t v, s.Settled env ∧
    (readOperand nestedOperand .xyzw).run env s = (.ok v, t) ∧ t.Settled env ∧
      ∀ w μ, Reading w env nestedOperand .xyzw s t v μ := by
  obtain ⟨inst, rest, first, decoded, started, evaluates⟩ := Lowering.exists_firstStep indexable
    (P := fun inst l => ((l.steps [inst]).toOption.map fun k =>
      (decide (k.state.builder.function?.isSome ∧ k.state.builder.block?.isSome),
        ((readOperand nestedOperand .xyzw).run l.environment k.state).1.isOk)) =
          some (true, true)) (by decide +kernel)
  obtain ⟨l, accepted, same⟩ := Option.map_eq_some_iff.1 evaluates
  obtain ⟨place, reads⟩ := Prod.mk.inj same
  have accepted : first.steps [inst] = .ok l := by
    cases is : first.steps [inst] with
    | error e =>
      rw [is] at accepted
      cases accepted
    | ok k =>
      rw [is] at accepted
      cases accepted
      rfl
  have place : l.state.builder.function?.isSome ∧ l.state.builder.block?.isSome :=
    of_decide_eq_true place
  have settled := Lowering.settled decoded ⟨rest, rfl⟩ started accepted place
  obtain ⟨stage, initial, begun, environment⟩ := Lowering.start_eq_ok.1 started
  cases ran : (readOperand nestedOperand .xyzw).run first.environment l.state with
  | mk v? t =>
    rw [ran] at reads
    cases v? with
    | error e => cases reads
    | ok v =>
      rw [environment] at ran
      obtain ⟨after, reading⟩ := readOperand_reading settled ran
      exact ⟨_, _, t, v, settled, ran, after, reading⟩

end Lower

end ShaderLowering
