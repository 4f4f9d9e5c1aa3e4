import ShaderLowering.Proofs.Memory.Blocks
import ShaderLowering.Proofs.Memory.Routes
import ShaderLowering.Proofs.Scope.Course
import ShaderLowering.Proofs.WellFormed.Compile

/-!
What an invocation does in the entry function: it copies the inputs in, runs the bodies, and copies
the outputs out. In a hull shader it meets the others in between, and the first invocation runs the
phases of the patch, instance by instance. Bodies are opaque here: what they leave in memory is the
world's.
-/

namespace ShaderLowering

open Spirv (Id Instr Arg StorageClass BuiltIn Invocation World Address Memory Event Datum)

namespace Spirv.Invocation

variable {μ ν κ : Invocation}

/-- An invocation that has called a function. -/
def called (w : World) (function : Id) (μ : Invocation) : Invocation :=
  { μ with memory := w.call function μ.memory, events := μ.events ++ [.call function] }

/-- An invocation that has met the others. -/
def met (w : World) (μ : Invocation) : Invocation :=
  { μ with memory := w.barrier μ.memory, events := μ.events ++ [.barrier] }

/-- An invocation that has written some words to a place. -/
def written (p : Address) (ws : List UInt32) (μ : Invocation) : Invocation :=
  { μ with memory := μ.memory.write p ws, events := μ.events ++ [.store p ws] }

theorem Unmoved.called (h : μ.Unmoved ν) (w : World) (function : Id) :
    (μ.called w function).Unmoved (ν.called w function) :=
  ⟨congrArg (w.call function) h.memory, congrArg (· ++ _) h.events⟩

theorem Unmoved.met (h : μ.Unmoved ν) (w : World) : (μ.met w).Unmoved (ν.met w) :=
  ⟨congrArg w.barrier h.memory, congrArg (· ++ _) h.events⟩

theorem Unmoved.written (h : μ.Unmoved ν) (p : Address) (ws : List UInt32) :
    (μ.written p ws).Unmoved (ν.written p ws) :=
  ⟨congrArg (Memory.write · p ws) h.memory, congrArg (· ++ _) h.events⟩

end Spirv.Invocation

/-- Neither functions nor other invocations write to a variable. -/
structure Spirv.World.Spares (w : World) (id : Id) : Prop where
  call : ∀ function memory, w.call function memory ⟨id, []⟩ = memory ⟨id, []⟩
  barrier : ∀ memory, w.barrier memory ⟨id, []⟩ = memory ⟨id, []⟩

/-- A world in which functions and other invocations do nothing. -/
def Spirv.World.idle : World :=
  ⟨⟨fun _ _ => 0, fun _ _ => 0, fun _ _ => 0⟩, fun _ memory => memory, fun memory => memory⟩

/-- An invocation that has done nothing, in a memory of zeros. -/
def Spirv.Invocation.initial : Invocation :=
  ⟨fun _ => none, fun _ => none, fun _ => 0, []⟩

/-- The distances are counted in the signatures. -/
structure Environment.Counted (env : Environment) : Prop where
  inputs : env.analysis.inputs = .ofSignature env.inputs
  outputs : env.analysis.outputs = .ofSignature env.outputs

theorem Program.counted (p : Program) (insts : List Instruction) (entries : SignatureEntries)
    (options : Options) : (p.environment insts entries options).Counted :=
  ⟨rfl, rfl⟩

/-- What copying inputs does that are declared as in `s`. All variables are there in `u`. -/
def State.TakesIn (w : World) (env : Environment) (s u : State) (μ ν : Invocation) : Prop :=
  ∃ μ₁ μ₂ μ₃, (intake w env).Filled u (s.intakes env) μ μ₁ ∧
    (Lower.distanceInputs .clipDistance).Copied u (Lower.distanceItems env s .clipDistance) μ₁ μ₂ ∧
    (Lower.distanceInputs .cullDistance).Copied u (Lower.distanceItems env s .cullDistance) μ₂ μ₃ ∧
    u.Touched (· = .patch) μ₃ ν

/-- What copying outputs does that are declared as in `s`. -/
def State.PutsOut (env : Environment) (s u : State) (μ ν : Invocation) : Prop :=
  ∃ μ₁ μ₂, outlet.Filled u (s.outlets env) μ μ₁ ∧
    (Lower.distanceOutputs .clipDistance).Copied u (Lower.outputItems env .clipDistance) μ₁ μ₂ ∧
    (Lower.distanceOutputs .cullDistance).Copied u (Lower.outputItems env .cullDistance) μ₂ ν

/-- What no copy goes to is as it was. -/
theorem Route.Copied.elsewhere {ι : Type} {r : Route ι} {u : State} {items : List ι}
    {μ ν : Invocation} (h : r.Copied u items μ ν) {q : Address}
    (other : ∀ i p, r.target u i = some p → q.variable_ ≠ p.variable_) :
    ν.memory q = μ.memory q := by
  obtain ⟨l, all, put⟩ := h
  refine put.elsewhere fun p mem => ?_
  obtain ⟨i, target⟩ := Route.target_of_mem all mem
  exact other i p.1 target

/-- Inputs are copied to private variables. -/
theorem State.TakesIn.elsewhere {w : World} {env : Environment} {s u : State} {μ ν : Invocation}
    (h : s.TakesIn w env u μ ν) (parted : u.Parted) {role : Role} {q : Address}
    (is : u.holder? role = some q.variable_) (other : role.storageClass ≠ .priv) :
    ν.memory q = μ.memory q := by
  have apart {r : Role} (priv : r.storageClass = .priv) : u.holder? r ≠ some q.variable_ :=
    fun same => parted.apart is same (priv ▸ other) rfl
  have target (builtin : BuiltIn) (i : (UInt32 × Nat × Nat) × Option Nat) (p : Address)
      (target : (Lower.distanceInputs builtin).target u i = some p) :
      q.variable_ ≠ p.variable_ := by
    obtain ⟨array, there, rfl⟩ := Option.map_eq_some_iff.1 target
    exact fun same => apart (r := .inputs) rfl (show u.inputArray? = _ from same ▸ there)
  obtain ⟨μ₁, μ₂, μ₃, inputs, clips, culls, patch⟩ := h
  rw [patch.memory q fun r is => apart (is ▸ rfl), culls.elsewhere (target .cullDistance),
    clips.elsewhere (target .clipDistance)]
  refine inputs.elsewhere fun i p target => ?_
  obtain ⟨array, there, rfl⟩ := Option.map_eq_some_iff.1 target
  exact fun same => apart (r := .inputs) rfl (show u.inputArray? = _ from same ▸ there)

namespace Lower

variable {w : World} {env : Environment} {s : State} {μ κ : Invocation}

theorem call_performs (function : Id) :
    Performs w env (call function) s μ fun _ _ ν => (μ.called w function).Unmoved ν := by
  refine Looks.andThen (.of_reads (declareType_steady _) (.declare _))
    fun void t ν _ unmoved _ => ?_
  refine .bind (Performs.emitValue (ν := ν.called w function) fun _ _ _ => rfl)
    fun _ u ξ _ h => .pure fun _ => ?_
  obtain ⟨rfl, _⟩ := h
  exact unmoved.called w function

theorem waitForControlPoints_performs :
    Performs w env waitForControlPoints s μ fun _ _ ν => (μ.met w).Unmoved ν := by
  refine Looks.andThen (constant_looks _) fun workgroup t ν _ unmoved _ => ?_
  refine Looks.andThen (constant_looks _) fun invocation t₁ ν₁ _ unmoved₁ _ => ?_
  refine Looks.andThen (constant_looks _) fun semantics t₂ ν₂ _ unmoved₂ _ => ?_
  refine (Performs.emit (ν := ν₂.met w) fun _ _ _ => rfl).mono fun _ u ξ _ is => ?_
  subst is
  exact ((unmoved.trans unmoved₁).trans unmoved₂).met w

theorem copyInputs_performs (counted : env.Counted) :
    Performs w env copyInputs s μ fun _ t ν =>
      ∀ u, t.Maintains u → u.Parted → s.TakesIn w env u μ ν := by
  have clips : distance .clipDistance env.analysis.inputs =
      (.clipDistance, env.inputs.componentsOf .clipDistance) := by
    rw [counted.inputs]
    rfl
  have culls : distance .cullDistance env.analysis.inputs =
      (.cullDistance, env.inputs.componentsOf .cullDistance) := by
    rw [counted.inputs]
    rfl
  refine .state_bind fun settled => ?_
  refine .bind (Performs.keeping (Conveys.forIn (C := (intake w env).Filled)
    (g := fun e => e.2.intakes env.stage (s.vertexCount env) e.1) fun e he c t ν since _ => ?_))
      fun _ t ν since h => ?_
  · have drawn : s.Draws e.2 := settled.furnished.registers .input e he
    have found : s.inputs.find? e.1 = some e.2 := Table.mem_entries.1 he
    rw [← since.maintains.vertexCount]
    refine .last (copyInput_conveys e.1 (drawn.since since) fun l is => ?_) ⟨_, rfl⟩
    exact since.maintains.within_.locations .input e.1 l
      ((congrArg (Option.bind · _) found).trans is)
  obtain ⟨same, _, filled⟩ := h
  refine .bind (Performs.keeping (copyInputDistances_conveys clips)) fun _ t₁ ν₁ since₁ h => ?_
  obtain ⟨same₁, _, clip⟩ := h
  refine .bind (copyInputDistances_conveys culls) fun _ t₂ ν₂ since₂ h => ?_
  obtain ⟨_, cull⟩ := h
  refine .state_bind fun settled => ?_
  refine .bind (Conveys.forIn (C := State.Visited) (g := fun e => patchInputRoles e.2)
    fun e he c t ν since _ => ?_) fun _ t₃ ν₃ since₃ h => .pure fun _ u maintains parted => ?_
  · have drawn : t₂.Draws e.2 := settled.furnished.registers .patchInput e he
    exact .last (copyPatchInput_visits e.1 (drawn.since since)) ⟨_, rfl⟩
  have later₂ := since₃.maintains.trans maintains
  have later₁ := since₂.maintains.trans later₂
  have patch : u.Touched (· = .patch) ν₂ ν₃ := by
    refine (h.2 u maintains parted).touched fun role mem => ?_
    obtain ⟨e, _, mem⟩ := List.mem_flatMap.1 mem
    exact eq_patch_of_mem mem
  refine ⟨ν, ν₁, ν₂, filled u (since₁.maintains.trans later₁) parted, ?_, ?_, patch⟩
  · have items : distanceItems env t .clipDistance = distanceItems env s .clipDistance := by
      rw [distanceItems, distanceItems, same.inputs, since.maintains.vertexCount]
    exact items ▸ clip u later₁ parted
  · have items : distanceItems env t₁ .cullDistance = distanceItems env s .cullDistance := by
      rw [distanceItems, distanceItems, same₁.inputs, same.inputs,
        (since.trans since₁).maintains.vertexCount]
    exact items ▸ cull u later₂ parted

theorem copyOutputs_performs (counted : env.Counted) :
    Performs w env copyOutputs s μ fun _ t ν =>
      ∀ u, t.Maintains u → u.Parted → s.PutsOut env u μ ν := by
  have clips : distance .clipDistance env.analysis.outputs =
      (.clipDistance, env.outputs.componentsOf .clipDistance) := by
    rw [counted.outputs]
    rfl
  have culls : distance .cullDistance env.analysis.outputs =
      (.cullDistance, env.outputs.componentsOf .cullDistance) := by
    rw [counted.outputs]
    rfl
  refine .state_bind fun settled => ?_
  refine .bind (Conveys.forIn (C := outlet.Filled) (g := fun e => e.2.outlets env.stage e.1)
    fun e he c t ν since _ => ?_) fun _ t ν _ h => ?_
  · have drawn : s.Draws e.2 := settled.furnished.registers .output e he
    have found : s.outputs.find? e.1 = some e.2 := Table.mem_entries.1 he
    refine .last (copyOutput_conveys e.1 (drawn.since since) fun l is => ?_) ⟨_, rfl⟩
    exact since.maintains.within_.locations .output e.1 l
      ((congrArg (Option.bind · _) found).trans is)
  refine .bind (copyOutputDistances_conveys clips) fun _ t₁ ν₁ since₁ clip => ?_
  refine Performs.mono (copyOutputDistances_conveys culls) fun _ t₂ ν₂ since₂ cull u maintains
    parted => ?_
  have later₁ := since₂.maintains.trans maintains
  exact ⟨ν, ν₁, h.2 u (since₁.maintains.trans later₁) parted, clip.2 u later₁ parted,
    cull.2 u maintains parted⟩

end Lower

/-- What an entry function does around one body. Inputs that are declared as in `s` come first; then
the body runs, and the outputs are copied, unless that is done with each vertex. -/
def State.RunsBody (w : World) (env : Environment) (body : Id) (s u : State) (μ ν : Invocation) :
    Prop :=
  ∃ μ₁ μ₂, s.TakesIn w env u μ μ₁ ∧ (μ₁.called w body).Unmoved μ₂ ∧
    if env.stage = .geometry then μ₂.Unmoved ν else s.PutsOut env u μ₂ ν

namespace Lower

variable {w : World} {env : Environment} {s : State} {μ : Invocation}

theorem runBody_performs (counted : env.Counted) (graphics : env.stage ≠ .compute) (body : Id) :
    Performs w env (runBody body) s μ fun _ t ν => ∀ u, t.Maintains u → u.Parted →
      s.RunsBody w env body u μ ν := by
  refine .read_bind (.ite (fun both => absurd both.1 graphics) fun _ => ?_)
  refine .bind (Performs.keeping (copyInputs_performs counted)) fun _ t ν since inputs => ?_
  refine .bind (Performs.keeping (call_performs body)) fun _ t₁ ν₁ since₁ called => ?_
  obtain ⟨same, inputs⟩ := inputs
  obtain ⟨same₁, called⟩ := called
  refine .ite (fun other => ?_) fun geometry => .pure fun _ u maintains parted => ?_
  · refine (copyOutputs_performs counted).mono fun _ t₂ ν₂ since₂ outputs u maintains parted => ?_
    refine ⟨ν, ν₁, inputs u ((since₁.trans since₂).maintains.trans maintains) parted, called, ?_⟩
    have outlets : t₁.outlets env = s.outlets env := by
      rw [State.outlets, same₁.outputs, same.outputs]
      rfl
    rw [if_neg other, State.PutsOut, ← outlets]
    exact outputs u maintains parted
  · refine ⟨ν, ν₁, inputs u (since₁.maintains.trans maintains) parted, called, ?_⟩
    rw [if_pos (not_not.1 geometry)]
    exact .refl ν₁

end Lower

namespace PatchPhase

variable (w : World) (p : PatchPhase) (μ : Invocation)

/-- The variable of a phase holds the number of an instance. -/
def number (k : Nat) : Invocation :=
  μ.written ⟨p.instanceId, []⟩ [.ofNat k]

/-- The first instances of a phase run, each with its number. -/
def instances (n : Nat) : Invocation :=
  (List.range n).foldl (fun μ k => (p.number μ k).called w p.function) μ

/-- All instances of a phase run. Where there are several, the variable counts up to their
number. -/
def run : Invocation :=
  let count := p.instanceCount.toNat
  if count ≤ 1 then p.instances w μ count else p.number (p.instances w μ count) count

theorem instances_succ (n : Nat) :
    p.instances w μ (n + 1) = (p.number (p.instances w μ n) n).called w p.function := by
  rw [instances, List.range_succ, List.foldl_append]
  rfl

theorem number_memory (k : Nat) :
    (p.number μ k).memory ⟨p.instanceId, []⟩ = .ofNat k :=
  Function.update_self _ _ _

/-- The function of a phase leaves the number of the instance alone. -/
def KeepsNumber : Prop :=
  ∀ memory : Memory, w.call p.function memory ⟨p.instanceId, []⟩ = memory ⟨p.instanceId, []⟩

theorem keepsNumber_idle : p.KeepsNumber .idle :=
  fun _ => rfl

end PatchPhase

namespace Lower

variable {w : World} {env : Environment} {s : State} {μ κ : Invocation} {phase : PatchPhase}
  {word bool : Id} {k : Nat}

/-- A comparison of two words. -/
theorem compare_looks {op : Spirv.Op} {type x y : Id} {a b : UInt32} {p : Bool}
    (is : op.isTest = true) (hx : s.Knows μ.processor x (.words [a]))
    (hy : s.Knows μ.processor y (.words [b])) (compares : op.test? [a, b] = some p) :
    Looks w env (emitValue op type [.id x, .id y]) s μ fun id t ν =>
      t.Knows ν.processor id (.truths [p]) := by
  have ⟨computed, noLoad, quiet⟩ : op.isComputed = true ∧ op ≠ .load ∧ op.isQuiet = true := by
    cases op <;> first | exact ⟨rfl, by decide, rfl⟩ | cases is
  refine .of_reads (P := fun id t ν => t.Knows ν id (.truths [p])) (.emitValue quiet _ _)
    (.emitValue computed (absurd · noLoad) fun t ν later n grows distinct => ?_)
  have hold : s.Hold μ.processor [0] [x, y] [fun _ => a, fun _ => b] := .cons hx (.cons hy .nil)
  have lanes := (hold.later later).lanes? (f := op.test?) (g := fun _ => p) nofun
    (fun _ _ => compares) grows distinct
  rw [Spirv.Device.evaluate?_test is]
  exact congrArg (Option.map Datum.truths) lanes

/-- Whether the number of the instance is below the count. -/
theorem instanceLeft_looks (type : s.builder.module.IsScalar .u32 word)
    (variable_ : s.builder.module.DefinesVariable phase.instanceId) :
    Looks w env (instanceLeft phase word bool) s μ fun id t ν => t.Knows ν.processor id
      (.truths [decide (μ.memory ⟨phase.instanceId, []⟩ < phase.instanceCount)]) := by
  intro settled
  have vector : s.builder.module.IsVector (.single .u32) word := type
  refine Looks.bind (loadFrom_looks (.of_variable settled.sound variable_) vector (by decide)
    (by decide) (by decide)) (fun index t ν since unmoved known => ?_) settled
  refine .bind (constant_looks phase.instanceCount) fun count t₁ ν₁ since₁ _ limit => ?_
  exact compare_looks rfl (since₁.knows known) limit rfl

/-- The number of the instance goes up. -/
theorem nextInstance_performs (type : s.builder.module.IsScalar .u32 word)
    (variable_ : s.builder.module.DefinesVariable phase.instanceId) :
    Performs w env (nextInstance phase word) s μ fun _ _ ν =>
      (μ.written ⟨phase.instanceId, []⟩ [μ.memory ⟨phase.instanceId, []⟩ + 1]).Unmoved ν := by
  intro settled
  have vector : s.builder.module.IsVector (.single .u32) word := type
  refine Looks.andThen (loadFrom_looks (.of_variable settled.sound variable_) vector (by decide)
    (by decide) (by decide)) (fun index t ν since unmoved known => ?_) settled
  refine Looks.andThen (constantU32_looks 1) fun one t₁ ν₁ since₁ unmoved₁ one_ => ?_
  refine Looks.andThen (.of_reads (P := fun id t κ => t.Knows κ id (.words [_]))
    (.emitValue rfl _ _) (number_reads rfl (since₁.knows known) one_ rfl))
      fun next t₂ ν₂ since₂ unmoved₂ next_ => ?_
  have leads := State.Leads.of_variable (μ := ν₂) since₂.settled.sound
    ((variable_.mono since.grows).mono (since₁.trans since₂).grows)
  refine (storeTo_performs leads next_).mono fun _ u ξ _ is => ?_
  subst is
  exact ((unmoved.trans unmoved₁).trans unmoved₂).written _ _

theorem runInstances_traverses (variable_ : s.builder.module.DefinesVariable phase.instanceId)
    (keeps : phase.KeepsNumber w) (before : (phase.number κ 0).Unmoved μ) :
    let count := phase.instanceCount.toNat
    Traverses w env (runInstances phase) s μ fun _ _ ν =>
      (phase.number (phase.instances w κ count) count).Unmoved ν := by
  intro count
  have small : count < UInt32.size := phase.instanceCount.toNat_lt
  refine .bind (.of_performs (Looks.of_reads (scalarType_steady .u32) (scalarType_types .u32)))
    fun word t ν since h => ?_
  obtain ⟨unmoved, type⟩ := h
  refine .bind (.of_performs (Looks.of_reads (scalarType_steady .bool) (scalarType_types .bool)))
    fun bool t₁ ν₁ since₁ h => ?_
  obtain ⟨unmoved₁, _⟩ := h
  have variable_ := variable_.mono (since.trans since₁).grows
  have type := type.mono since₁.grows
  -- With `k` instances left the others have run, and the variable has the number of the next.
  refine (loop_traverses
    (fun k ν => k ≤ count ∧
      (phase.number (phase.instances w κ (count - k)) (count - k)).Unmoved ν)
    (fun k ν => k < count ∧ (phase.instances w κ (count - k)).Unmoved ν) count
    (fun u ξ advances => ?_) (fun u ξ _ => ?_) (fun u ξ advances => ?_) ?_).mono
      fun _ _ _ _ h => h.2
  · refine Performs.mono (instanceLeft_looks (type.mono advances.grows)
      (variable_.mono advances.grows)) fun id u ξ' _ h k inv => ?_
    obtain ⟨still, known⟩ := h
    obtain ⟨low, inv⟩ := inv
    refine ⟨⟨low, inv.trans still⟩, ?_⟩
    have left : ξ.memory ⟨phase.instanceId, []⟩ < phase.instanceCount ↔ k ≠ 0 := by
      rw [inv.memory, PatchPhase.number_memory, UInt32.lt_iff_toNat_lt,
        UInt32.toNat_ofNat_of_lt' (Nat.lt_of_le_of_lt (Nat.sub_le count k) small)]
      omega
    rwa [decide_eq_decide.2 left] at known
  · refine (call_performs phase.function).mono fun _ u ξ' _ called k inv => ?_
    obtain ⟨low, inv⟩ := inv
    have next : count - k = count - (k + 1) + 1 := by omega
    refine ⟨low, ?_⟩
    rw [next, PatchPhase.instances_succ]
    exact (inv.called w phase.function).trans called
  · refine (nextInstance_performs (type.mono advances.grows)
      (variable_.mono advances.grows)).mono fun _ u ξ' _ written k half => ?_
    obtain ⟨low, half⟩ := half
    have next : count - k = count - (k + 1) + 1 := by omega
    have number : ξ.memory ⟨phase.instanceId, []⟩ + 1 = .ofNat (count - k) := by
      rw [half.memory, next, PatchPhase.instances_succ]
      refine (congrArg (· + 1) ((keeps _).trans (PatchPhase.number_memory ..))).trans ?_
      exact (UInt32.ofNat_add _ 1).symm
    rw [number] at written
    exact ⟨Nat.le_of_lt low, (half.written _ _).trans written⟩
  · rw [Nat.sub_self]
    exact ⟨Nat.le_refl _, (before.trans unmoved).trans unmoved₁⟩

theorem runPatchPhase_traverses (variable_ : s.builder.module.DefinesVariable phase.instanceId)
    (keeps : phase.KeepsNumber w) (some_ : phase.instanceCount ≠ 0) (before : κ.Unmoved μ) :
    Traverses w env (runPatchPhase phase) s μ fun _ _ ν => (phase.run w κ).Unmoved ν := by
  refine .bind (.of_performs (constantU32_looks 0)) fun first t ν since h => ?_
  obtain ⟨unmoved, known⟩ := h
  have leads := State.Leads.of_variable (μ := ν) since.settled.sound (variable_.mono since.grows)
  refine .bind (.of_performs (storeTo_performs leads known)) fun _ t₁ ν₁ since₁ is => ?_
  have started : (phase.number κ 0).Unmoved ν₁ := by
    subst is
    exact (before.trans unmoved).written _ _
  rw [PatchPhase.run]
  by_cases one : phase.instanceCount ≤ 1
  · have count : phase.instanceCount.toNat = 1 := by
      have := UInt32.le_iff_toNat_le.1 one
      have : phase.instanceCount.toNat ≠ 0 := fun none_ => some_ (UInt32.toNat_inj.1 none_)
      have : (1 : UInt32).toNat = 1 := rfl
      omega
    rw [if_pos one, count, if_pos (Nat.le_refl 1), PatchPhase.instances_succ]
    exact .of_performs ((call_performs phase.function).mono fun _ _ _ _ called =>
      (started.called w phase.function).trans called)
  · have several : ¬phase.instanceCount.toNat ≤ 1 := fun few => one (UInt32.le_iff_toNat_le.2 few)
    rw [if_neg one, if_neg several]
    exact runInstances_traverses (variable_.mono (since.trans since₁).grows) keeps started

end Lower

namespace HullState

variable (h : HullState) (w : World)

/-- The patch-constant phases in the order in which they run. -/
def patchPhases : List PatchPhase :=
  h.fork ++ h.join

/-- All patch-constant phases run. -/
def runPatch (μ : Invocation) : Invocation :=
  h.patchPhases.foldl (fun μ p => p.run w μ) μ

/-- Each phase has a variable for the number of the instance, and some instances. -/
structure Countable (h : HullState) (m : Spirv.Module) : Prop where
  numbered : ∀ p ∈ h.patchPhases, m.DefinesVariable p.instanceId
  counted : ∀ p ∈ h.patchPhases, p.instanceCount ≠ 0

/-- The control-point phase runs; without one, the control point is copied through. -/
def RunsPoint (env : Environment) (u : State) (μ ν : Invocation) : Prop :=
  match h.controlPoint? with
  | some function => (μ.called w function).Unmoved ν
  | none => ∃ b, u.builtins.lookup (.invocationId, .input) = some b ∧
      (Lower.controlPoints (μ.memory ⟨b.id, []⟩)).Copied u (Lower.passedRegisters env) μ ν

/-- What an invocation does. Inputs that are declared as in `s` come first, then the control point,
then all invocations meet; the first one runs the patch-constant phases and copies what they have
left to the interface. Which one it is stands in a built-in variable, and where the world spares
that, the number is the one from the beginning. -/
def Runs (env : Environment) (s u : State) (μ ν : Invocation) : Prop :=
  ∃ μ₁ μ₂ μ₃ b, s.TakesIn w env u μ μ₁ ∧ h.RunsPoint w env u μ₁ μ₂ ∧ (μ₂.met w).Unmoved μ₃ ∧
    u.builtins.lookup (.invocationId, .input) = some b ∧
      (w.Spares b.id → μ₃.memory ⟨b.id, []⟩ = μ.memory ⟨b.id, []⟩) ∧
      if μ₃.memory ⟨b.id, []⟩ = 0 then
        ∃ μ₄, (h.runPatch w μ₃).Unmoved μ₄ ∧ u.Visited (Lower.patchOutputRoles u) μ₄ ν
      else μ₃.Unmoved ν

variable {h w} {env : Environment} {u : State} {μ ν : Invocation}

/-- The control point leaves the number of the invocation alone. -/
theorem RunsPoint.spares {b : BuiltinVariable} (runs : h.RunsPoint w env u μ ν) (parted : u.Parted)
    (is : u.builtins.lookup (.invocationId, .input) = some b) (spares : w.Spares b.id) :
    ν.memory ⟨b.id, []⟩ = μ.memory ⟨b.id, []⟩ := by
  unfold RunsPoint at runs
  split at runs
  · rw [runs.memory]
    exact spares.call _ _
  · obtain ⟨_, _, copied⟩ := runs
    refine copied.elsewhere fun reg p target same => ?_
    obtain ⟨l, into, rfl⟩ := Option.map_eq_some_iff.1 target
    have holds : u.holder? (.port (.register .output reg)) = some l.id := by
      rw [State.holder?, State.port?, State.located_inventory, into]
      rfl
    have invocation : u.holder? (.port (.builtin .invocationId .input)) = some b.id :=
      congrArg (Option.map _) is
    exact parted.apart invocation holds StorageClass.noConfusion same

end HullState

namespace Lower

variable {w : World} {env : Environment} {s : State} {μ κ : Invocation} {h : HullState}

/-- Whether the invocation has the number zero. -/
theorem isFirstInvocation_looks : Looks w env isFirstInvocation s μ fun id t ν =>
    ∃ b, IsBuiltin env t .invocationId .input b ∧
      t.Knows ν.processor id (.truths [decide (μ.memory ⟨b.id, []⟩ = 0)]) := by
  refine .bind (.of_reads (scalarType_steady .bool) (scalarType_types .bool))
    fun bool t ν since unmoved _ => ?_
  refine .bind invocationId_looks fun invocation t₁ ν₁ since₁ unmoved₁ known => ?_
  obtain ⟨b, made, known⟩ := known
  refine .bind (constantU32_looks 0) fun first t₂ ν₂ since₂ _ first_ => ?_
  refine (compare_looks rfl (since₂.knows known) first_ rfl).mono fun id t₃ ν₃ since₃ _ test => ?_
  rw [unmoved.memory] at test
  have since := since₂.trans since₃
  exact ⟨b, made.later since.maintains since.grows, test⟩

theorem runInstances_keeps (phase : PatchPhase) : Keeps (runInstances phase) := by
  refine .lift_bind fun word => .lift_bind fun bool => .lift_bind fun header =>
    .lift_bind fun check =>
    .lift_bind fun body => .lift_bind fun continueLabel => .lift_bind fun merge => ?_
  refine .and_then (terminate_keeps _ _) <| .and_then (beginBlock_keeps _) ?_
  refine .and_then (push_keeps _) <| .and_then (terminate_keeps _ _) ?_
  refine .and_then (beginBlock_keeps _) <| .lift_bind fun inRange => ?_
  refine .and_then (terminate_keeps _ _) <| .and_then (beginBlock_keeps _) ?_
  refine .lift_bind fun _ => .and_then (terminate_keeps _ _) <| .and_then (beginBlock_keeps _) ?_
  exact .lift_bind fun _ => .and_then (terminate_keeps _ _) (beginBlock_keeps _)

theorem runPatchPhase_keeps (phase : PatchPhase) : Keeps (runPatchPhase phase) :=
  .lift_bind fun _ => .lift_bind fun _ => .ite (.lift _) (runInstances_keeps phase)

theorem runPatchPhases_traverses (countable : h.Countable s.builder.module)
    (keeps : ∀ p ∈ h.patchPhases, p.KeepsNumber w) :
    Traverses w env (runPatchPhases h) s μ fun _ t ν =>
      ∃ κ, (h.runPatch w μ).Unmoved κ ∧
        ∀ u, t.Maintains u → u.Parted → u.Visited (patchOutputRoles t) κ ν := by
  refine .bind (.forIn (I := fun before t ν => s.SameInterface t ∧
    (before.foldl (fun μ p => p.run w μ) μ).Unmoved ν) (fun before p after t ν all since done => ?_)
      ⟨.refl s, .refl μ⟩) fun _ t ν since done => ?_
  · obtain ⟨same, done⟩ := done
    have mem : p ∈ h.patchPhases := by
      rw [HullState.patchPhases, all]
      exact List.mem_append_right _ List.mem_cons_self
    refine (Traverses.keeping (runPatchPhase_traverses
      ((countable.numbered p mem).mono since.grows) (keeps p mem) (countable.counted p mem) done)
      (runPatchPhase_keeps p)).mono fun _ u ξ _ h => ?_
    rw [List.foldl_append]
    exact ⟨same.trans h.1, h.2⟩
  · refine (Traverses.of_performs (copyPatchOutputs_visits h.maxTessFactor).keeping).mono
      fun _ u ξ _ visited => ⟨ν, done.2, ?_⟩
    obtain ⟨same, _, visited⟩ := visited
    have roles : patchOutputRoles u = patchOutputRoles t := by
      rw [patchOutputRoles, same.patchOutputs]
      rfl
    exact roles ▸ visited

theorem runControlPoints_performs (counted : env.Counted) :
    (runControlPoints h).Performs w env s μ fun _ t ν => ∀ u, t.Maintains u → u.Parted →
      ∃ μ₁ μ₂, s.TakesIn w env u μ μ₁ ∧ h.RunsPoint w env u μ₁ μ₂ ∧ (μ₂.met w).Unmoved ν := by
  refine .bind (copyInputs_performs counted) fun _ t ν since inputs => ?_
  have wait {t₁ : State} {ν₁ : Invocation} (later : t.Maintains t₁)
      (point : ∀ u, t₁.Maintains u → u.Parted → h.RunsPoint w env u ν ν₁) :
      Performs w env waitForControlPoints t₁ ν₁ fun _ t₂ ν₂ => ∀ u, t₂.Maintains u → u.Parted →
        ∃ μ₁ μ₂, s.TakesIn w env u μ μ₁ ∧ h.RunsPoint w env u μ₁ μ₂ ∧ (μ₂.met w).Unmoved ν₂ :=
    waitForControlPoints_performs.mono fun _ t₂ ν₂ since₂ met u maintains parted =>
      have later₁ := since₂.maintains.trans maintains
      ⟨ν, ν₁, inputs u (later.trans later₁) parted, point u later₁ parted, met⟩
  cases is : h.controlPoint? with
  | some function =>
    refine .bind (call_performs function) fun _ t₁ ν₁ since₁ called =>
      wait since₁.maintains fun u _ _ => ?_
    rw [HullState.RunsPoint, is]
    exact called
  | none =>
    refine .bind passControlPoints_performs fun _ t₁ ν₁ since₁ passed =>
      wait since₁.maintains fun u maintains parted => ?_
    obtain ⟨b, made, passed⟩ := passed
    rw [HullState.RunsPoint, is]
    exact ⟨b, maintains.within_.builtins _ _ made.found, passed u maintains parted⟩

theorem runPhases_traverses (counted : env.Counted) (countable : h.Countable s.builder.module)
    (keeps : ∀ p ∈ h.patchPhases, p.KeepsNumber w) :
    Traverses w env (runPhases h) s μ fun _ t ν => ∀ u, t.Maintains u → t.SameInterface u →
      u.Parted → h.Runs w env s u μ ν := by
  refine .bind (.of_interface (runControlPoints_performs counted)) fun _ t ν since points => ?_
  refine .bind (.of_performs isFirstInvocation_looks) fun isFirst t₁ ν₁ since₁ first => ?_
  obtain ⟨unmoved, b, made, known⟩ := first
  have countable (u : State) (advances : t₁.Advances env u) : h.Countable u.builder.module :=
    have grows := (since.trans since₁).grows.trans advances.grows
    ⟨fun p mem => (countable.numbered p mem).mono grows, countable.counted⟩
  refine (selection_traverses known fun u advances =>
    runPatchPhases_traverses (countable u advances) keeps).mono
      fun _ t₂ ν₂ since₂ chosen u maintains same parted => ?_
  have later₁ := since₂.maintains.trans maintains
  obtain ⟨μ₁, μ₂, inputs, point, met⟩ := points u (since₁.maintains.trans later₁) parted
  have found : u.builtins.lookup (.invocationId, .input) = some b :=
    later₁.within_.builtins _ _ made.found
  have spared (spares : w.Spares b.id) : ν₁.memory ⟨b.id, []⟩ = μ.memory ⟨b.id, []⟩ := by
    have there : u.holder? (.port (.builtin .invocationId .input)) = some b.id :=
      congrArg (Option.map _) found
    have kept : μ₁.memory ⟨b.id, []⟩ = μ.memory ⟨b.id, []⟩ :=
      inputs.elsewhere parted there StorageClass.noConfusion
    rw [(met.trans unmoved).memory, ← kept, ← point.spares parted found spares]
    exact spares.barrier _
  refine ⟨μ₁, μ₂, ν₁, b, inputs, point, met.trans unmoved, found, spared, ?_⟩
  rw [unmoved.memory]
  by_cases zero : ν.memory ⟨b.id, []⟩ = 0
  · rw [decide_eq_true zero, if_pos rfl] at chosen
    obtain ⟨v, maintains', same', κ, ran, visited⟩ := chosen
    rw [if_pos zero]
    have roles : patchOutputRoles u = patchOutputRoles v := by
      rw [patchOutputRoles, (same'.trans same).patchOutputs]
      rfl
    exact ⟨κ, ran, roles ▸ visited u (maintains'.trans maintains) parted⟩
  · rw [decide_eq_false zero, if_neg Bool.false_ne_true] at chosen
    rw [if_neg zero, chosen]
    exact .refl ν₁

end Lower

/-- A state that differs in what a module says outside of its functions. -/
structure State.Remarks (s t : State) : Prop where
  state : ∃ capabilities builder, t = { s with capabilities, builder }
  grows : s.builder.module.Grows t.builder.module
  functions : t.builder.module.functions = s.builder.module.functions

namespace Lower
variable {env : Environment} {s t : State}

theorem orFault_state {α : Type} {a? : Option α} {fault : Fault} {a : α}
    (ran : (orFault a? fault).run env s = (.ok a, t)) : t = s := by
  cases a? with
  | none => cases ran
  | some a =>
    cases ran
    rfl

theorem executionModes_state {modes : List (Spirv.ExecutionMode × List UInt32)}
    (ran : executionModes.run env s = (.ok modes, t)) : t = s := by
  obtain ⟨_, _, taken, ran⟩ := Emission.run_bind_eq_ok.1 ran
  cases taken
  cases is : s.stage with
  | geometry primitive? n topology? max instances =>
    rw [is] at ran
    obtain ⟨_, u, found, later⟩ := Emission.run_bind_eq_ok.1 ran
    obtain ⟨_, v, found', last⟩ := Emission.run_bind_eq_ok.1 later
    cases last
    exact (orFault_state found').trans (orFault_state found)
  | vertex | pixel | compute | domain | hull =>
    rw [is] at ran
    cases ran
    rfl

theorem requireCapability_remarks {c : Spirv.Capability}
    (ran : (requireCapability c).run env s = (.ok (), t)) : s.Remarks t := by
  obtain ⟨_, _, taken, ran⟩ := Emission.run_bind_eq_ok.1 ran
  cases taken
  split at ran
  · cases ran
    exact ⟨⟨_, _, rfl⟩, .refl _, rfl⟩
  · cases ran
    refine ⟨⟨_, _, rfl⟩, ⟨fun _ h => h, fun _ h => h, fun i h => ?_⟩, rfl⟩
    rw [Array.toList_push]
    exact List.mem_append_left _ h

theorem announceEntryPoint_remarks (ran : announceEntryPoint.run env s = (.ok (), t)) :
    s.Remarks t := by
  obtain ⟨_, u, required, later⟩ := Emission.run_bind_eq_ok.1 ran
  obtain ⟨modes, v, found, last⟩ := Emission.run_bind_eq_ok.1 later
  have first : s.Remarks u := by
    obtain ⟨_, _, taken, required⟩ := Emission.run_bind_eq_ok.1 required
    cases taken
    split at required
    · exact requireCapability_remarks required
    · exact requireCapability_remarks required
    · exact requireCapability_remarks required
    · cases required
      exact ⟨⟨_, _, rfl⟩, .refl _, rfl⟩
  obtain rfl := executionModes_state found
  obtain ⟨⟨_, _, rfl⟩, grows, functions⟩ := first
  cases last
  exact ⟨⟨_, _, rfl⟩, ⟨grows.globals, grows.bodies, grows.capabilities⟩, functions⟩

end Lower

theorem State.Remarks.maintains {s t : State} (h : s.Remarks t) : s.Maintains t := by
  obtain ⟨⟨_, _, rfl⟩, _, _⟩ := h
  exact ⟨List.prefix_rfl, .refl _⟩

theorem State.Remarks.sameInterface {s t : State} (h : s.Remarks t) : s.SameInterface t := by
  obtain ⟨⟨_, _, rfl⟩, _, _⟩ := h
  exact ⟨rfl, rfl, rfl, rfl, rfl⟩

/-- What holds something has a place in the storage class of its role. -/
theorem Shader.Tables.places {x : Shader} {m : Spirv.Module} {s : State} (h : x.Tables m s)
    {r : Role}
    {id : Id} (is : s.holder? r = some id) : ∃ shape, m.Places id r.storageClass shape := by
  cases r with
  | inputs =>
    obtain ⟨_, _, houses⟩ := h.inputArray id is
    exact ⟨_, houses.places⟩
  | outputs => exact ⟨_, (h.outputArray id is).places⟩
  | patch => exact ⟨_, (h.patchArray id is).places⟩
  | port p =>
    cases p with
    | register side reg =>
      rw [State.holder?, State.port?, State.located_inventory] at is
      obtain ⟨l, found, rfl⟩ := Option.map_eq_some_iff.1 is
      obtain ⟨r, entry, is⟩ := Option.bind_eq_some_iff.1 found
      have registers : x.Registers m side (s.registers side) := by
        cases side with
        | input => exact h.inputs
        | output => exact h.outputs
        | patchInput => exact h.patchInputs
        | patchOutput => exact h.patchOutputs
      exact ⟨_, ((registers.find? entry).2.location l is).houses.places⟩
    | builtin builtin storage =>
      obtain ⟨made, found, rfl⟩ := Option.map_eq_some_iff.1 is
      exact ⟨_, (h.builtins _ (Lower.mem_of_lookup found)).houses.places⟩

/-- Variables are told apart while a shader is lowered. -/
theorem Shader.Invariant.parted {x : Shader} {v : VertexCounts} {s : State}
    (known : x.Invariant v s) (unshared : s.Unshared) : s.Parted := by
  refine ⟨fun {r r' id id'} is is' other same => ?_, unshared⟩
  obtain ⟨_, places⟩ := known.tables.places is
  obtain ⟨_, places'⟩ := known.tables.places is'
  obtain ⟨_, _, place⟩ := known.builder.distinct.place? places
  obtain ⟨_, _, place'⟩ := known.builder.distinct.place? places'
  rw [same, place'] at place
  have codes := congrArg Prod.fst (Option.some.inj place)
  exact other (Spirv.StorageClass.code_injective codes).symm

/-- Variables in the state behind a lowering are told apart. -/
theorem Shader.parted {x : Shader} {l : Lowering}
    (lowered : lowerInstructions x.env x.insts = .ok l) : l.state.Parted := by
  obtain ⟨_, stage, y, z, _, course, path, announced⟩ := lowerInstructions_course lowered
  have unshared := path.unshared course.recorded course.unshared
  obtain ⟨modes, _, same⟩ := announced
  refine (x.invariant lowered).parted (unshared.of_same fun p => ?_)
  rw [same]
  cases p with
  | register side reg => cases side <;> rfl
  | builtin builtin storage => rfl

section Entry

variable {x : Shader} {v : VertexCounts} {env : Environment} {s t : State} {l : Lowering}

namespace Lower

/-- Closing a body changes the builder, and that a body is open. -/
theorem closeBody_eq (run : result closeBody env s = (.ok (), t)) :
    ∃ builder inFunction, t = { s with builder, inFunction } := by
  unfold closeBody at run
  rw [result_get_bind] at run
  split at run
  · rw [result_get_bind] at run
    obtain ⟨_, run⟩ := result_check.1 run
    obtain ⟨block?, s₁, opened, run⟩ := result_bind_eq_ok.1 run
    cases opened
    have returns : ∃ s₂, (∃ builder, s₂ = { s with builder }) ∧ result (do
        endFunction
        modify fun s => { s with inFunction := false }) env s₂ = (.ok (), t) := by
      split at run
      · obtain ⟨_, s₂, returned, run⟩ := result_bind_eq_ok.1 run
        exact ⟨s₂, state_of_tryBuild (f := (·.terminate Spirv.Exit.ret.instr)) returned, run⟩
      · exact ⟨s, ⟨_, rfl⟩, run⟩
    obtain ⟨s₂, ⟨_, rfl⟩, last⟩ := returns
    obtain ⟨_, s₃, ended, changed⟩ := result_bind_eq_ok.1 last
    obtain ⟨_, rfl⟩ := state_of_tryBuild ended
    cases changed
    exact ⟨_, _, rfl⟩
  · cases run
    exact ⟨_, _, rfl⟩

/-- An entry function that is announced, behind everything else. -/
theorem entry_returns {contents : Lower Unit} {C : World → Prop}
    {Q : World → State → Invocation → Invocation → Prop} (rest : s.AtRest) (known : x.Invariant v s)
    (traverses : ∀ w, C w → ∀ builder, x.Invariant v { s with builder } → ∀ μ,
      Traverses w x.env contents { s with builder } μ fun _ u ν =>
        ∀ t, u.Maintains t → u.SameInterface t → t.Parted → Q w t μ ν)
    (some_ : ∃ w, C w) (run : result (do
      entryFunction contents
      announceEntryPoint) x.env s = (.ok (), t))
    (parted : t.Parted) (distinct : t.builder.module.Distinct)
    (formed : ∀ f ∈ t.builder.module.functions, f.WellFormed) :
    s.Maintains t ∧ ∃ f, t.builder.module.functions = s.builder.module.functions.push f ∧
      f.definition.result? = some t.entryPoint ∧ ∀ w, C w → ∀ μ, ∃ ν,
        w.Returns t.builder.module f μ ν ∧ Q w t μ ν := by
  obtain ⟨_, u, entered, announced⟩ := result_bind_eq_ok.1 run
  have remarks := announceEntryPoint_remarks announced
  have entryPoint : t.entryPoint = u.entryPoint := by
    obtain ⟨⟨_, _, rfl⟩, _, _⟩ := remarks
    rfl
  have returns (w : World) (allowed : C w) :=
    entryFunction_returns rest known (traverses w allowed) entered
  obtain ⟨w₀, allowed⟩ := some_
  obtain ⟨maintains, same, f, functions, definition, _⟩ := returns w₀ allowed
  have functions' := remarks.functions.trans functions
  have mem : f ∈ t.builder.module.functions := by
    rw [functions']
    exact Array.mem_push_self
  refine ⟨maintains.trans remarks.maintains, f, functions', ?_, fun w allowed μ => ?_⟩
  · rw [definition, entryPoint, same]
  · -- What is pushed is the same function whatever the world.
    obtain ⟨_, _, g, pushed, _, behind⟩ := returns w allowed
    obtain rfl := (Array.push_inj_right.1 (functions.symm.trans pushed))
    obtain ⟨r, ν, later, interface, q, arrives⟩ := behind μ
    exact ⟨ν, arrives _ remarks.grows distinct (formed f mem),
      q t (later.trans remarks.maintains) (interface.trans remarks.sameInterface) parted⟩

end Lower

/-- How a shader is lowered up to its last instruction, whose body is closed then. -/
structure Shader.Ends (x : Shader) (first last : Lowering) (s : State) : Prop where
  started : Lowering.start x.env = .ok first
  stepped : first.steps x.insts = .ok last
  closed : Lower.result Lower.closeBody x.env last.state = (.ok (), s)

/-- What is left to do behind the last instruction: the entry function, once the last body is
closed. -/
theorem Shader.exists_entry (lowered : lowerInstructions x.env x.insts = .ok l) :
    ∃ first last s, x.Ends first last s ∧ s.AtRest ∧ x.Invariant x.counts s ∧
      Lower.result Lower.lowerEntryPoint x.env s = (.ok (), l.state) := by
  obtain ⟨first, last, started, stepped, closed⟩ := lowerInstructions_eq_ok.1 lowered
  have standing := Lowering.steps_standing (Lowering.start_standing started) stepped
  have known : x.Invariant x.counts last.state :=
    Lowering.invariant_upTo (x := x) (List.prefix_refl _) started stepped
  have run := (Lowering.run_eq_ok.1 (Lowering.close_eq_ok.1 closed)).1
  obtain ⟨_, _, _, env⟩ := Lowering.start_eq_ok.1 started
  rw [Lowering.steps_environment stepped, env, Lower.finish, Lower.result_get_bind] at run
  obtain ⟨_, run⟩ := Lower.result_check.1 run
  obtain ⟨_, s, closed, entered⟩ := Lower.result_bind_eq_ok.1 run
  exact ⟨first, last, s, ⟨started, stepped, closed⟩,
    (Lower.closeBody_outside standing closed).rest,
    (Lower.closeBody_safe _ () _ known (.refl _) closed).1, entered⟩

end Entry

end ShaderLowering
