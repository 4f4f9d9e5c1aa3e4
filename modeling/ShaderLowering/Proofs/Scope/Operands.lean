import ShaderLowering.Proofs.Scope.Types
import ShaderLowering.Proofs.Typing.Operands
import ShaderLowering.Proofs.Typing.Registers
import ShaderLowering.Proofs.Typing.Values

/-!
Computing with values. Every such step refers to the values it is given and to types and constants,
and supplies what it computes.

Register access. The register file and the built-ins are variables, so they stand once they are
made; what leads into them is computed where it is used.

Operands name standing variables, and places and values in them are computed where they are used.
The number of the running instance is read as any other register; nothing else hidden is named.
-/

namespace ShaderLowering.Lower

open Spirv (Id Arg Op Builder)

variable {H : Limits} {env : Environment} {b : Builder} {value : Value}

@[grind ←]
theorem markPrecise_supplies (inst : Instruction) (value : Value) :
    Supplies H env b (markPrecise inst value).run := by
  unfold markPrecise
  grind -linarith

end ShaderLowering.Lower

namespace ShaderLowering.Lower

open Spirv (Id Arg Op Builder StorageClass BuiltIn Decoration Instr)

variable {H : Limits} {env : Environment} {b : Builder}

@[grind ←]
theorem chain_supplies (type : VectorType) (storage : StorageClass) {base : Id}
    (based : b.Available H base) {indices : List Id} (known : Known H b indices) :
    Supplies H env b (chain type storage base indices).run := by
  refine .ite (.pure based) ?_
  refine .after (vectorType_establishes type) fun pointee c within global => ?_
  refine .after (pointerType_establishes global storage) fun pointer d within' typed => ?_
  grind

@[grind ←]
theorem storeMasked_supplies {p : Pointer} (known : Known H b p) {value : Value}
    (known' : Known H b value) (mask : WriteMask) :
    Supplies H env b (storeMasked p value mask).run := by
  refine .ite (.pure trivial) (.bind (bitcast_routine known' _).supplies
    fun value c within known' => ?_)
  refine .choose (extend_routine known' _).supplies (.pure known') fun value d within' known' => ?_
  have known : Known H d p := (known.mono within).mono within'
  refine .ite (by grind) (.ite (by grind) (.ite (by grind) ?_))
  refine .bind (load_routine known).supplies fun current e within'' loaded => ?_
  refine .bind (vectorType_supplies _) fun type f later typed => ?_
  have known' : Known H f value := (known'.mono within'').mono later
  refine .bind (emitValue_supplies (by decide) typed ?_) fun merged g last stored => ?_
  · simpa using ⟨loaded.mono later, known'⟩
  · grind

/-- A temporary is listed as soon as it is made. -/
theorem newTemp_does {β : Type} {pointer : Id} (global : b.Global H pointer) {f : Id → Emission β}
    {post : β → Builder → Prop}
    (later : ∀ id c, b.Within c → Does H env c (f id).run post) :
    Does H env b
      (Emission.newTemp pointer >>= fun id => listVariable id .priv >>= fun _ => f id).run
        post := by
  intro s a u ready outgrown ran
  let made := s.builder.variable_ pointer .priv none
  let t : State :=
    { s with
      builder := made.2, temps := s.temps.push made.1, globals := (made.1, .priv) :: s.globals }
  replace ran : (f made.1).run env t = (.ok a, u) := ran
  have creates : Creates H s t made.1 .priv [] := by
    refine ⟨⟨pointer, none, List.forall_mem_singleton.2 (global.mono outgrown), .refl _⟩,
      s.builder.fst_variable _ _ _, ?_, fun b kept stands =>
      { kept with temps := fun id mem => ?_ },
      .of_eq rfl⟩
    · rw [List.append_nil]
      exact congrArg Array.toList (s.builder.annotations_variable pointer .priv none)
    · rcases Array.mem_push.1 (Array.mem_toList_iff.1 mem) with mem | rfl
      · exact kept.temps id (Array.mem_toList_iff.2 mem)
      · exact stands
  have act : Act H env s t := .create creates rfl
  obtain ⟨acts, fact⟩ := later _ _ (outgrown.trans act.within) t a u (act.ready ready) (.refl _) ran
  exact ⟨.head act acts, fact⟩

@[grind ←]
theorem declareTemps_supplies (count : Nat) : Supplies H env b (declareTemps count).run := by
  refine .ite (.bind (.failWith _) fun _ _ _ _ => ?_) ?_ <;>
  · refine .state_bind fun s _ _ => .bind (.forIn fun reg _ c _ => ?_) fun _ _ _ _ => .pure trivial
    refine .bind (vectorType_establishes float4) fun type d _ global => ?_
    refine .bind (pointerType_establishes global .priv) fun pointer e _ typed => ?_
    refine newTemp_does typed fun id f _ => ?_
    exact .bind (name_leaves _ _).does fun _ _ _ _ => .pure fun _ _ => trivial

theorem temp_does (reg : UInt32) :
    Does H env b (temp reg).run fun id c => c.Standing H id := by
  refine .ite (fun _ => .bind .fail (q := fun _ _ => False) nofun) fun _ => ?_
  refine .bind (declareTemps_supplies _) fun _ c _ _ => .state_bind fun s ready _ => ?_
  refine .orFault fun id found d within => (ready.kept.temps id ?_).mono within
  exact Array.mem_toList_iff.2 (Array.mem_of_getElem? found)

/-- An array that becomes the entry of a register without a shape. -/
theorem noteArray_runs {element : Id} (global : s.builder.Global H element) {r : ShapedRegister}
    (missing : s.shape? r = none) (length : Nat) (storage : StorageClass) (text : String)
    (enter : Id → State → State) {same : ∀ id (s : State), s.SameOutline (enter id s)}
    {keeps : ∀ id (s : State), s.SameInterface (enter id s)}
    (builder : ∀ id s, (enter id s).builder = s.builder)
    (accounts : ∀ id s, (enter id s).accounts = s.accounts)
    (kept : ∀ id (s : State), s.builder.Standing H id → s.Kept H s.builder →
      (enter id s).Kept H s.builder)
    (remembers : ∀ id (s : State), s.shape? r = none → s.Remembers (enter id s)) :
    Runs H env s (do
      let type ← arrayOf element length
      let id ← newVariable type storage none
      name id text
      Emission.note (enter id) (same id) (keeps id) : Emission Unit).run fun _ _ => True := by
  refine .shapeless (arrayOf_establishes global _) (arrayOf_shapeless _ _)
    fun type t _ global made => ?_
  refine .shapeless (newVariable_does global nofun) (newVariable_shapeless _ _ _)
    fun id u _ stands declared => ?_
  refine .shapeless (name_leaves _ _).does (name_shapeless _ _) fun _ v within _ named => ?_
  refine .note (builder id v) (kept id v (stands.mono within)) (accounts id v) (remembers id v ?_)
  rw [named, declared, made, missing]

@[grind ←]
theorem declareIndexableTemp_supplies (reg length : UInt32) :
    Supplies H env b (declareIndexableTemp reg length).run := by
  refine .ite (.bind (.failWith _) fun _ _ _ _ => ?_) ?_ <;>
  · refine Runs.does fun s _ _ => .state_bind ?_
    split
    · exact .of_supplies (by grind)
    · next missing =>
      refine .shapeless (vectorType_establishes float4) (vectorType_shapeless _)
        fun element t _ global same => ?_
      have new : t.shape? (.indexableTemp reg) = none := by
        rw [same, State.shape?, missing]
        rfl
      refine (noteArray_runs global new _ _ _
        (fun id s => { s with indexableTemps := s.indexableTemps.insert reg ⟨id, _⟩ })
        (fun _ _ => rfl) (fun _ _ => rfl) (fun id s stands kept => ?_) fun id s new => ?_).imp
          fun _ _ _ => trivial
      · exact { kept with indexableTemps := kept.indexableTemps.insert stands }
      · exact State.remembers_indexableTemp fun x known => by cases new.symm.trans known

@[grind ←]
theorem declareGroupMemory_supplies (reg stride : UInt32) (length : Nat) :
    Supplies H env b (declareGroupMemory reg stride length).run := by
  refine .ite (.bind (.failWith _) fun _ _ _ _ => ?_) ?_ <;>
  · refine Runs.does fun s _ _ => .state_bind ?_
    split
    · exact .of_supplies (by grind)
    · next missing =>
      refine .shapeless (scalarType_establishes .u32) (scalarType_shapeless _)
        fun element t _ global same => ?_
      have new : t.shape? (.groupMemory reg) = none := by
        rw [same, State.shape?, missing]
        rfl
      refine (noteArray_runs global new _ _ _
        (fun id s => { s with groupMemory := s.groupMemory.insert reg ⟨id, stride, _⟩ })
        (fun _ _ => rfl) (fun _ _ => rfl) (fun id s stands kept => ?_) fun id s new => ?_).imp
          fun _ _ _ => trivial
      · exact { kept with groupMemory := kept.groupMemory.insert stands }
      · exact State.remembers_groupMemory fun x known => by cases new.symm.trans known

theorem inputVertexCount_does : Does H env b inputVertexCount.run fun _ _ => True := by
  refine .read_bind ?_
  split
  · exact .state_bind fun _ _ _ => .pure fun _ _ => trivial
  · exact .state_bind fun _ _ _ => .pure fun _ _ => trivial
  · exact .state_bind fun _ _ _ => .pure fun _ _ => trivial
  · exact .pure fun _ _ => trivial

theorem registerArray_does (text : String) (vertices : Nat) :
    Does H env b (registerArray text vertices).run fun id c => c.Standing H id := by
  refine .bind (vectorType_establishes float4) fun element c _ global => ?_
  refine .bind (arrayOf_establishes global _) fun registers d _ global => ?_
  refine .bind (arrayOf_establishes global _) fun type e _ global => ?_
  refine .bind (newVariable_does global nofun) fun id f _ stands => ?_
  refine .bind (name_leaves _ _).does fun _ g within _ => ?_
  exact .pure fun _ later => (stands.mono within).mono later

@[grind ←]
theorem inputArray_supplies : Supplies H env b inputArray.run := by
  refine .state_bind fun s ready _ => ?_
  cases found : s.inputArray? with
  | some id => exact .pure (ready.kept.inputArray id found).available
  | none =>
    refine .after inputVertexCount_does fun vertices c _ _ => ?_
    refine .after (registerArray_does _ _) fun id d _ stands => ?_
    refine .after (.note (fun _ => rfl) (fun _ => .refl _) (fun _ => rfl)
      (fun s within kept => ?_) (fun _ => rfl) fun _ => .of_eq rfl)
      fun _ e within _ => .pure (stands.mono within).available
    exact { kept with inputArray := fun _ is => by cases is; exact stands.mono within }

@[grind ←]
theorem outputArray_supplies : Supplies H env b outputArray.run := by
  refine .state_bind fun s ready _ => ?_
  cases found : s.outputArray? with
  | some id => exact .pure (ready.kept.outputArray id found).available
  | none =>
    refine .after (registerArray_does _ _) fun id d _ stands => ?_
    refine .after (.note (fun _ => rfl) (fun _ => .refl _) (fun _ => rfl)
      (fun s within kept => ?_) (fun _ => rfl) fun _ => .of_eq rfl)
      fun _ e within _ => .pure (stands.mono within).available
    exact { kept with outputArray := fun _ is => by cases is; exact stands.mono within }

@[grind ←]
theorem patchArray_supplies : Supplies H env b patchArray.run := by
  refine .state_bind fun s ready _ => ?_
  cases found : s.patchArray? with
  | some id => exact .pure (ready.kept.patchArray id found).available
  | none =>
    refine .after (registerArray_does _ _) fun id d _ stands => ?_
    refine .after (.note (fun _ => rfl) (fun _ => .refl _) (fun _ => rfl)
      (fun s within kept => ?_) (fun _ => rfl) fun _ => .of_eq rfl)
      fun _ e within _ => .pure (stands.mono within).available
    exact { kept with patchArray := fun _ is => by cases is; exact stands.mono within }

@[grind ←]
theorem inputPointer_supplies {vertex? : Option Id} (known : Known H b vertex?) {reg : Id}
    (known' : b.Available H reg) : Supplies H env b (inputPointer vertex? reg).run := by
  unfold inputPointer
  grind

@[grind ←]
theorem outputPointer_supplies {reg : Id} (known : b.Available H reg) :
    Supplies H env b (outputPointer reg).run := by
  unfold outputPointer
  grind

@[grind ←]
theorem patchPointer_supplies {reg : Id} (known : b.Available H reg) :
    Supplies H env b (patchPointer reg).run := by
  unfold patchPointer
  grind

theorem inputVertexCount_quiet : IsQuiet env inputVertexCount.run := by
  unfold inputVertexCount
  grind

/-- The marks of a built-in behind the one that names it, and the entry that is made of it. -/
theorem builtinMarks_closes (id : Id) (builtin : BuiltIn) (storage : StorageClass)
    (isFlat : Prop) [Decidable isFlat] (made : BuiltinVariable) :
    Closes (fun i => i.IsPlainMark ∨ i = .plain .decorate [.id id, .word Decoration.patch.code]) env
      (do
        if isFlat then
          decorate id .flat []
        if builtin = .tessLevelOuter ∨ builtin = .tessLevelInner then
          decorate id .patch []
        match builtin with
        | .clipDistance => requireCapability .clipDistance
        | .cullDistance => requireCapability .cullDistance
        | .sampleId => requireCapability .sampleRateShading
        | _ => pure ()
        name id builtin.name
        .note fun s => { s with builtins := ((builtin, storage), made) :: s.builtins }
        return made : Emission BuiltinVariable).run
      fun a t u => a = made ∧
        u = { t with builtins := ((builtin, storage), made) :: t.builtins } := by
  refine .optional (fun _ => (decorate_plain id rfl []).imp fun _ => .inl) ?_
  refine .optional (fun _ => decorate_leaves (.inr rfl)) ?_
  have named : Closes (fun i => i.IsPlainMark ∨
      i = .plain .decorate [.id id, .word Decoration.patch.code]) env
      (name id builtin.name >>= fun _ =>
        Emission.note (fun s => { s with builtins := ((builtin, storage), made) :: s.builtins })
          (fun _ => by constructor <;> rfl) (fun _ => by constructor <;> rfl)
          >>= fun _ => pure made).run
      fun a t u => a = made ∧
        u = { t with builtins := ((builtin, storage), made) :: t.builtins } := by
    refine .bind (name_leaves _ _) fun _ => .of fun t a u ran => ?_
    cases ran
    exact ⟨rfl, rfl⟩
  split
  all_goals first
    | exact .bind (requireCapability_leaves _) fun _ => named
    | exact .bind .pure fun _ => named
    | exact named

theorem builtinVariable_does (builtin : BuiltIn) (storage : StorageClass) :
    Does H env b (builtinVariable builtin storage).run fun made c => c.Standing H made.id := by
  refine Runs.does fun s ready _ => ?_
  refine Runs.state_bind ?_
  split
  · next made found =>
    exact .pure (ready.kept.builtins _ (mem_of_lookup found))
  next missing =>
  refine .read_bind (.read_bind ?_)
  refine .choose (q := fun _ t => t.accounts = s.accounts) (.ite (fun _ => ?_)
    fun _ => .pure rfl) fun vertices t _ same => ?_
  · exact Runs.imp (.of_quiet inputVertexCount_does inputVertexCount_quiet (.refl _))
      fun _ _ is => is.2
  refine .quiet (vectorType_establishes _) (vectorType_quiet _) fun element v _ global same' => ?_
  refine .quiet (arrayOf_establishes global _) (arrayOf_quiet _ _) fun array w _ global same'' => ?_
  refine .quiet (arrayOf_establishes global _) (arrayOf_quiet _ _) fun pointee x _ global last => ?_
  intro made u ready ran
  obtain ⟨id, y, created, ran⟩ := Emission.run_bind_eq_ok.1 ran
  obtain ⟨z, acts, creates, listed, unchanged⟩ :=
    newVariable_creates ready global (by nofun) created
  obtain ⟨_, y', decorated, ran⟩ := Emission.run_bind_eq_ok.1 ran
  cases decorated
  obtain ⟨v', marks, marked, kept, others, is, rfl⟩ :=
    builtinMarks_closes id builtin storage _ _ _ made u ran
  have before : z.accounts = s.accounts := by
    rw [unchanged, last, same'', same', same]
  have missing : z.builtins.lookup (builtin, storage) = none := by
    rwa [show z.builtins = s.builtins from congrArg Accounts.builtins before]
  obtain rfl : made.id = id := by rw [is]
  rw [← is]
  have creates := (marked.creates ((Marks.annotate y rfl).creates creates)).note
    (u := { v' with builtins := ((builtin, storage), made) :: v'.builtins }) rfl
    (fun b kept stands => { kept with
      builtins := List.forall_mem_cons.2 ⟨stands, kept.builtins⟩ }) (.of_eq rfl)
  have act : Act H env z { v' with builtins := ((builtin, storage), made) :: v'.builtins } :=
    .builtin missing creates others ?_
  · exact ⟨acts.tail act, creates.standing (acts.ready ready)⟩
  have after : v'.accounts = { z.accounts with listed := (made.id, storage) :: z.globals } :=
    kept.trans listed
  have old : v'.builtins = z.builtins := congrArg Accounts.builtins after
  change { v'.accounts with builtins := ((builtin, storage), made) :: v'.builtins } = _
  rw [after, old]

@[grind ←]
theorem builtinPointer_supplies (builtin : BuiltIn) (storage : StorageClass)
    {vertex? element? : Option Id} (known : Known H b vertex?) (known' : Known H b element?) :
    Supplies H env b (builtinPointer builtin storage vertex? element?).run := by
  refine .after (builtinVariable_does _ _) fun found c within stands => ?_
  refine chain_supplies _ _ stands.available ?_
  grind

@[grind ←]
theorem loadBuiltin_supplies (builtin : BuiltIn) {vertex? element? : Option Id}
    (known : Known H b vertex?) (known' : Known H b element?) :
    Supplies H env b (loadBuiltin builtin vertex? element?).run := by
  unfold loadBuiltin
  grind

@[grind ←]
theorem invocationId_supplies : Supplies H env b invocationId.run := by
  unfold invocationId
  grind

end ShaderLowering.Lower

namespace ShaderLowering

open Spirv (Id Arg Op Builder StorageClass)

namespace Lower

variable {H : Limits} {T : Allowance} {env : Environment} {b : Builder} {op : Operand}
  {steps : List (Emission Id)}

@[grind ←]
theorem unsupported_supplies {α : Type} [Refers α] (inst : Instruction) :
    Supplies H env b (unsupported inst : Emission α).run :=
  .read_bind .fail

@[grind ←]
theorem controlPointOutput_supplies (reg : UInt32) {vertex : Id} (known : b.Available H vertex) :
    Supplies H env b (controlPointOutput reg vertex).run := by
  refine .state_bind fun s ready within => .demand fun location found => ?_
  obtain ⟨r, at_, location_⟩ := Option.bind_eq_some_iff.1 found
  have stands := ready.kept.outputs.find? at_ location location_
  exact chain_supplies _ _ stands.available (Given.cons_iff.2 ⟨known.mono within, by simp⟩)

@[grind ←]
theorem constantBufferPointer_supplies (slot : UInt32) {element : Id}
    (known : b.Available H element) :
    Supplies H env b (constantBufferPointer slot element).run := by
  refine .state_bind fun s ready within => .demand fun buffer found => ?_
  have stands := ready.kept.constantBuffers.find? found
  grind

theorem runIndex_supplies (given : ∀ step ∈ steps, ∀ b, Supplies H env b step.run)
    (type : OperandType) (dim : Nat) : Supplies H env b (runIndex type steps dim).run := by
  unfold runIndex
  split
  · next step found => exact given step (List.mem_of_getElem? found) b
  · exact .failWith _

/-- The variable that holds the number of the running instance may be read. -/
theorem instanceId_supplies :
    Supplies (.tables T) env b (do
      let phase ← orFault (← Emission.state).stage.currentPhase? .instanceIdOutsidePhase
      chain (.single .u32) .priv phase.instanceId [] : Emission Pointer).run := by
  refine .state_bind fun s ready _ => .demand fun phase found => ?_
  have stands : s.builder.module.Stands phase.instanceId := by
    unfold StageState.currentPhase? at found
    split at found
    · next h stage =>
      refine ((ready.kept.hull h (by rw [stage]; rfl)).2 phase (List.mem_append.2 ?_)).2
      split at found
      · exact .inl (List.mem_of_getElem? found)
      · exact .inr (List.mem_of_getElem? found)
      · cases found
    · cases found
  exact chain_supplies _ _ ⟨fun hidden => hidden, .inl stands⟩ (by simp)

theorem outputOperand_supplies (given : ∀ step ∈ steps, ∀ b, Supplies H env b step.run) :
    Supplies H env b (outputOperand op steps).run := by
  have index (type : OperandType) (dim : Nat) (b : Builder) :
      Supplies H env b (runIndex type steps dim).run := runIndex_supplies given type dim
  unfold outputOperand immediateIndex
  grind

/-- The place that an operand names. -/
theorem pointerWith_supplies (given : ∀ step ∈ steps, ∀ b, Supplies (.tables T) env b step.run) :
    Supplies (.tables T) env b (pointerWith op steps).run := by
  have index (type : OperandType) (dim : Nat) (b : Builder) :
      Supplies (.tables T) env b (runIndex type steps dim).run := runIndex_supplies given type dim
  unfold pointerWith immediateIndex
  dsimp only
  split
  next =>
    refine .demand fun reg _ => .after (temp_does reg) fun id c _ stands => ?_
    exact chain_supplies _ _ stands.available (by simp)
  next =>
    refine .demand fun reg _ => .state_bind fun s ready _ => .demand fun array found => ?_
    have stands := ready.kept.indexableTemps.find? found
    grind
  next => grind
  next => grind
  next => grind
  next => grind
  next => exact outputOperand_supplies given
  next => grind
  next =>
    refine .state_bind fun s ready _ => .demand fun array found => ?_
    have stands := ready.kept.immediates array found
    grind
  next => exact instanceId_supplies
  next => exact instanceId_supplies
  all_goals grind

theorem readWith_supplies (given : ∀ step ∈ steps, ∀ b, Supplies (.tables T) env b step.run)
    (mask : WriteMask) : Supplies (.tables T) env b (readWith op steps mask).run := by
  have place (b : Builder) : Supplies (.tables T) env b (pointerWith op steps).run :=
    pointerWith_supplies given
  unfold readWith readLanes readPlace
  grind

theorem indexFrom_supplies (offset : UInt32) {relative? : Option (Emission Value)}
    (given : ∀ step, relative? = some step → ∀ b, Supplies H env b step.run) :
    Supplies H env b (indexFrom offset relative?).run := by
  cases relative? with
  | none => exact constant_supplies _ _
  | some step =>
    refine .bind (given step rfl b) fun value c _ known => ?_
    refine .bind (bitcast_routine known _).supplies fun value d _ known => ?_
    grind

/-- The steps for the indices of an operand; by induction on the operands in them. -/
theorem indexSteps_supplies (op : Operand) :
    ∀ step ∈ indexSteps op.indices, ∀ b, Supplies (.tables T) env b step.run := by
  intro step mem b
  obtain ⟨d, found⟩ := List.mem_iff_getElem?.1 mem
  obtain ⟨index, is, rfl⟩ := getElem?_indexSteps found
  refine indexFrom_supplies _ fun read added b => ?_
  obtain ⟨r, relative, rfl⟩ := Option.map_eq_some_iff.1 added
  have smaller := sizeOf_relative (List.mem_of_getElem? is) relative
  rw [readOperand_eq]
  exact readWith_supplies (indexSteps_supplies r) .x
termination_by sizeOf op

@[grind ←]
theorem operandPointer_supplies (op : Operand) :
    Supplies (.tables T) env b (operandPointer op).run :=
  pointerWith_supplies (indexSteps_supplies op)

@[grind ←]
theorem readOperand_supplies (op : Operand) (mask : WriteMask) :
    Supplies (.tables T) env b (readOperand op mask).run := by
  rw [readOperand_eq]
  exact readWith_supplies (indexSteps_supplies op) mask

@[grind ←]
theorem writeOperand_supplies (op : Operand) {value : Value}
    (known : Known (.tables T) b value) (isSaturated : Bool) :
    Supplies (.tables T) env b (writeOperand op value isSaturated).run := by
  unfold writeOperand
  grind

@[grind ←]
theorem readScalar_supplies (op : Operand) (scalar : ScalarType) :
    Supplies (.tables T) env b (readScalar op scalar).run := by
  unfold readScalar
  grind

@[grind ←]
theorem readVector_supplies (op : Operand) (count : Nat) (scalar : ScalarType) :
    Supplies (.tables T) env b (readVector op count scalar).run := by
  unfold readVector
  grind

end Lower

namespace Supplies

variable {α : Type} [Refers α] {H : Limits} {env : Environment} {b : Builder} {inst : Instruction}
  {f : Operand → Emission α}

@[grind ←]
theorem source {n : Nat} (later : ∀ op, Supplies H env b (f op).run) :
    Supplies H env b (Lower.source inst n >>= f).run :=
  .demand fun op _ => later op

@[grind ←]
theorem destination {n : Nat} (later : ∀ op, Supplies H env b (f op).run) :
    Supplies H env b (Lower.destination inst n >>= f).run :=
  .demand fun op _ => later op

end Supplies

end ShaderLowering
