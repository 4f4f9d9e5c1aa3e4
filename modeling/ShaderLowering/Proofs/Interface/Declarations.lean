import ShaderLowering.Proofs.Lowering.Frame
import ShaderLowering.Proofs.Program.Heads

/-!
What the declarations of a program say of its interface registers. A plain declaration names a
register and some of its components; the signature says which of them travel through built-ins.
Lowering adds up what is declared, in whatever pieces and order, and whatever stands in between.
-/

namespace ShaderLowering

open Spirv (Id Instr)

namespace Opcode

def declaresInput : Opcode → Bool
  | dclInput | dclInputSgv | dclInputSiv | dclInputPs | dclInputPsSgv | dclInputPsSiv => true
  | _ => false

def declaresOutput : Opcode → Bool
  | dclOutput | dclOutputSgv | dclOutputSiv => true
  | _ => false

end Opcode

/-- An interface register with some of its components. -/
abbrev Declaration := Side × UInt32 × WriteMask

/-- What a declaration of inputs declares by its operand. -/
def Operand.input? (stage : ShaderStage) (op : Operand) : Option Declaration :=
  match op.type with
  | .input | .inputControlPoint =>
    (op.indices.getLast?.bind Index.immediate?).map fun reg => (.input, reg, op.mask)
  | .inputPatchConstant =>
    if stage = .domain then (op.index? 0).map fun reg => (.patchInput, reg, op.mask) else none
  | _ => none

/-- What a declaration of outputs declares by its operand. In a hull shader, outputs are patch
constants outside of the control-point phase. -/
def Operand.output? (stage : ShaderStage) (inControlPoints : Bool) (op : Operand) :
    Option Declaration :=
  if op.type = .output then
    (op.index? 0).map fun reg =>
      (if stage = .hull ∧ ¬inControlPoints then .patchOutput else .output, reg, op.mask)
  else none

namespace Instruction

/-- What a plain declaration declares. -/
def declares? (stage : ShaderStage) (inControlPoints : Bool) (inst : Instruction) :
    Option Declaration :=
  match inst.op?, inst.dst.head? with
  | some .dclInput, some op | some .dclInputPs, some op => op.input? stage
  | some .dclOutput, some op => op.output? stage inControlPoints
  | _, _ => none

/-- Whether a hull shader is in its control-point phase behind an instruction. -/
def entersControlPoints (inControlPoints : Bool) (inst : Instruction) : Bool :=
  if inst.family = .hullShaderPhase then inst.op? = some .hsControlPointPhase
  else inControlPoints

end Instruction

/-- All that the plain declarations among instructions declare. -/
def declarations (stage : ShaderStage) : (inControlPoints : Bool) → List Instruction →
    List Declaration
  | _, [] => []
  | inControlPoints, inst :: rest =>
    (inst.declares? stage inControlPoints).toList ++
      declarations stage (inst.entersControlPoints inControlPoints) rest

namespace Side

/-- The location of a register. -/
def locationOf (side : Side) (reg : UInt32) : UInt32 :=
  if side.isPatch then patchLocationBase + reg else reg

/-- Whether an opcode declares registers of this side. -/
def isDeclaredBy : Side → Opcode → Bool
  | input | patchInput => Opcode.declaresInput
  | output | patchOutput => Opcode.declaresOutput

end Side

/-- The declared registers of one side. -/
def State.registers (s : State) : Side → Table InterfaceRegister
  | .input => s.inputs
  | .output => s.outputs
  | .patchInput => s.patchInputs
  | .patchOutput => s.patchOutputs

/-- What is declared of a register. -/
def State.register (s : State) (side : Side) (reg : UInt32) : InterfaceRegister :=
  ((s.registers side).find? reg).getD .empty

/-- The variable of a register is decorated with a location. -/
def State.Locates (s : State) (id : Id) (location : UInt32) : Prop :=
  Instr.plain .decorate [.id id, .word Spirv.Decoration.location.code, .word location] ∈
    s.builder.module.annotations.toList

namespace Environment

def signature (env : Environment) : Side → Signature
  | .input => env.inputs
  | .output => env.outputs
  | .patchInput | .patchOutput => env.patch

/-- The components that a plain declaration of a register sends through built-ins. -/
def routed (env : Environment) (side : Side) (reg : UInt32) (mask : WriteMask) :
    List (WriteMask × SystemValue) :=
  ((env.signature side).elementsOn reg).filterMap fun e =>
    let overlap : WriteMask := ⟨e.mask.bits &&& mask.bits⟩
    if !overlap.isEmpty && routesToBuiltin env.stage side e.systemValue then
      some (overlap, e.systemValue)
    else none

end Environment

namespace State

variable {s t u : State}

theorem SameInterface.registers (h : s.SameInterface t) (side : Side) :
    t.registers side = s.registers side := by
  cases side with
  | input => exact h.inputs
  | output => exact h.outputs
  | patchInput => exact h.patchInputs
  | patchOutput => exact h.patchOutputs

theorem SameInterface.register (h : s.SameInterface t) (side : Side) (reg : UInt32) :
    t.register side reg = s.register side reg := by
  rw [State.register, h.registers, State.register]

/-- What holds between a state and a later one as far as one side of the interface goes. -/
structure RetainsSide (side : Side) (s t : State) : Prop where
  registers : t.registers side = s.registers side
  annotations : s.builder.module.annotations.toList <+: t.builder.module.annotations.toList

theorem Retains.side (h : s.Retains t) (side : Side) : s.RetainsSide side t :=
  ⟨h.registers side, h.annotations⟩

theorem RetainsSide.trans {side : Side} (first : s.RetainsSide side t)
    (second : t.RetainsSide side u) : s.RetainsSide side u :=
  ⟨second.registers.trans first.registers, first.annotations.trans second.annotations⟩

theorem Locates.later {id : Id} {location : UInt32} (h : s.Locates id location)
    (more : s.builder.module.annotations.toList <+: t.builder.module.annotations.toList) :
    t.Locates id location :=
  more.subset h

theorem inControlPointPhase_eq (stage : StageState) :
    stage.inControlPointPhase = decide (stage.phase? = some .controlPoint) := by
  cases stage with
  | hull h => simp [StageState.inControlPointPhase, StageState.phase?, StageState.hull?]
  | _ => rfl

end State

/-- What a plain declaration does to the registers of its side. -/
structure Declares (env : Environment) (side : Side) (reg : UInt32) (mask : WriteMask)
    (s t : State) : Prop where
  contains : (t.registers side).contains reg = true
  register : ∃ location?, t.register side reg =
    { (s.register side reg).declare mask (env.routed side reg mask) with location? }
  kept : ∀ l, (s.register side reg).location? = some l → (t.register side reg).location? = some l
  located : (t.register side reg).userMask.isEmpty = false →
    (t.register side reg).location?.isSome = true
  decorated : ∀ l, (t.register side reg).location? = some l →
    (s.register side reg).location? = some l ∨ t.Locates l.id (side.locationOf reg)
  elsewhere : ∀ k, k ≠ reg → (t.registers side).find? k = (s.registers side).find? k
  annotations : s.builder.module.annotations.toList <+: t.builder.module.annotations.toList

namespace Lower

variable {env : Environment} {s t : State} {side : Side} {reg : UInt32} {mask : WriteMask}

open Emission

/-- What is known of the results of a step that succeeds. -/
def Gives {α : Type} (known : α → State → Prop) (m : Emission α) : Prop :=
  ∀ env s a t, m.run env s = (.ok a, t) → known a t

namespace Gives

variable {α β : Type} {known : β → State → Prop}

protected theorem bind {m : Emission α} {f : α → Emission β} (later : ∀ a, Gives known (f a)) :
    Gives known (m >>= f) := by
  intro env s b t run
  obtain ⟨a, u, _, run⟩ := run_bind_eq_ok.1 run
  exact later a env u b t run

protected theorem pure {b : β} (h : ∀ s, known b s) : Gives known (Pure.pure b) := by
  intro env s c t run
  cases run
  exact h s

theorem ite {p : Prop} [Decidable p] {m n : Emission β} (yes : Gives known m)
    (no : Gives known n) : Gives known (if p then m else n) := by
  split
  · exact yes
  · exact no

end Gives

/-- A variable that is decorated with a location keeps it. -/
theorem gives_locates {id : Id} {location : UInt32} {k : Unit → Emission LocationVariable}
    (later : Gives (fun l _ => l.id = id) (k ())) :
    Gives (fun l t => t.Locates l.id location)
      (decorate id .location [.word location] >>= k) := by
  intro env s l t run
  obtain ⟨_, u, decorated, run⟩ := run_bind_eq_ok.1 run
  have locates : u.Locates id location := by
    cases decorated
    change _ ∈ (s.builder.module.annotations.push _).toList
    rw [Array.toList_push]
    exact List.mem_append_right _ List.mem_cons_self
  rw [later env u l t run]
  exact locates.later (emits_of_run run).annotations

/-- The variable of a register has the location of the register. -/
theorem newLocation_locates (side : Side) (reg : UInt32) (mode : Interpolation) :
    Gives (fun l t => t.Locates l.id (side.locationOf reg)) (newLocation side reg mode) := by
  refine .bind fun env => .bind fun signature => ?_
  have made (vertices : Nat) (scalar : ScalarType) (text : String) (component : ComponentType)
      (declared : Interpolation) :
      Gives (fun l t => t.Locates l.id (side.locationOf reg)) (do
        let type := VectorType.four scalar
        let element ← vectorType type
        let pointee ← arrayOf element vertices
        let id ← newVariable pointee side.storage none
        if side.isPatch then
          decorate id .patch []
          decorate id .location [.word (patchLocationBase + reg)]
        else
          decorate id .location [.word reg]
        if env.stage = .pixel ∧ side = .input then
          decorateInterpolation id component declared
        name id text
        return ({ id, type, vertices } : LocationVariable)) := by
    refine .bind fun element => .bind fun pointee => .bind fun id => ?_
    have rest : Gives (fun l (_ : State) => l.id = id) (do
        if env.stage = .pixel ∧ side = .input then
          decorateInterpolation id component declared
        name id text
        return ({ id, type := VectorType.four scalar, vertices } : LocationVariable)) :=
      .ite (.bind fun _ => .bind fun _ => .pure fun _ => rfl)
        (.bind fun _ => .pure fun _ => rfl)
    unfold Side.locationOf
    split
    · exact .bind fun _ => gives_locates rest
    · exact gives_locates rest
  dsimp only
  split
  · exact .bind fun vertices => made vertices _ _ _ _
  · exact .bind fun vertices => made vertices _ _ _ _
  · exact .bind fun vertices => made vertices _ _ _ _
  · exact .bind fun _ => .bind fun vertices => made vertices _ _ _ _
  · exact .bind fun vertices => made vertices _ _ _ _

/-- Without a system value of its own, a declaration goes by the signature. -/
theorem routedValues_run :
    (routedValues side reg mask none).run env s = (.ok (env.routed side reg mask), s) := by
  cases side <;> rfl

theorem register_run : (register side reg).run env s = (.ok (s.register side reg), s) := by
  cases side <;> rfl

/-- What setting a register changes. -/
structure Sets (side : Side) (reg : UInt32) (r : InterfaceRegister) (s t : State) : Prop where
  registers : t.registers side = (s.registers side).insert reg r
  others : ∀ other, other ≠ side → t.registers other = s.registers other
  phase? : t.stage.phase? = s.stage.phase?
  builder : t.builder = s.builder

theorem setRegister_sets {r : InterfaceRegister}
    (run : (setRegister side reg r).run env s = (.ok (), t)) : Sets side reg r s t := by
  cases side with
  | input | output | patchInput | patchOutput =>
    cases run
    refine ⟨rfl, fun other differs => ?_, rfl, rfl⟩
    cases other with
    | input | output | patchInput | patchOutput => first | rfl | exact absurd rfl differs

namespace Sets

variable {r : InterfaceRegister}

theorem register (h : Sets side reg r s t) : t.register side reg = r := by
  rw [State.register, h.registers, Table.find?_insert, if_pos rfl]
  rfl

theorem contains (h : Sets side reg r s t) : (t.registers side).contains reg = true := by
  rw [Table.contains, h.registers, Table.find?_insert, if_pos rfl]
  rfl

theorem elsewhere (h : Sets side reg r s t) {k : UInt32} (differs : k ≠ reg) :
    (t.registers side).find? k = (s.registers side).find? k := by
  rw [h.registers, Table.find?_insert, if_neg differs]

theorem retainsSide (h : Sets side reg r s t) {other : Side} (differs : other ≠ side) :
    s.RetainsSide other t :=
  ⟨h.others other differs, h.builder ▸ List.prefix_rfl⟩

end Sets

theorem routedValues_succeeds (value? : Option SystemValue) :
    ∃ values, (routedValues side reg mask value?).run env s = (.ok values, s) := by
  cases value? with
  | none => exact ⟨_, routedValues_run⟩
  | some value =>
    cases known : value.isBuiltin with
    | true =>
      refine ⟨if routesToBuiltin env.stage side value then [(mask, value)] else [], ?_⟩
      change (if value.isBuiltin then _ else _ : Emission _).run env s = _
      rw [if_pos known]
      rfl
    | false =>
      refine ⟨env.routed side reg mask, ?_⟩
      change (if value.isBuiltin then _ else _ : Emission _).run env s = _
      rw [if_neg (by simp [known])]
      exact routedValues_run

/-- The parts of a declaration: what is said of the register is noted, and its location variable
is made if that is missing. -/
theorem declareRegister_parts {value? : Option SystemValue} {mode : Interpolation}
    (run : (declareRegister side reg mask value? mode).run env s = (.ok (), t)) :
    ∃ values r u, (routedValues side reg mask value?).run env s = (.ok values, s) ∧
      r = (s.register side reg).declare mask values ∧ Sets side reg r s u ∧
      (((r.location?.isNone ∧ ¬r.userMask.isEmpty) ∧
        ∃ l v, (newLocation side reg mode).run env u = (.ok l, v) ∧
          Sets side reg { r with location? := some l } v t) ∨
      ¬(r.location?.isNone ∧ ¬r.userMask.isEmpty) ∧ t = u) := by
  unfold declareRegister at run
  split at run
  · cases run
  · obtain ⟨values, s₁, routes, afterRoutes⟩ := InterfaceStep.run_bind_eq_ok.1 run
    obtain ⟨values', routes'⟩ := @routedValues_succeeds env s side reg mask value?
    cases routes.symm.trans routes'
    obtain ⟨r, s₂, found, afterFound⟩ := InterfaceStep.run_bind_eq_ok.1 afterRoutes
    cases found.symm.trans register_run
    obtain ⟨_, u, set, afterSet⟩ := InterfaceStep.run_bind_eq_ok.1 afterFound
    refine ⟨values, _, u, routes, rfl, setRegister_sets set, ?_⟩
    split at afterSet
    · next missing =>
      obtain ⟨l, v, made, last⟩ := InterfaceStep.run_bind_eq_ok.1 afterSet
      exact .inl ⟨missing, l, v, made, setRegister_sets last⟩
    · next present =>
      cases afterSet
      exact .inr ⟨present, rfl⟩

theorem retains_of_run {α : Type} {m : Emission α} {r : Except CompileError α}
    (run : m.run env s = (r, t)) : s.Retains t :=
  (Keeps.lift m).of_ok run

/-- A plain declaration goes by the signature. -/
theorem declareRegister_declares {mode : Interpolation}
    (run : (declareRegister side reg mask none mode).run env s = (.ok (), t)) :
    Declares env side reg mask s t := by
  obtain ⟨values, r, u, routes, rfl, sets, rest⟩ := declareRegister_parts run
  cases routes.symm.trans routedValues_run
  rcases rest with ⟨⟨missing, _⟩, l, v, made, last⟩ | ⟨present, rfl⟩
  · have kept := retains_of_run made
    refine ⟨last.contains, ⟨some l, last.register⟩, fun l' old => ?_, fun _ => ?_, fun l' new => ?_,
      fun k differs => ?_, ?_⟩
    · rw [Option.isNone_iff_eq_none] at missing
      exact absurd (old.symm.trans missing) nofun
    · rw [last.register]
      rfl
    · rw [last.register] at new
      cases new
      exact .inr ((newLocation_locates side reg mode env u l v made).later
        (last.builder ▸ List.prefix_rfl))
    · rw [last.elsewhere differs, kept.registers, sets.elsewhere differs]
    · rw [last.builder, ← sets.builder]
      exact kept.annotations
  · refine ⟨sets.contains, ⟨_, sets.register⟩, fun l' old => ?_, fun carries => ?_,
      fun l' new => ?_,
      fun k differs => sets.elsewhere differs, sets.builder ▸ List.prefix_rfl⟩
    · rw [sets.register]
      exact old
    · rw [sets.register] at carries ⊢
      refine Option.isSome_iff_ne_none.2 fun missing => present ⟨?_, by simp [carries]⟩
      exact Option.isNone_iff_eq_none.2 missing
    · rw [sets.register] at new
      exact .inl new

/-- A declaration leaves the other sides as they are. -/
theorem declareRegister_others {value? : Option SystemValue} {mode : Interpolation}
    (run : (declareRegister side reg mask value? mode).run env s = (.ok (), t)) {other : Side}
    (differs : other ≠ side) : s.RetainsSide other t := by
  obtain ⟨values, r, u, _, _, sets, rest⟩ := declareRegister_parts run
  have first := sets.retainsSide differs
  rcases rest with ⟨_, l, v, made, last⟩ | ⟨_, rfl⟩
  · exact (first.trans ((retains_of_run made).side other)).trans (last.retainsSide differs)
  · exact first

/-- No declaration begins a phase. -/
theorem declareRegister_phase {value? : Option SystemValue} {mode : Interpolation}
    (run : (declareRegister side reg mask value? mode).run env s = (.ok (), t)) :
    t.stage.phase? = s.stage.phase? := by
  obtain ⟨values, r, u, _, _, sets, rest⟩ := declareRegister_parts run
  rcases rest with ⟨_, l, v, made, last⟩ | ⟨_, rfl⟩
  · rw [last.phase?, (retains_of_run made).phase?, sets.phase?]
  · exact sets.phase?

/-- What an interface declaration may come to: it declares a register of one side, plainly if the
instruction is plain, or it changes nothing. -/
def DeclaresAs (env : Environment) (inst : Instruction) (isOwn : Side → Prop) (s t : State) :
    Prop :=
  (∃ side reg mask value? mode, isOwn side ∧
    (declareRegister side reg mask value? mode).run env s = (.ok (), t) ∧
      (inst.op?.all (!·.namesValue) → value? = none ∧
        inst.declares? env.stage s.stage.inControlPointPhase = some (side, reg, mask))) ∨
  (s.Retains t ∧ (inst.op?.all (!·.namesValue) →
    inst.declares? env.stage s.stage.inControlPointPhase = none))

theorem orFault_interface_eq_ok {α : Type} {a? : Option α} {f : Fault} {a : α} :
    (liftM (orFault a? f) : InterfaceStep α).run env s = (.ok a, t) ↔ a? = some a ∧ t = s := by
  cases a? with
  | none =>
    constructor
    · intro h
      cases h
    · rintro ⟨h, _⟩
      cases h
  | some b =>
    constructor
    · intro h
      cases h
      exact ⟨rfl, rfl⟩
    · rintro ⟨h, rfl⟩
      cases h
      rfl

theorem declaredValue?_eq_none {inst : Instruction}
    (plain : inst.op?.all (!·.namesValue) = true) : declaredValue? inst = none := by
  apply if_neg
  cases known : inst.op? with
  | none => simp
  | some op =>
    rw [known] at plain
    simpa using plain

/-- A register that is declared by the operand of a plain declaration. -/
theorem declaresAs_of_declareRegister {inst : Instruction} {isOwn : Side → Prop} {side : Side}
    {reg : UInt32} {mask : WriteMask} {mode : Interpolation} (own : isOwn side)
    (declares : inst.op?.all (!·.namesValue) = true →
      inst.declares? env.stage s.stage.inControlPointPhase = some (side, reg, mask))
    (run : (declareRegister side reg mask (declaredValue? inst) mode).run env s = (.ok (), t)) :
    DeclaresAs env inst isOwn s t :=
  .inl ⟨side, reg, mask, _, _, own, run, fun plain =>
    ⟨declaredValue?_eq_none plain, declares plain⟩⟩

theorem lowerInputDeclaration_declaresAs {inst : Instruction} {op : Opcode}
    (known : inst.op? = some op) (isInput : op.declaresInput = true)
    (run : (lowerInputDeclaration inst).run env s = (.ok (), t)) :
    DeclaresAs env inst (fun side => side = .input ∨ side = .patchInput) s t := by
  have plain_op (plain : inst.op?.all (!·.namesValue) = true) :
      op = .dclInput ∨ op = .dclInputPs := by
    rw [known] at plain
    unfold Opcode.declaresInput at isInput
    split at isInput
    all_goals simp_all [Opcode.namesValue]
  unfold lowerInputDeclaration at run
  split at run
  · next operand head =>
    have declares (plain : inst.op?.all (!·.namesValue) = true) (b : Bool) :
        inst.declares? env.stage b = operand.input? env.stage := by
      unfold Instruction.declares?
      rw [known, head]
      rcases plain_op plain with rfl | rfl <;> rfl
    have atRegister (mode : Interpolation) (typed : operand.input? env.stage =
          (operand.indices.getLast?.bind Index.immediate?).map fun reg =>
            (.input, reg, operand.mask))
        (run : InterfaceStep.run (do
          let reg ← orFault (operand.indices.getLast?.bind Index.immediate?)
            (.declarationWithoutRegister "input declaration")
          declareRegister .input reg operand.mask (declaredValue? inst) mode) env s = (.ok (), t)) :
        DeclaresAs env inst (fun side => side = .input ∨ side = .patchInput) s t := by
      obtain ⟨reg, u, found, declared⟩ := InterfaceStep.run_bind_eq_ok.1 run
      obtain ⟨at_, rfl⟩ := orFault_interface_eq_ok.1 found
      apply declaresAs_of_declareRegister (.inl rfl) _ declared
      intro plain
      rw [declares plain, typed, at_]
      rfl
    split at run
    · next typed => exact atRegister _ (by rw [Operand.input?, typed]) run
    · next typed => exact atRegister _ (by rw [Operand.input?, typed]) run
    · next typed =>
      change (if env.stage = .domain then _ else _ : InterfaceStep Unit).run env s = _ at run
      by_cases domain : env.stage = .domain
      · rw [if_pos domain] at run
        obtain ⟨reg, u, found, declared⟩ := InterfaceStep.run_bind_eq_ok.1 run
        obtain ⟨at_, rfl⟩ := orFault_interface_eq_ok.1 found
        apply declaresAs_of_declareRegister (.inr rfl) _ declared
        intro plain
        rw [declares plain, Operand.input?, typed]
        dsimp only
        rw [if_pos domain, at_]
        rfl
      · rw [if_neg domain] at run
        cases run
        refine .inr ⟨.refl s, fun plain => ?_⟩
        rw [declares plain, Operand.input?, typed]
        dsimp only
        rw [if_neg domain]
    · next other =>
      cases run
      refine .inr ⟨.refl s, fun plain => ?_⟩
      rw [declares plain]
      unfold Operand.input?
      split
      · next typed => exact absurd typed (by assumption)
      · next typed => exact absurd typed (by assumption)
      · next typed => exact absurd typed (by assumption)
      · rfl
  · cases run

theorem lowerOutputDeclaration_declaresAs {inst : Instruction} {op : Opcode}
    (known : inst.op? = some op) (isOutput : op.declaresOutput = true)
    (run : (lowerOutputDeclaration inst).run env s = (.ok (), t)) :
    DeclaresAs env inst (fun side => side = .output ∨ side = .patchOutput) s t := by
  have plain_op (plain : inst.op?.all (!·.namesValue) = true) : op = .dclOutput := by
    rw [known] at plain
    unfold Opcode.declaresOutput at isOutput
    split at isOutput
    all_goals simp_all [Opcode.namesValue]
  unfold lowerOutputDeclaration at run
  split at run
  · next operand head =>
    have declares (plain : inst.op?.all (!·.namesValue) = true) (b : Bool) :
        inst.declares? env.stage b = operand.output? env.stage b := by
      unfold Instruction.declares?
      rw [known, head]
      cases plain_op plain
      rfl
    have nothing (typed : operand.type ≠ .output) (kept : s.Retains t) :
        DeclaresAs env inst (fun side => side = .output ∨ side = .patchOutput) s t := by
      refine .inr ⟨kept, fun plain => ?_⟩
      rw [declares plain]
      exact if_neg typed
    split at run
    · next typed =>
      obtain ⟨reg, u, found, run'⟩ := InterfaceStep.run_bind_eq_ok.1 run
      obtain ⟨at_, rfl⟩ := orFault_interface_eq_ok.1 found
      obtain ⟨_, v, asked, run''⟩ := InterfaceStep.run_bind_eq_ok.1 run'
      cases asked
      obtain ⟨_, w, asked, declared⟩ := InterfaceStep.run_bind_eq_ok.1 run''
      cases asked
      apply declaresAs_of_declareRegister _ _ declared
      · split
        · exact .inr rfl
        · exact .inl rfl
      · intro plain
        rw [declares plain, Operand.output?, if_pos typed, at_]
        rfl
    · next typed => exact nothing (by rw [typed]; nofun) (retains_of_run run)
    · next typed => exact nothing (by rw [typed]; nofun) (retains_of_run run)
    · next typed => exact nothing (by rw [typed]; nofun) (retains_of_run run)
    · next other =>
      cases run
      exact nothing (by assumption) (.refl s)
  · cases run

variable {inst : Instruction} {op : Opcode}

theorem lowerByFamily_declaration (family : inst.family = .declaration) :
    result (lowerByFamily inst) env s = (lowerDeclaration inst).run env s := by
  unfold lowerByFamily
  rw [family]
  rfl

theorem lowerDeclaration_input (known : inst.op? = some op) (isInput : op.declaresInput = true) :
    lowerDeclaration inst = lowerInputDeclaration inst := by
  unfold lowerDeclaration
  rw [known]
  unfold Opcode.declaresInput at isInput
  split at isInput
  all_goals first | rfl | cases isInput

theorem lowerDeclaration_output (known : inst.op? = some op)
    (isOutput : op.declaresOutput = true) :
    lowerDeclaration inst = lowerOutputDeclaration inst := by
  unfold lowerDeclaration
  rw [known]
  unfold Opcode.declaresOutput at isOutput
  split at isOutput
  all_goals first | rfl | cases isOutput

/-- Declarations of anything else leave the interface alone. -/
theorem lowerDeclaration_retains (notInput : ∀ op, inst.op? = some op → op.declaresInput = false)
    (notOutput : ∀ op, inst.op? = some op → op.declaresOutput = false)
    (run : (lowerDeclaration inst).run env s = (.ok (), t)) : s.Retains t := by
  have lifted {m : Emission Unit} (run : (liftM m : InterfaceStep Unit).run env s = (.ok (), t)) :
      s.Retains t := retains_of_run run
  unfold lowerDeclaration at run
  cases known : inst.op? with
  | none =>
    rw [known] at run
    cases run
    exact .refl s
  | some op =>
    rw [known] at run
    dsimp only at run
    by_cases stage : op.isStageDeclaration
    · rw [if_pos stage] at run
      exact lifted run
    · rw [if_neg stage] at run
      unfold lowerRegisterDeclaration at run
      dsimp only at run
      split at run
      case h_3 =>
        obtain ⟨_, u, found, run'⟩ := InterfaceStep.run_bind_eq_ok.1 run
        exact (retains_of_run found).trans (retains_of_run run')
      case h_5 | h_6 | h_7 | h_8 | h_9 | h_10 => cases notInput _ known
      case h_11 | h_12 | h_13 => cases notOutput _ known
      all_goals first | exact lifted run | (cases run; exact .refl s)

/-- So do all instructions but interface declarations and the beginnings of hull shader phases. -/
theorem lowerByFamily_retains (notInput : ∀ op, inst.op? = some op → op.declaresInput = false)
    (notOutput : ∀ op, inst.op? = some op → op.declaresOutput = false)
    (notPhase : inst.family ≠ .hullShaderPhase)
    (run : result (lowerByFamily inst) env s = (.ok (), t)) : s.Retains t := by
  have executable (ordinary : Keeps (lowerExecutable inst)) (run : result (do
      unless (← get).inFunction do failWith (.outsideBody inst.name)
      lowerExecutable inst) env s = (.ok (), t)) : s.Retains t := by
    have keeps : Keeps (do
        unless (← get).inFunction do failWith (.outsideBody inst.name)
        lowerExecutable inst) :=
      .bind .get fun _ => .ite ordinary (.lift_bind fun _ => ordinary)
    exact keeps.of_ok run
  cases family : inst.family with
  | hullShaderPhase => exact absurd family notPhase
  | declaration =>
    rw [lowerByFamily_declaration family] at run
    exact lowerDeclaration_retains notInput notOutput run
  | customData | float64 | textureQueryMsPos =>
    unfold lowerByFamily at run
    rw [family] at run
    exact (Keeps.lift _).of_ok run
  | _ =>
    unfold lowerByFamily at run
    rw [family] at run
    refine executable ?_ run
    unfold lowerExecutable
    rw [family]
    first | exact lowerControlFlow_keeps inst | exact .lift _

end Lower

/-- What all the declarations of a side amount to. -/
structure Sums (env : Environment) (side : Side) (decls : List Declaration) (s : State) : Prop where
  contains : ∀ reg, (s.registers side).contains reg = true ↔ ∃ m, (side, reg, m) ∈ decls
  mask : ∀ reg c, (s.register side reg).mask.contains c = true ↔
    ∃ m, (side, reg, m) ∈ decls ∧ m.contains c = true
  values : ∀ reg p, p ∈ (s.register side reg).systemValues ↔
    ∃ m, (side, reg, m) ∈ decls ∧ p ∈ env.routed side reg m
  located : ∀ reg, (s.register side reg).userMask.isEmpty = false →
    (s.register side reg).location?.isSome = true
  decorated : ∀ reg l, (s.register side reg).location? = some l →
    s.Locates l.id (side.locationOf reg)

theorem mem_foldl_unless {α : Type} [BEq α] [LawfulBEq α] {a : α} {xs acc : List α} :
    a ∈ xs.foldl (fun acc p => if acc.contains p then acc else acc ++ [p]) acc ↔
      a ∈ acc ∨ a ∈ xs := by
  induction xs generalizing acc with
  | nil => simp
  | cons x xs ih =>
    rw [List.foldl_cons, ih]
    split
    · next taken =>
      have : x ∈ acc := List.contains_iff_mem.1 taken
      constructor
      · rintro (h | h)
        · exact .inl h
        · exact .inr (List.mem_cons_of_mem x h)
      · rintro (h | h)
        · exact .inl h
        · obtain rfl | h := List.mem_cons.1 h
          · exact .inl this
          · exact .inr h
    · simp only [List.mem_append, List.mem_cons, List.not_mem_nil, or_false, or_assoc]

namespace Sums

variable {env : Environment} {side : Side} {decls more : List Declaration} {s t : State}

/-- Nothing is declared at first. -/
theorem initial (none_ : s.registers side = .empty) : Sums env side [] s := by
  have register (reg : UInt32) : s.register side reg = .empty := by
    rw [State.register, none_]
    rfl
  constructor
  · intro reg
    rw [none_]
    simp [Table.contains]
  · intro reg c
    rw [register]
    simp [InterfaceRegister.empty, WriteMask.contains, WriteMask.none]
  · intro reg p
    rw [register]
    simp [InterfaceRegister.empty]
  · intro reg
    rw [register]
    intro h
    cases h
  · intro reg l
    rw [register]
    intro h
    cases h

theorem retains (h : Sums env side decls s) (kept : s.RetainsSide side t) :
    Sums env side decls t := by
  have register (reg : UInt32) : t.register side reg = s.register side reg := by
    rw [State.register, kept.registers, State.register]
  constructor
  · rw [kept.registers]
    exact h.contains
  · simp only [register]
    exact h.mask
  · simp only [register]
    exact h.values
  · simp only [register]
    exact h.located
  · intro reg l
    rw [register]
    exact fun at_ => (h.decorated reg l at_).later kept.annotations

/-- Declarations of other sides do not count. -/
theorem append_other (h : Sums env side decls s) (other : ∀ reg m, (side, reg, m) ∉ more) :
    Sums env side (decls ++ more) s := by
  have same (reg : UInt32) (m : WriteMask) :
      (side, reg, m) ∈ decls ++ more ↔ (side, reg, m) ∈ decls := by
    rw [List.mem_append, or_iff_left (other reg m)]
  constructor
  · simp only [same]
    exact h.contains
  · simp only [same]
    exact h.mask
  · simp only [same]
    exact h.values
  · exact h.located
  · exact h.decorated

/-- One more declaration. -/
theorem declare {reg : UInt32} {mask : WriteMask} (h : Sums env side decls s)
    (declared : Declares env side reg mask s t) :
      Sums env side (decls ++ [(side, reg, mask)]) t := by
  obtain ⟨location?, register⟩ := declared.register
  have elsewhere {k : UInt32} (differs : k ≠ reg) : t.register side k = s.register side k := by
    rw [State.register, declared.elsewhere k differs, State.register]
  have mem (k : UInt32) (m : WriteMask) : (side, k, m) ∈ decls ++ [(side, reg, mask)] ↔
      (side, k, m) ∈ decls ∨ k = reg ∧ m = mask := by
    simp only [List.mem_append, List.mem_singleton, Prod.mk.injEq, true_and]
  constructor
  · intro k
    simp only [mem]
    by_cases at_ : k = reg
    · subst at_
      exact ⟨fun _ => ⟨mask, .inr ⟨rfl, rfl⟩⟩, fun _ => declared.contains⟩
    · rw [Table.contains, declared.elsewhere k at_, ← Table.contains, h.contains]
      simp only [at_, false_and, or_false]
  · intro k c
    simp only [mem]
    by_cases at_ : k = reg
    · subst at_
      rw [register]
      change ((s.register side k).mask ||| mask).contains c = true ↔ _
      rw [WriteMask.contains_or, Bool.or_eq_true, h.mask]
      constructor
      · rintro (⟨m, listed, has⟩ | has)
        · exact ⟨m, .inl listed, has⟩
        · exact ⟨mask, .inr ⟨rfl, rfl⟩, has⟩
      · rintro ⟨m, listed | ⟨_, rfl⟩, has⟩
        · exact .inl ⟨m, listed, has⟩
        · exact .inr has
    · rw [elsewhere at_, h.mask]
      simp only [at_, false_and, or_false]
  · intro k p
    simp only [mem]
    by_cases at_ : k = reg
    · subst at_
      rw [register]
      change p ∈ (env.routed side k mask).foldl _ (s.register side k).systemValues ↔ _
      rw [mem_foldl_unless, h.values]
      constructor
      · rintro (⟨m, listed, has⟩ | has)
        · exact ⟨m, .inl listed, has⟩
        · exact ⟨mask, .inr ⟨rfl, rfl⟩, has⟩
      · rintro ⟨m, listed | ⟨_, rfl⟩, has⟩
        · exact .inl ⟨m, listed, has⟩
        · exact .inr has
    · rw [elsewhere at_, h.values]
      simp only [at_, false_and, or_false]
  · intro k
    by_cases at_ : k = reg
    · subst at_
      exact declared.located
    · rw [elsewhere at_]
      exact h.located k
  · intro k l
    by_cases at_ : k = reg
    · subst at_
      intro new
      rcases declared.decorated l new with old | located
      · exact (h.decorated k l old).later declared.annotations
      · exact located
    · rw [elsewhere at_]
      exact fun old => (h.decorated k l old).later declared.annotations

end Sums

namespace Instruction

/-- Declarations of one side are plain: none of them names a system value. -/
def IsPlainOn (side : Side) (inst : Instruction) : Prop :=
  ∀ op, inst.op? = some op → side.isDeclaredBy op = true → op.namesValue = false

instance (side : Side) (inst : Instruction) : Decidable (inst.IsPlainOn side) :=
  match known : inst.op? with
  | none => isTrue fun _ h => by cases known.symm.trans h
  | some op =>
    if plain : side.isDeclaredBy op = true → op.namesValue = false then
      isTrue fun _ h => by
        cases known.symm.trans h
        exact plain
    else isFalse fun all => plain (all op known)

theorem declares?_of_op {stage : ShaderStage} {inControlPoints : Bool} {inst : Instruction}
    (h : ∀ op, inst.op? = some op → op ≠ .dclInput ∧ op ≠ .dclInputPs ∧ op ≠ .dclOutput) :
    inst.declares? stage inControlPoints = none := by
  unfold declares?
  split
  · next known _ => exact absurd rfl (h _ known).1
  · next known _ => exact absurd rfl (h _ known).2.1
  · next known _ => exact absurd rfl (h _ known).2.2
  · rfl

/-- Declarations that name a system value are not plain. -/
theorem declares?_of_namesValue {stage : ShaderStage} {inControlPoints : Bool}
    {inst : Instruction} {op : Opcode} (known : inst.op? = some op)
    (named : op.namesValue = true) : inst.declares? stage inControlPoints = none := by
  refine declares?_of_op fun op' known' => ?_
  cases known.symm.trans known'
  refine ⟨?_, ?_, ?_⟩ <;> rintro rfl <;> cases named

end Instruction

namespace Lower

variable {env : Environment} {s t : State} {side : Side} {inst : Instruction}
  {decls : List Declaration}

/-- What an interface declaration adds to a side. -/
theorem DeclaresAs.sums {isOwn : Side → Prop} {op : Opcode} (known : inst.op? = some op)
    (own : ∀ side, isOwn side → side.isDeclaredBy op = true) (plain : inst.IsPlainOn side)
    (sums : Sums env side decls s) (h : DeclaresAs env inst isOwn s t) :
    Sums env side
      (decls ++ (inst.declares? env.stage s.stage.inControlPointPhase).toList) t := by
  have all_plain (unnamed : op.namesValue = false) : inst.op?.all (!·.namesValue) = true := by
    rw [known, Option.all_some, unnamed]
    rfl
  rcases h with ⟨side', reg, mask, value?, mode, isOwn_, run, declares⟩ | ⟨kept, declares⟩
  · by_cases here_ : side' = side
    · subst here_
      obtain ⟨rfl, declared⟩ := declares (all_plain (plain op known (own side' isOwn_)))
      rw [declared]
      exact sums.declare (declareRegister_declares run)
    · have kept := declareRegister_others run (Ne.symm here_)
      refine (sums.retains kept).append_other fun reg' m listed => ?_
      cases named : op.namesValue with
      | true =>
        rw [Instruction.declares?_of_namesValue known named] at listed
        cases listed
      | false =>
        rw [(declares (all_plain named)).2] at listed
        simp only [Option.toList_some, List.mem_singleton, Prod.mk.injEq] at listed
        exact here_ listed.1.symm
  · have none_ : inst.declares? env.stage s.stage.inControlPointPhase = none := by
      cases named : op.namesValue with
      | true => exact Instruction.declares?_of_namesValue known named
      | false => exact declares (all_plain named)
    rw [none_, Option.toList_none, List.append_nil]
    exact sums.retains (kept.side side)

theorem DeclaresAs.phase? {isOwn : Side → Prop} (h : DeclaresAs env inst isOwn s t) :
    t.stage.phase? = s.stage.phase? := by
  rcases h with ⟨_, _, _, _, _, _, run, _⟩ | ⟨kept, _⟩
  · exact declareRegister_phase run
  · exact kept.phase?

theorem Enters.retainsSide {phase : HullPhase} (h : Enters phase s t) (side : Side) :
    s.RetainsSide side t := by
  obtain ⟨u, kept, same, _⟩ := h
  refine ⟨?_, ?_⟩
  · rw [← kept.registers side, same]
    cases side <;> rfl
  · rw [same]
    exact kept.annotations

theorem Enters.phase? {phase : HullPhase} (h : Enters phase s t) :
    t.stage.phase? = some phase := by
  obtain ⟨_, _, _, entered⟩ := h
  exact entered

/-- Lowering an instruction adds what it declares, and it keeps track of the phase. -/
theorem lowerByFamily_sums (family : inst.HasFamily) (plain : inst.IsPlainOn side)
    (sums : Sums env side decls s) (run : result (lowerByFamily inst) env s = (.ok (), t)) :
    Sums env side
      (decls ++ (inst.declares? env.stage s.stage.inControlPointPhase).toList) t ∧
        t.stage.inControlPointPhase =
          inst.entersControlPoints s.stage.inControlPointPhase := by
  have stays (notPhase : inst.family ≠ .hullShaderPhase) (same : t.stage.phase? = s.stage.phase?) :
      t.stage.inControlPointPhase = inst.entersControlPoints s.stage.inControlPointPhase := by
    rw [Instruction.entersControlPoints, if_neg notPhase, State.inControlPointPhase_eq,
      State.inControlPointPhase_eq, same]
  obtain ⟨op, known, family⟩ := family
  have unique {p : Opcode → Bool} (h : p op = false) :
      ∀ op', inst.op? = some op' → p op' = false := by
    intro op' known'
    cases known.symm.trans known'
    exact h
  have declaration (isDeclaration : op.family = .declaration) :
      result (lowerByFamily inst) env s = (lowerDeclaration inst).run env s ∧
        inst.family ≠ .hullShaderPhase := by
    rw [isDeclaration] at family
    exact ⟨lowerByFamily_declaration family, by rw [family]; nofun⟩
  cases isInput : op.declaresInput with
  | true =>
    have isDeclaration : op.family = .declaration := by
      unfold Opcode.declaresInput at isInput
      split at isInput
      all_goals first | rfl | cases isInput
    obtain ⟨lowered, notPhase⟩ := declaration isDeclaration
    rw [lowered, lowerDeclaration_input known isInput] at run
    have declares := lowerInputDeclaration_declaresAs known isInput run
    refine ⟨declares.sums known ?_ plain sums, stays notPhase declares.phase?⟩
    rintro _ (rfl | rfl) <;> exact isInput
  | false =>
    cases isOutput : op.declaresOutput with
    | true =>
      have isDeclaration : op.family = .declaration := by
        unfold Opcode.declaresOutput at isOutput
        split at isOutput
        all_goals first | rfl | cases isOutput
      obtain ⟨lowered, notPhase⟩ := declaration isDeclaration
      rw [lowered, lowerDeclaration_output known isOutput] at run
      have declares := lowerOutputDeclaration_declaresAs known isOutput run
      refine ⟨declares.sums known ?_ plain sums, stays notPhase declares.phase?⟩
      rintro _ (rfl | rfl) <;> exact isOutput
    | false =>
      have none_ (b : Bool) : inst.declares? env.stage b = none := by
        refine Instruction.declares?_of_op fun op' known' => ?_
        cases known.symm.trans known'
        refine ⟨?_, ?_, ?_⟩
        · rintro rfl
          cases isInput
        · rintro rfl
          cases isInput
        · rintro rfl
          cases isOutput
      rw [none_, Option.toList_none, List.append_nil]
      by_cases phase : inst.family = .hullShaderPhase
      · unfold lowerByFamily at run
        rw [phase] at run
        obtain ⟨entered, enters, is⟩ := lowerHullPhase_enters run
        refine ⟨sums.retains (enters.retainsSide side), ?_⟩
        rw [Instruction.entersControlPoints, if_pos phase, State.inControlPointPhase_eq,
          enters.phase?, decide_eq_decide, Option.some.injEq]
        exact is
      · have kept := lowerByFamily_retains (unique isInput) (unique isOutput) phase run
        exact ⟨sums.retains (kept.side side), stays phase kept.phase?⟩

theorem lowerInstruction_sums (family : inst.HasFamily) (plain : inst.IsPlainOn side)
    (sums : Sums env side decls s) (run : result (lowerInstruction inst) env s = (.ok (), t)) :
    Sums env side
      (decls ++ (inst.declares? env.stage s.stage.inControlPointPhase).toList) t ∧
        t.stage.inControlPointPhase =
          inst.entersControlPoints s.stage.inControlPointPhase := by
  obtain ⟨_, u, lowered, noted⟩ := result_bind_eq_ok.1 run
  cases noted
  obtain ⟨after, phase⟩ := lowerByFamily_sums family plain sums lowered
  refine ⟨after.retains ⟨?_, List.prefix_rfl⟩, phase⟩
  cases side <;> rfl

end Lower

/-- Lowering instructions adds up what they declare. -/
theorem Lowering.steps_sums {side : Side} {insts : List Instruction}
    (families : ∀ inst ∈ insts, inst.HasFamily) (plain : ∀ inst ∈ insts, inst.IsPlainOn side)
    {l m : Lowering} {decls : List Declaration} (sums : Sums l.environment side decls l.state)
    (run : l.steps insts = .ok m) :
    Sums l.environment side
      (decls ++ declarations l.environment.stage l.state.stage.inControlPointPhase insts)
      m.state ∧ m.environment = l.environment := by
  induction insts generalizing l decls with
  | nil =>
    cases run
    rw [declarations, List.append_nil]
    exact ⟨sums, rfl⟩
  | cons inst rest ih =>
    obtain ⟨l₁, stepped, run⟩ := steps_cons.1 run
    obtain ⟨lowered, same⟩ := step_eq_ok.1 stepped
    obtain ⟨first, phase⟩ := Lower.lowerInstruction_sums (families inst List.mem_cons_self)
      (plain inst List.mem_cons_self) sums lowered
    rw [← same] at first
    obtain ⟨rest_, environment⟩ := ih (fun i hi => families i (List.mem_cons_of_mem inst hi))
      (fun i hi => plain i (List.mem_cons_of_mem inst hi)) first run
    rw [phase, same, List.append_assoc] at rest_
    rw [declarations]
    exact ⟨rest_, environment.trans same⟩

end ShaderLowering
