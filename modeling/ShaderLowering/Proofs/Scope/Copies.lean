import ShaderLowering.Proofs.Scope.Operands
import ShaderLowering.Proofs.Scope.Textures
import ShaderLowering.Proofs.Typing.Copies

/-!
Copies between the interface and the register arrays refer to the variables that carry registers,
to built-ins and to the arrays.
-/

namespace ShaderLowering

open Spirv (Id Instr Arg Op Builder BuiltIn StorageClass)

variable {H : Limits} {T : Allowance} {env : Environment} {b : Builder} {value : Value}

/-- The variable that carries a register stands, if there is one. -/
def InterfaceRegister.Carried (H : Limits) (b : Builder) (r : InterfaceRegister) : Prop :=
  ∀ l, r.location? = some l → b.Standing H l.id

theorem InterfaceRegister.Carried.mono {c : Builder} {r : InterfaceRegister} (h : r.Carried H b)
    (within : b.Within c) : r.Carried H c :=
  fun l is => (h l is).mono within

/-- A loop whose own state holds no ids. -/
theorem Does.forIn {α γ : Type} {f : α → γ → Emission (ForInStep γ)} {list : List α} {init : γ}
    (each : ∀ a ∈ list, ∀ g c, b.Within c → Does H env c (f a g).run fun _ _ => True) :
    Does H env b (ForIn.forIn list init f : Emission γ).run fun _ _ => True := by
  induction list generalizing b init with
  | nil =>
    rw [List.forIn_nil]
    exact .pure fun _ _ => trivial
  | cons a rest ih =>
    rw [List.forIn_cons]
    refine .bind (each a List.mem_cons_self init b (.refl b)) fun step c within _ => ?_
    cases step with
    | done => exact .pure fun _ _ => trivial
    | yield =>
      exact ih fun a ha g d within' => each a (List.mem_cons_of_mem _ ha) g d
        (within.trans within')

namespace Lower

theorem vertexIds_supplies (vertex? : Option Nat) :
    Supplies H env b (vertex?.mapM constantU32 : Emission (Option Id)).run := by
  cases vertex? with
  | none => exact .pure (Given.none_iff.2 trivial)
  | some n =>
    exact .bind (constantU32_supplies n) fun id c _ known => .pure (Given.some_iff.2 known)

@[grind ←]
theorem writeInput_supplies (vertex? : Option Nat) (reg : UInt32) (mask : WriteMask)
    (known : Known H b value) : Supplies H env b (writeInput vertex? reg mask value).run := by
  have write (vertices : List (Option Nat)) (regId : Id) (value : Value) (c : Builder)
      (known : Known H c regId) (known' : Known H c value) :
      Supplies H env c (do
        for vertex? in vertices do
          let vertexId? ← vertex?.mapM constantU32
          let p ← inputPointer vertexId? regId
          storeMasked p value mask : Emission Unit).run := by
    refine .bind (.forIn fun vertex? _ d within => ?_) fun _ _ _ _ => .pure trivial
    refine .bind (vertexIds_supplies vertex?) fun vertexId? e within' vertex => ?_
    refine .bind (inputPointer_supplies vertex ((known.mono within).mono within'))
      fun p f later at_ => ?_
    exact .bind (storeMasked_supplies at_ (((known'.mono within).mono within').mono later) mask)
      fun _ _ _ _ => .pure fun _ _ => trivial
  refine .bind (constant_supplies _ _) fun regId c within reg_ =>
    .bind (bitcast_routine (known.mono within) _).supplies fun value d within' value_ => ?_
  cases vertex? with
  | some n => exact .pure_bind (write _ regId value d (reg_.mono within') value_)
  | none =>
    refine .after inputVertexCount_does fun count e within'' _ => ?_
    exact .pure_bind
      (write _ regId value e ((reg_.mono within').mono within'') (value_.mono within''))

theorem loadLocation_supplies {location : LocationVariable} (stands : b.Standing H location.id)
    (vertex? : Option Nat) : Supplies H env b (loadLocation location vertex?).run := by
  refine .bind (vertexIds_supplies vertex?) fun vertexId? c within vertex => ?_
  refine .bind (chain_supplies _ _ (stands.mono within).available (Given.toList_iff.2 vertex))
    fun p d _ known => (load_routine known).supplies

@[grind ←]
theorem loadDrawParameter_supplies (builtin : BuiltIn) :
    Supplies H env b (loadDrawParameter builtin).run := by
  unfold loadDrawParameter
  grind

@[grind ←]
theorem copyBuiltin_supplies (builtin : BuiltIn) (reg : UInt32) (mask : WriteMask) :
    Supplies H env b (copyBuiltin builtin reg mask).run := by
  unfold copyBuiltin
  grind

@[grind ←]
theorem copyFragCoord_supplies (reg : UInt32) (mask : WriteMask) :
    Supplies H env b (copyFragCoord reg mask).run := by
  refine .bind (loadBuiltin_supplies _ (by simp) (by simp)) fun coord c _ _ =>
    .bind (scalarType_supplies _) fun float d _ _ => .bind (extract_routine ?_ 3).supplies
    fun w e _ _ => .bind (constant_supplies _ _) fun one f _ _ =>
    .bind (emitValue_supplies (by decide) ?_ ?_) fun inverse g _ _ => ?_
  · grind
  · grind
  · grind
  have coord_ : Known H g coord := by grind
  refine .bind (vectorType_supplies _) fun vector h _ _ =>
    .bind (emitValue_supplies (by decide) ?_ ?_) fun fixed i _ known =>
    .bind (selectMask_routine known _).supplies fun value j _ known =>
    writeInput_supplies _ _ _ known
  all_goals grind

@[grind ←]
theorem copyPosition_supplies (reg : UInt32) (mask : WriteMask) :
    Supplies H env b (copyPosition reg mask).run := by
  refine .after inputVertexCount_does fun count c _ _ => ?_
  refine .bind (.forIn fun vertex _ d _ => ?_) fun _ _ _ _ => .pure trivial
  refine .bind (constantU32_supplies vertex) fun index e _ index_ =>
    .bind (loadBuiltin_supplies _ (Given.some_iff.2 index_) (Given.none_iff.2 trivial))
    fun position f _ position_ => .bind (selectMask_routine position_ mask).supplies
    fun value g _ value_ =>
    .bind inputVertexCount_does fun count h within _ =>
    .bind (writeInput_supplies _ _ _ (value_.mono within)) fun _ _ _ _ => .pure fun _ _ => trivial

@[grind ←]
theorem copyInputValue_supplies (reg : UInt32) (mask : WriteMask) (value : SystemValue) :
    Supplies H env b (copyInputValue reg mask value).run := by
  unfold copyInputValue
  split
  · grind
  · refine .bind (loadBuiltin_supplies _ (by simp) (by simp)) fun index c _ index_ =>
      .read_bind (.ite (.bind (loadDrawParameter_supplies _) fun base d _ _ =>
      .bind (scalarType_supplies _) fun int e _ _ => .bind (emitValue_supplies (by decide) ?_ ?_)
      fun id f _ known => .pure_bind (writeInput_supplies _ _ _ known))
      (.pure_bind (writeInput_supplies _ _ _ index_)))
    all_goals grind
  · refine .bind (loadBuiltin_supplies _ (by simp) (by simp)) fun index c _ index_ =>
      .bind (loadDrawParameter_supplies _) fun base d _ _ =>
      .bind (scalarType_supplies _) fun int e _ _ => .bind (emitValue_supplies (by decide) ?_ ?_)
      fun id f _ known => writeInput_supplies _ _ _ known
    all_goals grind
  all_goals grind

theorem copyInputDistances_supplies (value : SystemValue) :
    Supplies H env b (copyInputDistances value).run := by
  refine .read_bind (.ite (.pure trivial) ?_)
  refine .bind (.forIn fun part _ c _ => ?_) fun _ _ _ _ => .pure trivial
  refine .state_bind fun s _ _ => .ite (fun _ => ?_) fun _ => .pure fun _ _ => trivial
  refine .bind (constantU32_supplies _) fun element d _ element_ =>
    .bind inputVertexCount_does fun count e within _ => ?_
  replace element_ := element_.mono within
  refine .bind (Supplies.forIn fun vertex? _ f within' => ?_) fun _ _ _ _ =>
    .pure fun _ _ => trivial
  refine .bind (vertexIds_supplies vertex?) fun vertexId? g within'' vertex_ =>
    .bind (loadBuiltin_supplies _ vertex_
      (Given.some_iff.2 ((element_.mono within').mono within'')))
    fun v h _ known => .bind (writeInput_supplies _ _ _ known) fun _ _ _ _ =>
      .pure fun _ _ => trivial

theorem copyPatchInput_supplies (reg : UInt32) {r : InterfaceRegister} (carried : r.Carried H b) :
    Supplies H env b (copyPatchInput reg r).run := by
  refine .bind (constant_supplies _ _) fun regId c within reg_ => ?_
  extract_lets copyLevels
  have levels (d : Builder) (reg_ : Known H d regId) : Supplies H env d (copyLevels ()).run := by
    refine .bind (.forIn fun part _ e within => ?_) fun _ _ _ _ => .pure trivial
    dsimp only
    split
    · next level i _ =>
      refine Does.bind (constantU32_supplies i) fun element f within' element_ => ?_
      refine .bind (loadBuiltin_supplies _ (Given.none_iff.2 trivial) (Given.some_iff.2 element_))
        fun v g within'' value_ => ?_
      refine .bind (patchPointer_supplies (((reg_.mono within).mono within').mono within''))
        fun p h later known => ?_
      exact .bind (storeMasked_supplies known (value_.mono later) _) fun _ _ _ _ =>
        .pure fun _ _ => trivial
    · exact .pure fun _ _ => trivial
  split
  · next location is =>
    refine .bind (loadLocation_supplies ((carried.mono within) location is) none)
      fun value d within' known =>
        .bind (selectMask_routine known _).supplies fun value e within'' value_ =>
      .bind (patchPointer_supplies ((reg_.mono within').mono within'')) fun p f later known =>
      .bind (storeMasked_supplies known (value_.mono later) _) fun _ g last _ => levels g ?_
    exact (((reg_.mono within').mono within'').mono later).mono last
  · exact levels c reg_

theorem copyInput_supplies (reg : UInt32) {r : InterfaceRegister} (carried : r.Carried H b) :
    Supplies H env b (copyInput reg r).run := by
  unfold copyInput
  extract_lets copyValues
  have values (c : Builder) : Supplies H env c (copyValues ()).run := by
    refine .bind (.forIn fun part _ d _ => ?_) fun _ _ _ _ => .pure trivial
    exact .ite (fun _ => .pure fun _ _ => trivial) fun _ => .bind (copyInputValue_supplies _ _ _)
      fun _ _ _ _ => .pure fun _ _ => trivial
  split
  · next location is =>
    refine .bind (.forIn fun vertex? _ c within => ?_) fun _ d _ _ => values d
    refine .bind (loadLocation_supplies ((carried location is).mono within) vertex?)
      fun value d _ known => .bind (selectMask_routine known _).supplies fun value e _ known =>
      .bind (writeInput_supplies _ _ _ known) fun _ _ _ _ => .pure fun _ _ => trivial
  · exact values b

theorem copyInputs_supplies : Supplies H env b copyInputs.run := by
  refine .state_bind fun s ready _ => ?_
  refine .bind (.forIn fun entry mem c within => ?_) fun _ c _ _ => ?_
  · exact .bind
      (copyInput_supplies _ (InterfaceRegister.Carried.mono (ready.kept.inputs entry mem) within))
      fun _ _ _ _ => .pure fun _ _ => trivial
  refine .bind (copyInputDistances_supplies _) fun _ d _ _ =>
    .bind (copyInputDistances_supplies _) fun _ e _ _ => .state_bind fun t ready _ => ?_
  refine .bind (.forIn fun entry mem c within => ?_) fun _ c _ _ => .pure trivial
  exact .bind (copyPatchInput_supplies _
    (InterfaceRegister.Carried.mono (ready.kept.patchInputs entry mem) within))
    fun _ _ _ _ => .pure fun _ _ => trivial

@[grind ←]
theorem requireLayerOutput_leaves {P : Instr → Prop} (builtin : BuiltIn) :
    Leaves P env (requireLayerOutput builtin).run :=
  .read_bind <| .ite (fun _ => requireCapability_leaves _) fun _ =>
    .bind (requireCapability_leaves _) fun _ => requireExtension_leaves _

@[grind ←]
theorem writeLayer_supplies (builtin : BuiltIn) (known : Known H b value) (mask : WriteMask) :
    Supplies H env b (writeLayer builtin value mask).run := by
  refine .bind (requireLayerOutput_leaves builtin).supplies fun _ c within _ =>
    .bind (extract_routine (known.mono within) _).supplies fun component d _ part =>
    .bind (builtinPointer_supplies _ _ (by simp) (by simp)) fun p e within' known =>
    storeMasked_supplies known (part.mono within') _

@[grind ←]
theorem writeLocation_supplies {location : LocationVariable} (stands : b.Standing H location.id)
    (known : Known H b value) (mask : WriteMask) :
    Supplies H env b (writeLocation location value mask).run := by
  refine .bind (selectMask_routine known _).supplies fun picked c within picked_ =>
    .bind (chain_supplies _ _ (stands.mono within).available (by simp)) fun p d within' known =>
    storeMasked_supplies known (picked_.mono within') _

theorem copyOutput_supplies (reg : UInt32) {r : InterfaceRegister} (carried : r.Carried H b) :
    Supplies H env b (copyOutput reg r).run := by
  refine .bind (constant_supplies _ _) fun regId c within reg_ =>
    .bind (outputPointer_supplies reg_) fun p d within' known =>
    .bind (load_routine known).supplies fun value e within'' value_ => ?_
  replace carried := ((carried.mono within).mono within').mono within''
  extract_lets copyValues
  have values (f : Builder) (value_ : Known H f value) :
      Supplies H env f (copyValues ()).run := by
    refine .bind (.forIn fun part _ g within => ?_) fun _ _ _ _ => .pure trivial
    replace value_ := value_.mono within
    dsimp only
    split
    · exact .bind (selectMask_routine value_ _).supplies fun picked h _ picked_ =>
        .bind (builtinPointer_supplies _ _ (by simp) (by simp)) fun p i within' known =>
        .bind (storeMasked_supplies known (picked_.mono within') _) fun _ _ _ _ =>
        .pure fun _ _ => trivial
    · exact .bind (writeLayer_supplies _ value_ _) fun _ _ _ _ => .pure fun _ _ => trivial
    · exact .bind (writeLayer_supplies _ value_ _) fun _ _ _ _ => .pure fun _ _ => trivial
    · exact .pure fun _ _ => trivial
  split
  · next location is =>
    refine .bind (bitcast_routine value_ _).supplies fun typed f within known =>
      .bind (writeLocation_supplies ((carried.mono within) location is) known _)
      fun _ g within' _ => values g ((value_.mono within).mono within')
  · exact values e value_

theorem copyOutputDistances_supplies (value : SystemValue) :
    Supplies H env b (copyOutputDistances value).run := by
  refine .read_bind (.ite (.pure trivial) ?_)
  extract_lets layout components
  refine .after (.forIn fun part _ first c _ => ?_) fun _ _ _ _ => .pure trivial
  refine Does.bind (constant_supplies _ _) fun regId d _ reg_ =>
    .bind (outputPointer_supplies reg_) fun p e _ known =>
    .bind (load_routine known).supplies fun v f _ value_ => ?_
  refine .bind (Supplies.forIn fun entry _ g within => ?_) fun _ _ _ _ => .pure fun _ _ => trivial
  refine .bind (extract_routine (value_.mono within) _).supplies fun part h _ part_ =>
    .bind (constantU32_supplies _) fun element i within' element_ =>
    .bind (builtinPointer_supplies _ _ (Given.none_iff.2 trivial) (Given.some_iff.2 element_))
    fun p j later known => ?_
  exact .bind (storeMasked_supplies known ((part_.mono within').mono later) _)
    fun _ _ _ _ => .pure fun _ _ => trivial

theorem copyOutputs_supplies : Supplies H env b copyOutputs.run := by
  refine .state_bind fun s ready _ => ?_
  refine .bind (.forIn fun entry mem c within => ?_) fun _ c _ _ => ?_
  · exact .bind (copyOutput_supplies _
      (InterfaceRegister.Carried.mono (ready.kept.outputs entry mem) within))
      fun _ _ _ _ => .pure fun _ _ => trivial
  · exact .bind (copyOutputDistances_supplies _) fun _ d _ _ => copyOutputDistances_supplies _

theorem copyPatchOutput_supplies (greatest : UInt32) (reg : UInt32) {r : InterfaceRegister}
    (carried : r.Carried H b) : Supplies H env b (copyPatchOutput greatest reg r).run := by
  refine .bind (constant_supplies _ _) fun regId c within reg_ =>
    .bind (patchPointer_supplies reg_) fun p d within' known =>
    .bind (load_routine known).supplies fun value e within'' value_ => ?_
  replace carried := ((carried.mono within).mono within').mono within''
  extract_lets copyLevels
  have levels (f : Builder) (value_ : Known H f value) :
      Supplies H env f (copyLevels ()).run := by
    refine .bind (.forIn fun part _ g within => ?_) fun _ _ _ _ => .pure trivial
    replace value_ := value_.mono within
    dsimp only
    split
    · next level i _ =>
      refine Does.bind (extract_routine value_ _).supplies fun factor h _ factor_ => ?_
      refine .bind (constant_supplies _ _) fun most i within₁ most_ => ?_
      refine .bind (extended_routine _ _ (Given.cons_iff.2 ⟨factor_.mono within₁,
        Given.cons_iff.2 ⟨most_, Given.nil_iff.2 trivial⟩⟩)).supplies fun clamped j _ clamped_ => ?_
      refine .bind (constantU32_supplies _) fun element k within₂ element_ =>
        .bind (builtinPointer_supplies _ _ (Given.none_iff.2 trivial) (Given.some_iff.2 element_))
        fun p l later known => ?_
      exact .bind (storeMasked_supplies known ((clamped_.mono within₂).mono later) _)
        fun _ _ _ _ => .pure fun _ _ => trivial
    · exact .pure fun _ _ => trivial
  split
  · next location is =>
    exact .bind (writeLocation_supplies (carried location is) value_ _)
      fun _ f within _ => levels f (value_.mono within)
  · exact levels e value_

theorem copyPatchOutputs_supplies (greatest : UInt32) :
    Supplies H env b (copyPatchOutputs greatest).run := by
  refine .state_bind fun s ready _ => ?_
  refine .bind (.forIn fun entry mem c within => ?_) fun _ c _ _ => .pure trivial
  exact .bind (copyPatchOutput_supplies _ _
    (InterfaceRegister.Carried.mono (ready.kept.patchOutputs entry mem) within))
    fun _ _ _ _ => .pure fun _ _ => trivial

end Lower

end ShaderLowering
