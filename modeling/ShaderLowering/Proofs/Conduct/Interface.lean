import ShaderLowering.Lowering.EntryPoint
import ShaderLowering.Proofs.Conduct.Resources

/-!
The interface: declarations of registers and of what holds for the stage as a whole, and the copies
between the interface and the register arrays. The variable of a register is decorated where it is
declared, and nothing else is.
-/

namespace ShaderLowering.Lower

open Spirv (Id Decoration BuiltIn forall_mem_push)

variable {ok : CompileError → Prop} {inst : Instruction}

@[grind ←]
theorem signatureOf_neat (side : Side) : Neat ok [] (signatureOf side) := by
  unfold signatureOf
  grind -linarith

@[grind ←]
theorem registersOf_neat (side : Side) : Neat ok [] (registersOf side) := by
  unfold registersOf
  grind -linarith

@[grind ←]
theorem register_neat (side : Side) (reg : UInt32) : Neat ok [] (register side reg) := by
  unfold register
  grind -linarith

@[grind ←]
theorem setRegister_neat (side : Side) (reg : UInt32) (r : InterfaceRegister) :
    Neat ok [] (setRegister side reg r) := by
  cases side <;> exact .of_change (fun _ _ => rfl) (fun _ _ => rfl) fun _ => rfl

theorem decorateInterpolation_neat (id : Id) (component : ComponentType) (mode : Interpolation) :
    Neat ok ([Decoration.flat, .noPerspective, .centroid, .sample].map (·.on id))
      (decorateInterpolation id component mode) := by
  refine .ite ((decorate_neat id .flat _).mono (by simp)) ?_
  refine (?_ : Neat ok ([Decoration.noPerspective, .centroid, .sample].map (·.on id)) _).mono
    (List.sublist_cons_self _ _)
  refine .optional_marks (decorate_neat id .noPerspective _) ?_
  refine .optional_marks (decorate_neat id .centroid _) ?_
  refine .ite ?_ ((Neat.pure ()).mono (List.nil_sublist _))
  exact .bind_marks (decorate_neat id .sample _) fun _ => requireCapability_neat _

@[grind ←]
theorem newLocation_neat (side : Side) (reg : UInt32) (declared : Interpolation) :
    Neat ok [] (newLocation side reg declared) := by
  refine .read_bind (fun env => .bind (signatureOf_neat side) fun signature => ?_) fun _ => rfl
  dsimp only
  split <;>
    [refine .bind inputVertexCount_neat fun vertices => ?_;
      refine .bind inputVertexCount_neat fun vertices => ?_;
      refine .bind inputVertexCount_neat fun vertices => ?_;
      refine .state_bind (fun _ => .bind (.pure _) fun vertices => ?_) fun _ => rfl;
      refine .bind (.pure _) fun vertices => ?_]
  all_goals
    refine .bind (vectorType_neat _) fun _ => .bind (arrayOf_neat _ _) fun _ => ?_
    refine (newVariable_makes _ _ _).bind
      [.patch, .location, .flat, .noPerspective, .centroid, .sample] (by decide) (by decide)
      fun id => ?_
    refine .ite (.bind_marks (decorate_neat id .patch _) fun _ =>
      .bind_marks (decorate_neat id .location _) fun _ => ?_)
      (.mono (.bind_marks (decorate_neat id .location _) fun _ => ?_) (List.sublist_cons_self _ _))
    all_goals
      exact .optional_marks (decorateInterpolation_neat id _ _) <|
        .bind (name_neat _ _) fun _ => .pure _

@[grind ←]
theorem routedValues_neat (side : Side) (reg : UInt32) (mask : WriteMask)
    (value? : Option SystemValue) :
    Neat ok [] (routedValues side reg mask value?) := by
  unfold routedValues
  grind -linarith

@[grind ←]
theorem setDepthMode_neat (mode : Spirv.ExecutionMode) : Neat ok [] (setDepthMode mode) := by
  unfold setDepthMode
  grind -linarith

@[grind ←]
theorem requireLayerOutput_neat (builtin : BuiltIn) :
    Neat ok [] (requireLayerOutput builtin) := by
  unfold requireLayerOutput
  grind -linarith

@[grind ←]
theorem locationFor_neat (side : Side) (reg : UInt32) (mask : WriteMask) :
    Neat ok [] (locationFor side reg mask) := by
  unfold locationFor
  grind -linarith

@[grind ←]
theorem setHullState_neat (h : HullState) : Neat ok [] (setHullState h) :=
  .of_change (fun _ _ => rfl) (fun _ _ => rfl) fun _ => rfl

@[grind ←]
theorem updateHullState_neat (h : HullState) : Neat ok [] (updateHullState h) :=
  .of_change (fun _ _ => rfl) (fun _ _ => rfl) fun _ => rfl

theorem requireStage_neat : Neat ok [] requireStage := by
  refine .read_bind (fun env => ?_) fun _ => rfl
  split
  case h_4 => exact .pure ()
  all_goals exact requireCapability_neat _

theorem declareEntryPoint_neat (modes : List (Spirv.ExecutionMode × List UInt32)) :
    Neat ok [] (declareEntryPoint modes) := by
  refine .read_bind (fun env => .state_bind (fun s => ?_) fun _ => rfl) fun _ => rfl
  refine .bind interfaceVariables_neat fun interface => .noteModule (fun _ => rfl) (fun s h => ?_)
    fun _ => rfl
  refine { h with
    entryPoints := forall_mem_push h.entryPoints rfl
    executionModes := fun i mem => ?_ }
  dsimp only at mem
  rw [← Array.mem_toList_iff, Array.toList_appendList, List.mem_append] at mem
  rcases mem with mem | mem
  · exact h.executionModes i (Array.mem_toList_iff.1 mem)
  · obtain ⟨_, _, rfl⟩ := List.mem_map.1 mem
    rfl

section Declared

variable [Reporting ok]

@[grind ←]
theorem declareRegister_neat (side : Side) (reg : UInt32) (mask : WriteMask)
    (value? : Option SystemValue) (mode : Interpolation) :
    Neat ok [] (declareRegister side reg mask value? mode) := by
  unfold declareRegister
  grind -linarith

/-- The declaration of a register has to name one. -/
theorem lowerInputDeclaration_neat
    (named : inst.dst = [] → ok (.fault (.declarationWithoutRegister inst.name))) :
    Neat ok [] (lowerInputDeclaration inst) := by
  unfold lowerInputDeclaration
  cases given : inst.dst with
  | nil => exact .liftInterface (.failWith_of (named given))
  | cons op rest =>
    have input {reg? : Option UInt32} :
        Neat ok [] (orFault reg? (.declarationWithoutRegister "input declaration")) :=
      .orFault (by decide +kernel)
    have patch {reg? : Option UInt32} :
        Neat ok [] (orFault reg? (.declarationWithoutRegister "patch constant declaration")) :=
      .orFault (by decide +kernel)
    dsimp only [List.head?_cons]
    grind -linarith

theorem lowerOutputDeclaration_neat
    (named : inst.dst = [] → ok (.fault (.declarationWithoutRegister inst.name))) :
    Neat ok [] (lowerOutputDeclaration inst) := by
  unfold lowerOutputDeclaration
  cases given : inst.dst with
  | nil => exact .liftInterface (.failWith_of (named given))
  | cons op rest =>
    have output {reg? : Option UInt32} :
        Neat ok [] (orFault reg? (.declarationWithoutRegister "output declaration")) :=
      .orFault (by decide +kernel)
    dsimp only [List.head?_cons]
    grind -linarith

@[grind ←]
theorem hullState_neat : Neat ok [] hullState := by
  unfold hullState
  grind -linarith

@[grind ←]
theorem lowerHullDeclaration_neat (inst : Instruction) :
    Neat ok [] (lowerHullDeclaration inst) := by
  unfold lowerHullDeclaration declareInstanceCount
  grind -linarith

theorem lowerStageDeclaration_neat (inst : Instruction) (op : Opcode) :
    Neat ok [] (lowerStageDeclaration inst op) := by
  unfold lowerStageDeclaration lowerGeometryDeclaration requireFirstStream
  grind -linarith

theorem executionModes_neat : Neat ok [] executionModes := by
  refine .state_bind (fun s => ?_) fun _ => rfl
  split
  case h_4 =>
    exact .bind (.orFault rfl) fun primitive => .bind (.orFault rfl) fun topology => .pure _
  all_goals exact .pure _

theorem announceEntryPoint_neat : Neat ok [] announceEntryPoint :=
  .bind requireStage_neat fun _ => .bind executionModes_neat fun _ =>
    declareEntryPoint_neat _

end Declared

section Computed

variable [Refusing ok]

@[grind ←]
theorem writeInput_neat (vertex? : Option Nat) (reg : UInt32) (mask : WriteMask)
    (value : Value) : Neat ok [] (writeInput vertex? reg mask value) := by
  refine .bind (constant_neat _ _) fun id =>
    .bind (bitcast_routine .anything _).neat fun value => ?_
  split
  case' h_1 => refine .bind (.pure _) fun vertices => ?_
  case' h_2 => refine .bind inputVertexCount_neat fun _ => .bind (.pure _) fun vertices => ?_
  all_goals
    refine .bind (.forIn (fun vertex? _ => ?_) _ _) fun _ => .pure ()
    grind -linarith

@[grind ←]
theorem loadLocation_neat (location : LocationVariable) (vertex? : Option Nat) :
    Neat ok [] (loadLocation location vertex?) := by
  unfold loadLocation
  grind -linarith

@[grind ←]
theorem loadDrawParameter_neat (builtin : BuiltIn) :
    Neat ok [] (loadDrawParameter builtin) := by
  unfold loadDrawParameter
  grind -linarith

@[grind ←]
theorem copyBuiltin_neat (builtin : BuiltIn) (reg : UInt32) (mask : WriteMask) :
    Neat ok [] (copyBuiltin builtin reg mask) := by
  unfold copyBuiltin
  grind -linarith

@[grind ←]
theorem copyFragCoord_neat (reg : UInt32) (mask : WriteMask) :
    Neat ok [] (copyFragCoord reg mask) := by
  refine .bind (loadBuiltin_neat _ _ _) fun _ => .bind (scalarType_neat _) fun _ =>
    .bind (extract_routine .anything _).neat fun _ => .bind (constant_neat _ _) fun _ => ?_
  grind -linarith

@[grind ←]
theorem copyPosition_neat (reg : UInt32) (mask : WriteMask) :
    Neat ok [] (copyPosition reg mask) := by
  refine .bind inputVertexCount_neat fun _ => .bind (.forIn (fun _ _ => ?_) _ _) fun _ =>
    .pure ()
  grind -linarith

@[grind ←]
theorem copyInputValue_neat (reg : UInt32) (mask : WriteMask) (value : SystemValue) :
    Neat ok [] (copyInputValue reg mask value) := by
  have index (builtin : BuiltIn) : Neat ok [] (loadBuiltin builtin none none) :=
    loadBuiltin_neat _ _ _
  have write (value : Value) : Neat ok [] (writeInput none reg mask value) :=
    writeInput_neat _ _ _ _
  unfold copyInputValue
  split
  case h_2 =>
    refine .bind (index _) fun id => .read_bind (fun env => .ite ?_ (.pure_bind (write _)))
      fun _ => rfl
    refine .bind (loadDrawParameter_neat _) fun base => .bind (scalarType_neat _) fun int => ?_
    exact .bind (emitValue_neat _ _ rfl) fun difference => .pure_bind (write _)
  case h_3 =>
    refine .bind (index _) fun id => .bind (loadDrawParameter_neat _) fun base => ?_
    exact .bind (scalarType_neat _) fun int => .bind (emitValue_neat _ _ rfl) fun _ => write _
  all_goals grind -linarith

@[grind ←]
theorem copyInputDistances_neat (value : SystemValue) :
    Neat ok [] (copyInputDistances value) := by
  refine .read_bind (fun env => ?_) fun _ => rfl
  dsimp only
  refine .ite (.pure ()) <| .bind (.forIn (fun p _ => ?_) _ _) fun _ => .pure ()
  refine .state_bind (fun _ => .ite ?_ (.pure _)) fun _ => rfl
  refine .bind (constantU32_neat _) fun _ => .bind inputVertexCount_neat fun _ =>
    .bind (.forIn (fun _ _ => ?_) _ _) fun _ => .pure _
  grind -linarith

@[grind ←]
theorem copyPatchInput_neat (reg : UInt32) (r : InterfaceRegister) :
    Neat ok [] (copyPatchInput reg r) := by
  refine .bind (constant_neat _ _) fun regId => ?_
  dsimp only
  split
  case' h_1 =>
    refine .bind (loadLocation_neat _ _) fun _ =>
      .bind (selectMask_routine .anything _).neat fun _ =>
      .bind (patchPointer_neat _) fun _ => .bind (storeMasked_neat _ _ _) fun _ => ?_
  all_goals
    refine .bind (.forIn (fun p _ => ?_) _ _) fun _ => .pure ()
    grind -linarith

@[grind ←]
theorem copyInput_neat (reg : UInt32) (r : InterfaceRegister) :
    Neat ok [] (copyInput reg r) := by
  unfold copyInput
  dsimp only
  split
  case' h_1 =>
    refine .bind (.forIn (fun _ _ => .bind (loadLocation_neat _ _) fun _ =>
      .bind (selectMask_routine .anything _).neat fun _ => .bind (writeInput_neat _ _ _ _) fun _ =>
      .pure _) _ _) fun _ => ?_
  all_goals
    exact .bind (.forIn (fun _ _ => .ite (.pure _) <| .bind (copyInputValue_neat _ _ _) fun _ =>
      .pure _) _ _) fun _ => .pure ()

@[grind ←]
theorem copyInputs_neat : Neat ok [] copyInputs := by
  refine .state_bind (fun s => ?_) fun _ => rfl
  refine .bind (.forIn (fun _ _ => .bind (copyInput_neat _ _) fun _ => .pure _) _ _) fun _ => ?_
  refine .bind (copyInputDistances_neat _) fun _ => .bind (copyInputDistances_neat _) fun _ => ?_
  refine .state_bind (fun t => ?_) fun _ => rfl
  exact .bind (.forIn (fun _ _ => .bind (copyPatchInput_neat _ _) fun _ => .pure _) _ _)
    fun _ => .pure ()

@[grind ←]
theorem writeLayer_neat (builtin : BuiltIn) (value : Value) (mask : WriteMask) :
    Neat ok [] (writeLayer builtin value mask) := by
  unfold writeLayer
  grind -linarith

@[grind ←]
theorem writeLocation_neat (location : LocationVariable) (value : Value) (mask : WriteMask) :
    Neat ok [] (writeLocation location value mask) := by
  unfold writeLocation
  grind -linarith

@[grind ←]
theorem copyOutput_neat (reg : UInt32) (r : InterfaceRegister) :
    Neat ok [] (copyOutput reg r) := by
  refine .bind (constant_neat _ _) fun _ => .bind (outputPointer_neat _) fun _ =>
    .bind (load_routine .anything).neat fun _ => ?_
  dsimp only
  split
  case' h_1 =>
    refine .bind (bitcast_routine .anything _).neat fun _ =>
      .bind (writeLocation_neat _ _ _) fun _ => ?_
  all_goals
    refine .bind (.forIn (fun p _ => ?_) _ _) fun _ => .pure ()
    grind -linarith

@[grind ←]
theorem copyOutputDistances_neat (value : SystemValue) :
    Neat ok [] (copyOutputDistances value) := by
  refine .read_bind (fun env => ?_) fun _ => rfl
  dsimp only
  refine .ite (.pure ()) <| .bind (.forIn (fun p first => ?_) _ _) fun _ => .pure ()
  refine .bind (constant_neat _ _) fun _ => .bind (outputPointer_neat _) fun _ =>
    .bind (load_routine .anything).neat fun _ => .bind (.forIn (fun _ _ => ?_) _ _) fun _ => .pure _
  grind -linarith

@[grind ←]
theorem copyOutputs_neat : Neat ok [] copyOutputs := by
  unfold copyOutputs
  grind -linarith

@[grind ←]
theorem copyPatchOutput_neat (maxTessFactor reg : UInt32) (r : InterfaceRegister) :
    Neat ok [] (copyPatchOutput maxTessFactor reg r) := by
  refine .bind (constant_neat _ _) fun _ => .bind (patchPointer_neat _) fun _ =>
    .bind (load_routine .anything).neat fun _ => ?_
  dsimp only
  split
  case' h_1 => refine .bind (writeLocation_neat _ _ _) fun _ => ?_
  all_goals
    refine .bind (.forIn (fun p _ => ?_) _ _) fun _ => .pure ()
    split
    · refine .bind (extract_routine .anything _).neat fun _ => .bind (constant_neat _ _) fun _ => ?_
      grind -linarith
    · exact .pure _

@[grind ←]
theorem copyPatchOutputs_neat (maxTessFactor : UInt32) :
    Neat ok [] (copyPatchOutputs maxTessFactor) := by
  unfold copyPatchOutputs
  grind -linarith

@[grind ←]
theorem passControlPoints_neat : Neat ok [] passControlPoints := by
  refine .read_bind (fun env => ?_) fun _ => rfl
  refine .bind (.liftInterface invocationId_neat) fun id => ?_
  refine .bind (.forIn (fun reg _ => .ite ?_ (.pure _)) _ _) fun _ => .pure ()
  refine .bind (locationFor_neat _ _ _) fun input => .bind (locationFor_neat _ _ _) fun output => ?_
  grind -linarith

theorem lowerVertexOutput_neat (inst : Instruction) :
    Neat ok [] (lowerVertexOutput inst) := by
  have cut (cuts : Bool) : Neat ok [] (if cuts then emit .endPrimitive [] else pure ()) :=
    .ite (emit_neat _ rfl) (.pure ())
  have outputs (emits cuts : Bool) : Neat ok [] (do
      if emits then
        copyOutputs
        emit .emitVertex []
      if cuts then emit .endPrimitive []) :=
    .ite (.bind copyOutputs_neat fun _ => .bind (emit_neat _ rfl) fun _ => cut cuts) (cut cuts)
  refine .read_bind (fun _ => .optional (.failWith rfl) ?_) fun _ => rfl
  dsimp only
  split
  · exact .bind (.ite (.unsupported _) (.pure ())) fun _ => outputs _ _
  · exact outputs _ _

@[grind ←]
theorem waitForControlPoints_neat : Neat ok [] waitForControlPoints := by
  unfold waitForControlPoints
  grind -linarith

@[grind ←]
theorem isFirstInvocation_neat : Neat ok [] isFirstInvocation := by
  unfold isFirstInvocation
  grind -linarith

theorem runControlPoints_neat (h : HullState) : Neat ok [] (runControlPoints h) := by
  unfold runControlPoints
  grind -linarith

@[grind ←]
theorem clearGroupMemory_neat : Neat ok [] clearGroupMemory := by
  refine .state_bind (fun s => .ite (.pure ()) ?_) fun _ => rfl
  refine .bind (scalarType_neat _) fun word => .bind (.forIn (fun p _ => ?_) _ _) fun _ => ?_
  · grind -linarith
  · grind -linarith

theorem runBody_neat (body : Id) : Neat ok [] (runBody body) := by
  unfold runBody
  grind -linarith

theorem instanceLeft_neat (phase : PatchPhase) (word bool : Id) :
    Neat ok [] (instanceLeft phase word bool) := by
  unfold instanceLeft
  grind -linarith

theorem nextInstance_neat (phase : PatchPhase) (word : Id) :
    Neat ok [] (nextInstance phase word) := by
  unfold nextInstance
  grind -linarith

end Computed

end ShaderLowering.Lower
