import ShaderLowering.Lowering.Hull
import ShaderLowering.Proofs.Conduct.Steps

/-!
Types, constants, variables and single instructions. Types and constants never fail. The blocks with
a memory layout and the variables that stand for built-ins are decorated where they are made, and
nothing else is decorated. Naming is the only step that looks at whether names are stripped.
-/

namespace ShaderLowering.Lower

open Spirv
open ShaderLowering (Blind)

variable {α : Type} {ok : CompileError → Prop}

theorem name_run (id : Id) (text : String) (env : Environment) (s : State) :
    (name id text).run env s = (.ok (), if env.options.stripNames then s else
      { s with builder.module.names :=
          s.builder.module.names.push (.plain .name [.id id, .text text]) }) := by
  change (if env.options.stripNames then pure () else _ : Emission Unit).run env s = _
  split <;> rfl

/-- Where names are stripped, giving a name does nothing; where they are not, it only gives the
name. -/
theorem name_blind (id : Id) (text : String) : Blind (name id text).run where
  same env s := by
    have stripped : (name id text).run env.unnamed s.unnamed = (.ok (), s.unnamed) := rfl
    rw [stripped, name_run]
    refine Prod.ext rfl ?_
    dsimp only
    split <;> rfl
  apart env s h := by
    rw [name_run]
    dsimp only
    split
    · exact h
    · exact { h with names := forall_mem_push h.names rfl }

@[grind ←]
theorem name_neat (id : Id) (text : String) : Neat ok [] (name id text) where
  reports := .of_ok fun env s => ⟨(), congrArg Prod.fst (name_run id text env s)⟩
  blind := name_blind id text
  decorates env := by
    refine .of_change (g := fun s => if env.options.stripNames then s else { s with
      builder.module.names := s.builder.module.names.push (.plain .name [.id id, .text text]) })
      (fun s a t ran => ?_) (fun s => ?_) (fun s => ?_) (fun s => ?_) fun s => ?_
    · have ran := (name_run id text env s).symm.trans ran
      cases ran
      rfl
    all_goals split <;> rfl

theorem decorate_neat (id : Id) (decoration : Decoration) (args : List Arg) :
    Neat ok [decoration.on id] (decorate id decoration args) :=
  .annotate rfl rfl

@[grind ←]
theorem requireCapability_neat (c : Capability) : Neat ok [] (requireCapability c) :=
  .state_bind (fun _ => .ite (.pure ()) (.noteModule (fun _ => rfl) (fun _ h =>
    { h with capabilities := forall_mem_push h.capabilities rfl }) fun _ => rfl)) fun _ => rfl

@[grind ←]
theorem requireExtension_neat (text : String) : Neat ok [] (requireExtension text) :=
  .state_bind (fun _ => .ite (.pure ()) (.noteModule (fun _ => rfl) (fun _ h =>
    { h with extensions := forall_mem_push h.extensions rfl }) fun _ => rfl)) fun _ => rfl

@[grind ←]
theorem requireExtensionBefore_neat (major minor : UInt8) (text : String) :
    Neat ok [] (requireExtensionBefore major minor text) :=
  .read_bind (fun _ => .ite (.pure ()) (requireExtension_neat text)) fun _ => rfl

@[grind ←]
theorem declareType_neat {key : TypeKey} (other : key.op.isUnsized = false) :
    Neat ok [] (declareType key) :=
  .declare other

@[grind ←]
theorem declareConstant_neat (key : ConstantKey) : Neat ok [] (declareConstant key) := by
  refine .declare ?_
  change key.op.isUnsized = false
  unfold ConstantKey.op
  split
  · split <;> rfl
  · rfl
  · rfl
  · rfl

@[grind ←]
theorem voidType_neat : Neat ok [] voidType :=
  declareType_neat rfl

@[grind ←]
theorem scalarType_neat (scalar : ScalarType) : Neat ok [] (scalarType scalar) :=
  declareType_neat (by cases scalar <;> rfl)

@[grind ←]
theorem vectorType_neat (type : VectorType) : Neat ok [] (vectorType type) :=
  .bind (scalarType_neat _) fun _ => .ite (.pure _) (declareType_neat rfl)

@[grind ←]
theorem constant_neat (scalar : ScalarType) (bits : UInt32) : Neat ok [] (constant scalar bits) :=
  .bind (scalarType_neat _) fun _ => declareConstant_neat _

@[grind ←]
theorem constantU32_neat (n : Nat) : Neat ok [] (constantU32 n) :=
  constant_neat _ _

@[grind ←]
theorem arrayOf_neat (element : Id) (length : Nat) : Neat ok [] (arrayOf element length) :=
  .ite (.pure _) (.bind (constantU32_neat _) fun _ => declareType_neat rfl)

@[grind ←]
theorem pointerType_neat (pointee : Id) (storage : StorageClass) :
    Neat ok [] (pointerType pointee storage) :=
  declareType_neat rfl

@[grind ←]
theorem functionType_neat (returns : Id) (parameters : List Id) :
    Neat ok [] (functionType returns parameters) :=
  declareType_neat rfl

@[grind ←]
theorem voidFunctionType_neat : Neat ok [] voidFunctionType :=
  .bind voidType_neat fun _ => functionType_neat _ _

@[grind ←]
theorem structType_neat (members : List Id) : Neat ok [] (structType members) :=
  declareType_neat rfl

@[grind ←]
theorem imageType_neat (image : ImageType) : Neat ok [] (imageType image) :=
  .bind (scalarType_neat _) fun _ => declareType_neat rfl

@[grind ←]
theorem samplerType_neat : Neat ok [] samplerType :=
  declareType_neat rfl

@[grind ←]
theorem sampledImageType_neat (image : Id) : Neat ok [] (sampledImageType image) :=
  declareType_neat rfl

@[grind ←]
theorem constantComposite_neat (type : Id) (parts : List Id) :
    Neat ok [] (constantComposite type parts) :=
  declareConstant_neat _

@[grind ←]
theorem constantVector_neat (scalar : ScalarType) (bits : List UInt32) :
    Neat ok [] (constantVector scalar bits) := by
  refine .bind (.mapM (fun _ => constant_neat _ _) _) fun parts => ?_
  split
  · exact .pure _
  · exact .bind (vectorType_neat _) fun _ => constantComposite_neat _ _

@[grind ←]
theorem constantNull_neat (type : Id) : Neat ok [] (constantNull type) :=
  declareConstant_neat _

@[grind ←]
theorem listVariable_neat (id : Id) (storage : StorageClass) :
    Neat ok [] (listVariable id storage) :=
  .note (fun _ _ => rfl) fun _ => rfl

theorem newVariable_makes (pointee : Id) (storage : StorageClass) (initial? : Option Id) :
    Makes ok [] id (newVariable pointee storage initial?) := by
  refine .after (pointerType_neat _ _) fun pointer => ?_
  refine (Makes.newVariable pointer storage initial?).onward [] (by decide) (by decide)
    (fun id => ?_) fun id env s b t ran => ?_
  · exact .bind (listVariable_neat id storage) fun _ => .pure id
  · cases ran
    rfl

@[grind ←]
theorem newVariable_neat (pointee : Id) (storage : StorageClass) (initial? : Option Id) :
    Neat ok [] (newVariable pointee storage initial?) :=
  (newVariable_makes pointee storage initial?).neat

@[grind ←]
theorem interfaceVariables_neat : Neat ok [] interfaceVariables :=
  .read_bind (fun _ => .state_bind (fun _ => .pure _) fun _ => rfl) fun _ => rfl

theorem decorateBuiltin_neat (id : Id) (builtin : BuiltIn) :
    Neat ok [Decoration.builtIn.on id] (decorateBuiltin id builtin) :=
  decorate_neat id .builtIn _

theorem decorateBinding_neat (id : Id) (binding : Nat) :
    Neat ok ([Decoration.descriptorSet, .binding].map (·.on id)) (decorateBinding id binding) :=
  .bind_marks (decorate_neat id .descriptorSet _) fun _ => decorate_neat id .binding _

/-- A block is decorated where it is made. -/
theorem layoutBlock_stamps {env : Environment} {s t : State} {member block : Id}
    (ran : (layoutBlock member).run env s = (.ok block, t)) : s.Stamps [] t := by
  cases ran
  refine (stamps_declareNew s .typeStruct none [.id member]).hand
    ((stamps_annotate _ rfl ?_).trans (stamps_annotate _ rfl ?_) ?_) (Nat.le_refl _)
    (Nat.lt_succ_self _) (fun _ _ => Nat.le_refl _) ?_ ?_
  · exact Nat.lt_succ_self _
  · exact Nat.lt_succ_self _
  · exact List.forall_mem_singleton.2 (Nat.lt_succ_self _)
  · exact List.forall_mem_cons.2 ⟨⟨rfl, rfl⟩, List.forall_mem_singleton.2 ⟨rfl, rfl⟩⟩
  · exact List.nodup_cons.2 ⟨by simp, List.nodup_singleton _⟩

theorem layoutBlock_neat (member : Id) : Neat ok [] (layoutBlock member) where
  reports := .of_ok fun _ _ => ⟨_, rfl⟩
  blind.same _ _ := rfl
  blind.apart _ _ h := Builder.namesApart_annotate
    (Builder.namesApart_annotate (Builder.namesApart_declareNew h rfl none [.id member]) rfl) rfl
  decorates env s block t bare _ ran := by
    refine ⟨?_, layoutBlock_stamps ran⟩
    cases ran
    intro none_ i hi
    rcases mem_addGlobal.1 hi with old | rfl
    · exact bare none_ i old
    · exact nofun

theorem uniformBlock_neat (length : Nat) : Neat ok [] (uniformBlock length) := by
  refine .state_bind (fun s => ?_) fun _ => rfl
  split
  · exact .pure _
  · refine .bind (vectorType_neat _) fun element => .bind (constantU32_neat _) fun count => ?_
    refine Makes.bind (.declareNew rfl rfl _ _) [.arrayStride] (by decide) (by decide)
      fun array => ?_
    refine .bind_marks (decorate_neat array _ _) fun _ => ?_
    refine .bind (layoutBlock_neat array) fun block => ?_
    exact .bind (.note (fun _ _ => rfl) fun _ => rfl) fun _ => .pure block

/-- The array of dwords is declared once, since nothing else has such a type. -/
theorem storageBlock_neat : Neat ok [] storageBlock where
  toModest := by
    refine .state_bind (fun s => ?_) fun _ => rfl
    split
    · exact (Neat.pure _).toModest
    · refine .bind (scalarType_neat _).toModest fun word => ?_
      refine .bind ⟨.of_ok fun _ _ => ⟨_, rfl⟩, .declare _⟩ fun array => ?_
      refine .bind (decorate_neat array _ _).toModest fun _ => ?_
      refine .bind (layoutBlock_neat array).toModest fun block => ?_
      refine .bind ⟨.of_ok fun _ _ => ⟨(), rfl⟩, fun _ _ => rfl, fun _ _ h => h⟩ fun _ => ?_
      exact (Neat.pure block).toModest
  decorates env := by
    intro s block u bare older ran
    obtain ⟨_, _, found, ran⟩ := Emission.run_bind_eq_ok.1 ran
    cases found
    split at ran
    · cases ran
      exact ⟨bare, .refl s⟩
    · next none_ =>
      obtain ⟨word, t₁, typed, ran⟩ := Emission.run_bind_eq_ok.1 ran
      have scalar : Neat CompileError.IsAny [] (scalarType .u32) := scalarType_neat .u32
      obtain ⟨bare₁, stamps₁⟩ := scalar.decorates env s word t₁ bare older typed
      have none₁ : t₁.storageBlock? = none := by
        cases typed
        exact none_
      obtain ⟨array, t₂, declared, ran⟩ := Emission.run_bind_eq_ok.1 ran
      obtain ⟨tables, new⟩ := (t₁.builder.declare_eq (.type (.runtimeArray word))).resolve_left
        fun ⟨_, _, there, _⟩ => bare₁ none₁ _ there rfl
      have declared : (Except.ok (t₁.builder.declare (.type (.runtimeArray word))).1,
        { t₁ with builder := (t₁.builder.declare (.type (.runtimeArray word))).2 }) =
          (Except.ok array, t₂) := declared
      rw [new] at declared
      cases declared
      obtain ⟨_, t₃, decorated, ran⟩ := Emission.run_bind_eq_ok.1 ran
      cases decorated
      obtain ⟨block', t₄, laid, ran⟩ := Emission.run_bind_eq_ok.1 ran
      cases ran
      have below : t₁.builder.nextId < t₁.builder.nextId + 1 := Nat.lt_succ_self _
      have made : t₁.Stamps [] { t₁ with builder :=
          { (t₁.builder.declareNew .typeRuntimeArray none [.id word]).2 with tables } } :=
        .of_annotations (Nat.le_succ _) (fun _ hi => mem_addGlobal.2 (.inl hi)) rfl
      have stamps : t₁.Stamps [] t₄ :=
        made.hand ((stamps_annotate _ rfl below).trans (layoutBlock_stamps laid) nofun)
          (Nat.le_refl _) below (fun _ _ => Nat.le_refl _) (List.forall_mem_singleton.2 ⟨rfl, rfl⟩)
          (List.nodup_singleton _)
      have ⟨nextId, globals, tally⟩ := stamps₁.trans_nil stamps
      exact ⟨nofun, nextId, globals, tally⟩

theorem counterBlock_neat : Neat ok [] counterBlock := by
  refine .state_bind (fun s => ?_) fun _ => rfl
  split
  · exact .pure _
  · refine .bind (scalarType_neat _) fun word => .bind (layoutBlock_neat word) fun block => ?_
    exact .bind (.note (fun _ _ => rfl) fun _ => rfl) fun _ => .pure block

section Declared

variable [Reporting ok]

@[grind ←]
theorem declareTemps_neat (count : Nat) : Neat ok [] (declareTemps count) := by
  unfold declareTemps
  refine .optional (.failWith rfl) <| .state_bind (fun s => ?_) fun _ => rfl
  refine .bind (.forIn (fun n _ => ?_) _ _) fun _ => .pure _
  refine .bind (vectorType_neat _) fun type => .bind (pointerType_neat _ _) fun pointer => ?_
  refine .bind (.newTemp _) fun id => .bind (listVariable_neat _ _) fun _ => ?_
  exact .bind (name_neat _ _) fun _ => .pure _

@[grind ←]
theorem temp_neat (reg : UInt32) : Neat ok [] (temp reg) := by
  unfold temp
  exact .optional (.failWith rfl) <| .bind (declareTemps_neat _) fun _ =>
    .state_bind (fun _ => .orFault rfl) fun _ => rfl

@[grind ←]
theorem declareIndexableTemp_neat (reg length : UInt32) :
    Neat ok [] (declareIndexableTemp reg length) := by
  unfold declareIndexableTemp
  refine .optional (.failWith rfl) <| .state_bind (fun s => ?_) fun _ => rfl
  split
  · exact .ite (.failWith rfl) (.pure _)
  · refine .bind (vectorType_neat _) fun element => .bind (arrayOf_neat _ _) fun type => ?_
    refine .bind (newVariable_neat _ _ _) fun id => .bind (name_neat _ _) fun _ => ?_
    exact .note (fun _ _ => rfl) fun _ => rfl

@[grind ←]
theorem declareGroupMemory_neat (reg stride : UInt32) (length : Nat) :
    Neat ok [] (declareGroupMemory reg stride length) := by
  unfold declareGroupMemory
  refine .optional (.failWith rfl) <| .state_bind (fun s => ?_) fun _ => rfl
  split
  · exact .ite (.failWith rfl) (.pure _)
  · refine .bind (scalarType_neat _) fun element => .bind (arrayOf_neat _ _) fun type => ?_
    refine .bind (newVariable_neat _ _ _) fun id => .bind (name_neat _ _) fun _ => ?_
    exact .note (fun _ _ => rfl) fun _ => rfl

end Declared

@[grind ←]
theorem inputVertexCount_neat : Neat ok [] inputVertexCount := by
  refine .read_bind (fun env => ?_) fun _ => rfl
  split
  · exact .state_bind (fun _ => .pure _) fun _ => rfl
  · exact .state_bind (fun _ => .pure _) fun _ => rfl
  · exact .state_bind (fun _ => .pure _) fun _ => rfl
  · exact .pure _

@[grind ←]
theorem registerArray_neat (text : String) (vertices : Nat) :
    Neat ok [] (registerArray text vertices) := by
  refine .bind (vectorType_neat _) fun register => .bind (arrayOf_neat _ _) fun registers => ?_
  refine .bind (arrayOf_neat _ _) fun type => .bind (newVariable_neat _ _ _) fun id => ?_
  exact .bind (name_neat _ _) fun _ => .pure _

@[grind ←]
theorem inputArray_neat : Neat ok [] inputArray := by
  refine .state_bind (fun s => ?_) fun _ => rfl
  split
  · exact .pure _
  · exact .bind inputVertexCount_neat fun _ => .bind (registerArray_neat _ _) fun _ =>
      .bind (.note (fun _ _ => rfl) fun _ => rfl) fun _ => .pure _

@[grind ←]
theorem outputArray_neat : Neat ok [] outputArray := by
  refine .state_bind (fun s => ?_) fun _ => rfl
  split
  · exact .pure _
  · exact .bind (registerArray_neat _ _) fun _ =>
      .bind (.note (fun _ _ => rfl) fun _ => rfl) fun _ => .pure _

@[grind ←]
theorem patchArray_neat : Neat ok [] patchArray := by
  refine .state_bind (fun s => ?_) fun _ => rfl
  split
  · exact .pure _
  · exact .bind (registerArray_neat _ _) fun _ =>
      .bind (.note (fun _ _ => rfl) fun _ => rfl) fun _ => .pure _

/-- The variable of a built-in is decorated where it is made. -/
@[grind ←]
theorem builtinVariable_neat (builtin : BuiltIn) (storage : StorageClass) :
    Neat ok [] (builtinVariable builtin storage) := by
  refine .state_bind (fun s => ?_) fun _ => rfl
  split
  · exact .pure _
  refine .read_bind (fun env => .read_bind (fun env => ?_) fun _ => rfl) fun _ => rfl
  dsimp only
  refine .choose inputVertexCount_neat (.pure 0) fun vertices => ?_
  refine .bind (vectorType_neat _) fun value => .bind (arrayOf_neat _ _) fun values => ?_
  refine .bind (arrayOf_neat _ _) fun type => ?_
  refine (newVariable_makes _ _ _).bind [.builtIn, .flat, .patch] (by decide) (by decide)
    fun id => ?_
  refine .bind_marks (decorateBuiltin_neat id builtin) fun _ => ?_
  refine .optional_marks (decorate_neat id .flat _) ?_
  refine .optional_marks (decorate_neat id .patch _) ?_
  split
  case' h_1 | h_2 | h_3 => refine .bind (requireCapability_neat _) fun _ => ?_
  all_goals
    exact .bind (name_neat _ _) fun _ => .bind (.note (fun _ _ => rfl) fun _ => rfl) fun _ =>
      .pure _

section Computed

variable [Refusing ok]

@[grind ←]
theorem emit_neat {op : Op} (args : List Arg) (other : op.isName = false) :
    Neat ok [] (emit op args) :=
  .push none none args other

@[grind ←]
theorem emitValue_neat {op : Op} (type : Id) (args : List Arg)
    (other : op.isName = false) : Neat ok [] (emitValue op type args) :=
  .bind .fresh fun _ => .bind (.push _ _ args other) fun _ => .pure _

end Computed

end ShaderLowering.Lower
