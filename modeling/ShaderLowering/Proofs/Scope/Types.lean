import ShaderLowering.Proofs.Scope.Marks

/-!
Types, constants and variables. What is declared among the globals may be referred to from every
place.
-/

namespace ShaderLowering

open Spirv (Id Instr Arg Op Module StorageClass Builder BuiltIn Decoration Capability)

/-- A step that gives a type or constant. -/
def Establishes (H : Limits) (env : Environment) (b : Builder)
    (run : Environment → State → Except CompileError Id × State) : Prop :=
  Does H env b run fun id c => c.Global H id

/-- A scalar type whose values are numbers: all words stand for different ones. -/
class ScalarType.IsNumeric (scalar : ScalarType) : Prop where
  ne_bool : scalar ≠ .bool

instance ScalarType.isNumeric_u32 : ScalarType.u32.IsNumeric := ⟨nofun⟩

instance ScalarType.isNumeric_i32 : ScalarType.i32.IsNumeric := ⟨nofun⟩

instance ScalarType.isNumeric_f32 : ScalarType.f32.IsNumeric := ⟨nofun⟩

instance ScalarType.isNumeric_ofData (data : DataType) : (ofData data).IsNumeric :=
  ⟨by cases data <;> nofun⟩

theorem ScalarType.IsNumeric.truth {scalar : ScalarType} [scalar.IsNumeric] {P : Prop}
    (truth : scalar = .bool) : P :=
  absurd truth ne_bool

variable {H : Limits} {env : Environment} {b : Builder} {s t u : State}

theorem Establishes.supplies {run : Environment → State → Except CompileError Id × State}
    (h : Establishes H env b run) : Supplies H env b run :=
  Does.imp h fun _ _ _ global => global.available

namespace Lower

@[grind ←]
theorem emit_supplies {op : Op} {args : List Arg} (plain : op.isPlain = true)
    (known : Known H b args) : Supplies H env b (emit op args).run :=
  Does.push (.plain plain) known.ids

@[grind ←]
theorem emitValue_supplies {op : Op} {type : Id} {args : List Arg} (plain : op.isPlain = true)
    (typed : b.Available H type) (known : Known H b args) :
    Supplies H env b (emitValue op type args).run :=
  emitValue_does (.plain plain) typed known.ids

variable {element type : Id}

/-- Requests whose keys hold no id but those of the declaration. -/
theorem declareType_establishes {key : Spirv.TypeKey}
    (known : ∀ id ∈ key.args.filterMap Arg.id?, b.Global H id)
    (proper : (Spirv.Key.type key).IsProper b.tables) :
    Establishes H env b (declareType key).run :=
  (Does.declare (.type key) known proper).imp fun _ _ _ made => made.1

theorem declareConstant_establishes {key : Spirv.ConstantKey}
    (known : ∀ id ∈ key.type :: key.args.filterMap Arg.id?, b.Global H id)
    (proper : (Spirv.Key.constant key).IsProper b.tables) :
    Establishes H env b (declareConstant key).run :=
  (Does.declare (.constant key) known proper).imp fun _ _ _ made => made.1

/-- A scalar type can be found in its table from then on. -/
theorem scalarType_does (scalar : ScalarType) : Does H env b (scalarType scalar).run
    fun id c => c.Global H id ∧ c.tables.lookup (.type (.scalar scalar)) = some id := by
  refine .declare (.type (.scalar scalar)) (fun id mem => ?_) trivial
  cases scalar <;> cases mem

theorem scalarType_establishes (scalar : ScalarType) :
    Establishes H env b (scalarType scalar).run :=
  (scalarType_does scalar).imp fun _ _ _ made => made.1

theorem vectorType_establishes (type : VectorType) :
    Establishes H env b (vectorType type).run := by
  refine .bind (scalarType_does type.scalar) fun scalar c _ ⟨global, known⟩ => ?_
  refine .ite (fun _ => .pure fun d within => global.mono within) fun _ => ?_
  exact declareType_establishes (List.forall_mem_singleton.2 global) known

/-- A constant whose truth values are zero or one. -/
theorem constant_does (scalar : ScalarType) (bits : UInt32) (truth : scalar = .bool → bits ≤ 1) :
    Does H env b (constant scalar bits).run fun id c => c.Global H id ∧
      ∃ type, c.tables.lookup (.type (.scalar scalar)) = some type ∧
        c.tables.lookup (.constant (.scalar scalar type bits)) = some id := by
  refine .bind (scalarType_does scalar) fun type c _ ⟨global, known⟩ => ?_
  have declared : Does H env c (declareConstant (.scalar scalar type bits)).run fun id d =>
      d.Global H id ∧ d.tables.lookup (.constant (.scalar scalar type bits)) = some id := by
    refine .declare (.constant (.scalar scalar type bits)) (fun id mem => ?_) ⟨known, truth⟩
    have same : id = type := by
      cases scalar <;> exact List.mem_singleton.1 mem
    exact same ▸ global
  exact declared.imp fun id d later made => ⟨made.1, type, later.tables _ _ known, made.2⟩

theorem constant_establishes (scalar : ScalarType) [scalar.IsNumeric] (bits : UInt32) :
    Establishes H env b (constant scalar bits).run :=
  (constant_does scalar bits ScalarType.IsNumeric.truth).imp fun _ _ _ made => made.1

theorem constantU32_establishes (n : Nat) : Establishes H env b (constantU32 n).run :=
  constant_establishes _ _

theorem arrayOf_establishes (global : b.Global H element) (length : Nat) :
    Establishes H env b (arrayOf element length).run := by
  refine .ite (fun _ => .pure fun c within => global.mono within) fun _ => ?_
  refine .bind (constant_does .u32 (.ofNat length) nofun) fun count c within ⟨constant, known⟩ => ?_
  exact declareType_establishes
    (List.forall_mem_cons.2 ⟨global.mono within, List.forall_mem_singleton.2 constant⟩) known

theorem pointerType_establishes (global : b.Global H element) (storage : StorageClass) :
    Establishes H env b (pointerType element storage).run :=
  declareType_establishes (List.forall_mem_singleton.2 global) trivial

theorem voidType_establishes : Establishes H env b voidType.run :=
  declareType_establishes nofun trivial

theorem ids_map_id (l : List Id) : (l.map Arg.id).filterMap Arg.id? = l := by
  induction l with
  | nil => rfl
  | cons a rest ih => rw [List.map_cons, List.filterMap_cons, ih]; rfl

theorem functionType_establishes {returns : Id} (global : b.Global H returns) {parameters : List Id}
    (known : ∀ id ∈ parameters, b.Global H id) :
    Establishes H env b (functionType returns parameters).run := by
  refine declareType_establishes (List.forall_mem_cons.2 ⟨global, ?_⟩) trivial
  rwa [ids_map_id]

theorem voidFunctionType_establishes : Establishes H env b voidFunctionType.run :=
  .bind voidType_establishes fun _ _ _ global => functionType_establishes global nofun

theorem structType_establishes {members : List Id} (known : ∀ id ∈ members, b.Global H id) :
    Establishes H env b (structType members).run :=
  declareType_establishes ((ids_map_id members).symm ▸ known) trivial

theorem imageType_establishes (image : ImageType) :
    Establishes H env b (imageType image).run :=
  .bind (scalarType_does image.sampled) fun _ _ _ ⟨global, known⟩ =>
    declareType_establishes (List.forall_mem_singleton.2 global) known

theorem samplerType_establishes : Establishes H env b samplerType.run :=
  declareType_establishes nofun trivial

theorem sampledImageType_establishes (global : b.Global H element) :
    Establishes H env b (sampledImageType element).run :=
  declareType_establishes (List.forall_mem_singleton.2 global) trivial

theorem constantComposite_establishes (global : b.Global H type) {parts : List Id}
    (known : ∀ id ∈ parts, b.Global H id) :
    Establishes H env b (constantComposite type parts).run := by
  refine declareConstant_establishes (List.forall_mem_cons.2 ⟨global, ?_⟩) trivial
  change ∀ id ∈ (parts.map Arg.id).filterMap Arg.id?, b.Global H id
  rwa [ids_map_id]

theorem constantVector_establishes (scalar : ScalarType) [scalar.IsNumeric] (bits : List UInt32) :
    Establishes H env b (constantVector scalar bits).run := by
  refine .bind (.mapM (fun global within => global.mono within) fun word _ c _ =>
    constant_establishes scalar word) fun parts c _ global => ?_
  split
  · next part => exact .pure fun d within => (global part List.mem_cons_self).mono within
  · exact .bind (vectorType_establishes _) fun type d within typed =>
      constantComposite_establishes typed fun id hid => (global id hid).mono within

theorem constantNull_establishes (global : b.Global H type) :
    Establishes H env b (constantNull type).run :=
  declareConstant_establishes (List.forall_mem_singleton.2 global) trivial

@[grind ←]
theorem scalarType_supplies (scalar : ScalarType) : Supplies H env b (scalarType scalar).run :=
  (scalarType_establishes scalar).supplies

@[grind ←]
theorem vectorType_supplies (type : VectorType) : Supplies H env b (vectorType type).run :=
  (vectorType_establishes type).supplies

@[grind ←]
theorem constant_supplies (scalar : ScalarType) [scalar.IsNumeric] (bits : UInt32) :
    Supplies H env b (constant scalar bits).run :=
  (constant_establishes scalar bits).supplies

@[grind ←]
theorem constant_zero_supplies (scalar : ScalarType) : Supplies H env b (constant scalar 0).run :=
  (constant_does scalar 0 fun _ => UInt32.zero_le).imp fun _ _ _ made => made.1.available

@[grind ←]
theorem constantU32_supplies (n : Nat) : Supplies H env b (constantU32 n).run :=
  (constantU32_establishes n).supplies

@[grind ←]
theorem constantVector_supplies (scalar : ScalarType) [scalar.IsNumeric] (bits : List UInt32) :
    Supplies H env b (constantVector scalar bits).run :=
  (constantVector_establishes scalar bits).supplies

@[grind ←]
theorem imageType_supplies (image : ImageType) : Supplies H env b (imageType image).run :=
  (imageType_establishes image).supplies

@[grind ←]
theorem samplerType_supplies : Supplies H env b samplerType.run :=
  samplerType_establishes.supplies

theorem layoutBlock_establishes (global : b.Global H element) :
    Establishes H env b (layoutBlock element).run := by
  refine .bind (Does.declareNew rfl rfl (List.forall_mem_singleton.2 global))
    fun block c _ made => ?_
  refine .bind (decorate_plain block rfl _).does fun _ d within _ => ?_
  refine .bind (decorateMember_plain block 0 .offset _).does fun _ e within' _ => ?_
  exact .pure fun f later => ((made.mono within).mono within').mono later

theorem mem_of_lookup {κ α : Type} [BEq κ] [LawfulBEq κ] {key : κ} {a : α} {list : List (κ × α)}
    (found : list.lookup key = some a) : (key, a) ∈ list := by
  obtain ⟨before, after, rfl, _⟩ := List.lookup_eq_some_iff.1 found
  exact List.mem_append_right _ List.mem_cons_self

theorem uniformBlock_establishes (length : Nat) :
    Establishes H env b (uniformBlock length).run := by
  refine .state_bind fun s ready _ => ?_
  split
  · next block found =>
    exact .pure fun c within => (ready.kept.uniformBlocks _ (mem_of_lookup found)).mono within
  · refine .bind (vectorType_establishes _) fun element c _ typed => ?_
    refine .bind (constantU32_establishes _) fun count d within constant => ?_
    refine .bind (Does.declareNew rfl rfl ?_) fun array e _ made => ?_
    · exact List.forall_mem_cons.2 ⟨typed.mono within, List.forall_mem_singleton.2 constant⟩
    refine .bind (decorate_plain array rfl _).does fun _ f within' _ => ?_
    refine .bind (layoutBlock_establishes (made.mono within')) fun block g _ global => ?_
    refine .bind (.note (fun _ => rfl) (fun _ => .refl _) (fun _ => rfl) (fun s within kept => ?_)
      (fun _ => rfl) fun _ => .of_eq rfl) fun _ h later _ => .pure fun _ last =>
      (global.mono later).mono last
    exact { kept with
      uniformBlocks := List.forall_mem_cons.2 ⟨global.mono within, kept.uniformBlocks⟩ }

theorem storageBlock_establishes : Establishes H env b storageBlock.run := by
  refine .state_bind fun s ready _ => ?_
  split
  · next block found =>
    exact .pure fun c within => (ready.kept.storageBlock _ found).mono within
  · refine .bind (scalarType_establishes _) fun word c _ typed => ?_
    refine .bind (declareType_establishes (List.forall_mem_singleton.2 typed) trivial)
      fun array d _ made => ?_
    refine .bind (decorate_plain array rfl _).does fun _ e within _ => ?_
    refine .bind (layoutBlock_establishes (made.mono within)) fun block f _ global => ?_
    refine .bind (.note (fun _ => rfl) (fun _ => .refl _) (fun _ => rfl) (fun s within kept => ?_)
      (fun _ => rfl) fun _ => .of_eq rfl) fun _ g later _ => .pure fun _ last =>
      (global.mono later).mono last
    exact { kept with
      storageBlock := fun id is => by cases is; exact global.mono within }

theorem counterBlock_establishes : Establishes H env b counterBlock.run := by
  refine .state_bind fun s ready _ => ?_
  split
  · next block found =>
    exact .pure fun c within => (ready.kept.counterBlock _ found).mono within
  · refine .bind (scalarType_establishes _) fun word c _ typed => ?_
    refine .bind (layoutBlock_establishes typed) fun block d _ global => ?_
    refine .bind (.note (fun _ => rfl) (fun _ => .refl _) (fun _ => rfl) (fun s within kept => ?_)
      (fun _ => rfl) fun _ => .of_eq rfl) fun _ e later _ => .pure fun _ last =>
      (global.mono later).mono last
    exact { kept with
      counterBlock := fun id is => by cases is; exact global.mono within }

@[grind ←]
theorem scalarType_quiet (scalar : ScalarType) : IsQuiet env (scalarType scalar).run := by
  exact .declare _

@[grind ←]
theorem vectorType_quiet (type : VectorType) : IsQuiet env (vectorType type).run := by
  unfold vectorType declareType
  grind

@[grind ←]
theorem constantU32_quiet (n : Nat) : IsQuiet env (constantU32 n).run :=
  .bind (scalarType_quiet _) fun _ => .declare _

@[grind ←]
theorem arrayOf_quiet (element : Id) (length : Nat) : IsQuiet env (arrayOf element length).run := by
  unfold arrayOf declareType
  grind

@[grind ←]
theorem imageType_quiet (image : ImageType) : IsQuiet env (imageType image).run :=
  .bind (scalarType_quiet _) fun _ => .declare _

@[grind ←]
theorem samplerType_quiet : IsQuiet env samplerType.run :=
  .declare _

@[grind ←]
theorem layoutBlock_quiet (member : Id) : IsQuiet env (layoutBlock member).run := by
  unfold layoutBlock declareNewType decorate decorateMember
  grind

@[grind ←]
theorem uniformBlock_quiet (length : Nat) : IsQuiet env (uniformBlock length).run := by
  refine .state_bind fun s => ?_
  split
  · exact .pure
  · refine .bind (vectorType_quiet _) fun _ => .bind (constantU32_quiet _) fun _ =>
      .bind (.declareNew _ _ _) fun _ => .bind (.annotate _) fun _ =>
      .bind (layoutBlock_quiet _) fun _ => .bind (.note (fun _ => rfl) fun _ => rfl) fun _ => .pure

@[grind ←]
theorem storageBlock_quiet : IsQuiet env storageBlock.run := by
  refine .state_bind fun s => ?_
  split
  · exact .pure
  · refine .bind (scalarType_quiet _) fun _ => .bind (.declare _) fun _ =>
      .bind (.annotate _) fun _ => .bind (layoutBlock_quiet _) fun _ =>
      .bind (.note (fun _ => rfl) fun _ => rfl) fun _ => .pure

@[grind ←]
theorem counterBlock_quiet : IsQuiet env counterBlock.run := by
  refine .state_bind fun s => ?_
  split
  · exact .pure
  · refine .bind (scalarType_quiet _) fun _ => .bind (layoutBlock_quiet _) fun _ =>
      .bind (.note (fun _ => rfl) fun _ => rfl) fun _ => .pure

/-- What declaring a variable comes to: its pointer type, then the variable itself. -/
theorem newVariable_creates {pointee id : Id} {storage : StorageClass} {initial? : Option Id}
    (ready : Ready H s) (global : s.builder.Global H pointee)
    (initial : ∀ a, initial? = some a → s.builder.Global H a)
    (ran : (newVariable pointee storage initial?).run env s = (.ok id, u)) :
    ∃ t, Acts H env s t ∧ Creates H t u id storage [] ∧
      u.accounts = { t.accounts with listed := (id, storage) :: t.globals } ∧
      t.accounts = s.accounts := by
  obtain ⟨pointer, t, typed, ran⟩ := Emission.run_bind_eq_ok.1 ran
  obtain ⟨acts, known⟩ := pointerType_establishes global storage s pointer t ready (.refl _) typed
  have unchanged : t.accounts = s.accounts := by
    cases typed
    rfl
  obtain ⟨made, v, created, ran⟩ := Emission.run_bind_eq_ok.1 ran
  cases created
  cases ran
  refine ⟨t, acts, ⟨⟨pointer, initial?, ?_, .refl _⟩, ?_, ?_, ?_, .of_eq rfl⟩, rfl, unchanged⟩
  · refine List.forall_mem_cons.2 ⟨known, fun a mem => (initial a ?_).mono acts.within⟩
    exact Option.mem_toList.1 mem
  · exact t.builder.fst_variable _ _ _
  · rw [List.append_nil]
    exact congrArg Array.toList (t.builder.annotations_variable pointer storage initial?)
  · exact fun b kept _ => { kept with }

/-- A variable that nothing is recorded of. -/
theorem newVariable_does {pointee : Id} {storage : StorageClass} {initial? : Option Id}
    (global : b.Global H pointee) (initial : ∀ a, initial? = some a → b.Global H a) :
    Does H env b (newVariable pointee storage initial?).run fun id c => c.Standing H id := by
  intro s id u ready outgrown ran
  obtain ⟨t, acts, creates, accounts, _⟩ := newVariable_creates ready (global.mono outgrown)
    (fun a is => (initial a is).mono outgrown) ran
  exact ⟨acts.tail (.create creates accounts), creates.standing (acts.ready ready)⟩

end Lower

end ShaderLowering
