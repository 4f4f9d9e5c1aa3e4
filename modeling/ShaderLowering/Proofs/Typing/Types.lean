import ShaderLowering.Proofs.Typing.Steps

/-!
What the steps yield that declare types, constants and variables. A type is asked for by its shape,
and the id that comes back stands for that shape from then on. Only the blocks of buffers are given
a layout.
-/

namespace ShaderLowering

open Spirv (Id Instr Arg Op Module StorageClass Decoration)

/-- Whether a decoration gives a memory layout to a type. -/
@[grind =]
def Spirv.Decoration.isLayout : Decoration → Bool
  | arrayStride | block | offset => true
  | _ => false

namespace Lower

variable {x : Shader} {v : VertexCounts} {m : Module} {shape element : Shape} {id e : Id}

theorem scalarType_yields (scalar : ScalarType) :
    Yields x v m (scalarType scalar).run fun id n => n.IsScalar scalar id := by
  cases scalar <;> exact .declare (.type (.scalar _))

theorem vectorType_yields (type : VectorType) :
    Yields x v m (vectorType type).run fun id n => n.Is (.vector type) id := by
  refine .bind (scalarType_yields type.scalar) fun scalar n _ is => ?_
  refine .ite (fun few => .pure fun o grows => ?_) fun many => ?_
  · change o.IsVector type scalar
    rw [Module.IsVector, if_pos few]
    exact is.mono grows
  · refine (Yields.declare _).imp fun id o grows declared => ?_
    change o.IsVector type id
    rw [Module.IsVector, if_neg many]
    exact ⟨scalar, is.mono grows, declared⟩

theorem constant_yields (scalar : ScalarType) (number : scalar ≠ .bool) (bits : UInt32) :
    Yields x v m (constant scalar bits).run fun id n => n.IsConstant id bits := by
  refine .bind (scalarType_yields scalar) fun type n _ _ => ?_
  cases scalar with
  | bool => exact absurd rfl number
  | u32 | i32 | f32 =>
    exact (Yields.declare _).imp fun id o _ declared => ⟨type, declared⟩

theorem constantU32_yields (k : Nat) :
    Yields x v m (constantU32 k).run fun id n => n.IsConstant id (.ofNat k) :=
  constant_yields .u32 (by decide) _

theorem arrayOf_yields (is : m.Is element e) (length : Nat) :
    Yields x v m (arrayOf e length).run fun id n => n.Is (element.arrayOf length) id := by
  refine .ite (fun empty => .pure fun n grows => ?_) fun some_ => ?_
  · rw [Shape.arrayOf, if_pos empty]
    exact is.mono grows
  · refine .bind (constantU32_yields length) fun count n grows constant => ?_
    refine (Yields.declare _).imp fun id o later declared => ?_
    rw [Shape.arrayOf, if_neg some_]
    exact ⟨e, count, (is.mono grows).mono later, constant.mono later, declared⟩

theorem pointerType_yields (is : m.Is shape e) (storage : StorageClass) :
    Yields x v m (pointerType e storage).run fun id n => n.IsPointer storage shape id :=
  (Yields.declare _).imp fun _ _ grows declared => ⟨e, is.mono grows, declared⟩

theorem imageType_yields (image : ImageType) :
    Yields x v m (imageType image).run fun id n => n.Is (.image image) id := by
  refine .bind (scalarType_yields image.sampled) fun scalar n _ is => ?_
  exact (Yields.declare _).imp fun id o grows declared => ⟨scalar, is.mono grows, declared⟩

@[grind ←]
theorem declareType_safe (key : Spirv.TypeKey) : Safe x v m (declareType key).run :=
  .declare _

@[grind ←]
theorem declareConstant_safe (key : Spirv.ConstantKey) : Safe x v m (declareConstant key).run :=
  .declare _

@[grind ←]
theorem scalarType_safe (scalar : ScalarType) : Safe x v m (scalarType scalar).run :=
  (scalarType_yields scalar).safe

@[grind ←]
theorem vectorType_safe (type : VectorType) : Safe x v m (vectorType type).run :=
  (vectorType_yields type).safe

@[grind ←]
theorem constant_safe (scalar : ScalarType) (bits : UInt32) :
    Safe x v m (constant scalar bits).run := by
  unfold constant
  grind

@[grind ←]
theorem constantU32_safe (k : Nat) : Safe x v m (constantU32 k).run :=
  constant_safe .u32 _


@[grind ←]
theorem arrayOf_safe (e : Id) (length : Nat) : Safe x v m (arrayOf e length).run := by
  unfold arrayOf
  grind

@[grind ←]
theorem pointerType_safe (pointee : Id) (storage : StorageClass) :
    Safe x v m (pointerType pointee storage).run :=
  .declare _

@[grind ←]
theorem voidType_safe : Safe x v m voidType.run :=
  .declare _

@[grind ←]
theorem functionType_safe (returns : Id) (parameters : List Id) :
    Safe x v m (functionType returns parameters).run :=
  .declare _

@[grind ←]
theorem voidFunctionType_safe : Safe x v m voidFunctionType.run := by
  unfold voidFunctionType
  grind

@[grind ←]
theorem structType_safe (members : List Id) : Safe x v m (structType members).run :=
  .declare _

@[grind ←]
theorem samplerType_safe : Safe x v m samplerType.run :=
  .declare _

@[grind ←]
theorem constantComposite_safe (type : Id) (parts : List Id) :
    Safe x v m (constantComposite type parts).run :=
  .declare _

@[grind ←]
theorem constantNull_safe (type : Id) : Safe x v m (constantNull type).run :=
  .declare _

@[grind ←]
theorem constantVector_safe (scalar : ScalarType) (bits : List UInt32) :
    Safe x v m (constantVector scalar bits).run := by
  refine .bind (.mapM (fun _ => constant_safe _ _) _) fun parts => ?_
  split
  · exact .pure _
  · exact .bind (vectorType_safe _) fun type => constantComposite_safe type parts

@[grind ←]
theorem name_safe (id : Id) (text : String) : Safe x v m (name id text).run := by
  refine .read_bind (.ite (.pure _) ?_)
  refine .note (fun _ => rfl) fun s hs _ => ?_
  have grows : s.builder.module.Grows { s.builder.module with
      names := s.builder.module.names.push (.plain .name [.id id, .text text]) } :=
    ⟨fun _ h => h, fun _ h => h, fun _ h => h⟩
  exact ⟨hs.remodel grows s.builder.tables rfl rfl rfl, grows, trivial⟩

@[grind ←]
theorem requireExtension_safe (text : String) : Safe x v m (requireExtension text).run := by
  refine .state_bind fun s => .ite (.pure _) ?_
  refine .note (fun _ => rfl) fun s hs _ => ?_
  have grows : s.builder.module.Grows { s.builder.module with
      extensions := s.builder.module.extensions.push (.plain .extension [.text text]) } :=
    ⟨fun _ h => h, fun _ h => h, fun _ h => h⟩
  have built := hs.remodel grows s.builder.tables rfl rfl rfl
  exact ⟨built.retable rfl rfl { built.tables with }, grows, trivial⟩

@[grind ←]
theorem requireExtensionBefore_safe (major minor : UInt8) (text : String) :
    Safe x v m (requireExtensionBefore major minor text).run := by
  unfold requireExtensionBefore
  grind

theorem requireCapability_yields (c : Spirv.Capability) :
    Yields x v m (requireCapability c).run fun _ n => n.HasCapability c := by
  refine .state_bind fun s hs outgrown => ?_
  refine .ite (fun there => .pure fun n grows => ?_) fun _ => ?_
  · exact (hs.tables.capabilities c (List.contains_iff_mem.1 there)).mono grows
  · refine .note (fun _ => rfl) fun t ht _ => ?_
    let n : Module := { t.builder.module with
      capabilities := t.builder.module.capabilities.push (.plain .capability [.word c.code]) }
    have mem (i : Instr) : i ∈ n.capabilities.toList ↔
        i ∈ t.builder.module.capabilities.toList ∨ i = .plain .capability [.word c.code] := by
      simp [n]
    have grows : t.builder.module.Grows n :=
      ⟨fun _ h => h, fun _ h => h, fun i hi => (mem i).2 (.inl hi)⟩
    have new : n.HasCapability c := (mem _).2 (.inr rfl)
    have built := ht.remodel grows t.builder.tables rfl rfl rfl
    refine ⟨built.retable rfl rfl { built.tables with capabilities := fun d hd => ?_ }, grows, new⟩
    rcases List.mem_cons.1 hd with rfl | hd
    · exact new
    · exact built.tables.capabilities d hd

@[grind ←]
theorem requireCapability_safe (c : Spirv.Capability) : Safe x v m (requireCapability c).run :=
  (requireCapability_yields c).safe

theorem laysOut?_decorate (decoration : Decoration) (args : List Arg) :
    (Instr.plain .decorate (.id id :: .word decoration.code :: args)).laysOut? =
      if decoration = .arrayStride ∨ decoration = .block then some id else none := by
  cases decoration <;> rfl

@[grind ←]
theorem decorate_safe {decoration : Decoration} (other : decoration.isLayout = false) (id : Id)
    (args : List Arg) : Safe x v m (decorate id decoration args).run := by
  refine .annotate fun n _ type is => ?_
  rw [laysOut?_decorate, if_neg (by rintro (rfl | rfl) <;> cases other)] at is
  cases is

@[grind ←]
theorem decorateBuiltin_safe (id : Id) (builtin : Spirv.BuiltIn) :
    Safe x v m (decorateBuiltin id builtin).run :=
  decorate_safe rfl id _

@[grind ←]
theorem decorateBinding_safe (id : Id) (binding : Nat) :
    Safe x v m (decorateBinding id binding).run := by
  unfold decorateBinding
  grind

/-- What gets a layout may have one. -/
theorem decorate_layout {decoration : Decoration} {args : List Arg} (laid : x.Laid m id) :
    Yields x v m (decorate id decoration args).run fun _ _ => True := by
  refine .annotate fun n grows type is => ?_
  rw [laysOut?_decorate] at is
  split at is
  · cases is
    exact laid.mono grows
  · cases is

theorem decorateMember_layout {member : UInt32} {decoration : Decoration} {args : List Arg}
    (laid : x.Laid m id) :
    Yields x v m (decorateMember id member decoration args).run fun _ _ => True := by
  refine .annotate fun n grows type is => ?_
  dsimp only [Instr.laysOut?, Instr.plain] at is
  split at is
  · cases is
    exact laid.mono grows
  · cases is

theorem layoutBlock_yields (is : m.Is shape e) :
    Yields x v m (layoutBlock e).run fun id n => n.Is (.block shape) id := by
  refine .bind (.declareNew rfl rfl none _) fun block n grows declared => ?_
  have block_ : n.Is (.block shape) block := ⟨e, is.mono grows, declared⟩
  refine .bind (decorate_layout (.struct _ declared)) fun _ o later _ => ?_
  refine .bind (decorateMember_layout (.struct _ (declared.mono later))) fun _ p latest _ => ?_
  exact .pure fun q last => ((block_.mono later).mono latest).mono last

theorem uniformBlock_yields {length : Nat} (declared : x.BufferLength (.ofNat (max length 1))) :
    Yields x v m (uniformBlock length).run fun id n =>
      n.Is (.block (.array (.ofNat (max length 1)) (.vector float4))) id := by
  refine .state_bind fun s hs _ => ?_
  split
  · next block found =>
    have mem : (length, block) ∈ s.uniformBlocks := by
      obtain ⟨before, after, same, _⟩ := List.lookup_eq_some_iff.1 found
      rw [same]
      exact List.mem_append_right _ List.mem_cons_self
    exact .pure fun n grows => (hs.tables.uniformBlocks _ mem).mono grows
  · refine .bind (vectorType_yields float4) fun element n grows is => ?_
    refine .bind (constantU32_yields (max length 1)) fun count n' grows' constant => ?_
    refine .bind (.declareNew rfl rfl none _) fun array o later declaredArray => ?_
    have array : o.Is (.array (.ofNat (max length 1)) (.vector float4)) array :=
      ⟨element, count, (is.mono grows').mono later, constant.mono later, declaredArray⟩
    refine .bind (decorate_layout (.buffer _ array declared)) fun _ p latest _ => ?_
    refine .bind (layoutBlock_yields (array.mono latest)) fun block q grows'' block => ?_
    refine .after (Yields.noteTables (fun _ => rfl) (fun _ => rfl) (fun _ => rfl) ?_)
      fun _ r last => .pure fun _ most => (block.mono last).mono most
    refine fun t tables outgrown => { tables with uniformBlocks := fun e he => ?_ }
    rcases List.mem_cons.1 he with rfl | he
    · exact block.mono outgrown
    · exact tables.uniformBlocks e he

theorem storageBlock_yields :
    Yields x v m storageBlock.run fun id n => n.Is Shader.dwords id := by
  refine .state_bind fun s hs _ => ?_
  split
  · next block found => exact .pure fun n grows => (hs.tables.storageBlock _ found).mono grows
  · refine .bind (scalarType_yields .u32) fun word n _ is => ?_
    refine .bind (.declare _) fun array o later declared => ?_
    have array : o.Is (.unsized (.vector (.single .u32))) array := ⟨word, is.mono later, declared⟩
    refine .bind (decorate_layout (.unsized _ declared)) fun _ p latest _ => ?_
    refine .bind (layoutBlock_yields (array.mono latest)) fun block q _ block => ?_
    refine .after (Yields.noteTables (fun _ => rfl) (fun _ => rfl) (fun _ => rfl) ?_)
      fun _ r last => .pure fun _ most => (block.mono last).mono most
    refine fun t tables outgrown => { tables with storageBlock := fun id is => ?_ }
    cases is
    exact block.mono outgrown

theorem counterBlock_yields :
    Yields x v m counterBlock.run fun id n => n.Is (.block (.vector (.single .u32))) id := by
  refine .state_bind fun s hs _ => ?_
  split
  · next block found => exact .pure fun n grows => (hs.tables.counterBlock _ found).mono grows
  · refine .bind (scalarType_yields .u32) fun word n _ is => ?_
    have word_ : n.Is (.vector (.single .u32)) word := is
    refine .bind (layoutBlock_yields word_) fun block q _ block => ?_
    refine .after (Yields.noteTables (fun _ => rfl) (fun _ => rfl) (fun _ => rfl) ?_)
      fun _ r last => .pure fun _ most => (block.mono last).mono most
    refine fun t tables outgrown => { tables with counterBlock := fun id is => ?_ }
    cases is
    exact block.mono outgrown

@[grind ←]
theorem listVariable_safe (id : Id) (storage : StorageClass) :
    Safe x v m (listVariable id storage).run :=
  Yields.noteTables (fun _ => rfl) (fun _ => rfl) (fun _ => rfl) fun _ tables _ => { tables with }

theorem newVariable_yields (is : m.Is shape e) {storage : StorageClass}
    (plain : storage.isPlain = true → shape.IsPlain x) (initial? : Option Id) :
    Yields x v m (newVariable e storage initial?).run fun id n => n.Houses id storage shape := by
  refine .bind (pointerType_yields is storage) fun pointer n _ isPointer => ?_
  refine .bind (.newVariable fun o id grows => ?_) fun id o later ⟨typed, variable_⟩ => ?_
  · exact ⟨storage, _, rfl, fun isPlain =>
      ⟨shape, pointer, rfl, isPointer.mono grows, plain isPlain⟩⟩
  · refine .bind (listVariable_safe id storage) fun _ p latest _ => .pure fun _ last => ?_
    have houses : o.Houses id storage shape := ⟨variable_, pointer, typed, isPointer.mono later⟩
    exact (houses.mono latest).mono last

/-- A variable that is no plain memory. -/
theorem newVariable_places (is : m.Is shape e) {storage : StorageClass}
    (other : storage.isPlain = false) (initial? : Option Id) :
    Yields x v m (newVariable e storage initial?).run fun id n => n.Houses id storage shape :=
  newVariable_yields is (fun plain => by rw [other] at plain; cases plain) initial?

/-- A variable that is no plain memory, of any type. -/
@[grind ←]
theorem newVariable_safe {storage : StorageClass} (other : storage.isPlain = false) (pointee : Id)
    (initial? : Option Id) : Safe x v m (newVariable pointee storage initial?).run := by
  refine .bind (pointerType_safe pointee storage) fun pointer => ?_
  refine .bind (Yields.safe (.newVariable fun n id _ => ?_)) fun id =>
    .bind (listVariable_safe id storage) fun _ => .pure _
  exact ⟨storage, _, rfl, fun plain => by rw [other] at plain; cases plain⟩

@[grind ←]
theorem interfaceVariables_safe : Safe x v m interfaceVariables.run := by
  unfold interfaceVariables
  grind

end Lower

end ShaderLowering
