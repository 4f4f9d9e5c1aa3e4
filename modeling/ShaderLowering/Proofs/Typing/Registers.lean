import ShaderLowering.Lowering.Builtin
import ShaderLowering.Proofs.Typing.Values

/-!
What register access yields. A pointer leads to a place of its own type; an access chain gives one
wherever there is a path for its indices. The private register arrays and the built-ins get their
lengths here, once and for all: those that are arrayed over vertices from the vertex counts at
their first use.
-/

namespace ShaderLowering

open Spirv (Id Module StorageClass)

/-- A place that a pointer leads to. -/
structure Pointer.Leads (m : Module) (p : Pointer) : Prop where
  places : m.Places p.id p.storage (.vector p.type)
  some_ : 0 < p.type.count

namespace Shader

/-- The register array over a number of vertices. -/
def registers (vertices : Nat) : Shape :=
  (Shape.array 32 (.vector float4)).arrayOf vertices

theorem registers_isPlain (x : Shader) (vertices : Nat) : (registers vertices).IsPlain x := by
  have plain : (Shape.array 32 (.vector float4)).IsPlain x := ⟨Nat.le_refl 4, fun _ => .inl rfl⟩
  exact plain.arrayOf nofun

end Shader

namespace Lower

variable {x : Shader} {v : VertexCounts} {m : Module}

/-- A step into memory along a path. -/
theorem accessChain_yields {type : VectorType} {storage : StorageClass} {pointer : Id}
    (isPointer : m.IsPointer storage (.vector type) pointer) {base : Id} {shape : Shape}
    (places : m.Places base storage shape) {indices : List Id}
    (path : x.Path m shape indices type) :
    Yields x v m (emitValue .accessChain pointer (.id base :: indices.map .id)).run fun id n =>
      n.HasType id pointer := by
  refine Yields.imp (emitValue_yields nofun fun n id grows => ?_) fun id n _ value => value.1
  exact ⟨base, indices, storage, shape, type, pointer, rfl, rfl, isPointer.mono grows,
    places.mono grows, path.mono grows⟩

theorem chain_yields {type : VectorType} (some_ : 0 < type.count) {storage : StorageClass}
    {base : Id} {shape : Shape} (places : m.Places base storage shape) {indices : List Id}
    (path : x.Path m shape indices type) :
    Yields x v m (chain type storage base indices).run fun p n => p.Leads n := by
  refine .ite (fun empty => .pure fun n grows => ?_) fun _ => ?_
  · obtain rfl : indices = [] := List.isEmpty_iff.1 empty
    cases path
    exact ⟨places.mono grows, some_⟩
  · refine .bind (vectorType_yields type) fun pointee n grows is => ?_
    refine .bind (pointerType_yields is storage) fun pointer o later isPointer => ?_
    have places := (places.mono grows).mono later
    refine .bind (accessChain_yields isPointer places ((path.mono grows).mono later))
      fun id p latest typed => .pure fun q last => ⟨Module.Places.mono last ?_, some_⟩
    exact ⟨pointer, typed, isPointer.mono latest⟩

/-- A component of a place. -/
@[grind ←]
theorem component_safe {p : Pointer} (leads : p.Leads m) (several : p.type.count ≠ 1) (index : Id) :
    Safe x v m (chain (.single p.type.scalar) p.storage p.id [index]).run := by
  have := leads.some_
  exact (chain_yields Nat.one_pos leads.places (.component p.type index (by omega))).safe

/-- What is loaded is computed. -/
theorem load_yields (p : Pointer) :
    Yields x v m (load p).run fun value n => n.Computes value.id := by
  refine .after (vectorType_safe p.type) fun type n _ => ?_
  exact .bind (emitValue_free rfl type _) fun id o _ value => .pure fun _ grows =>
    value.2.mono grows

@[grind ←]
theorem storeMasked_safe {p : Pointer} (leads : p.Leads m) (value : Value) (mask : WriteMask) :
    Safe x v m (storeMasked p value mask).run := by
  refine .ite (.pure _) (.bind (bitcast_routine .anything _).safe fun value => ?_)
  refine .choose (extend_routine .anything _).safe (.pure _) fun value => ?_
  split
  · exact .bind (extract_routine .anything _).safe fun part =>
      (storeTo_routine .anything .anything).safe
  next several =>
    refine .ite ?_ (.ite (storeTo_routine .anything .anything).safe ?_)
    · refine .bind (constantU32_safe _) fun index => .bind (extract_routine .anything _).safe
        fun part => ?_
      exact .bind (component_safe leads several index) fun target =>
        (storeTo_routine .anything .anything).safe
    · refine .bind (load_routine .anything).safe fun current =>
        .bind (vectorType_safe _) fun type => ?_
      exact .bind (emitValue_safe rfl _ _) fun merged => (storeTo_routine .anything .anything).safe

@[grind ←]
theorem declareTemps_safe (count : Nat) : Safe x v m (declareTemps count).run := by
  refine .ite (.bind (.failWith _) fun _ => ?_) ?_ <;>
  · refine .state_bind fun s => .bind (.forIn (fun reg _ => ?_) _ _) fun _ => .pure _
    refine Yields.bind (vectorType_yields float4) fun type n _ is => ?_
    refine .bind (pointerType_yields is .priv) fun pointer o _ isPointer => ?_
    refine .bind (.newTemp isPointer) fun id p _ _ => ?_
    exact Safe.bind (listVariable_safe id .priv) fun _ => .bind (name_safe _ _) fun _ => .pure _

theorem temp_yields (reg : UInt32) :
    Yields x v m (temp reg).run fun id n => n.Places id .priv (.vector float4) := by
  refine .ite (fun _ => .failBind) fun _ => ?_
  refine .bind (declareTemps_safe _) fun _ n _ _ => .state_bind fun s hs _ => ?_
  refine .orFault fun id found o grows => (hs.tables.temps id ?_).mono grows
  exact Array.mem_toList_iff.2 (Array.mem_of_getElem? found)

theorem declareIndexableTemp_safe {reg length : UInt32}
    (declared : x.PlainLength (.ofNat (max length.toNat 1))) :
    Safe x v m (declareIndexableTemp reg length).run := by
  refine .ite (Yields.failBind) (.state_bind fun s => ?_)
  split
  · grind
  · refine Yields.bind (vectorType_yields float4) fun element n _ is => ?_
    refine .bind (arrayOf_yields is _) fun type o _ is => ?_
    have plain : (Shape.vector float4).IsPlain x := Shape.isPlain_vector x (Nat.le_refl 4)
    refine .bind (newVariable_yields is (fun _ => plain.arrayOf fun _ _ => declared) none)
      fun id p _ houses => ?_
    refine .bind (name_safe _ _) fun _ q grows _ => ?_
    refine .noteTables (fun _ => rfl) (fun _ => rfl) (fun _ => rfl) fun t tables later => ?_
    refine { tables with indexableTemps := tables.indexableTemps.insert ⟨?_, ?_⟩ }
    · have := length.toNat_lt_size
      simp only [UInt32.size] at this ⊢
      omega
    · have houses := houses.mono (grows.trans later)
      rwa [Shape.arrayOf, if_neg (by omega)] at houses

@[grind ←]
theorem declareGroupMemory_safe (reg stride : UInt32) (length : Nat) :
    Safe x v m (declareGroupMemory reg stride length).run := by
  refine .ite (Yields.failBind) (.state_bind fun s => ?_)
  split
  · grind
  · refine Yields.bind (vectorType_yields (.single .u32)) fun word n _ is => ?_
    refine .bind (arrayOf_yields is _) fun type o _ is => ?_
    have plain : (Shape.vector (.single .u32)).IsPlain x := Shape.isPlain_vector x (by decide)
    refine .bind (newVariable_yields is (fun _ => plain.arrayOf nofun) none)
      fun id p _ houses => ?_
    refine .bind (name_safe _ _) fun _ q grows _ => ?_
    refine .noteTables (fun _ => rfl) (fun _ => rfl) (fun _ => rfl) fun t tables later => ?_
    refine { tables with groupMemory := tables.groupMemory.insert ?_ }
    have houses := houses.mono (grows.trans later)
    rwa [Shape.arrayOf, if_neg (by omega)] at houses

theorem inputVertexCount_yields :
    Yields x v m inputVertexCount.run fun count _ => count = v.arrayed x.env.stage := by
  refine .read_bind ?_
  unfold VertexCounts.arrayed
  cases x.env.stage with
  | geometry | hull | domain =>
    refine .state_bind fun s hs _ => .pure fun _ _ => ?_
    rw [hs.inputs]
    rfl
  | vertex | pixel | compute | unknown => exact .pure fun _ _ => rfl

theorem registerArray_yields (text : String) (vertices : Nat) :
    Yields x v m (registerArray text vertices).run fun id n =>
      n.Houses id .priv (Shader.registers vertices) := by
  refine .bind (vectorType_yields float4) fun element n _ is => ?_
  refine .bind (arrayOf_yields is maxInterfaceRegisters) fun registers o _ is => ?_
  refine .bind (arrayOf_yields is vertices) fun type p _ is => ?_
  refine .bind (newVariable_yields is (fun _ => x.registers_isPlain vertices) none)
    fun id q _ houses => ?_
  exact .bind (name_safe _ _) fun _ r grows _ => .pure fun _ later =>
    (houses.mono grows).mono later

/-- The input array has the vertices that are known when it is made. -/
theorem inputArray_yields (sees : x.Sees v) :
    Yields x v m inputArray.run fun id n => ∃ w, x.Sees w ∧
      n.Houses id .priv (Shader.registers (w.arrayed x.env.stage)) := by
  refine .state_bind fun s hs _ => ?_
  split
  · next id found =>
    obtain ⟨w, seen, houses⟩ := hs.tables.inputArray id found
    exact .pure fun n grows => ⟨w, seen, houses.mono grows⟩
  · refine .bind inputVertexCount_yields fun vertices n _ is => ?_
    subst is
    refine .bind (registerArray_yields "v" _) fun id o _ houses => ?_
    refine .after (Yields.noteTables (fun _ => rfl) (fun _ => rfl) (fun _ => rfl) ?_)
      fun _ p later => .pure fun _ latest => ⟨v, sees, (houses.mono later).mono latest⟩
    refine fun t tables grows => { tables with inputArray := fun id is => ?_ }
    cases is
    exact ⟨v, sees, houses.mono grows⟩

theorem outputArray_yields :
    Yields x v m outputArray.run fun id n =>
      n.Houses id .priv (.array 32 (.vector float4)) := by
  refine .state_bind fun s hs _ => ?_
  split
  · next id found => exact .pure fun n grows => (hs.tables.outputArray id found).mono grows
  · refine .bind (registerArray_yields "o" 0) fun id o _ houses => ?_
    refine .after (Yields.noteTables (fun _ => rfl) (fun _ => rfl) (fun _ => rfl) ?_)
      fun _ p later => .pure fun _ latest => (houses.mono later).mono latest
    refine fun t tables grows => { tables with outputArray := fun id is => ?_ }
    cases is
    exact houses.mono grows

theorem patchArray_yields :
    Yields x v m patchArray.run fun id n =>
      n.Houses id .priv (.array 32 (.vector float4)) := by
  refine .state_bind fun s hs _ => ?_
  split
  · next id found => exact .pure fun n grows => (hs.tables.patchArray id found).mono grows
  · refine .bind (registerArray_yields "vpc" 0) fun id o _ houses => ?_
    refine .after (Yields.noteTables (fun _ => rfl) (fun _ => rfl) (fun _ => rfl) ?_)
      fun _ p later => .pure fun _ latest => (houses.mono later).mono latest
    refine fun t tables grows => { tables with patchArray := fun id is => ?_ }
    cases is
    exact houses.mono grows

/-- An input register, wherever there is a path to it in the input array. -/
theorem inputPointer_yields (sees : x.Sees v) {vertex? : Option Id} {reg : Id}
    (path : ∀ w, x.Sees w → x.Path m (Shader.registers (w.arrayed x.env.stage))
      (vertex?.toList ++ [reg]) float4) :
    Yields x v m (inputPointer vertex? reg).run fun p n => p.Leads n := by
  refine .bind (inputArray_yields sees) fun array n grows ⟨w, seen, houses⟩ => ?_
  exact chain_yields (by decide) houses.places ((path w seen).mono grows)

theorem outputPointer_yields {reg : Id}
    (path : x.Path m (.array 32 (.vector float4)) [reg] float4) :
    Yields x v m (outputPointer reg).run fun p n => p.Leads n :=
  .bind outputArray_yields fun _ _ grows houses =>
    chain_yields (by decide) houses.places (path.mono grows)

theorem patchPointer_yields {reg : Id} (path : x.Path m (.array 32 (.vector float4)) [reg] float4) :
    Yields x v m (patchPointer reg).run fun p n => p.Leads n :=
  .bind patchArray_yields fun _ _ grows houses =>
    chain_yields (by decide) houses.places (path.mono grows)

theorem builtinShape_count (a : Analysis) (builtin : Spirv.BuiltIn) (storage : StorageClass) :
    0 < (builtinShape a builtin storage).1.count := by
  cases builtin <;> exact Nat.succ_pos _

theorem builtinShape_count_le (a : Analysis) (builtin : Spirv.BuiltIn) (storage : StorageClass) :
    (builtinShape a builtin storage).1.count ≤ 4 := by
  cases builtin <;> exact of_decide_eq_true rfl

/-- There is one built-in that holds a truth value. -/
theorem builtinShape_number {a : Analysis} {builtin : Spirv.BuiltIn} {storage : StorageClass}
    (other : builtin ≠ .frontFacing) : (builtinShape a builtin storage).1.scalar ≠ .bool := by
  intro is
  cases builtin <;> first | exact other rfl | cases is

/-- Built-ins of four floats are no arrays. -/
theorem builtinShape_float4 {a : Analysis} {builtin : Spirv.BuiltIn} {storage : StorageClass}
    (is : (builtinShape a builtin storage).1 = float4) :
    (builtinShape a builtin storage).2 = 0 := by
  cases builtin <;> first | rfl | cases is

theorem builtinVertices_yields {builtin : Spirv.BuiltIn} {storage : StorageClass}
    (sees : isPerVertex x.env.stage builtin storage = true → x.Sees v) :
    Yields x v m (if isPerVertex x.env.stage builtin storage then inputVertexCount
      else pure 0).run fun vertices _ => x.BuiltinVertices builtin storage vertices := by
  unfold Shader.BuiltinVertices
  refine .ite (fun per => ?_) fun other => .pure fun _ _ => ?_
  · refine inputVertexCount_yields.imp fun vertices _ _ is => ?_
    rw [if_pos per]
    exact ⟨v, sees per, is⟩
  · rw [if_neg other]

theorem builtin_isPlain {type : VectorType} {length vertices : Nat} (short : type.count ≤ 4)
    (single : type = float4 → length = 0) {builtin : Spirv.BuiltIn} {storage : StorageClass}
    (arrayed : x.BuiltinVertices builtin storage vertices) :
    (((Shape.vector type).arrayOf length).arrayOf vertices).IsPlain x := by
  have element : ((Shape.vector type).arrayOf length).IsPlain x := by
    refine (Shape.isPlain_vector x short).arrayOf fun some_ is => ?_
    cases is
    exact absurd (single rfl) some_
  refine element.arrayOf fun some_ _ => ?_
  unfold Shader.BuiltinVertices at arrayed
  split at arrayed
  · obtain ⟨v, sees, rfl⟩ := arrayed
    exact .inr (.inr ⟨v, sees, .inl rfl⟩)
  · exact absurd arrayed some_

theorem builtinVariable_yields (builtin : Spirv.BuiltIn) (storage : StorageClass)
    (sees : isPerVertex x.env.stage builtin storage = true → x.Sees v) :
    Yields x v m (builtinVariable builtin storage).run
      fun b n => x.Builtin n builtin storage b := by
  refine .state_bind fun s hs _ => ?_
  split
  · next b found =>
    have mem : ((builtin, storage), b) ∈ s.builtins := by
      obtain ⟨before, after, same, _⟩ := List.lookup_eq_some_iff.1 found
      rw [same]
      exact List.mem_append_right _ List.mem_cons_self
    exact .pure fun n grows => (hs.tables.builtins _ mem).mono grows
  · refine .read_bind (.read_bind ?_)
    have single := @builtinShape_float4 x.env.analysis builtin storage
    have short := builtinShape_count_le x.env.analysis builtin storage
    generalize shape : builtinShape x.env.analysis builtin storage = found at single short
    obtain ⟨type, length⟩ := found
    refine .choose (builtinVertices_yields sees) fun vertices n₁ _ arrayed => ?_
    refine .bind (vectorType_yields type) fun element n₂ _ is => ?_
    refine .bind (arrayOf_yields is length) fun array n₃ _ is => ?_
    refine .bind (arrayOf_yields is vertices) fun pointee n₄ _ is => ?_
    refine .bind (newVariable_yields is (fun _ => builtin_isPlain short single arrayed) none)
      fun id n₅ _ houses => ?_
    refine .after (decorateBuiltin_safe id builtin) fun _ n₆ grows₆ => ?_
    refine .optional (decorate_safe rfl _ _) fun n₇ grows₇ => ?_
    refine .optional (decorate_safe rfl _ _) fun n₈ grows₈ => ?_
    have made : x.Builtin n₈ builtin storage ⟨id, type, length, vertices⟩ :=
      ⟨shape.symm, arrayed, ((houses.mono grows₆).mono grows₇).mono grows₈⟩
    suffices last : Yields x v n₈ (do
        name id builtin.name
        .note (fun s => { s with
            builtins := ((builtin, storage), ⟨id, type, length, vertices⟩) :: s.builtins })
          (fun _ => by constructor <;> rfl) fun _ => by constructor <;> rfl
        return ⟨id, type, length, vertices⟩ : Emission BuiltinVariable).run fun b n =>
          x.Builtin n builtin storage b by
      split
      · exact .after (requireCapability_safe _) fun _ _ grows => last.grow grows
      · exact .after (requireCapability_safe _) fun _ _ grows => last.grow grows
      · exact .after (requireCapability_safe _) fun _ _ grows => last.grow grows
      · exact last
    refine .after (name_safe _ _) fun _ n₉ grows₉ => ?_
    refine .after (Yields.noteTables (fun _ => rfl) (fun _ => rfl) (fun _ => rfl) ?_)
      fun _ o later => .pure fun _ latest => ((made.mono grows₉).mono later).mono latest
    refine fun t tables grows => { tables with builtins := fun e he => ?_ }
    rcases List.mem_cons.1 he with rfl | he
    · exact (made.mono grows₉).mono grows
    · exact tables.builtins e he

theorem path_arrayOf {element : Shape} {length : Nat} {index? : Option Id} {rest : List Id}
    {type : VectorType} (more : x.Path m element rest type)
    (entry : length ≠ 0 → ∃ id, index? = some id ∧ x.Entry m (.ofNat length) id) :
    x.Path m (element.arrayOf length) ((if 0 < length then index?.toList else []) ++ rest)
      type := by
  unfold Shape.arrayOf
  split
  · next empty =>
    rw [if_neg (by omega)]
    exact more
  · next some_ =>
    obtain ⟨id, rfl, inside⟩ := entry some_
    rw [if_pos (Nat.pos_of_ne_zero some_)]
    exact .element inside more

/-- The place of a built-in, given entries of the arrays that it is made of. -/
theorem builtinPointer_yields {builtin : Spirv.BuiltIn} {storage : StorageClass}
    {vertex? element? : Option Id}
    (sees : isPerVertex x.env.stage builtin storage = true → x.Sees v)
    (vertex : isPerVertex x.env.stage builtin storage = true → ∃ id, vertex? = some id ∧
      ∀ w, x.Sees w → x.Entry m (.ofNat (w.arrayed x.env.stage)) id)
    (element : (builtinShape x.env.analysis builtin storage).2 ≠ 0 → ∃ id, element? = some id ∧
      x.Entry m (.ofNat (builtinShape x.env.analysis builtin storage).2) id) :
    Yields x v m (builtinPointer builtin storage vertex? element?).run fun p n => p.Leads n := by
  refine .bind (builtinVariable_yields builtin storage sees) fun found n grows made => ?_
  have shape := made.shape
  have some_ := builtinShape_count x.env.analysis builtin storage
  rw [← shape] at element some_
  refine chain_yields some_ made.houses.places ?_
  have inner := path_arrayOf (.here found.type) fun length => by
    obtain ⟨id, is, entry⟩ := element length
    exact ⟨id, is, entry.mono grows⟩
  rw [List.append_nil] at inner
  refine path_arrayOf inner fun arrayed => ?_
  have vertices := made.vertices
  unfold Shader.BuiltinVertices at vertices
  split at vertices
  · next per =>
    obtain ⟨w, seen, same⟩ := vertices
    obtain ⟨id, is, entry⟩ := vertex per
    rw [same]
    exact ⟨id, is, (entry w seen).mono grows⟩
  · exact absurd vertices arrayed

/-- The built-ins that are neither arrays nor given for each vertex. -/
def isSingle : Spirv.BuiltIn → Bool
  | .position | .clipDistance | .cullDistance | .sampleMask | .tessLevelOuter | .tessLevelInner =>
    false
  | _ => true

theorem isSingle_not_perVertex {builtin : Spirv.BuiltIn} (single : isSingle builtin = true)
    {stage : ShaderStage} {storage : StorageClass} :
    isPerVertex stage builtin storage = false := by
  revert single
  cases builtin <;> simp [isSingle, isPerVertex]

theorem isSingle_plain {builtin : Spirv.BuiltIn} (single : isSingle builtin = true)
    {a : Analysis} {storage : StorageClass} : (builtinShape a builtin storage).2 = 0 := by
  revert single
  cases builtin <;> simp [isSingle, builtinShape]

theorem builtinPointer_single {builtin : Spirv.BuiltIn} (single : isSingle builtin = true)
    (storage : StorageClass) (vertex? element? : Option Id) :
    Yields x v m (builtinPointer builtin storage vertex? element?).run fun p n => p.Leads n := by
  have one : isPerVertex x.env.stage builtin storage = false := isSingle_not_perVertex single
  exact builtinPointer_yields (by simp [one]) (by simp [one]) (absurd (isSingle_plain single))

theorem loadBuiltin_safe {builtin : Spirv.BuiltIn} (single : isSingle builtin = true)
    (vertex? element? : Option Id) : Safe x v m (loadBuiltin builtin vertex? element?).run :=
  Yields.bind (builtinPointer_single single .input vertex? element?)
    fun _ _ _ _ => (load_routine .anything).safe

/-- The number of the invocation is a word that was computed. -/
theorem invocationId_yields : Yields x v m invocationId.run fun id n => n.Computes id := by
  refine .bind ?_ fun value n _ computed => .bind (bitcast_computed computed .u32)
    fun word o _ computed => .pure fun _ grows => computed.mono grows
  exact .bind (builtinPointer_single rfl .input none none) fun p n _ _ => load_yields p

end Lower

end ShaderLowering
