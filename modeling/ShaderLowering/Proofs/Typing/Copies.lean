import ShaderLowering.Proofs.Typing.Interface

/-!
Copies between the interface and the private register arrays are safe. They go through the declared
registers and through the vertices, so their indices are below the lengths of what they step into.
-/

namespace ShaderLowering

open Spirv (Id Module StorageClass)

variable {x : Shader} {v : VertexCounts} {m n : Module}

namespace Shader

/-- One of the vertices that inputs are arrayed over, or none where they are not arrayed. -/
structure IsVertex (x : Shader) (vertex? : Option Nat) : Prop where
  none_ : vertex? = none → x.env.stage.hasVertices = false
  some_ : ∀ k, vertex? = some k → ∃ w, x.Sees w ∧ k < w.arrayed x.env.stage

/-- The constants for a vertex number that may be there. -/
def VertexId (m : Module) (vertex? : Option Nat) (id? : Option Id) : Prop :=
  match vertex?, id? with
  | none, none => True
  | some k, some id => m.IsConstant id (.ofNat k)
  | _, _ => False

theorem isVertex_of_mem (sees : x.Sees v) {vertex? : Option Nat}
    (mem : vertex? ∈ Lower.verticesOf (v.arrayed x.env.stage)) : x.IsVertex vertex? := by
  unfold Lower.verticesOf at mem
  split at mem
  · next none_ =>
    rw [List.mem_singleton.1 mem]
    exact ⟨fun _ => VertexCounts.arrayed_eq_zero.1 none_, nofun⟩
  · obtain ⟨k, inside, rfl⟩ := List.mem_map.1 mem
    refine ⟨nofun, fun k' same => ?_⟩
    cases same
    exact ⟨v, sees, List.mem_range.1 inside⟩

/-- A vertex indexes any array over vertices. -/
theorem VertexId.entry {vertex? : Option Nat} {id? : Option Id} (id : VertexId m vertex? id?)
    (vertex : x.IsVertex vertex?) (arrayed : x.env.stage.hasVertices = true) :
    ∃ k, id? = some k ∧ ∀ w, x.Sees w → x.Entry m (.ofNat (w.arrayed x.env.stage)) k := by
  cases vertex? with
  | none =>
    have := vertex.none_ rfl
    rw [arrayed] at this
    cases this
  | some k =>
    cases id? with
    | none => exact id.elim
    | some id' =>
      obtain ⟨u, counted, inside⟩ := vertex.some_ k rfl
      exact ⟨id', rfl, fun w seen => .vertex k u w id inside counted seen rfl⟩

end Shader

namespace Lower

theorem vertexId_yields (vertex? : Option Nat) :
    Yields x v m (vertex?.mapM constantU32).run fun id? n => Shader.VertexId n vertex? id? := by
  cases vertex? with
  | none => exact .pure fun _ _ => trivial
  | some k =>
    exact .bind (constantU32_yields k) fun id n _ constant => .pure fun _ grows =>
      constant.mono grows

theorem constantReg_yields (reg : UInt32) :
    Yields x v m (constant .u32 reg).run fun id n => n.IsConstant id reg :=
  constant_yields .u32 (by decide) reg

/-- A register below the bound indexes the registers. -/
theorem registerEntry {reg : UInt32} (bound : reg.toNat < maxInterfaceRegisters) {id : Id}
    (constant : m.IsConstant id reg) : x.Entry m 32 id := by
  refine .below reg constant ?_
  rw [UInt32.lt_iff_toNat_lt]
  exact bound

theorem register_path {reg : UInt32} (bound : reg.toNat < maxInterfaceRegisters) {id : Id}
    (constant : m.IsConstant id reg) : x.Path m (.array 32 (.vector float4)) [id] float4 :=
  .element (registerEntry bound constant) (.here _)

theorem vertex_path {vertex? : Option Nat} (vertex : x.IsVertex vertex?) {id? : Option Id}
    (id : Shader.VertexId m vertex? id?) {reg : Id} (entry : x.Entry m 32 reg) {w : VertexCounts}
    (seen : x.Sees w) :
    x.Path m (Shader.registers (w.arrayed x.env.stage)) (id?.toList ++ [reg]) float4 := by
  cases arrayed : x.env.stage.hasVertices with
  | false =>
    have none_ : vertex? = none := by
      cases vertex? with
      | none => rfl
      | some k =>
        obtain ⟨u, _, inside⟩ := vertex.some_ k rfl
        rw [VertexCounts.arrayed_eq_zero.2 arrayed] at inside
        cases inside
    subst none_
    cases id? with
    | none =>
      rw [VertexCounts.arrayed_eq_zero.2 arrayed]
      exact .element entry (.here _)
    | some _ => exact id.elim
  | true =>
    obtain ⟨k, rfl, first⟩ := id.entry vertex arrayed
    have some_ : w.arrayed x.env.stage ≠ 0 := fun none_ => by
      rw [VertexCounts.arrayed_eq_zero.1 none_] at arrayed
      cases arrayed
    rw [Shader.registers, Shape.arrayOf, if_neg some_]
    exact .element (first w seen) (.element entry (.here _))

/-- Writing to input registers, of one vertex or of all. -/
theorem writeInput_safe (sees : x.Sees v) {reg : UInt32} (bound : reg.toNat < maxInterfaceRegisters)
    {vertex? : Option Nat} (vertex : vertex? ≠ none → x.IsVertex vertex?) (mask : WriteMask)
    (value : Value) : Safe x v m (writeInput vertex? reg mask value).run := by
  refine Yields.bind (constantReg_yields reg) fun regId n₁ _ constant => ?_
  refine .after (bitcast_routine .anything .f32).safe fun value n₂ grows => ?_
  have constant := constant.mono grows
  extract_lets jp
  have each (vertices : List (Option Nat)) (all : ∀ u ∈ vertices, x.IsVertex u) (o : Module)
      (grows : n₂.Grows o) : Safe x v o (jp vertices).run := by
    refine .bind (.forIn_mem fun u mem _ => ?_) fun _ => .pure _
    refine Yields.bind (vertexId_yields u) fun id? n₃ later id => ?_
    refine .bind (inputPointer_yields sees fun w seen => ?_) fun p n₄ _ leads => ?_
    · have entry := registerEntry (x := x) bound ((constant.mono grows).mono later)
      exact vertex_path (all u mem) id entry seen
    · exact Safe.bind (storeMasked_safe leads value mask) fun _ => .pure _
  cases vertex? with
  | some k =>
    refine .pureBind (each [some k] (fun u mem => ?_) _ (.refl _))
    rw [List.mem_singleton.1 mem]
    exact vertex nofun
  | none =>
    refine .bind (inputVertexCount_yields) fun count n₃ grows is => .pureBind (each _ ?_ _ grows)
    subst is
    exact fun u mem => Shader.isVertex_of_mem sees mem

/-- The value of a location variable for one of its vertices. -/
theorem loadLocation_safe {side : Side} {l : LocationVariable} (known : x.Location m side l)
    (storage : side.storage = .input) {vertex? : Option Nat}
    (mem : vertex? ∈ verticesOf l.vertices) :
    Safe x v m (loadLocation l vertex?).run := by
  have places := known.houses.places
  rw [storage] at places
  have some_ : 0 < l.type.count := by
    rw [known.type]
    decide
  refine Yields.bind (vertexId_yields vertex?) fun id? n grows id => ?_
  refine .bind (chain_yields some_ (places.mono grows) ?_) fun p _ _ _ =>
    (load_routine .anything).safe
  obtain ⟨w, sees, vertices⟩ := known.vertices
  unfold verticesOf at mem
  unfold Shape.arrayOf
  split at mem
  · next none_ =>
    rw [if_pos none_]
    obtain rfl := List.mem_singleton.1 mem
    cases id? with
    | none => exact .here _
    | some _ => exact id.elim
  · next some_ =>
    rw [if_neg some_]
    obtain ⟨k, inside, rfl⟩ := List.mem_map.1 mem
    have inside := List.mem_range.1 inside
    cases id? with
    | none => exact id.elim
    | some id' =>
      refine .element ?_ (.here _)
      rw [vertices] at inside some_ ⊢
      cases side with
      | input =>
        have seen : x.Sees w := sees (by
          by_contra none_
          exact some_ (if_neg none_))
        exact .vertex k w w id inside seen seen rfl
      | patchInput => exact absurd rfl some_
      | output | patchOutput => cases storage

theorem loadBuiltin_position_safe (sees : x.Sees v) {k : Nat} {id : Id}
    (constant : m.IsConstant id (.ofNat k)) (inside : k < max (v.arrayed x.env.stage) 1) :
    Safe x v m (loadBuiltin .position (some id) none).run := by
  have arrayed (per : isPerVertex x.env.stage .position .input = true) :
      x.env.stage.hasVertices = true := by
    revert per
    cases x.env.stage <;> simp [isPerVertex, ShaderStage.hasVertices]
  refine Yields.bind (builtinPointer_yields (fun _ => sees) (fun per => ⟨id, rfl, fun w seen => ?_⟩)
    (absurd rfl)) fun p _ _ _ => (load_routine .anything).safe
  have some_ : v.arrayed x.env.stage ≠ 0 := fun none_ => by
    have := arrayed per
    rw [VertexCounts.arrayed_eq_zero.1 none_] at this
    cases this
  exact .vertex k v w constant (by omega) sees seen rfl

theorem copyPosition_safe (sees : x.Sees v) {reg : UInt32}
    (bound : reg.toNat < maxInterfaceRegisters) (mask : WriteMask) :
    Safe x v m (copyPosition reg mask).run := by
  refine Yields.bind inputVertexCount_yields fun count n₁ _ is => ?_
  subst is
  refine .bind (Safe.forIn_mem fun k mem _ => ?_) fun _ _ _ _ => .pure fun _ _ => trivial
  have inside := List.mem_range.1 mem
  refine Yields.bind (constantU32_yields k) fun id n₂ _ constant => ?_
  refine .after (loadBuiltin_position_safe sees constant inside) fun position n₃ _ => ?_
  refine .after (selectMask_routine .anything mask).safe fun value n₄ _ => ?_
  refine .bind inputVertexCount_yields fun count n₅ _ is => ?_
  subst is
  refine .after (writeInput_safe sees bound (fun some_ => ?_) mask value) fun _ _ _ =>
    .pure fun _ _ => trivial
  split
  · next arrayed =>
    refine ⟨nofun, fun k' same => ⟨v, sees, ?_⟩⟩
    cases same
    have : 0 < v.arrayed x.env.stage := by simpa using arrayed
    omega
  · next plain => simp_all

section

variable {reg : UInt32}

theorem loadDrawParameter_safe {builtin : Spirv.BuiltIn} (single : isSingle builtin = true) :
    Safe x v m (loadDrawParameter builtin).run :=
  .bind (requireCapability_safe _) fun _ => .bind (requireExtensionBefore_safe _ _ _) fun _ =>
    loadBuiltin_safe single none none

/-- Writing to an input register of all vertices. -/
theorem writeInputs_safe (sees : x.Sees v) (bound : reg.toNat < maxInterfaceRegisters)
    (mask : WriteMask) (value : Value) : Safe x v m (writeInput none reg mask value).run :=
  writeInput_safe sees bound (absurd rfl) mask value

theorem copyBuiltin_safe (sees : x.Sees v) (bound : reg.toNat < maxInterfaceRegisters)
    {builtin : Spirv.BuiltIn} (single : isSingle builtin = true) (mask : WriteMask) :
    Safe x v m (copyBuiltin builtin reg mask).run :=
  .bind (loadBuiltin_safe single none none) fun value => writeInputs_safe sees bound mask value

theorem copyFragCoord_safe (sees : x.Sees v) (bound : reg.toNat < maxInterfaceRegisters)
    (mask : WriteMask) : Safe x v m (copyFragCoord reg mask).run := by
  refine .bind (loadBuiltin_safe rfl none none) fun coord => .bind (scalarType_safe .f32)
    fun _ => ?_
  refine .bind (extract_routine .anything 3).safe fun w => .bind (constant_safe _ _) fun one => ?_
  have write (value : Value) : Safe x v m (writeInput none reg mask value).run :=
    writeInputs_safe sees bound mask value
  grind

theorem copyInputValue_safe (sees : x.Sees v) (bound : reg.toNat < maxInterfaceRegisters)
    (mask : WriteMask) (value : SystemValue) : Safe x v m (copyInputValue reg mask value).run := by
  have write (value : Value) : Safe x v m (writeInput none reg mask value).run :=
    writeInputs_safe sees bound mask value
  have copy {builtin : Spirv.BuiltIn} (single : isSingle builtin = true) :
      Safe x v m (copyBuiltin builtin reg mask).run := copyBuiltin_safe sees bound single mask
  unfold copyInputValue
  split
  · exact .read_bind (.ite (copyFragCoord_safe sees bound mask) (copyPosition_safe sees bound mask))
  · refine .bind (loadBuiltin_safe rfl none none) fun index => .read_bind ?_
    have base : Safe x v m (loadDrawParameter .baseVertex).run := loadDrawParameter_safe rfl
    grind
  · refine .bind (loadBuiltin_safe rfl none none) fun index => ?_
    refine .bind (loadDrawParameter_safe rfl) fun base => ?_
    grind
  · refine .bind (loadBuiltin_safe rfl none none) fun facing => ?_
    grind
  · exact copy rfl
  · refine .read_bind ?_
    have copied : Safe x v m (copyBuiltin .primitiveId reg mask).run := copy rfl
    grind
  · exact .bind (requireCapability_safe _) fun _ => copy rfl
  · exact .bind (requireCapability_safe _) fun _ => copy rfl
  · exact .pure _

end

theorem lt_of_mem_numbered {layout : List (UInt32 × WriteMask)} {count : Nat} {reg : UInt32}
    {component i : Nat} (mem : (reg, component, i) ∈ numbered layout count) : i < count := by
  obtain ⟨e, _, is⟩ := List.mem_filterMap.1 mem
  dsimp only at is
  split at is
  · next inside =>
    cases is
    exact inside
  · cases is

/-- The clip and cull distance counts of one side. -/
def distanceCounts (a : Analysis) (storage : StorageClass) : ClipCullCounts :=
  if storage = .input then a.inputs else a.outputs

theorem distance_shape {value : SystemValue} {storage : StorageClass} {builtin : Spirv.BuiltIn}
    {count : Nat} (is : distance value (distanceCounts x.env.analysis storage) = (builtin, count))
    (some_ : count ≠ 0) :
    (builtinShape x.env.analysis builtin storage).2 = count ∧ count ∈ x.distances := by
  unfold distance at is
  split at is <;> cases is
  · refine ⟨?_, ?_⟩
    · change max (distanceCounts x.env.analysis storage).clip 1 = _
      omega
    · unfold distanceCounts
      split <;> simp [Shader.distances]
  · refine ⟨?_, ?_⟩
    · change max (distanceCounts x.env.analysis storage).cull 1 = _
      omega
    · unfold distanceCounts
      split <;> simp [Shader.distances]

/-- The place of a clip or cull distance. -/
theorem distancePointer_yields {value : SystemValue} (storage : StorageClass)
    {builtin : Spirv.BuiltIn} {count : Nat}
    (is : distance value (distanceCounts x.env.analysis storage) = (builtin, count)) {i : Nat}
    (inside : i < count) {element : Id} (constant : m.IsConstant element (.ofNat i))
    {vertex? : Option Id}
    (sees : isPerVertex x.env.stage builtin storage = true → x.Sees v)
    (vertex : isPerVertex x.env.stage builtin storage = true → ∃ id, vertex? = some id ∧
      ∀ w, x.Sees w → x.Entry m (.ofNat (w.arrayed x.env.stage)) id) :
    Yields x v m (builtinPointer builtin storage vertex? (some element)).run
      fun p n => p.Leads n := by
  obtain ⟨shape, distances⟩ := distance_shape is (by omega)
  refine builtinPointer_yields sees vertex fun _ => ⟨element, rfl, ?_⟩
  rw [shape]
  exact .counted i count constant inside rfl distances

theorem hasVertices_of_perVertex {builtin : Spirv.BuiltIn} {storage : StorageClass}
    {stage : ShaderStage} (per : isPerVertex stage builtin storage = true) :
    stage.hasVertices = true := by
  revert per
  cases stage <;> simp [isPerVertex, ShaderStage.hasVertices]

theorem copyInputDistances_safe (sees : x.Sees v) (value : SystemValue) :
    Safe x v m (copyInputDistances value).run := by
  refine .read_bind ?_
  split
  · next builtin count is =>
    refine .ite (.pure _) (.bind (.forIn_mem fun e mem _ => ?_) fun _ => .pure _)
    obtain ⟨reg, component, i⟩ := e
    have inside := lt_of_mem_numbered mem
    refine Yields.state_bind fun s hs _ => .ite (fun declared => ?_) fun _ =>
      .pure fun _ _ => trivial
    obtain ⟨r, found⟩ := Option.isSome_iff_exists.1 declared
    have bound := (hs.tables.inputs.find? found).1
    refine .bind (constantU32_yields i) fun element n₁ _ constant => ?_
    refine .bind inputVertexCount_yields fun count' n₂ grows₂ same => ?_
    subst same
    refine .after (.forIn_mem fun u mem _ => ?_) fun _ _ _ => .pure fun _ _ => trivial
    have vertex := Shader.isVertex_of_mem sees mem
    refine Yields.bind (vertexId_yields u) fun id? n₃ grows₃ id => ?_
    have constant := (constant.mono grows₂).mono grows₃
    have load : Safe x v n₃ (loadBuiltin builtin id? (some element)).run :=
      Yields.bind (distancePointer_yields .input is inside constant (fun _ => sees) fun per =>
        id.entry vertex (hasVertices_of_perVertex per)) fun p _ _ _ => (load_routine .anything).safe
    exact Safe.bind load fun value =>
      .bind (writeInput_safe sees bound (fun _ => vertex) _ value) fun _ => .pure _

theorem isVertex_of_location {l : LocationVariable} (known : x.Location m .input l)
    {vertex? : Option Nat} (mem : vertex? ∈ verticesOf l.vertices) (some_ : vertex? ≠ none) :
    x.IsVertex vertex? := by
  obtain ⟨w, sees, vertices⟩ := known.vertices
  rw [vertices] at mem
  refine Shader.isVertex_of_mem (sees ?_) mem
  by_contra plain
  have none_ : Side.input.vertices x.env.stage w = 0 := if_neg plain
  rw [verticesOf, if_pos none_] at mem
  exact some_ (List.mem_singleton.1 mem)

theorem copyInput_safe (sees : x.Sees v) {reg : UInt32} (bound : reg.toNat < maxInterfaceRegisters)
    {r : InterfaceRegister} (known : x.Register m .input r) :
    Safe x v m (copyInput reg r).run := by
  unfold copyInput
  extract_lets jp
  have values (_ : Unit) : Safe x v m (jp ()).run := by
    refine .bind (.forIn (fun p _ => ?_) _ _) fun _ => .pure _
    exact .ite (.pure _) (.bind (copyInputValue_safe sees bound _ _) fun _ => .pure _)
  split
  · next l is =>
    have location := known.location l is
    refine .bind (.forIn_mem fun vertex? mem _ => ?_) values
    refine .bind (loadLocation_safe location rfl mem) fun value => ?_
    refine .bind (selectMask_routine .anything _).safe fun value => ?_
    exact .bind (writeInput_safe sees bound (isVertex_of_location location mem) _ value) fun _ =>
      .pure _
  · exact values ()

/-- A register of the patch-constant array. -/
theorem patchRegister_yields {reg : UInt32} (bound : reg.toNat < maxInterfaceRegisters) {id : Id}
    (constant : m.IsConstant id reg) :
    Yields x v m (patchPointer id).run fun p n => p.Leads n :=
  patchPointer_yields (register_path bound constant)

/-- The place of a tessellation factor. -/
theorem levelPointer_yields {level : TessLevel} {i : Nat} (inside : i < level.length) {element : Id}
    (constant : m.IsConstant element (.ofNat i)) (storage : StorageClass) :
    Yields x v m (builtinPointer (levelBuiltin level) storage none (some element)).run
      fun p n => p.Leads n := by
  have plain : isPerVertex x.env.stage (levelBuiltin level) storage = false := by
    cases level <;> simp [isPerVertex, levelBuiltin]
  have length : (builtinShape x.env.analysis (levelBuiltin level) storage).2 = level.length := by
    cases level <;> rfl
  refine builtinPointer_yields (by simp [plain]) (by simp [plain]) fun _ => ⟨element, rfl, ?_⟩
  refine .below _ constant ?_
  rw [length, UInt32.lt_iff_toNat_lt]
  cases level <;> simp only [TessLevel.length] at inside ⊢ <;> simp <;> omega

theorem copyPatchInput_safe {reg : UInt32} (bound : reg.toNat < maxInterfaceRegisters)
    {r : InterfaceRegister} (known : x.Register m .patchInput r) :
    Safe x v m (copyPatchInput reg r).run := by
  refine Yields.bind (constantReg_yields reg) fun regId n₁ grows₁ constant => ?_
  extract_lets jp
  have values (_ : Unit) : Safe x v n₁ (jp ()).run := by
    refine .bind (.forIn_mem fun e mem _ => ?_) fun _ => .pure _
    dsimp only
    split
    · next level i is =>
      have inside := known.values rfl e mem level i is
      refine Yields.bind (constantU32_yields i) fun element n₂ grows₂ index => ?_
      refine .after (Yields.bind (levelPointer_yields inside index .input) fun p _ _ _ =>
        (load_routine .anything).safe) fun value n₃ grows₃ => ?_
      have constant := (constant.mono grows₂).mono grows₃
      refine .bind (patchRegister_yields bound constant) fun p n₄ _ leads => ?_
      exact Safe.bind (storeMasked_safe leads value _) fun _ => .pure _
    · exact .pure _
  split
  · next l is =>
    have location := (known.location l is).mono grows₁
    have whole : none ∈ verticesOf l.vertices := by
      obtain ⟨w, _, vertices⟩ := location.vertices
      rw [vertices]
      exact List.mem_singleton_self _
    refine Safe.bind (loadLocation_safe location rfl whole) fun value => ?_
    refine .bind (selectMask_routine .anything _).safe fun value => ?_
    refine Yields.bind (patchRegister_yields bound constant) fun p n₂ grows₂ leads => ?_
    exact .after (storeMasked_safe leads value _) fun _ _ later =>
      (values ()).grow (grows₂.trans later)
  · exact values ()

/-- The registers of an interface one by one. -/
theorem Registers.of_mem {side : Side} {t : Table InterfaceRegister} (all : x.Registers m side t)
    {e : UInt32 × InterfaceRegister} (mem : e ∈ t.entries) :
    e.1.toNat < maxInterfaceRegisters ∧ x.Register m side e.2 :=
  all e mem

theorem copyInputs_safe (sees : x.Sees v) : Safe x v m copyInputs.run := by
  refine Yields.state_bind fun s hs _ => .after (.forIn_mem fun e mem _ => ?_) fun _ n₁ _ => ?_
  · obtain ⟨bound, known⟩ := Registers.of_mem hs.tables.inputs mem
    exact .bind (copyInput_safe sees bound known) fun _ => .pure _
  · refine .after (copyInputDistances_safe sees .clipDistance) fun _ n₂ _ => ?_
    refine .after (copyInputDistances_safe sees .cullDistance) fun _ n₃ _ => ?_
    refine .state_bind fun t ht _ => .after (.forIn_mem fun e mem _ => ?_) fun _ _ _ =>
      .pure fun _ _ => trivial
    obtain ⟨bound, known⟩ := Registers.of_mem ht.tables.patchInputs mem
    exact .bind (copyPatchInput_safe bound known) fun _ => .pure _

@[grind ←]
theorem requireLayerOutput_safe (builtin : Spirv.BuiltIn) :
    Safe x v m (requireLayerOutput builtin).run := by
  unfold requireLayerOutput
  grind

theorem writeLayer_safe {builtin : Spirv.BuiltIn} (single : isSingle builtin = true) (value : Value)
    (mask : WriteMask) : Safe x v m (writeLayer builtin value mask).run := by
  refine .bind (requireLayerOutput_safe builtin) fun _ => .bind (extract_routine .anything _).safe
    fun part => ?_
  exact Yields.bind (builtinPointer_single single .output none none) fun p _ _ leads =>
    storeMasked_safe leads part .x

/-- The location variables of outputs that are not arrayed. -/
theorem writeLocation_safe {side : Side} {l : LocationVariable} (known : x.Location m side l)
    (storage : side.storage = .output) (plain : side.isArrayed x.env.stage = false) (value : Value)
    (mask : WriteMask) : Safe x v m (writeLocation l value mask).run := by
  have places := known.houses.places
  have none_ : l.vertices = 0 := by
    obtain ⟨w, _, vertices⟩ := known.vertices
    rw [vertices]
    cases side with
    | output => exact if_neg (of_decide_eq_false plain)
    | patchOutput => rfl
    | input | patchInput => cases storage
  rw [storage, none_] at places
  have some_ : 0 < l.type.count := by
    rw [known.type]
    decide
  refine Yields.after (selectMask_routine .anything mask).safe fun picked n grows => ?_
  exact .bind (chain_yields some_ (places.mono grows) (.here _)) fun p _ _ leads =>
    storeMasked_safe leads picked mask

theorem outputRegister_yields {reg : UInt32} (bound : reg.toNat < maxInterfaceRegisters) {id : Id}
    (constant : m.IsConstant id reg) :
    Yields x v m (outputPointer id).run fun p n => p.Leads n :=
  outputPointer_yields (register_path bound constant)

theorem positionOutput_yields (vertex? element? : Option Id) :
    Yields x v m (builtinPointer .position .output vertex? element?).run fun p n => p.Leads n := by
  have one : isPerVertex x.env.stage .position .output = false := rfl
  exact builtinPointer_yields (by simp [one]) (by simp [one]) (absurd rfl)

theorem copyOutput_safe (notHull : x.env.stage ≠ .hull) {reg : UInt32}
    (bound : reg.toNat < maxInterfaceRegisters) {r : InterfaceRegister}
    (known : x.Register m .output r) : Safe x v m (copyOutput reg r).run := by
  refine Yields.bind (constantReg_yields reg) fun regId n₁ grows₁ constant => ?_
  refine .bind (outputRegister_yields bound constant) fun p n₂ grows₂ _ => ?_
  refine .after (load_routine .anything).safe fun value n₃ grows₃ => ?_
  have grows := (grows₁.trans grows₂).trans grows₃
  extract_lets jp
  have values (_ : Unit) : Safe x v n₃ (jp ()).run := by
    refine .bind (.forIn (fun e _ => ?_) _ _) fun _ => .pure _
    dsimp only
    split
    · refine .bind (selectMask_routine .anything _).safe fun picked => ?_
      refine Yields.bind (positionOutput_yields none none) fun p _ _ leads => ?_
      exact Safe.bind (storeMasked_safe leads picked _) fun _ => .pure _
    · exact .bind (writeLayer_safe rfl value _) fun _ => .pure _
    · exact .bind (writeLayer_safe rfl value _) fun _ => .pure _
    · exact .pure _
  split
  · next l is =>
    have location := (known.location l is).mono grows
    refine Yields.after (bitcast_routine .anything _).safe fun typed n₄ grows₄ => ?_
    have plain : Side.output.isArrayed x.env.stage = false := decide_eq_false notHull
    exact .after (writeLocation_safe (location.mono grows₄) rfl plain typed _) fun _ _ later =>
      (values ()).grow (grows₄.trans later)
  · exact values ()

theorem copyOutputDistances_safe {value : SystemValue} (clipCull : value.isClipCull = true) :
    Safe x v m (copyOutputDistances value).run := by
  refine .read_bind ?_
  split
  · next builtin count is =>
    refine .ite (.pure _) ?_
    extract_lets layout components first
    refine .bind (.forIn_mem fun e mem first => ?_) fun _ => .pure _
    obtain ⟨reg, mask⟩ := e
    refine Yields.bind (constantReg_yields reg) fun regId n₁ _ constant => ?_
    have entry : x.Entry n₁ 32 regId :=
      .distance value reg constant (List.mem_map_of_mem mem) clipCull rfl
    refine .bind (outputPointer_yields (.element entry (.here _))) fun p n₂ _ _ => ?_
    refine .after (load_routine .anything).safe fun loaded n₃ _ => ?_
    refine .after (.forIn_mem fun c mem _ => ?_) fun _ _ _ => .pure fun _ _ => trivial
    obtain ⟨reg', component, i⟩ := c
    have inside : i < count :=
      lt_of_mem_numbered (List.mem_of_mem_drop (List.mem_of_mem_take mem))
    refine .bind (extract_routine .anything component).safe fun part => ?_
    refine Yields.bind (constantU32_yields i) fun element n₄ _ index => ?_
    have plain : isPerVertex x.env.stage builtin .output = false := rfl
    refine .bind (distancePointer_yields .output is inside index (by simp [plain])
      (by simp [plain])) fun q _ _ leads => ?_
    exact Safe.bind (storeMasked_safe leads part .x) fun _ => .pure _

theorem copyOutputs_safe (notHull : x.env.stage ≠ .hull) : Safe x v m copyOutputs.run := by
  refine Yields.state_bind fun s hs _ => .after (.forIn_mem fun e mem _ => ?_) fun _ n₁ _ => ?_
  · obtain ⟨bound, known⟩ := Registers.of_mem hs.tables.outputs mem
    exact .bind (copyOutput_safe notHull bound known) fun _ => .pure _
  · exact Safe.bind (copyOutputDistances_safe rfl) fun _ => copyOutputDistances_safe rfl

theorem copyPatchOutput_safe (maxTessFactor : UInt32) {reg : UInt32}
    (bound : reg.toNat < maxInterfaceRegisters) {r : InterfaceRegister}
    (known : x.Register m .patchOutput r) :
    Safe x v m (copyPatchOutput maxTessFactor reg r).run := by
  refine Yields.bind (constantReg_yields reg) fun regId n₁ grows₁ constant => ?_
  refine .bind (patchRegister_yields bound constant) fun p n₂ grows₂ _ => ?_
  refine .after (load_routine .anything).safe fun value n₃ grows₃ => ?_
  have grows := (grows₁.trans grows₂).trans grows₃
  extract_lets jp
  have values (_ : Unit) : Safe x v n₃ (jp ()).run := by
    refine .bind (.forIn_mem fun e mem _ => ?_) fun _ => .pure _
    dsimp only
    split
    · next level i is =>
      have inside := known.values rfl e mem level i is
      refine .bind (extract_routine .anything _).safe fun factor =>
        .bind (constant_safe _ _) fun greatest => ?_
      refine .bind (extended_routine _ _ .anything).safe fun clamped => ?_
      refine Yields.bind (constantU32_yields i) fun element n₄ _ index => ?_
      refine .bind (levelPointer_yields inside index .output) fun q n₅ _ leads => ?_
      exact Safe.bind (storeMasked_safe leads clamped _) fun _ => .pure _
    · exact .pure _
  split
  · next l is =>
    have location := (known.location l is).mono grows
    exact Safe.bind (writeLocation_safe location rfl rfl value _) values
  · exact values ()

theorem copyPatchOutputs_safe (maxTessFactor : UInt32) :
    Safe x v m (copyPatchOutputs maxTessFactor).run := by
  refine Yields.state_bind fun s hs _ => .after (.forIn_mem fun e mem _ => ?_) fun _ _ _ =>
    .pure fun _ _ => trivial
  obtain ⟨bound, known⟩ := Registers.of_mem hs.tables.patchOutputs mem
  exact .bind (copyPatchOutput_safe maxTessFactor bound known) fun _ => .pure _

theorem locationFor_yields (side : Side) {reg : UInt32} (bound : reg.toNat < maxInterfaceRegisters)
    (mask : WriteMask) (sees : x.Sees v) :
    Yields x v m (locationFor side reg mask).run fun l n => x.Location n side l := by
  refine .bindInterface (register_yields side reg) fun r n₁ _ known => ?_
  split
  · next l is => exact .pureInterface fun _ grows => (known.location l is).mono grows
  · refine .bindInterface (newLocation_yields side reg .undefined fun _ => sees)
      fun l n₂ _ new => ?_
    refine .bindInterface (register_yields side reg) fun r n₃ grows known => ?_
    have declared : x.Register n₃ side { r with mask := r.mask ||| mask, location? := some l } := by
      refine ⟨fun l' is => ?_, known.values⟩
      cases is
      exact new.mono grows
    refine .afterInterface (setRegister_safe bound declared) fun _ n₄ later => ?_
    exact .pureInterface fun _ latest => ((new.mono grows).mono later).mono latest

/-- A control point of a hull shader's interface, by the number of the invocation. -/
theorem controlPoint_yields {side : Side} (arrayed : side = .input ∨ side = .output)
    (hull : x.env.stage = .hull) {l : LocationVariable} (known : x.Location m side l)
    {invocation : Id} (computed : m.Computes invocation) :
    Yields x v m (chain l.type side.storage l.id [invocation]).run fun p n => p.Leads n := by
  obtain ⟨w, sees, vertices⟩ := known.vertices
  have some_ : 0 < l.type.count := by
    rw [known.type]
    decide
  have several : l.vertices ≠ 0 := by
    rw [vertices]
    rcases arrayed with rfl | rfl
    · rw [Side.vertices, ne_eq, VertexCounts.arrayed_eq_zero, hull]
      decide
    · rw [Side.vertices, if_pos hull]
      exact (sees (decide_eq_true hull)).outputs hull
  have places := known.houses.places
  rw [Shape.arrayOf, if_neg several] at places
  exact chain_yields some_ places (.element (.computed computed) (.here _))

theorem passControlPoints_safe (hull : x.env.stage = .hull) (sees : x.Sees v) :
    Safe x v m passControlPoints.run := by
  refine .readInterface ?_
  refine .bindInterface invocationId_yields fun invocation n₁ _ computed => ?_
  refine .afterInterface (.forInInterface fun e _ _ => ?_) fun _ _ _ =>
    .pureInterface fun _ _ => trivial
  obtain ⟨reg, mask⟩ := e
  refine Yields.iteInterface (fun bound => ?_) fun _ => .pureInterface fun _ _ => trivial
  refine .bindInterface (locationFor_yields .input bound mask sees) fun input n₂ grows₂ hin => ?_
  refine .bindInterface (locationFor_yields .output bound mask sees) fun output n₃ grows₃ hout => ?_
  have computed := (computed.mono grows₂).mono grows₃
  refine .bindInterface (controlPoint_yields (.inl rfl) hull (hin.mono grows₃) computed)
    fun p n₄ grows₄ _ => ?_
  refine .afterInterface (load_routine .anything).safe fun value n₅ grows₅ => ?_
  have grows := grows₄.trans grows₅
  refine .bindInterface (controlPoint_yields (.inr rfl) hull (hout.mono grows)
    (computed.mono grows)) fun q n₆ _ leads => ?_
  exact .afterInterface (storeMasked_safe leads value .xyzw) fun _ _ _ =>
    .pureInterface fun _ _ => trivial

end Lower

end ShaderLowering
