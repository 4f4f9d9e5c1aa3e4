import ShaderLowering.Proofs.Typing.Construction
import ShaderLowering.Proofs.Typing.Shader

/-!
The invariant of lowering a shader. Each instruction that steps into memory or touches the texels
of an image is accounted for: an access chain goes from a place of known shape along a path, an
image is that of a declared view. What the tables of the state hold fits the module. All of this
stays true as the module grows.
-/

namespace ShaderLowering

open Spirv (Id Instr Arg Op Module StorageClass)

namespace Table

variable {α : Type} {p q : UInt32 → α → Prop} {t : Table α} {key : UInt32} {a : α}

/-- All entries of a table have a property. -/
def All (p : UInt32 → α → Prop) (t : Table α) : Prop :=
  ∀ e ∈ t.entries, p e.1 e.2

theorem all_empty : (Table.empty : Table α).All p :=
  fun _ h => absurd h List.not_mem_nil

theorem All.imp (h : t.All p) (weaker : ∀ key a, p key a → q key a) : t.All q :=
  fun e he => weaker e.1 e.2 (h e he)

theorem mem_of_findIn {l : List (UInt32 × α)} (h : findIn key l = some a) : (key, a) ∈ l := by
  induction l with
  | nil => cases h
  | cons e rest ih =>
    rw [findIn] at h
    split at h
    · next same =>
      cases h
      cases same
      exact List.mem_cons_self
    · exact List.mem_cons_of_mem _ (ih h)

theorem All.find? (h : t.All p) (found : t.find? key = some a) : p key a :=
  h (key, a) (mem_of_findIn found)

theorem mem_insertIn {l : List (UInt32 × α)} {e : UInt32 × α} (h : e ∈ insertIn key a l) :
    e = (key, a) ∨ e ∈ l := by
  induction l with
  | nil => exact .inl (List.mem_singleton.1 h)
  | cons first rest ih =>
    rw [insertIn] at h
    split at h
    · exact List.mem_cons.1 h
    · split at h
      · exact (List.mem_cons.1 h).imp_right (List.mem_cons_of_mem _)
      · rcases List.mem_cons.1 h with rfl | h
        · exact .inr List.mem_cons_self
        · exact (ih h).imp_right (List.mem_cons_of_mem _)

theorem All.insert (h : t.All p) (new : p key a) : (t.insert key a).All p := by
  intro e he
  rcases mem_insertIn he with rfl | he
  · exact new
  · exact h e he

end Table

/-- The phase that is open is one of those of the hull shader. -/
theorem StageState.exists_phases {stage : StageState} {p : PatchPhase}
    (found : stage.currentPhase? = some p) :
    ∃ h, stage.hull? = some h ∧ p ∈ h.fork ++ h.join := by
  unfold currentPhase? at found
  split at found
  · next h =>
    refine ⟨h, rfl, List.mem_append.2 ?_⟩
    split at found
    · exact .inl (List.mem_of_getElem? found)
    · exact .inr (List.mem_of_getElem? found)
    · cases found
  · cases found

/-- A type of short vectors without images or blocks, whose arrays of four floats have lengths that
the program asks for. -/
def Shape.IsPlain (x : Shader) : Shape → Prop
  | .vector type => type.count ≤ 4
  | .array n element => element.IsPlain x ∧ (element = .vector float4 → x.PlainLength n)
  | .unsized _ | .block _ | .image _ => False

theorem Shape.isPlain_vector (x : Shader) {type : VectorType} (short : type.count ≤ 4) :
    (Shape.vector type).IsPlain x :=
  short

theorem Shape.IsPlain.arrayOf {x : Shader} {element : Shape} (h : element.IsPlain x) {length : Nat}
    (asked : length ≠ 0 → element = .vector float4 → x.PlainLength (.ofNat length)) :
    (element.arrayOf length).IsPlain x := by
  unfold Shape.arrayOf
  split
  · exact h
  · next some_ => exact ⟨h, asked some_⟩

/-- Whether an interface is arrayed over vertices or control points. -/
def Side.isArrayed (side : Side) (stage : ShaderStage) : Bool :=
  match side with
  | .input => stage.hasVertices
  | .output => stage = .hull
  | .patchInput | .patchOutput => false

/-- How many vertices or control points an interface is arrayed over. -/
def Side.vertices (side : Side) (stage : ShaderStage) (v : VertexCounts) : Nat :=
  match side with
  | .input => v.arrayed stage
  | .output => if stage = .hull then v.outputs else 0
  | .patchInput | .patchOutput => 0

namespace Shader

variable {x : Shader} {v : VertexCounts} {m n : Module}

/-- How many clip and cull distances there are on each side. -/
def distances (x : Shader) : List Nat :=
  [x.env.analysis.inputs.clip, x.env.analysis.inputs.cull, x.env.analysis.outputs.clip,
    x.env.analysis.outputs.cull]

/-- What may index an array of `length` elements. -/
inductive Entry (x : Shader) (m : Module) (length : UInt32) (id : Id) : Prop
  | computed (h : m.Computes id)
  | below (k : UInt32) (h : m.IsConstant id k) (inside : k < length)
  /-- The number of a vertex, counted up to one number of vertices in an array over another. -/
  | vertex (k : Nat) (v w : VertexCounts) (h : m.IsConstant id (.ofNat k))
    (inside : k < v.arrayed x.env.stage) (counted : x.Sees v) (arrayed : x.Sees w)
    (is : length = .ofNat (w.arrayed x.env.stage))
  /-- An index of an operand as it stands in the program. -/
  | operand (op : Operand) (d : Nat) (k : UInt32) (v : VertexCounts) (h : m.IsConstant id k)
    (uses : x.Uses op) (sees : op.hasVertex = true → x.Sees v) (is : op.index? d = some k)
    (extent : length ∈ x.extents v op d)
  /-- A clip or cull distance by its number among all of its kind. -/
  | counted (k n : Nat) (h : m.IsConstant id (.ofNat k)) (inside : k < n) (is : length = .ofNat n)
    (distances : n ∈ x.distances)
  /-- A register that the signature gives clip or cull distances. -/
  | distance (value : SystemValue) (reg : UInt32) (h : m.IsConstant id reg)
    (mem : reg ∈ (x.env.outputs.layoutOf value).map (·.1)) (is : value.isClipCull = true)
    (length : length = 32)

/-- The indices lead from a place of one shape to one of another type. -/
inductive Path (x : Shader) (m : Module) : Shape → List Id → VectorType → Prop
  | here (type : VectorType) : Path x m (.vector type) [] type
  | component (type : VectorType) (index : Id) (several : 1 < type.count) :
    Path x m (.vector type) [index] (.single type.scalar)
  | element {length : UInt32} {element : Shape} {index : Id} {rest : List Id} {type : VectorType}
    (entry : x.Entry m length index) (more : Path x m element rest type) :
    Path x m (.array length element) (index :: rest) type
  | unsized {element : Shape} {index : Id} {rest : List Id} {type : VectorType}
    (more : Path x m element rest type) : Path x m (.unsized element) (index :: rest) type
  | member {member : Shape} {index : Id} {rest : List Id} {type : VectorType}
    (first : m.IsConstant index 0) (more : Path x m member rest type) :
    Path x m (.block member) (index :: rest) type
  /-- A register that has not the indices its stage asks for leads anywhere. -/
  | misfit (op : Operand) (uses : x.Uses op) (misfits : op.Fits x.env.stage = false) (shape : Shape)
    (index : Id) (rest : List Id) (type : VectorType) : Path x m shape (index :: rest) type

def Chain (x : Shader) (m : Module) (i : Instr) : Prop :=
  ∃ base indices storage shape type id, i.args = .id base :: indices.map .id ∧
    i.resultType? = some id ∧ m.IsPointer storage (.vector type) id ∧
    m.Places base storage shape ∧ x.Path m shape indices type

/-- The image of a writable view, as the analysis asks for it. -/
structure StorageImage (x : Shader) (m : Module) (slot : UInt32) (image : ImageType) : Prop where
  storage : image.isStorage = true
  atomic : (x.env.analysis.uav slot).atomic = true →
    image.format = .r32ui ∧ image.sampled = .u32 ∨ image.format = .r32i ∧ image.sampled = .i32
  writes : (x.env.analysis.uav slot).atomic = false →
    m.HasCapability .storageImageWriteWithoutFormat
  reads : (x.env.analysis.uav slot).atomic = false → (x.env.analysis.uav slot).typedLoad = true →
    m.HasCapability .storageImageReadWithoutFormat
  bound : slot.toNat < BindingClass.unorderedAccess.maxSlots

/-- An instruction of a given kind accesses a writable view with a given image. -/
def Views (x : Shader) (m : Module) (families : List Opcode.Family) (image : ImageType) : Prop :=
  ∃ inst ∈ x.insts, inst.family ∈ families ∧ ∃ op slot, inst.view? = some op ∧ op.type = .uav ∧
    op.index? 0 = some slot ∧ x.StorageImage m slot image

def Texel (x : Shader) (m : Module) (i : Instr) : Prop :=
  ∃ variable_ rest image, i.args = .id variable_ :: rest ∧
    m.Places variable_ .uniformConstant (.image image) ∧ x.Views m [.atomic] image

/-- A read or write of an image, which is either not storage or that of a writable view. -/
def ImageAccess (x : Shader) (m : Module) (families : List Opcode.Family) (i : Instr) : Prop :=
  ∃ loaded rest type image, i.args = .id loaded :: rest ∧ m.HasType loaded type ∧
    m.Is (.image image) type ∧ (image.isStorage = true → x.Views m families image)

def Variable (x : Shader) (m : Module) (i : Instr) : Prop :=
  ∃ (storage : StorageClass) (rest : List Arg), i.args = .word storage.code :: rest ∧
    (storage.isPlain = true → ∃ shape id, i.resultType? = some id ∧
      m.IsPointer storage shape id ∧ shape.IsPlain x)

/-- What may be laid out: the array of a constant buffer, arrays of no fixed length, structs. -/
inductive Laid (x : Shader) (m : Module) (type : Id) : Prop
  | buffer (n : UInt32) (is : m.Is (.array n (.vector float4)) type) (declared : x.BufferLength n)
  | unsized (args : List Arg) (is : m.Declares .typeRuntimeArray none args type)
  | struct (args : List Arg) (is : m.Declares .typeStruct none args type)

/-- What is known of a definition by its opcode. -/
def Accounts (x : Shader) (m : Module) (i : Instr) : Prop :=
  match i.op with
  | .ordinary .accessChain => x.Chain m i
  | .ordinary .imageTexelPointer => x.Texel m i
  | .ordinary .imageRead => x.ImageAccess m [.textureFetch, .typedUavLoad] i
  | .ordinary .imageWrite => x.ImageAccess m [.typedUavStore] i
  | .ordinary .var => x.Variable m i
  | _ => True

structure Explains (x : Shader) (m : Module) : Prop where
  definitions : ∀ i ∈ m.definitions, x.Accounts m i
  annotations : ∀ a ∈ m.annotations.toList, ∀ type, a.laysOut? = some type → x.Laid m type

/-- The variable of an interface register. -/
structure Location (x : Shader) (m : Module) (side : Side) (l : LocationVariable) : Prop where
  type : l.type.count = 4
  number : l.type.scalar ≠ .bool
  vertices : ∃ v, (side.isArrayed x.env.stage = true → x.Sees v) ∧
    l.vertices = side.vertices x.env.stage v
  houses : m.Houses l.id side.storage ((Shape.vector l.type).arrayOf l.vertices)

structure Register (x : Shader) (m : Module) (side : Side) (r : InterfaceRegister) : Prop where
  location : ∀ l, r.location? = some l → x.Location m side l
  values : side.isPatch = true → ∀ p ∈ r.systemValues, p.2.IsProper

/-- The declared registers of an interface. -/
def Registers (x : Shader) (m : Module) (side : Side) (t : Table InterfaceRegister) : Prop :=
  t.All fun reg r => reg.toNat < maxInterfaceRegisters ∧ x.Register m side r

/-- How many vertices a built-in has a value for. -/
def BuiltinVertices (x : Shader) (builtin : Spirv.BuiltIn) (storage : StorageClass)
    (vertices : Nat) : Prop :=
  if Lower.isPerVertex x.env.stage builtin storage then
    ∃ v, x.Sees v ∧ vertices = v.arrayed x.env.stage
  else vertices = 0

structure Builtin (x : Shader) (m : Module) (builtin : Spirv.BuiltIn) (storage : StorageClass)
    (b : BuiltinVariable) : Prop where
  shape : (b.type, b.length) = Lower.builtinShape x.env.analysis builtin storage
  vertices : x.BuiltinVertices builtin storage b.vertices
  houses : m.Houses b.id storage (((Shape.vector b.type).arrayOf b.length).arrayOf b.vertices)

/-- The dwords of a raw or structured buffer. -/
def dwords : Shape :=
  .block (.unsized (.vector (.single .u32)))

/-- The variable of a view, with its image if it is typed. -/
def View (m : Module) (r : Resource) : Prop :=
  match r.image? with
  | some image => m.Houses r.variable_ .uniformConstant (.image image)
  | none => m.Houses r.variable_ .storageBuffer dwords

structure WritableView (x : Shader) (m : Module) (slot : UInt32) (r : Resource) : Prop where
  view : View m r
  image : ∀ image, r.image? = some image → x.StorageImage m slot image
  counter : ∀ c, r.counter? = some c →
    m.Houses c .storageBuffer (.block (.vector (.single .u32)))

structure Tables (x : Shader) (m : Module) (s : State) : Prop where
  temps : ∀ id ∈ s.temps.toList, m.Places id .priv (.vector float4)
  ownTemps : s.temps.toList.Nodup
  housedTemps : ∀ id ∈ s.temps.toList, m.DefinesVariable id
  indexableTemps : s.indexableTemps.All fun _ t =>
    t.length < UInt32.size ∧
      m.Houses t.variable_ .priv (.array (.ofNat t.length) (.vector float4))
  groupMemory : s.groupMemory.All fun _ g =>
    m.Houses g.variable_ .workgroup (.array (.ofNat g.length) (.vector (.single .u32)))
  immediates : ∀ id, s.immediateConstants? = some id → ∃ n,
    m.Houses id .priv (.array n (.vector (.four .u32))) ∧
      ∃ inst ∈ x.insts, inst.immediates? = some n
  inputArray : ∀ id, s.inputArray? = some id → ∃ v, x.Sees v ∧
    m.Houses id .priv ((Shape.array 32 (.vector float4)).arrayOf (v.arrayed x.env.stage))
  outputArray : ∀ id, s.outputArray? = some id → m.Houses id .priv (.array 32 (.vector float4))
  patchArray : ∀ id, s.patchArray? = some id → m.Houses id .priv (.array 32 (.vector float4))
  inputs : x.Registers m .input s.inputs
  outputs : x.Registers m .output s.outputs
  patchInputs : x.Registers m .patchInput s.patchInputs
  patchOutputs : x.Registers m .patchOutput s.patchOutputs
  builtins : ∀ e ∈ s.builtins, x.Builtin m e.1.1 e.1.2 e.2
  constantBuffers : s.constantBuffers.All fun slot b =>
    m.Houses b.variable_ .uniform (.block (.array (.ofNat b.size) (.vector float4))) ∧
      ∃ inst ∈ x.insts, inst.declaredBuffer? = some (slot, b.size)
  textures : s.textures.All fun _ r =>
    View m r ∧ ∀ image, r.image? = some image → image.isStorage = false
  uavs : s.uavs.All (x.WritableView m)
  uniformBlocks : ∀ e ∈ s.uniformBlocks,
    m.Is (.block (.array (.ofNat (max e.1 1)) (.vector float4))) e.2
  storageBlock : ∀ id, s.storageBlock? = some id → m.Is dwords id
  counterBlock : ∀ id, s.counterBlock? = some id → m.Is (.block (.vector (.single .u32))) id
  phases : ∀ h, s.stage.hull? = some h → ∀ p ∈ h.fork ++ h.join,
    m.Houses p.instanceId .priv (.vector (.single .u32))
  capabilities : ∀ c ∈ s.capabilities, m.HasCapability c

section Monotone

variable (grows : m.Grows n)
include grows

theorem Entry.mono {length : UInt32} {id : Id} (h : x.Entry m length id) :
    x.Entry n length id := by
  cases h with
  | computed h => exact .computed (h.mono grows)
  | below k h inside => exact .below k (h.mono grows) inside
  | vertex k v w h inside counted arrayed is =>
    exact .vertex k v w (h.mono grows) inside counted arrayed is
  | operand op d k v h uses sees is extent =>
    exact .operand op d k v (h.mono grows) uses sees is extent
  | counted k n h inside is distances => exact .counted k n (h.mono grows) inside is distances
  | distance value reg h mem is length => exact .distance value reg (h.mono grows) mem is length

theorem Path.mono {shape : Shape} {indices : List Id} {type : VectorType}
    (h : x.Path m shape indices type) : x.Path n shape indices type := by
  induction h with
  | here type => exact .here type
  | component type index several => exact .component type index several
  | element entry _ ih => exact .element (entry.mono grows) ih
  | unsized _ ih => exact .unsized ih
  | member first _ ih => exact .member (first.mono grows) ih
  | misfit op uses misfits shape index rest type =>
    exact .misfit op uses misfits shape index rest type

theorem Chain.mono {i : Instr} (h : x.Chain m i) : x.Chain n i := by
  obtain ⟨base, indices, storage, shape, type, id, args, typed, pointer, places, path⟩ := h
  exact ⟨base, indices, storage, shape, type, id, args, typed, pointer.mono grows,
    places.mono grows, path.mono grows⟩

theorem StorageImage.mono {slot : UInt32} {image : ImageType} (h : x.StorageImage m slot image) :
    x.StorageImage n slot image :=
  ⟨h.storage, h.atomic, fun other => (h.writes other).mono grows,
    fun other load => (h.reads other load).mono grows, h.bound⟩

theorem Views.mono {families : List Opcode.Family} {image : ImageType}
    (h : x.Views m families image) : x.Views n families image := by
  obtain ⟨inst, mem, family, op, slot, view, uav, index, storage⟩ := h
  exact ⟨inst, mem, family, op, slot, view, uav, index, storage.mono grows⟩

theorem Texel.mono {i : Instr} (h : x.Texel m i) : x.Texel n i := by
  obtain ⟨variable_, rest, image, args, places, views⟩ := h
  exact ⟨variable_, rest, image, args, places.mono grows, views.mono grows⟩

theorem ImageAccess.mono {families : List Opcode.Family} {i : Instr}
    (h : x.ImageAccess m families i) : x.ImageAccess n families i := by
  obtain ⟨loaded, rest, type, image, args, typed, is, views⟩ := h
  exact ⟨loaded, rest, type, image, args, typed.mono grows, is.mono grows,
    fun storage => (views storage).mono grows⟩

theorem Variable.mono {i : Instr} (h : x.Variable m i) : x.Variable n i := by
  obtain ⟨storage, rest, args, plain⟩ := h
  refine ⟨storage, rest, args, fun isPlain => ?_⟩
  obtain ⟨shape, id, typed, pointer, plain⟩ := plain isPlain
  exact ⟨shape, id, typed, pointer.mono grows, plain⟩

theorem Laid.mono {type : Id} (h : x.Laid m type) : x.Laid n type := by
  cases h with
  | buffer k is declared => exact .buffer k (is.mono grows) declared
  | unsized args is => exact .unsized args (is.mono grows)
  | struct args is => exact .struct args (is.mono grows)

theorem Accounts.mono {i : Instr} (h : x.Accounts m i) : x.Accounts n i := by
  unfold Accounts at h ⊢
  split
  · next op => exact Chain.mono grows (by rwa [op] at h)
  · next op => exact Texel.mono grows (by rwa [op] at h)
  · next op => exact ImageAccess.mono grows (by rwa [op] at h)
  · next op => exact ImageAccess.mono grows (by rwa [op] at h)
  · next op => exact Variable.mono grows (by rwa [op] at h)
  · trivial

theorem Location.mono {side : Side} {l : LocationVariable} (h : x.Location m side l) :
    x.Location n side l :=
  ⟨h.type, h.number, h.vertices, h.houses.mono grows⟩

theorem Register.mono {side : Side} {r : InterfaceRegister} (h : x.Register m side r) :
    x.Register n side r :=
  ⟨fun l hl => (h.location l hl).mono grows, h.values⟩

theorem Registers.mono {side : Side} {t : Table InterfaceRegister} (h : x.Registers m side t) :
    x.Registers n side t :=
  Table.All.imp h fun _ _ ⟨bound, r⟩ => ⟨bound, r.mono grows⟩

theorem Builtin.mono {builtin : Spirv.BuiltIn} {storage : StorageClass} {b : BuiltinVariable}
    (h : x.Builtin m builtin storage b) : x.Builtin n builtin storage b :=
  ⟨h.shape, h.vertices, h.houses.mono grows⟩

theorem View.mono {r : Resource} (h : View m r) : View n r := by
  unfold View at h ⊢
  split
  · next image same => exact Module.Houses.mono (by rwa [same] at h) grows
  · next same => exact Module.Houses.mono (by rwa [same] at h) grows

theorem WritableView.mono {slot : UInt32} {r : Resource} (h : x.WritableView m slot r) :
    x.WritableView n slot r :=
  ⟨h.view.mono grows, fun image is => (h.image image is).mono grows,
    fun c is => (h.counter c is).mono grows⟩

theorem Tables.mono {s : State} (h : x.Tables m s) : x.Tables n s where
  temps id hid := (h.temps id hid).mono grows
  ownTemps := h.ownTemps
  housedTemps id hid := (h.housedTemps id hid).mono grows
  indexableTemps := h.indexableTemps.imp fun _ _ ⟨small, places⟩ => ⟨small, places.mono grows⟩
  groupMemory := h.groupMemory.imp fun _ _ places => places.mono grows
  immediates id is := by
    obtain ⟨k, places, declared⟩ := h.immediates id is
    exact ⟨k, places.mono grows, declared⟩
  inputArray id is := by
    obtain ⟨v, sees, places⟩ := h.inputArray id is
    exact ⟨v, sees, places.mono grows⟩
  outputArray id is := (h.outputArray id is).mono grows
  patchArray id is := (h.patchArray id is).mono grows
  inputs := h.inputs.mono grows
  outputs := h.outputs.mono grows
  patchInputs := h.patchInputs.mono grows
  patchOutputs := h.patchOutputs.mono grows
  builtins e he := (h.builtins e he).mono grows
  constantBuffers := h.constantBuffers.imp fun _ _ ⟨places, declared⟩ =>
    ⟨places.mono grows, declared⟩
  textures := h.textures.imp fun _ _ ⟨view, sampled⟩ => ⟨view.mono grows, sampled⟩
  uavs := h.uavs.imp fun _ _ view => view.mono grows
  uniformBlocks e he := (h.uniformBlocks e he).mono grows
  storageBlock id is := (h.storageBlock id is).mono grows
  counterBlock id is := (h.counterBlock id is).mono grows
  phases hull is p hp := (h.phases hull is p hp).mono grows
  capabilities c hc := (h.capabilities c hc).mono grows

end Monotone

end Shader

end ShaderLowering
