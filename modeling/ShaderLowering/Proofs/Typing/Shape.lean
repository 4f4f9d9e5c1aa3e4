import ShaderLowering.Lowering.Types
import ShaderLowering.Proofs.Typing.Module

/-!
Facts about modules under construction. They say what an id stands for, and they stay true as the
module grows. In a module that defines no id twice they determine what can be looked up.
-/

namespace ShaderLowering

open Spirv (Id Instr Arg Op StorageClass)

/-- The types that places have. -/
inductive Shape
  | vector (type : VectorType)
  | array (length : UInt32) (element : Shape)
  | unsized (element : Shape)
  /-- A struct of one member. -/
  | block (member : Shape)
  | image (type : ImageType)
deriving DecidableEq, Repr

/-- An array of `length` elements, or the element itself when the length is zero. -/
def Shape.arrayOf (element : Shape) (length : Nat) : Shape :=
  if length = 0 then element else .array (.ofNat length) element

namespace Spirv

/-- The types that are declared once only. -/
def Op.isInterned : Op → Bool
  | typeBool | typeInt | typeFloat | typeVector => true
  | _ => false

namespace Module

variable {m n : Module} {id type : Id} {storage : StorageClass} {shape : Shape}

def Declares (m : Module) (op : Op) (type? : Option Id) (args : List Arg) (id : Id) : Prop :=
  ⟨.ordinary op, type?, some id, args⟩ ∈ m.globals.toList

def IsScalar (m : Module) (scalar : ScalarType) (id : Id) : Prop :=
  match scalar with
  | .bool => m.Declares .typeBool none [] id
  | .u32 => m.Declares .typeInt none [.word 32, .word 0] id
  | .i32 => m.Declares .typeInt none [.word 32, .word 1] id
  | .f32 => m.Declares .typeFloat none [.word 32] id

def IsVector (m : Module) (type : VectorType) (id : Id) : Prop :=
  if type.count ≤ 1 then m.IsScalar type.scalar id
  else ∃ component, m.IsScalar type.scalar component ∧
    m.Declares .typeVector none [.id component, .word (.ofNat type.count)] id

def IsConstant (m : Module) (id : Id) (word : UInt32) : Prop :=
  ∃ type, m.Declares .constant (some type) [.word word] id

/-- An id is that of a type of a given shape. -/
def Is (m : Module) : Shape → Id → Prop
  | .vector type, id => m.IsVector type id
  | .array length element, id =>
    ∃ e count, m.Is element e ∧ m.IsConstant count length ∧
      m.Declares .typeArray none [.id e, .id count] id
  | .unsized element, id =>
    ∃ e, m.Is element e ∧ m.Declares .typeRuntimeArray none [.id e] id
  | .block member, id => ∃ e, m.Is member e ∧ m.Declares .typeStruct none [.id e] id
  | .image type, id =>
    ∃ component, m.IsScalar type.sampled component ∧
      m.Declares .typeImage none (type.args component) id

/-- An id is that of a type of pointers to places of a given shape. -/
def IsPointer (m : Module) (storage : StorageClass) (shape : Shape) (id : Id) : Prop :=
  ∃ pointee, m.Is shape pointee ∧
    m.Declares .typePointer none [.word storage.code, .id pointee] id

def HasType (m : Module) (id type : Id) : Prop :=
  ∃ i ∈ m.definitions, i.result? = some id ∧ i.resultType? = some type

/-- An id points to a place of a given shape. -/
def Places (m : Module) (id : Id) (storage : StorageClass) (shape : Shape) : Prop :=
  ∃ type, m.HasType id type ∧ m.IsPointer storage shape type

/-- An id is that of a value that is no constant. -/
def Computes (m : Module) (id : Id) : Prop :=
  ∃ i ∈ m.bodies, i.result? = some id ∧ i.op ≠ .ordinary .constant

/-- What was defined stays defined. -/
structure Grows (m n : Module) : Prop where
  globals : ∀ i ∈ m.globals.toList, i ∈ n.globals.toList
  bodies : ∀ i ∈ m.bodies, i ∈ n.bodies
  capabilities : ∀ i ∈ m.capabilities.toList, i ∈ n.capabilities.toList

namespace Grows

theorem refl (m : Module) : m.Grows m :=
  ⟨fun _ h => h, fun _ h => h, fun _ h => h⟩

theorem trans {o : Module} (first : m.Grows n) (second : n.Grows o) : m.Grows o :=
  ⟨fun i h => second.globals i (first.globals i h), fun i h => second.bodies i (first.bodies i h),
    fun i h => second.capabilities i (first.capabilities i h)⟩

theorem definitions (h : m.Grows n) {i : Instr} (hi : i ∈ m.definitions) : i ∈ n.definitions := by
  rcases List.mem_append.1 hi with hi | hi
  · exact List.mem_append_left _ (h.globals i hi)
  · exact List.mem_append_right _ (h.bodies i hi)

end Grows

section Monotone

variable (grows : m.Grows n)
include grows

theorem Declares.mono {op : Op} {type? : Option Id} {args : List Arg}
    (h : m.Declares op type? args id) : n.Declares op type? args id :=
  grows.globals _ h

theorem IsScalar.mono {scalar : ScalarType} (h : m.IsScalar scalar id) : n.IsScalar scalar id := by
  cases scalar <;> exact Declares.mono grows h

theorem IsVector.mono {type : VectorType} (h : m.IsVector type id) : n.IsVector type id := by
  unfold IsVector at h ⊢
  split
  · next few => exact IsScalar.mono grows (by rwa [if_pos few] at h)
  · next many =>
    rw [if_neg many] at h
    obtain ⟨component, scalar, declared⟩ := h
    exact ⟨component, scalar.mono grows, declared.mono grows⟩

theorem IsConstant.mono {word : UInt32} (h : m.IsConstant id word) : n.IsConstant id word := by
  obtain ⟨type, declared⟩ := h
  exact ⟨type, declared.mono grows⟩

theorem Is.mono (h : m.Is shape id) : n.Is shape id := by
  induction shape generalizing id with
  | vector type => exact IsVector.mono grows h
  | array length element ih =>
    obtain ⟨e, count, he, hc, declared⟩ := h
    exact ⟨e, count, ih he, hc.mono grows, declared.mono grows⟩
  | unsized element ih =>
    obtain ⟨e, he, declared⟩ := h
    exact ⟨e, ih he, declared.mono grows⟩
  | block member ih =>
    obtain ⟨e, he, declared⟩ := h
    exact ⟨e, ih he, declared.mono grows⟩
  | image type =>
    obtain ⟨component, hc, declared⟩ := h
    exact ⟨component, hc.mono grows, declared.mono grows⟩

theorem IsPointer.mono (h : m.IsPointer storage shape id) : n.IsPointer storage shape id := by
  obtain ⟨pointee, is, declared⟩ := h
  exact ⟨pointee, is.mono grows, declared.mono grows⟩

theorem HasType.mono (h : m.HasType id type) : n.HasType id type := by
  obtain ⟨i, hi, result⟩ := h
  exact ⟨i, grows.definitions hi, result⟩

theorem Places.mono (h : m.Places id storage shape) : n.Places id storage shape := by
  obtain ⟨type, typed, pointer⟩ := h
  exact ⟨type, typed.mono grows, pointer.mono grows⟩

theorem Computes.mono (h : m.Computes id) : n.Computes id := by
  obtain ⟨i, hi, result⟩ := h
  exact ⟨i, grows.bodies i hi, result⟩

theorem HasCapability.mono {c : Capability} (h : m.HasCapability c) : n.HasCapability c :=
  grows.capabilities _ h

end Monotone

theorem Declares.mem_definitions {op : Op} {type? : Option Id} {args : List Arg}
    (h : m.Declares op type? args id) : ⟨.ordinary op, type?, some id, args⟩ ∈ m.definitions :=
  List.mem_append_left _ h

/-- No id is defined twice. -/
def Distinct (m : Module) : Prop :=
  ∀ i ∈ m.definitions, ∀ j ∈ m.definitions, ∀ id, i.result? = some id → j.result? = some id → i = j

/-- Scalar and vector types are declared once. -/
def Interned (m : Module) : Prop :=
  ∀ op : Op, op.isInterned = true → ∀ type? args a b,
    m.Declares op type? args a → m.Declares op type? args b → a = b

theorem Interned.scalar {a b : Id} (h : m.Interned) {scalar : ScalarType}
    (ha : m.IsScalar scalar a) (hb : m.IsScalar scalar b) : a = b := by
  cases scalar <;> exact h _ rfl _ _ _ _ ha hb

theorem Interned.vector {a b : Id} (h : m.Interned) {type : VectorType}
    (ha : m.IsVector type a) (hb : m.IsVector type b) : a = b := by
  unfold IsVector at ha hb
  split at ha
  · next few => exact h.scalar ha (by rwa [if_pos few] at hb)
  · next many =>
    rw [if_neg many] at hb
    obtain ⟨c, hc, da⟩ := ha
    obtain ⟨d, hd, db⟩ := hb
    obtain rfl := h.scalar hc hd
    exact h .typeVector rfl _ _ _ _ da db

namespace Distinct

variable (h : m.Distinct)
include h

theorem definition? {i : Instr} (hi : i ∈ m.definitions) (result : i.result? = some id) :
    m.definition? id = some i := by
  obtain ⟨j, hj⟩ : ∃ j, m.definition? id = some j := by
    apply Option.isSome_iff_exists.1
    rw [Module.definition?, List.find?_isSome]
    exact ⟨i, hi, by simpa using result⟩
  have found := List.find?_some hj
  rw [hj, h j (List.mem_of_find?_eq_some hj) i hi id (by simpa using found) result]

theorem declared {op : Op} {type? : Option Id} {args : List Arg}
    (d : m.Declares op type? args id) :
    m.definition? id = some ⟨.ordinary op, type?, some id, args⟩ :=
  h.definition? d.mem_definitions rfl

theorem type? (typed : m.HasType id type) : m.type? id = some type := by
  obtain ⟨i, hi, result, same⟩ := typed
  rw [Module.type?, h.definition? hi result]
  exact same

theorem constant? {word : UInt32} (is : m.IsConstant id word) : m.constant? id = some word := by
  obtain ⟨type, d⟩ := is
  rw [Module.constant?, h.declared d]

theorem constant?_computes (computes : m.Computes id) : m.constant? id = none := by
  obtain ⟨i, hi, result, other⟩ := computes
  unfold Module.constant?
  rw [h.definition? (List.mem_append_right _ hi) result]
  split
  · next same =>
    cases same
    exact absurd rfl other
  · rfl

theorem pointer? (is : m.IsPointer storage shape type) :
    ∃ pointee, m.Is shape pointee ∧ m.pointer? type = some (storage.code, pointee) := by
  obtain ⟨pointee, is, d⟩ := is
  refine ⟨pointee, is, ?_⟩
  rw [Module.pointer?, h.declared d]

theorem place? (places : m.Places id storage shape) :
    ∃ pointee, m.Is shape pointee ∧ m.place? id = some (storage.code, pointee) := by
  obtain ⟨type, typed, pointer⟩ := places
  rw [Module.place?, h.type? typed]
  exact h.pointer? pointer

theorem array {length : UInt32} {element : Shape} (is : m.Is (.array length element) type)
    (index : Id) : m.length? type = some length ∧
      ∃ e, m.Is element e ∧ m.parts type = [e] ∧ m.part? type index = some e := by
  obtain ⟨e, count, he, hc, d⟩ := is
  have parts : m.parts type = [e] := by rw [Module.parts, h.declared d]
  refine ⟨?_, e, he, parts, ?_⟩
  · rw [Module.length?, h.declared d]
    exact h.constant? hc
  · rw [Module.part?, h.declared d, parts]
    rfl

theorem unsized {element : Shape} (is : m.Is (.unsized element) type) (index : Id) :
    m.length? type = none ∧ ∃ e, m.Is element e ∧ m.part? type index = some e := by
  obtain ⟨e, he, d⟩ := is
  refine ⟨?_, e, he, ?_⟩
  · rw [Module.length?, h.declared d]
  · rw [Module.part?, Module.parts, h.declared d]
    rfl

theorem block {member : Shape} (is : m.Is (.block member) type) {index : Id}
    (first : m.IsConstant index 0) :
    m.length? type = none ∧ ∃ e, m.Is member e ∧ m.part? type index = some e := by
  obtain ⟨e, he, d⟩ := is
  refine ⟨?_, e, he, ?_⟩
  · rw [Module.length?, h.declared d]
  · rw [Module.part?, Module.parts, h.declared d, h.constant? first]
    rfl

theorem scalar_length? {scalar : ScalarType} (is : m.IsScalar scalar type) :
    m.length? type = none ∧ m.parts type = [] := by
  have none_ {op : Op} {args : List Arg} (d : m.Declares op none args type)
      (other : op = .typeBool ∨ op = .typeInt ∨ op = .typeFloat) :
      m.length? type = none ∧ m.parts type = [] := by
    rw [Module.length?, Module.parts, h.declared d]
    rcases other with rfl | rfl | rfl <;> exact ⟨rfl, rfl⟩
  cases scalar with
  | bool => exact none_ is (.inl rfl)
  | u32 | i32 => exact none_ is (.inr (.inl rfl))
  | f32 => exact none_ is (.inr (.inr rfl))

theorem vector_length? {v : VectorType} (is : m.IsVector v type) : m.length? type = none := by
  unfold IsVector at is
  split at is
  · exact (h.scalar_length? is).1
  · obtain ⟨component, _, d⟩ := is
    rw [Module.length?, h.declared d]

/-- The component of a vector of more than one. -/
theorem vector {v : VectorType} (several : ¬ v.count ≤ 1) (is : m.IsVector v type) (index : Id) :
    ∃ e, m.IsScalar v.scalar e ∧ m.parts type = [e] ∧ m.part? type index = some e := by
  rw [IsVector, if_neg several] at is
  obtain ⟨e, he, d⟩ := is
  refine ⟨e, he, ?_, ?_⟩
  · rw [Module.parts, h.declared d]
  · rw [Module.part?, Module.parts, h.declared d]
    rfl

end Distinct

end Module

end Spirv

end ShaderLowering
