import ShaderLowering.Lowering.Register
import ShaderLowering.Proofs.Lowering.Run

/-!
The shapes of registers. Constant buffers, indexable temporaries, thread group memory and views are
declared with a shape, which accesses go by. A state remembers what another knew if no register has
lost its shape or has another.
-/

namespace ShaderLowering

open Spirv (Id)

/-- A register that is declared with a shape. -/
inductive ShapedRegister
  | constantBuffer (slot : UInt32)
  | indexableTemp (reg : UInt32)
  | groupMemory (reg : UInt32)
  | texture (slot : UInt32)
  | uav (slot : UInt32)
deriving DecidableEq, Repr

inductive RegisterShape
  /-- So many elements of four components. -/
  | elements (count : Nat)
  | dwords (stride : UInt32) (length : Nat)
  | view (isTyped : Bool) (dimension : ViewDimension) (stride : UInt32)
deriving DecidableEq, Repr

/-- Two shapes are the same; the strides of views may differ. -/
def RegisterShape.Agrees : RegisterShape → RegisterShape → Prop
  | .view isTyped dimension _, .view isTyped' dimension' _ =>
    isTyped = isTyped' ∧ dimension = dimension'
  | x, y => x = y

namespace RegisterShape.Agrees

variable {x y z : RegisterShape}

theorem refl (x : RegisterShape) : x.Agrees x := by
  cases x with
  | view => exact ⟨rfl, rfl⟩
  | elements | dwords => rfl

theorem symm (h : x.Agrees y) : y.Agrees x := by
  cases x <;> cases y <;> first | exact ⟨h.1.symm, h.2.symm⟩ | exact Eq.symm h

theorem trans (first : x.Agrees y) (second : y.Agrees z) : x.Agrees z := by
  cases x <;> cases y <;> first | cases first; done | skip
  all_goals cases z <;> first
    | exact ⟨first.1.trans second.1, first.2.trans second.2⟩
    | exact Eq.trans first second
    | cases second

end RegisterShape.Agrees

def Resource.shape (r : Resource) : RegisterShape :=
  .view r.image?.isSome r.dimension r.stride

namespace State

/-- The shape of a register, if it is declared. -/
def shape? (s : State) : ShapedRegister → Option RegisterShape
  | .constantBuffer slot => (s.constantBuffers.find? slot).map fun b => .elements b.size
  | .indexableTemp reg => (s.indexableTemps.find? reg).map fun t => .elements t.length
  | .groupMemory reg => (s.groupMemory.find? reg).map fun g => .dwords g.stride g.length
  | .texture slot => (s.textures.find? slot).map (·.shape)
  | .uav slot => (s.uavs.find? slot).map (·.shape)

/-- Every register that had a shape has it still. -/
def Remembers (s t : State) : Prop :=
  ∀ r x, s.shape? r = some x → t.shape? r = some x

variable {s t u : State}

theorem Remembers.refl (s : State) : s.Remembers s :=
  fun _ _ h => h

theorem Remembers.trans (first : s.Remembers t) (second : t.Remembers u) : s.Remembers u :=
  fun r x h => second r x (first r x h)

/-- A state with the same tables remembers as much. -/
theorem Remembers.of_eq (same : t.shape? = s.shape?) : s.Remembers t :=
  fun r x h => by rwa [same]

end State

/-- What is said of the entries of a table is said of them still once a key has another entry of
which the same is said. -/
theorem Table.map_find?_insert {α β : Type} {t : Table α} {key : UInt32} {a : α} {f : α → β}
    (same : ∀ b, (t.find? key).map f = some b → b = f a) {k : UInt32} {b : β}
    (known : (t.find? k).map f = some b) : ((t.insert key a).find? k).map f = some b := by
  rw [Table.find?_insert]
  split
  · next here =>
    rw [here] at known
    rw [same b known]
    rfl
  · exact known

namespace State

variable {s : State} {key : UInt32}

theorem remembers_indexableTemp {entry : IndexableTemp}
    (same : ∀ x, s.shape? (.indexableTemp key) = some x → x = .elements entry.length) :
    s.Remembers { s with indexableTemps := s.indexableTemps.insert key entry } := by
  intro r x known
  cases r with
  | indexableTemp => exact Table.map_find?_insert same known
  | _ => exact known

theorem remembers_groupMemory {entry : GroupMemory}
    (same : ∀ x, s.shape? (.groupMemory key) = some x → x = .dwords entry.stride entry.length) :
    s.Remembers { s with groupMemory := s.groupMemory.insert key entry } := by
  intro r x known
  cases r with
  | groupMemory => exact Table.map_find?_insert same known
  | _ => exact known

theorem remembers_constantBuffer {entry : ConstantBuffer}
    (same : ∀ x, s.shape? (.constantBuffer key) = some x → x = .elements entry.size) :
    s.Remembers { s with constantBuffers := s.constantBuffers.insert key entry } := by
  intro r x known
  cases r with
  | constantBuffer => exact Table.map_find?_insert same known
  | _ => exact known

theorem remembers_texture {entry : Resource}
    (same : ∀ x, s.shape? (.texture key) = some x → x = entry.shape) :
    s.Remembers { s with textures := s.textures.insert key entry } := by
  intro r x known
  cases r with
  | texture => exact Table.map_find?_insert same known
  | _ => exact known

theorem remembers_uav {entry : Resource}
    (same : ∀ x, s.shape? (.uav key) = some x → x = entry.shape) :
    s.Remembers { s with uavs := s.uavs.insert key entry } := by
  intro r x known
  cases r with
  | uav => exact Table.map_find?_insert same known
  | _ => exact known

end State

/-- A step after which every register has the shape that it had. -/
def IsShapeless {α : Type} (m : Emission α) : Prop :=
  ∀ env s a t, m.run env s = (.ok a, t) → t.shape? = s.shape?

namespace IsShapeless

variable {α β : Type} {m : Emission α} {f : α → Emission β}

protected theorem pure (a : α) : IsShapeless (Pure.pure a) := by
  intro env s b t ran
  cases ran
  rfl

protected theorem bind (first : IsShapeless m) (later : ∀ a, IsShapeless (f a)) :
    IsShapeless (m >>= f) := by
  intro env s b u ran
  obtain ⟨a, t, ran, ran'⟩ := Emission.run_bind_eq_ok.1 ran
  exact (later a env t b u ran').trans (first env s a t ran)

theorem read_bind {f : Environment → Emission β} (later : ∀ env, IsShapeless (f env)) :
    IsShapeless (read >>= f) :=
  fun env s b t ran => later env env s b t ran

theorem ite {p : Prop} [Decidable p] {yes no : Emission α} (hyes : IsShapeless yes)
    (hno : IsShapeless no) : IsShapeless (if p then yes else no) := by
  split
  · exact hyes
  · exact hno

theorem note {f : State → State} {same : ∀ s : State, s.SameOutline (f s)}
    {keeps : ∀ s : State, s.SameInterface (f s)} (shapes : ∀ s, (f s).shape? = s.shape?) :
    IsShapeless (.note f same keeps) := by
  intro env s a t ran
  cases ran
  exact shapes s

theorem declare (key : Spirv.Key) : IsShapeless (.declare key) := by
  intro env s a t ran
  cases ran
  rfl

end IsShapeless

namespace Lower

theorem scalarType_shapeless (scalar : ScalarType) : IsShapeless (scalarType scalar) :=
  .declare _

theorem vectorType_shapeless (type : VectorType) : IsShapeless (vectorType type) :=
  .bind (scalarType_shapeless _) fun _ => .ite (.pure _) (.declare _)

theorem arrayOf_shapeless (element : Id) (length : Nat) : IsShapeless (arrayOf element length) :=
  .ite (.pure _) (.bind (.bind (scalarType_shapeless _) fun _ => .declare _) fun _ =>
    .declare _)

theorem newVariable_shapeless (pointee : Id) (storage : Spirv.StorageClass)
    (initial? : Option Id) : IsShapeless (newVariable pointee storage initial?) := by
  refine .bind (.declare _) fun pointer => .bind ?_ fun id =>
    .bind (.note fun _ => rfl) fun _ => .pure id
  intro env s a t ran
  cases ran
  rfl

theorem name_shapeless (id : Id) (text : String) : IsShapeless (name id text) :=
  .read_bind fun _ => .ite (.pure ()) (.note fun _ => rfl)

end Lower

end ShaderLowering
