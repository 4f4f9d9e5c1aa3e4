import ShaderLowering.Proofs.Memory.Values
import ShaderLowering.Proofs.Typing.Registers

/-!
The places of registers at run time. Register arrays and built-ins get their variables when they are
first used; from then on their places are the same for good. An operand names a place by the values
of its indices alone, and that is where the pointer leads that is computed for it.
-/

namespace ShaderLowering

open Spirv (Id Instr Arg Op Module StorageClass BuiltIn Invocation World Address Memory)

/-- The indices into a built-in: those of a vertex and of an array element, as far as it has
such. -/
def BuiltinVariable.path (b : BuiltinVariable) (vertex? element? : Option Nat) : List Nat :=
  (if 0 < b.vertices then vertex?.toList else []) ++ if 0 < b.length then element?.toList else []

theorem BuiltinVariable.path_none (b : BuiltinVariable) : b.path none none = [] := by
  unfold path
  split <;> split <;> rfl

namespace Lower

variable {w : World} {env : Environment} {s : State} {μ : Invocation}

theorem arrayOf_reads {d : Spirv.Device} {L : Id → Prop} {μ : Spirv.Processor} (element : Id)
    (length : Nat) : Reads d L env (arrayOf element length) s μ fun _ _ _ => True := by
  refine .ite (fun _ => .pure fun _ => trivial) fun _ => ?_
  exact .bind (constant_reads (by decide) _) fun _ _ _ _ _ => declareType_reads _

theorem newVariable_stays (pointee : Id) (storage : StorageClass) :
    Stays w env (newVariable pointee storage none) s μ fun id t _ =>
      t.builder.module.DefinesVariable id := by
  refine .of_reads (P := fun id t _ => t.builder.module.DefinesVariable id)
    (.bind (pointerType_steady _ _) fun _ => .bind (.newVariable _ _) fun _ =>
      .bind (listVariable_steady _ _) fun _ => .pure _) ?_
  refine .bind (declareType_reads _) fun pointer t ν _ _ => ?_
  refine .bind (.newVariable _ _) fun id u κ _ is => ?_
  exact .bind (listVariable_reads _ _) fun _ v ξ later _ => .pure fun _ => is.mono later.grows

theorem name_stays (id : Id) (text : String) :
    Stays w env (name id text) s μ fun _ _ _ => True :=
  .of_reads (name_steady id text) (name_reads id text)

theorem vectorType_stays (type : VectorType) :
    Stays w env (vectorType type) s μ fun _ _ _ => True :=
  .of_reads (vectorType_steady type) (vectorType_reads type)

theorem arrayOf_stays (element : Id) (length : Nat) :
    Stays w env (arrayOf element length) s μ fun _ _ _ => True :=
  .of_reads (arrayOf_steady element length) (arrayOf_reads element length)

theorem inputVertexCount_stays : Stays w env inputVertexCount s μ fun _ _ _ => True := by
  refine Performs.read_bind ?_
  split <;> first
    | exact Performs.state_bind fun _ => Stays.pure fun _ => trivial
    | exact Stays.pure fun _ => trivial

theorem registerArray_stays (text : String) (vertices : Nat) :
    Stays w env (registerArray text vertices) s μ fun id t _ =>
      t.builder.module.DefinesVariable id := by
  refine .bind (vectorType_stays _) fun element t ν _ _ => ?_
  refine .bind (arrayOf_stays _ _) fun registers u κ _ _ => ?_
  refine .bind (arrayOf_stays _ _) fun type v ξ _ _ => ?_
  refine .bind (newVariable_stays _ _) fun id x ω _ is => ?_
  exact .bind (name_stays _ _) fun _ y ψ since _ => .pure fun _ => is.mono since.grows

/-- What is made because a table has nothing yet, and goes into the table. -/
theorem keep_looks {make : Emission Id} {change : Id → State → State}
    {same : ∀ id s, State.SameOutline s (change id s)}
    {keeps : ∀ id s, State.SameInterface s (change id s)} (get : Inventory → Option Id)
    (made : Stays w env make s μ fun id t _ => t.builder.module.DefinesVariable id)
    (none_ : get s.inventory = none) (builder : ∀ id t, (change id t).builder = t.builder)
    (takes : ∀ id t, get (change id t).inventory = some id)
    (within_ : ∀ id (t : State), get t.inventory = none →
      t.inventory.Within (change id t).inventory)
    (furnished : ∀ id (t : State), t.Settled env → t.builder.module.DefinesVariable id →
      (change id t).inventory.Furnished env t.builder.module) :
    Looks w env (do
      let id ← make
      Emission.note (change id) (same id) (keeps id)
      return id) s μ fun id t ν => get t.inventory = some id ∧ t.Leads ν id ⟨id, []⟩ := by
  refine Looks.bind made fun id t ν _ _ h => ?_
  obtain ⟨unchanged, is⟩ := h
  refine .bind (.remember (builder id t) (within_ id t (unchanged ▸ none_))
    fun settled => furnished id t settled is) fun _ u κ since _ taken => .pure fun settled => ?_
  obtain ⟨rfl, rfl⟩ := taken
  exact ⟨takes id t, .of_variable settled.sound (is.mono since.grows)⟩

theorem inputArray_looks : Looks w env inputArray s μ fun id t ν =>
    t.inputArray? = some id ∧ t.Leads ν id ⟨id, []⟩ := by
  refine .state_bind fun settled => ?_
  cases known : s.inputArray? with
  | some id =>
    exact .pure fun _ => ⟨known, .of_variable settled.sound (settled.furnished.inputArray id known)⟩
  | none =>
    refine Looks.bind inputVertexCount_stays fun vertices t ν _ _ h => ?_
    have none_ : t.inventory.inputArray? = none := h.1 ▸ known
    refine keep_looks (·.inputArray?) (registerArray_stays _ _) none_ (fun _ _ => rfl)
      (fun _ _ => rfl) (fun id u none_ => ?_) fun id u settled is => ?_
    · exact { Inventory.Within.refl u.inventory with
        inputArray := fun _ is => by cases none_.symm.trans is }
    · exact { settled.furnished with inputArray := fun _ same => by cases same; exact is }

theorem outputArray_looks : Looks w env outputArray s μ fun id t ν =>
    t.outputArray? = some id ∧ t.Leads ν id ⟨id, []⟩ := by
  refine .state_bind fun settled => ?_
  cases known : s.outputArray? with
  | some id =>
    exact .pure fun _ =>
      ⟨known, .of_variable settled.sound (settled.furnished.outputArray id known)⟩
  | none =>
    refine keep_looks (·.outputArray?) (registerArray_stays _ _) known (fun _ _ => rfl)
      (fun _ _ => rfl) (fun id u none_ => ?_) fun id u settled is => ?_
    · exact { Inventory.Within.refl u.inventory with
        outputArray := fun _ is => by cases none_.symm.trans is }
    · exact { settled.furnished with outputArray := fun _ same => by cases same; exact is }

theorem patchArray_looks : Looks w env patchArray s μ fun id t ν =>
    t.patchArray? = some id ∧ t.Leads ν id ⟨id, []⟩ := by
  refine .state_bind fun settled => ?_
  cases known : s.patchArray? with
  | some id =>
    exact .pure fun _ => ⟨known, .of_variable settled.sound (settled.furnished.patchArray id known)⟩
  | none =>
    refine keep_looks (·.patchArray?) (registerArray_stays _ _) known (fun _ _ => rfl)
      (fun _ _ => rfl) (fun id u none_ => ?_) fun id u settled is => ?_
    · exact { Inventory.Within.refl u.inventory with
        patchArray := fun _ is => by cases none_.symm.trans is }
    · exact { settled.furnished with patchArray := fun _ same => by cases same; exact is }

theorem decorate_stays (id : Id) (decoration : Spirv.Decoration) (args : List Arg) :
    Stays w env (decorate id decoration args) s μ fun _ _ _ => True :=
  .of_reads (.annotate _) ((Reads.annotate _).mono fun _ _ _ _ _ => trivial)

theorem requireCapability_stays (c : Spirv.Capability) :
    Stays w env (requireCapability c) s μ fun _ _ _ => True := by
  refine .of_reads (P := fun _ _ _ => True) (requireCapability_steady c) (.state_bind ?_)
  refine .ite (fun _ => .pure fun _ => trivial) fun _ => .note fun t i h => ?_
  rw [Array.toList_push]
  exact List.mem_append_left _ h

/-- The variable of a built-in, with its shape. Only some have a value for each vertex. -/
structure IsBuiltin (env : Environment) (t : State) (builtin : BuiltIn) (storage : StorageClass)
    (b : BuiltinVariable) : Prop where
  found : t.builtins.lookup (builtin, storage) = some b
  variable_ : t.builder.module.DefinesVariable b.id
  shape : (b.type, b.length) = builtinShape env.analysis builtin storage
  vertices : isPerVertex env.stage builtin storage = false → b.vertices = 0

theorem builtinVariable_looks (builtin : BuiltIn) (storage : StorageClass) :
    Looks w env (builtinVariable builtin storage) s μ fun b t _ =>
      IsBuiltin env t builtin storage b := by
  refine .state_bind fun settled => ?_
  split
  · next b found =>
    have mem : ((builtin, storage), b) ∈ s.builtins := by
      obtain ⟨before, after, same, _⟩ := List.lookup_eq_some_iff.1 found
      rw [same]
      exact List.mem_append_right _ List.mem_cons_self
    obtain ⟨variable_, shape, vertices⟩ := settled.furnished.builtins _ mem
    exact .pure fun _ => ⟨found, variable_, shape, vertices⟩
  · next none_ =>
    refine .read_bind (.read_bind ?_)
    generalize shape : builtinShape env.analysis builtin storage = found
    obtain ⟨type, length⟩ := found
    let key := (builtin, storage)
    have none_ : s.inventory.builtins.lookup key = none := none_
    refine .choose (Q := fun vertices _ _ =>
      isPerVertex env.stage builtin storage = false → vertices = 0) ?_
      fun vertices t₁ ν₁ _ same one => ?_
    · refine .ite (fun per => ?_) fun _ => .pure fun _ _ => rfl
      exact inputVertexCount_stays.mono fun _ _ _ _ _ h =>
        ⟨h.1, fun one => by cases per.symm.trans one⟩
    rw [← same] at none_
    refine .after (vectorType_stays _) fun element t₂ ν₂ _ same _ => ?_
    rw [← same] at none_
    refine .after (arrayOf_stays _ _) fun array t₃ ν₃ _ same _ => ?_
    rw [← same] at none_
    refine .after (arrayOf_stays _ _) fun pointee t₄ ν₄ _ same _ => ?_
    rw [← same] at none_
    refine .after (newVariable_stays _ _) fun id t₅ ν₅ _ same is => ?_
    rw [← same] at none_
    refine .after (decorate_stays _ _ _) fun _ t₆ ν₆ since₆ same _ => ?_
    rw [← same] at none_
    refine .optional (decorate_stays _ _ _) fun t₇ ν₇ since₇ same => ?_
    rw [← same] at none_
    refine .optional (decorate_stays _ _ _) fun t₈ ν₈ since₈ same => ?_
    rw [← same] at none_
    replace is := ((is.mono since₆.grows).mono since₇.grows).mono since₈.grows
    let made : BuiltinVariable := ⟨id, type, length, vertices⟩
    have last (t : State) (ν : Invocation) (none_ : t.inventory.builtins.lookup key = none)
        (is : t.builder.module.DefinesVariable id) : Looks w env (do
          name id builtin.name
          .note (fun s => { s with builtins := (key, made) :: s.builtins })
            (fun _ => by constructor <;> rfl) fun _ => by constructor <;> rfl
          return made : Emission BuiltinVariable) t ν fun b t _ =>
            IsBuiltin env t builtin storage b := by
      refine .after (name_stays _ _) fun _ u κ since same _ => ?_
      rw [← same] at none_
      refine .bind (.remember rfl { Inventory.Within.refl _ with builtins := ?_ } fun settled =>
        { settled.furnished with builtins := ?_ }) fun _ v ξ since' _ taken =>
        .pure fun settled => ?_
      · intro other made' found
        have apart : other ≠ key := by
          rintro rfl
          cases none_.symm.trans found
        exact (List.lookup_cons.trans (by rw [beq_false_of_ne apart]; rfl)).trans found
      · intro e he
        rcases List.mem_cons.1 he with rfl | he
        · exact ⟨is.mono since.grows, shape.symm, one⟩
        · exact settled.furnished.builtins e he
      · obtain ⟨rfl, rfl⟩ := taken
        exact ⟨List.lookup_cons_self, is.mono since.grows, shape.symm, one⟩
    split
    · exact .after (requireCapability_stays _) fun _ t ν since same _ =>
        last t ν (same ▸ none_) (is.mono since.grows)
    · exact .after (requireCapability_stays _) fun _ t ν since same _ =>
        last t ν (same ▸ none_) (is.mono since.grows)
    · exact .after (requireCapability_stays _) fun _ t ν since same _ =>
        last t ν (same ▸ none_) (is.mono since.grows)
    · exact last t₈ ν₈ none_ is

theorem IsBuiltin.later {t u : State} {builtin : BuiltIn} {storage : StorageClass}
    {b : BuiltinVariable} (h : IsBuiltin env t builtin storage b) (maintains : t.Maintains u)
    (grows : t.builder.module.Grows u.builder.module) : IsBuiltin env u builtin storage b :=
  ⟨maintains.within_.builtins _ _ h.found, h.variable_.mono grows, h.shape, h.vertices⟩

/-- An id that may be missing stands for a word that may be missing. -/
def Numbered (s : State) (μ : Invocation) : Option Id → Option UInt32 → Prop :=
  Option.Rel fun id w => s.Knows μ.processor id (.words [w])

theorem Numbered.toList {id? : Option Id} {w? : Option UInt32} (h : Numbered s μ id? w?) :
    List.Forall₂ (fun id w => s.Knows μ.processor id (.words [w])) id?.toList w?.toList := by
  cases h with
  | none => exact .nil
  | some known => exact .cons known .nil

theorem Numbered.since {t : State} {ν : Invocation} {id? : Option Id} {w? : Option UInt32}
    (h : Numbered s μ id? w?) (since : State.Since env s μ t ν) : Numbered t ν id? w? := by
  cases h with
  | none => exact .none
  | some known => exact .some (since.knows known)

/-- The place of a built-in, of a vertex and an array element as far as it has such. -/
theorem builtinPointer_looks {builtin : BuiltIn} {storage : StorageClass}
    {vertex? element? : Option Id} {v? e? : Option UInt32} (vertex : Numbered s μ vertex? v?)
    (element : Numbered s μ element? e?) :
    Looks w env (builtinPointer builtin storage vertex? element?) s μ fun p t ν =>
      ∃ b, IsBuiltin env t builtin storage b ∧ p.type = b.type ∧
        t.Leads ν p.id ⟨b.id, b.path (v?.map (·.toNat)) (e?.map (·.toNat))⟩ := by
  refine .bind (builtinVariable_looks builtin storage) fun b t ν since _ made => ?_
  have start := State.Leads.of_variable (μ := ν) since.settled.sound made.variable_
  have part {p : Prop} [Decidable p] {id? : Option Id} {w? : Option UInt32}
      (known : Numbered t ν id? w?) :
      List.Forall₂ (fun id w => t.Knows ν.processor id (.words [w]))
        (if p then id?.toList else []) (if p then w?.toList else []) := by
    split
    · exact known.toList
    · exact .nil
  have path : ((if 0 < b.vertices then v?.toList else []) ++
      if 0 < b.length then e?.toList else []).map UInt32.toNat =
        b.path (v?.map (·.toNat)) (e?.map (·.toNat)) := by
    unfold BuiltinVariable.path
    rw [List.map_append]
    congr 1 <;> split
    · cases v? <;> rfl
    · rfl
    · cases e? <;> rfl
    · rfl
  refine (chain_looks start (List.rel_append (part (vertex.since since))
    (part (element.since since)))).mono
    fun p u κ since' _ h => ?_
  rw [path] at h
  exact ⟨b, made.later since'.maintains since'.grows, h⟩

/-- What an input built-in of numbers holds. -/
theorem loadBuiltin_looks {builtin : BuiltIn} {vertex? element? : Option Id}
    {v? e? : Option UInt32} (number : builtin ≠ .frontFacing) (vertex : Numbered s μ vertex? v?)
    (element : Numbered s μ element? e?) :
    Looks w env (loadBuiltin builtin vertex? element?) s μ fun v t ν =>
      ∃ b, IsBuiltin env t builtin .input b ∧
        t.Carries ν.processor v b.type.scalar (List.range b.type.count) fun c =>
          μ.memory (Address.component ⟨b.id, b.path (v?.map (·.toNat)) (e?.map (·.toNat))⟩
            b.type.count c) := by
  refine .bind (builtinPointer_looks vertex element) fun p t ν since unmoved h => ?_
  obtain ⟨b, made, type, leads⟩ := h
  have shape : b.type = (builtinShape env.analysis builtin .input).1 :=
    congrArg Prod.fst made.shape
  have few := builtinShape_count_le env.analysis builtin .input
  refine (load_looks leads ?_ ?_ ?_).mono fun v u κ since' _ carries => ?_
  · rw [type, shape]
    exact builtinShape_number number
  · rw [type, shape]
    exact builtinShape_count _ _ _
  · rw [type, shape]
    exact Nat.lt_of_le_of_lt few (by decide)
  · rw [unmoved.memory, type] at carries
    exact ⟨b, made.later since'.maintains since'.grows, carries⟩

/-- The number of the invocation is what the built-in holds. -/
theorem invocationId_looks : Looks w env invocationId s μ fun id t ν =>
    ∃ b, IsBuiltin env t .invocationId .input b ∧
      t.Knows ν.processor id (.words [μ.memory ⟨b.id, []⟩]) := by
  refine .bind (loadBuiltin_looks (by decide) .none .none) fun value t ν _ _ h => ?_
  obtain ⟨b, made, carries⟩ := h
  have type : b.type = .single .i32 := congrArg Prod.fst made.shape
  rw [type, Option.map_none, BuiltinVariable.path_none] at carries
  refine .bind (.of_reads (bitcast_steady value .u32) (bitcast_reads (by decide) carries .u32))
    fun v u κ since' _ h => .pure fun _ => ⟨b, made.later since'.maintains since'.grows, h.knows⟩

/-- The variable of a temporary. -/
theorem temp_looks (reg : UInt32) : Looks w env (temp reg) s μ fun id t ν =>
    t.temps[reg.toNat]? = some id ∧ t.Leads ν id ⟨id, []⟩ := by
  by_cases inside : reg.toNat < maxTemps
  · refine (Looks.of_reads (temp_steady reg) (temp_reads inside)).mono fun id t ν since _ h => ?_
    have mem : id ∈ t.temps.toList := Array.mem_toList_iff.2 (Array.mem_of_getElem? h.1)
    exact ⟨h.1, .of_variable since.settled.sound (since.settled.housed id mem)⟩
  · unfold temp
    rw [if_pos (Nat.le_of_not_lt inside)]
    exact Performs.failWith_bind

end Lower

end ShaderLowering
