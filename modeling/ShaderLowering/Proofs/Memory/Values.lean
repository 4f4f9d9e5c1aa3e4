import ShaderLowering.Proofs.Execution.Arithmetic
import ShaderLowering.Proofs.Memory.Steps

/-!
Values and places at run time. Types, constants and whatever is computed from values leave memory
alone; a chain leads on from where its base leads, a load reads what lies there, and a store writes
it.
-/

namespace ShaderLowering

open Spirv (Id Instr Arg Op Module StorageClass Invocation World Address Memory Event)

namespace Lower

variable {env : Environment}

theorem declareType_steady (key : Spirv.TypeKey) : IsSteady env (declareType key) :=
  .declare _

theorem scalarType_steady (scalar : ScalarType) : IsSteady env (scalarType scalar) := by
  exact declareType_steady _

theorem vectorType_steady (type : VectorType) : IsSteady env (vectorType type) :=
  .bind (scalarType_steady _) fun _ => .ite (.pure _) (declareType_steady _)

theorem constant_steady (scalar : ScalarType) (bits : UInt32) :
    IsSteady env (constant scalar bits) := by
  refine .bind (scalarType_steady scalar) fun type => ?_
  exact .declare _

theorem arrayOf_steady (element : Id) (length : Nat) : IsSteady env (arrayOf element length) :=
  .ite (.pure _) (.bind (constant_steady _ _) fun _ => declareType_steady _)

theorem pointerType_steady (pointee : Id) (storage : StorageClass) :
    IsSteady env (pointerType pointee storage) :=
  declareType_steady _

theorem constantVector_steady (scalar : ScalarType) (bits : List UInt32) :
    IsSteady env (constantVector scalar bits) := by
  refine .bind (.mapM fun _ => constant_steady scalar _) fun parts => ?_
  split
  · exact .pure _
  · exact .bind (vectorType_steady _) fun _ => .declare _

theorem name_steady (id : Id) (text : String) : IsSteady env (name id text) :=
  .read_bind (.ite (.pure _) (.note (fun _ _ h => h) fun _ => rfl))

theorem listVariable_steady (id : Id) (storage : StorageClass) :
    IsSteady env (listVariable id storage) :=
  .note (fun _ _ h => h) fun _ => rfl

theorem requireCapability_steady (c : Spirv.Capability) : IsSteady env (requireCapability c) := by
  refine .state_bind fun s => .ite (.pure _) (.note (fun t i h => ?_) fun _ => rfl)
  rw [Array.toList_push]
  exact List.mem_append_left _ h

theorem operate_steady {op : Op} (quiet : op.isQuiet = true) (type : VectorType) (args : List Id) :
    IsSteady env (operate op type args) :=
  .bind (vectorType_steady _) fun _ => .bind (.emitValue quiet _ _) fun _ => .pure _

theorem extended_steady (op : Spirv.ExtOp) (type : VectorType) (args : List Id) :
    IsSteady env (extended op type args) :=
  .bind (vectorType_steady _) fun _ => .state_bind fun _ =>
    .bind (.emitValue rfl _ _) fun _ => .pure _

theorem constantValue_steady (scalar : ScalarType) (bits : List UInt32) :
    IsSteady env (constantValue scalar bits) :=
  .bind (constantVector_steady _ _) fun _ => .pure _

theorem boolToMask_steady (value : Value) : IsSteady env (boolToMask value) :=
  .bind (constantValue_steady _ _) fun _ => .bind (constantValue_steady _ _) fun _ =>
    operate_steady rfl _ _

theorem recast_steady (value : Value) (scalar : ScalarType) : IsSteady env (recast value scalar) :=
  .ite (.pure _) (operate_steady rfl _ _)

theorem bitcast_steady (value : Value) (scalar : ScalarType) :
    IsSteady env (bitcast value scalar) := by
  refine .ite (.pure _) ?_
  split
  · exact .bind (boolToMask_steady _) fun _ => recast_steady _ _
  · exact .bind (.pure _) fun _ => recast_steady _ _

theorem extract_steady (value : Value) (component : Nat) : IsSteady env (extract value component) :=
  .ite (.pure _) (.bind (vectorType_steady _) fun _ => .bind (.emitValue rfl _ _) fun _ => .pure _)

theorem extend_steady (value : Value) (count : Nat) : IsSteady env (extend value count) :=
  .ite (.pure _) (.bind (extract_steady _ _) fun _ => operate_steady rfl _ _)

theorem padToFour_steady (value : Value) : IsSteady env (padToFour value) :=
  .ite (.pure _) (.bind (constant_steady _ _) fun _ =>
    .bind (.mapM fun _ => .bind (extract_steady _ _) fun _ => .pure _) fun _ =>
      operate_steady rfl _ _)

theorem completed_steady (value : Value) : IsSteady env (completed value) :=
  .ite (padToFour_steady _) (.pure _)

theorem pick_steady (value : Value) (lanes : List Nat) : IsSteady env (pick value lanes) := by
  refine .ite (.pure _) (.ite (extend_steady _ _) ?_)
  split
  · exact extract_steady _ _
  · exact .bind (vectorType_steady _) fun _ => .bind (.emitValue rfl _ _) fun _ => .pure _

theorem swizzle_steady (value : Value) (lanes : List Nat) : IsSteady env (swizzle value lanes) := by
  refine .ite (.pure _) ?_
  split
  · exact .bind (padToFour_steady _) fun _ => pick_steady _ _
  · exact .bind (.pure _) fun _ => pick_steady _ _

theorem applyModifier_steady (value : Value) (modifier : Modifier) :
    IsSteady env (applyModifier value modifier) := by
  refine .bind (.ite (extended_steady _ _ _) (.pure _)) fun value => .ite ?_ (.pure _)
  unfold negate
  split <;> exact operate_steady rfl _ _

theorem declareTemps_steady (count : Nat) : IsSteady env (declareTemps count) := by
  unfold declareTemps
  split
  · intro s a t _ ran
    cases ran
  · refine .state_bind fun s => .bind (.forIn (fun reg _ => ?_) _) fun _ => .pure _
    refine .bind (vectorType_steady _) fun _ => .bind (pointerType_steady _ _) fun _ => ?_
    refine .bind (.newTemp _) fun _ => .bind (listVariable_steady _ _) fun _ => ?_
    exact .bind (name_steady _ _) fun _ => .pure _

theorem temp_steady (reg : UInt32) : IsSteady env (temp reg) := by
  unfold temp
  split
  · intro s a t _ ran
    cases ran
  · exact .bind (declareTemps_steady _) fun _ => .state_bind fun _ => .orFault _ _

section Padding

variable {d : Spirv.Device} {L : Id → Prop} {s : State} {μ : Spirv.Processor} {v : Value}
  {scalar : ScalarType} {n : Nat} {g : Nat → UInt32}

/-- Missing components are filled up with zeros. -/
theorem padToFour_reads (number : scalar ≠ .bool) (h : s.Carries μ v scalar (List.range n) g)
    (short : n ≤ 4) : Reads d L env (padToFour v) s μ fun v t ν =>
      t.Carries ν v scalar (List.range 4) fun c => if c < n then g c else 0 := by
  have size : (List.range n).length = n := List.length_range
  unfold padToFour
  rw [h.type, size]
  refine .ite (fun full => .pure fun _ => ?_) fun _ => ?_
  · obtain rfl : n = 4 := Nat.le_antisymm short full
    exact h.congr fun c hc => (if_pos (List.mem_range.1 hc)).symm
  · refine .bind (constant_reads number 0) fun filler t ν later zero => ?_
    refine .bind (Q := fun ids u κ =>
        List.Forall₂ (fun c id => u.Knows κ id (.words [g c])) (List.range n) ids)
      (.mapM (fun later known => later.knows known) fun c hc u κ later' => ?_)
      fun parts u κ later' known => ?_
    · have inside : c < (List.range n).length := size.symm ▸ List.mem_range.1 hc
      refine .bind (extract_reads ((h.later later).later later') inside ?_)
        fun part w ξ _ carried => .pure fun _ => ?_
      · simp only [UInt32.size]
        omega
      · have here := carried.knows
        rwa [List.map_singleton, List.getElem_range] at here
    · have zeros : u.Knows κ filler (.words [0]) :=
        .of_constant later'.ready (zero.mono later'.grows)
      have count : parts.length = n := by rw [← known.length_eq, size]
      rw [List.forall₂_iff_get] at known
      refine @construct_reads _ _ _ _ _ scalar (List.range 4) _ _
        (List.forall₂_iff_get.2 ⟨?_, fun i low hi => ?_⟩)
      · rw [List.length_range, List.length_append, List.length_replicate, count]
        omega
      · simp only [List.get_eq_getElem, List.getElem_range, List.getElem_append, count]
        split
        · next inside =>
          have here := known.2 i (by rwa [size]) (by rwa [count])
          rwa [List.get_eq_getElem, List.get_eq_getElem, List.getElem_range] at here
        · rw [List.getElem_replicate]
          exact zeros

/-- Two or three components are filled up with zeros. -/
theorem completed_reads (number : scalar ≠ .bool) (h : s.Carries μ v scalar (List.range n) g)
    (short : n ≤ 4) : Reads d L env (completed v) s μ fun v t ν => ∃ m, (n = m ∨ m = 4) ∧
      t.Carries ν v scalar (List.range m) fun c => if c < n then g c else 0 := by
  refine .ite (fun _ => (padToFour_reads number h short).mono fun v t ν _ full =>
    ⟨4, .inr rfl, full⟩) fun _ => .pure fun _ => ⟨n, .inl rfl, ?_⟩
  exact h.congr fun c hc => (if_pos (List.mem_range.1 hc)).symm

/-- Lanes of a vector, with zeros behind its end. No lanes leave all of it. -/
theorem swizzle_range_reads (number : scalar ≠ .bool) (h : s.Carries μ v scalar (List.range n) g)
    (short : n ≤ 4) {lanes : List Nat} (inside : ∀ i ∈ lanes, i < 4) :
    Reads d L env (swizzle v lanes) s μ fun v t ν => ∃ cs, (lanes ≠ [] → cs = lanes) ∧
      t.Carries ν v scalar cs fun c => if c < n then g c else 0 := by
  have size : (List.range n).length = n := List.length_range
  have picked {m : Nat} (bound : ∀ i ∈ lanes, i < m) :
      lanes.map ((List.range m).getD · 0) = lanes := by
    refine (List.map_congr_left fun i hi => ?_).trans (List.map_id _)
    have here : i < (List.range m).length := List.length_range.symm ▸ bound i hi
    rw [← List.getElem_eq_getD (h := here), List.getElem_range]
    rfl
  unfold swizzle
  refine .ite (fun none_ => .pure fun _ => ⟨List.range n, fun some_ => ?_, ?_⟩) fun some_ => ?_
  · exact absurd (List.isEmpty_iff.1 none_) some_
  · exact h.congr fun c hc => (if_pos (List.mem_range.1 hc)).symm
  have taken : lanes ≠ [] := fun none_ => some_ (List.isEmpty_iff.2 none_)
  rw [h.type, size]
  dsimp only
  split
  · next beyond =>
    refine .bind (padToFour_reads number h short) fun v t ν _ full => ?_
    have within : ∀ i ∈ lanes, i < (List.range 4).length := by
      rwa [List.length_range]
    refine (pick_reads full taken within (by rw [List.length_range])).mono fun v u κ _ h => ?_
    rw [picked inside] at h
    exact ⟨lanes, fun _ => rfl, h⟩
  · next inner =>
    have within : ∀ i ∈ lanes, i < n := by
      intro i hi
      by_contra beyond
      exact inner (List.any_eq_true.2 ⟨i, hi, decide_eq_true (Nat.le_of_not_lt beyond)⟩)
    refine .pure_bind ((pick_reads h taken (by rwa [size]) (by rwa [size])).mono
      fun v u κ _ h => ?_)
    rw [picked within] at h
    exact ⟨lanes, fun _ => rfl, h.congr fun c hc => (if_pos (within c hc)).symm⟩

end Padding

end Lower

section Instructions

variable {w : World} {env : Environment} {s : State} {μ ν : Invocation}

/-- An instruction with a result, by what it does. -/
theorem Performs.emitValue {op : Op} {type : Id} {args : List Arg}
    (acts : ∀ n, s.builder.module.Grows n → n.Distinct →
      w.act? n μ ⟨.ordinary op, some type, some s.builder.nextId, args⟩ = some ν) :
    Performs w env (Lower.emitValue op type args) s μ fun id t κ =>
      κ = ν ∧ id = s.builder.nextId ∧
        ⟨.ordinary op, some type, some id, args⟩ ∈ t.builder.module.definitions := by
  intro settled id t ran
  let i : Instr := ⟨.ordinary op, some type, some s.builder.nextId, args⟩
  obtain ⟨b, placed, follows, mem⟩ := settled.follows_push (i := i) s.temps
    (Nat.le_succ _) (fun id is => by cases is; exact ⟨rfl, Nat.lt_succ_self _⟩) (.inl rfl)
  obtain ⟨_, _, taken, ran⟩ := Emission.run_bind_eq_ok.1 ran
  cases taken
  obtain ⟨_, _, pushed, ran⟩ := Emission.run_bind_eq_ok.1 ran
  obtain ⟨c, placed', rfl⟩ := Emission.run_push_eq_ok.1 pushed
  cases ran
  obtain rfl : b = c := Except.ok.inj (placed.symm.trans placed')
  refine ⟨[i], ν, follows, fun n grows distinct => ?_, follows.maintains rfl,
    follows.furnished rfl settled, rfl, rfl, mem⟩
  rw [World.run, List.foldlM_cons, acts n (follows.grows.trans grows) distinct]
  rfl

/-- An instruction without a result, by what it does. -/
theorem Performs.emit {op : Op} {args : List Arg}
    (acts : ∀ n, s.builder.module.Grows n → n.Distinct →
      w.act? n μ ⟨.ordinary op, none, none, args⟩ = some ν) :
    Performs w env (Lower.emit op args) s μ fun _ _ κ => κ = ν := by
  intro settled _ t ran
  let i : Instr := ⟨.ordinary op, none, none, args⟩
  obtain ⟨b, placed, follows, _⟩ := settled.follows_push (i := i) s.temps
    (Nat.le_refl _) (fun id is => by cases is) (.inl rfl)
  obtain ⟨c, placed', rfl⟩ := Emission.run_push_eq_ok.1 ran
  obtain rfl : b = c := Except.ok.inj (placed.symm.trans placed')
  refine ⟨[i], ν, follows, fun n grows distinct => ?_, follows.maintains rfl,
    follows.furnished rfl settled, rfl⟩
  rw [World.run, List.foldlM_cons, acts n (follows.grows.trans grows) distinct]
  rfl

/-- A variable in the open block. -/
theorem Reads.newVariable {d : Spirv.Device} {L : Id → Prop} {μ : Spirv.Processor}
    (pointerType : Id) (storage : StorageClass) :
    Reads d L env (Emission.newVariable pointerType storage none) s μ fun id t _ =>
      t.builder.module.DefinesVariable id := by
  intro ready
  let i : Instr :=
    ⟨.ordinary .var, some pointerType, some s.builder.nextId, [.word storage.code]⟩
  obtain ⟨b, placed, follows, mem⟩ := ready.follows_push (i := i) s.temps (Nat.le_succ _)
    (fun id is => by cases is; exact ⟨rfl, Nat.lt_succ_self _⟩) (.inl rfl)
  have made : s.builder.variable_ pointerType storage none = (s.builder.nextId, b) := by
    unfold Spirv.Builder.variable_
    dsimp only
    split
    · next c placed' =>
      cases placed.symm.trans placed'
      rfl
    · next placed' => cases placed.symm.trans placed'
  have ran : (Emission.newVariable pointerType storage none).run env s =
      (.ok s.builder.nextId, { s with builder := b }) := by
    change ((.ok (s.builder.variable_ pointerType storage none).1,
      { s with builder := (s.builder.variable_ pointerType storage none).2 }) :
        Except CompileError Id × State) = _
    rw [made]
  refine ⟨_, _, [i], μ, ran, follows, fun _ _ _ => rfl, ⟨rfl, fun j hj => ?_, fun j hj => ?_⟩,
    _, _, mem⟩
  all_goals
    intro is
    rw [List.mem_singleton.1 hj] at is
    cases is

theorem IsSteady.newVariable (pointerType : Id) (storage : StorageClass) :
    IsSteady env (Emission.newVariable pointerType storage none) := by
  intro s id t ready ran
  let i : Instr :=
    ⟨.ordinary .var, some pointerType, some s.builder.nextId, [.word storage.code]⟩
  obtain ⟨b, placed, follows, _⟩ := ready.follows_push (i := i) s.temps (Nat.le_succ _)
    (fun id is => by cases is; exact ⟨rfl, Nat.lt_succ_self _⟩) (.inl rfl)
  have made : (s.builder.variable_ pointerType storage none).2 = b := by
    unfold Spirv.Builder.variable_
    dsimp only
    split
    · next c placed' => exact Except.ok.inj (placed'.symm.trans placed)
    · next placed' => cases placed.symm.trans placed'
  have is : t = { s with builder := (s.builder.variable_ pointerType storage none).2 } := by
    cases ran
    rfl
  rw [made] at is
  subst is
  refine ⟨rfl, [i], follows, fun j hj op' is => ?_⟩
  rw [List.mem_singleton.1 hj] at is
  cases is
  rfl

end Instructions

/-- Words that are known are the indices of a chain. -/
theorem State.indices_path {s : State} {μ : Invocation} {indices : List Id} {ws : List UInt32}
    (numbers : List.Forall₂ (fun id w => s.Knows μ.processor id (.words [w])) indices ws)
    {n : Module} (grows : s.builder.module.Grows n) (distinct : n.Distinct) :
    (indices.map Arg.id).mapM (μ.index? n) = some (ws.map UInt32.toNat) := by
  induction numbers with
  | nil => rfl
  | @cons id w _ _ first _ ih =>
    have index : μ.index? n (.id id) = some w.toNat := by
      rw [Invocation.index?, first.words? grows distinct]
      rfl
    rw [List.map_cons, List.mapM_cons, index, ih]
    rfl

namespace Spirv

/-- Where component `c` of a vector lies; a single component lies where the vector does. -/
def Address.component (p : Address) (count c : Nat) : Address :=
  if count ≤ 1 then p else p.part c

namespace Module

variable {m : Module} {id : Id}

theorem isTruth_scalar (distinct : m.Distinct) {scalar : ScalarType} (is : m.IsScalar scalar id)
    (number : scalar ≠ .bool) : m.isTruth id = false := by
  cases scalar with
  | bool => exact absurd rfl number
  | u32 | i32 | f32 =>
    rw [isTruth, distinct.declared is]
    rfl

/-- What is read as a vector of numbers are the words of its components. -/
theorem read?_vector (distinct : m.Distinct) {type : VectorType} (is : m.IsVector type id)
    (number : type.scalar ≠ .bool) (some_ : 0 < type.count) (short : type.count < UInt32.size)
    (memory : Memory) (p : Address) : m.read? memory p id =
      some (.words ((List.range type.count).map fun c => memory (p.component type.count c))) := by
  unfold IsVector at is
  split at is
  · next one =>
    have single : List.range type.count = [0] := by
      rw [show type.count = 1 by omega]
      rfl
    rw [single, List.map_singleton, Address.component, if_pos one]
    cases scalar : type.scalar with
    | bool => exact absurd scalar number
    | u32 | i32 | f32 =>
      rw [scalar] at is
      rw [read?, distinct.declared is]
  · next several =>
    obtain ⟨component, isScalar, declared⟩ := is
    rw [read?, distinct.declared declared]
    dsimp only
    rw [isTruth_scalar distinct isScalar number, if_neg Bool.false_ne_true,
      UInt32.toNat_ofNat_of_lt' short]
    simp only [Address.component, if_neg several]

end Module

end Spirv

namespace Lower

variable {w : World} {env : Environment} {s : State} {μ : Invocation} {type : VectorType}

theorem scalarType_types {d : Spirv.Device} {L : Id → Prop} {μ : Spirv.Processor}
    (scalar : ScalarType) : Reads d L env (scalarType scalar) s μ fun id t _ =>
      t.builder.module.IsScalar scalar id := by
  cases scalar <;> exact .declare (.type (.scalar _))

theorem vectorType_types {d : Spirv.Device} {L : Id → Prop} {μ : Spirv.Processor}
    (type : VectorType) : Reads d L env (vectorType type) s μ fun id t _ =>
      t.builder.module.IsVector type id := by
  refine .bind (scalarType_types _) fun component t ν _ is => ?_
  refine .ite (fun one => .pure fun _ => ?_) fun several => ?_
  · rw [Module.IsVector, if_pos one]
    exact is
  · refine (Reads.declare _).mono fun id u κ later declared => ?_
    rw [Module.IsVector, if_neg several]
    exact ⟨component, is.mono later.grows, declared⟩

theorem number_looks {scalar : ScalarType} (number : scalar ≠ .bool) (bits : UInt32) :
    Looks w env (constant scalar bits) s μ fun id t ν => t.Knows ν.processor id (.words [bits]) :=
  (Looks.of_reads (constant_steady scalar bits) (constant_reads number bits)).mono
    fun _ _ _ since _ is => .of_constant since.settled.toReceptive is

theorem constant_looks (bits : UInt32) : Looks w env (constant .u32 bits) s μ fun id t ν =>
    t.Knows ν.processor id (.words [bits]) :=
  number_looks (by decide) bits

/-- An instruction that computes a value. -/
theorem emitValue_looks {op : Op} {typeId : Id} {args : List Arg} {x : Spirv.Datum}
    (computed : op.isComputed = true)
    (acts : ∀ n, s.builder.module.Grows n → n.Distinct →
      w.act? n μ ⟨.ordinary op, some typeId, some s.builder.nextId, args⟩ =
        some { μ with values := Function.update μ.values s.builder.nextId (some x) }) :
    Looks w env (emitValue op typeId args) s μ fun id t ν => t.Knows ν.processor id x := by
  refine (Performs.emitValue acts).mono fun id t κ since h => ?_
  obtain ⟨rfl, rfl, mem⟩ := h
  refine ⟨⟨rfl, rfl⟩, since.settled.sound.below _ mem _ rfl, fun n grows distinct => ?_⟩
  rw [n.datum?_computed distinct (grows.definitions mem) computed]
  exact Function.update_self _ _ _

/-- What a place holds, read as some type. -/
theorem loadFrom_reads {pointer typeId : Id} {q : Address} {x : Spirv.Datum}
    (leads : s.Leads μ pointer q)
    (reads : ∀ n, s.builder.module.Grows n → n.Distinct → n.read? μ.memory q typeId = some x) :
    Looks w env (loadFrom typeId pointer) s μ fun id t ν => t.Knows ν.processor id x := by
  refine emitValue_looks rfl fun n grows distinct => ?_
  have unfolded : w.act? n μ
      ⟨.ordinary .load, some typeId, some s.builder.nextId, [.id pointer]⟩ =
        ((μ.address? n pointer).bind fun address => n.read? μ.memory address typeId).bind fun x =>
          some { μ with values := Function.update μ.values s.builder.nextId (some x) } := rfl
  rw [unfolded, leads.2 n grows distinct, Option.bind_some, reads n grows distinct]
  rfl

/-- What a place holds, read as a vector. -/
theorem loadFrom_looks {pointer typeId : Id} {q : Address} (leads : s.Leads μ pointer q)
    (is : s.builder.module.IsVector type typeId) (number : type.scalar ≠ .bool)
    (some_ : 0 < type.count) (short : type.count < UInt32.size) :
    Looks w env (loadFrom typeId pointer) s μ fun id t ν => t.Knows ν.processor id
      (.words ((List.range type.count).map fun c => μ.memory (q.component type.count c))) :=
  loadFrom_reads leads fun _ grows distinct =>
    Module.read?_vector distinct (is.mono grows) number some_ short μ.memory q

/-- What a place holds. -/
theorem load_looks {p : Pointer} {q : Address} (leads : s.Leads μ p.id q)
    (number : p.type.scalar ≠ .bool) (some_ : 0 < p.type.count)
    (short : p.type.count < UInt32.size) : Looks w env (load p) s μ fun v t ν =>
      t.Carries ν.processor v p.type.scalar (List.range p.type.count) fun c =>
        μ.memory (q.component p.type.count c) := by
  refine .bind (.of_reads (vectorType_steady _) (vectorType_types p.type))
    fun type t ν since unmoved is => ?_
  refine .bind (loadFrom_looks (since.leads leads) is number some_ short)
    fun id u κ _ _ known => .pure fun _ => ⟨?_, ?_⟩
  · rw [List.length_range]
  · rwa [unmoved.memory] at known

/-- What a place holds, read as a truth value. -/
theorem loadTruth_looks {p : Pointer} {q : Address} (leads : s.Leads μ p.id q)
    (truth : p.type = .single .bool) : Looks w env (load p) s μ fun v t ν =>
      t.Decides ν.processor v [0] fun _ => μ.memory q ≠ 0 := by
  refine .bind (.of_reads (vectorType_steady _) (vectorType_types p.type))
    fun type t ν since unmoved is => ?_
  rw [truth] at is
  have reads (n : Module) (grows : t.builder.module.Grows n) (distinct : n.Distinct) :
      n.read? ν.memory q type = some (.truths [decide (μ.memory q ≠ 0)]) := by
    rw [Module.read?, distinct.declared (is.mono grows), unmoved.memory]
  exact .bind (loadFrom_reads (since.leads leads) reads) fun id u κ _ _ known =>
    .pure fun _ => ⟨truth, known⟩

/-- Where an access chain leads. -/
theorem accessChain_looks {pointer base : Id} {q : Address} {indices : List Id}
    {ws : List UInt32} (leads : s.Leads μ base q)
    (numbers : List.Forall₂ (fun id w => s.Knows μ.processor id (.words [w])) indices ws) :
    Looks w env (emitValue .accessChain pointer (.id base :: indices.map .id)) s μ fun id t ν =>
      t.Leads ν id (q.inside (ws.map UInt32.toNat)) := by
  let led (a : Address) : Invocation :=
    { μ with addresses := Function.update μ.addresses s.builder.nextId (some a) }
  have acts : ∀ n, s.builder.module.Grows n → n.Distinct →
      w.act? n μ ⟨.ordinary .accessChain, some pointer, some s.builder.nextId,
        .id base :: indices.map .id⟩ = some (led (q.inside (ws.map UInt32.toNat))) := by
    intro n grows distinct
    have unfolded : w.act? n μ ⟨.ordinary .accessChain, some pointer, some s.builder.nextId,
        .id base :: indices.map .id⟩ =
          (μ.address? n base).bind fun address =>
            ((indices.map Arg.id).mapM (μ.index? n)).bind fun path =>
              some (led (address.inside path)) := rfl
    rw [unfolded, leads.2 n grows distinct, Option.bind_some,
      State.indices_path numbers grows distinct]
    rfl
  refine (Performs.emitValue acts).mono fun id t κ since h => ?_
  obtain ⟨rfl, rfl, mem⟩ := h
  refine ⟨⟨rfl, rfl⟩, since.settled.sound.below _ mem _ rfl, fun n grows distinct => ?_⟩
  rw [Invocation.address?, distinct.definition? (grows.definitions mem) rfl]
  exact Function.update_self _ _ _

/-- The place that indices lead to. -/
theorem chain_looks {storage : StorageClass} {base : Id} {q : Address} {indices : List Id}
    {ws : List UInt32} (leads : s.Leads μ base q)
    (numbers : List.Forall₂ (fun id w => s.Knows μ.processor id (.words [w])) indices ws) :
    Looks w env (chain type storage base indices) s μ fun p t ν =>
      p.type = type ∧ t.Leads ν p.id (q.inside (ws.map UInt32.toNat)) := by
  refine .ite (fun none_ => .pure fun _ => ⟨rfl, ?_⟩) fun _ => ?_
  · obtain rfl := List.isEmpty_iff.1 none_
    obtain rfl := List.forall₂_nil_left_iff.1 numbers
    rw [List.map_nil, Address.inside, List.append_nil]
    exact leads
  · refine .bind (.of_reads (vectorType_steady type) (vectorType_reads type))
      fun pointee t ν since _ _ => ?_
    refine .bind (.of_reads (pointerType_steady pointee storage) (declareType_reads _))
      fun pointer u κ since' _ _ => ?_
    have since := since.trans since'
    exact .bind (accessChain_looks (since.leads leads)
      (numbers.imp fun _ _ known => since.knows known)) fun id v κ' _ _ led => .pure fun _ =>
        ⟨rfl, led⟩

end Lower

end ShaderLowering
