import ShaderLowering.Proofs.Memory.GroupMemory
import ShaderLowering.Proofs.Lowering.Opening
import ShaderLowering.Proofs.Memory.Stores

/-!
The dwords of raw and structured memory. Storage buffers hold theirs as the member of a block, and
thread group memory is an array of them; an access starts at the dword of a byte, whose number
instructions compute from one operand or from two, and goes on from there component by component.
-/

namespace ShaderLowering

open Spirv (Id Instr Arg Op Module StorageClass Device Invocation World Address Memory Event)

namespace DwordArray

/-- Where a dword lies. -/
def place (array : DwordArray) (n : UInt32) : Address :=
  ⟨array.variable_, if array.storage = .workgroup then [n.toNat] else [0, n.toNat]⟩

/-- The dword of the byte at an offset in a structure. Raw memory has no structures. -/
def dword (array : DwordArray) (element offset : UInt32) : UInt32 :=
  if array.stride = 0 then offset >>> 2 else structureDword array.stride element offset

variable {array : DwordArray} {n m : UInt32} {e b : UInt32}

theorem place_inj (same : array.place n = array.place m) : n = m := by
  have paths := congrArg Address.path same
  unfold place at paths
  dsimp only at paths
  split at paths
  · exact UInt32.toNat_inj.1 (List.singleton_inj.1 paths)
  · exact UInt32.toNat_inj.1 (List.singleton_inj.1 (List.cons.inj paths).2)

/-- The components of an access have dwords of their own, even where their numbers wrap around. -/
theorem place_component_inj {c c' : Nat} (low : c < 4) (low' : c' < 4)
    (same : array.place (n + .ofNat c) = array.place (n + .ofNat c')) : c = c' := by
  have numbers : UInt32.ofNat c = UInt32.ofNat c' := UInt32.add_right_inj n |>.1 (place_inj same)
  have values := congrArg UInt32.toNat numbers
  rw [UInt32.toNat_ofNat_of_lt' (Nat.lt_trans low (by decide)),
    UInt32.toNat_ofNat_of_lt' (Nat.lt_trans low' (by decide))] at values
  exact values

theorem dword_raw (raw : array.stride = 0) : array.dword e b = b >>> 2 :=
  if_pos raw

theorem dword_structured (structured : array.stride ≠ 0) :
    array.dword e b = structureDword array.stride e b :=
  if_neg structured

end DwordArray

/-- The dwords that an operand names, if it names raw or structured memory. -/
def State.dwordArray? (s : State) (op : Operand) : Option DwordArray :=
  match op.type with
  | .threadGroupSharedMemory => do
    let memory ← s.groupMemory.find? (← op.index? 0)
    return ⟨memory.variable_, .workgroup, memory.stride⟩
  | .resource => do
    let resource ← s.textures.find? (← op.index? 0)
    if resource.image?.isSome then none
    return ⟨resource.variable_, .storageBuffer, resource.stride⟩
  | .uav => do
    let resource ← s.uavs.find? (← op.index? 0)
    if resource.image?.isSome then none
    return ⟨resource.variable_, .storageBuffer, resource.stride⟩
  | _ => none

section Rules

variable {α β : Type} {w : World} {env : Environment} {s : State} {μ : Invocation}

/-- A step for each of some things. What it gives for one of them is to stay true. -/
theorem Looks.mapM {l : List α} {f : α → Emission β} {P : α → β → State → Invocation → Prop}
    (stays : ∀ {a b t ν u κ}, State.Since env t ν u κ → P a b t ν → P a b u κ)
    (each : ∀ a ∈ l, ∀ t ν, State.Since env s μ t ν → μ.Unmoved ν →
      Looks w env (f a) t ν (P a)) :
    Looks w env (l.mapM f) s μ fun bs t ν => List.Forall₂ (fun a b => P a b t ν) l bs := by
  induction l generalizing s μ with
  | nil => exact .pure fun _ => .nil
  | cons a rest ih =>
    rw [List.mapM_cons]
    intro settled
    refine Looks.bind (each a List.mem_cons_self s μ (.refl settled) (.refl μ))
      (fun b t ν since unmoved first => ?_) settled
    refine .bind (ih fun c hc u κ more still =>
      each c (List.mem_cons_of_mem _ hc) u κ (since.trans more) (unmoved.trans still))
      fun bs u κ since' _ others => ?_
    exact .pure fun _ => .cons (stays since' first) others

/-- A loop over a list, by what holds once a part of the list is done. -/
theorem InterfaceStep.Performs.forIn {f : α → β → InterfaceStep (ForInStep β)}
    {I : List α → β → State → Invocation → Prop} {l : List α} {b : β}
    (round : ∀ before a after c, l = before ++ a :: after → ∀ t ν, State.Since env s μ t ν →
      I before c t ν → (f a c).Performs w env t ν fun r u κ =>
        ∃ c', r = .yield c' ∧ I (before ++ [a]) c' u κ) (start : I [] b s μ) :
    InterfaceStep.Performs w env (ForIn.forIn l b f) s μ fun c t ν => I l c t ν := by
  suffices h : ∀ before after c t ν, l = before ++ after → State.Since env s μ t ν →
      I before c t ν → InterfaceStep.Performs w env (ForIn.forIn after c f) t ν
        fun c' u κ => I l c' u κ from
    fun settled => h [] l b s μ rfl (.refl settled) start settled
  intro before after
  induction after generalizing before with
  | nil =>
    intro c t ν all _ done
    rw [List.forIn_nil]
    rw [List.append_nil] at all
    exact .pure fun _ => all ▸ done
  | cons a rest ih =>
    intro c t ν all since done
    rw [List.forIn_cons]
    refine .bind (round before a rest c all t ν since done) fun r u κ since' h => ?_
    obtain ⟨c', rfl, done⟩ := h
    exact ih (before ++ [a]) c' u κ (by rw [all, List.append_assoc]; rfl) (since.trans since') done

/-- A loop is of the kind that its rounds are of. -/
theorem Emission.toInterfaceStep_forIn (l : List α) (b : β) (f : α → β → Emission (ForInStep β)) :
    (ForIn.forIn l b f : Emission β).toInterfaceStep =
      ForIn.forIn l b fun a c => (f a c).toInterfaceStep := by
  induction l generalizing b with
  | nil =>
    rw [List.forIn_nil, List.forIn_nil]
    rfl
  | cons a rest ih =>
    rw [List.forIn_cons, List.forIn_cons]
    refine congrArg (InterfaceStep.bind (f a b).toInterfaceStep) (funext fun r => ?_)
    cases r with
    | done c => rfl
    | yield c => exact ih c

theorem Performs.forIn {f : α → β → Emission (ForInStep β)}
    {I : List α → β → State → Invocation → Prop} {l : List α} {b : β}
    (round : ∀ before a after c, l = before ++ a :: after → ∀ t ν, State.Since env s μ t ν →
      I before c t ν →
        Performs w env (f a c) t ν fun r u κ => ∃ c', r = .yield c' ∧ I (before ++ [a]) c' u κ)
    (start : I [] b s μ) :
    Performs w env (ForIn.forIn l b f) s μ fun c t ν => I l c t ν := by
  unfold Performs
  rw [Emission.toInterfaceStep_forIn]
  exact InterfaceStep.Performs.forIn round start

theorem Performs.of_settled {e : Emission α} {Q : α → State → Invocation → Prop}
    (h : s.Settled env → Performs w env e s μ Q) : Performs w env e s μ Q :=
  fun settled => h settled settled

/-- A step that finds what it gives without any code. -/
theorem Performs.idle_bind {e : Emission α} {f : α → Emission β} {a : α}
    {R : β → State → Invocation → Prop} (idle : e.run env s = (.ok a, s))
    (later : Performs w env (f a) s μ R) : Performs w env (e >>= f) s μ R := by
  intro settled b t ran
  rw [Lower.run_idle_bind idle] at ran
  exact later settled b t ran

end Rules

/-- A step that cannot do without an open block. -/
def Needs {α : Type} (e : Emission α) : Prop :=
  ∀ env s a t, e.run env s = (.ok a, t) → s.HasPlace

namespace Needs

variable {α β : Type} {e : Emission α} {f : α → Emission β}

theorem first (h : Needs e) : Needs (e >>= f) := by
  intro env s b u ran
  obtain ⟨a, t, ran, _⟩ := Emission.run_bind_eq_ok.1 ran
  exact h env s a t ran

theorem later (h : ∀ a, Needs (f a)) : Needs (e >>= f) := by
  intro env s b u ran
  obtain ⟨a, t, ran, ran'⟩ := Emission.run_bind_eq_ok.1 ran
  exact (Emission.emits_of_run ran).hasPlace_iff.1 (h a env t b u ran')

theorem ite {p : Prop} [Decidable p] {yes no : Emission α} (hyes : Needs yes) (hno : Needs no) :
    Needs (if p then yes else no) := by
  split
  · exact hyes
  · exact hno

/-- Instructions have to be put somewhere. -/
theorem push {op : Op} {type? result? : Option Id} {args : List Arg} :
    Needs (Emission.push op type? result? args) := by
  intro env s a t ran
  obtain ⟨c, placed, _⟩ := Emission.run_push_eq_ok.1 ran
  unfold Spirv.Builder.push at placed
  split at placed
  · next function block =>
    exact ⟨Option.isSome_of_eq_some function, Option.isSome_of_eq_some block⟩
  all_goals cases placed

theorem emit {op : Op} {args : List Arg} : Needs (Lower.emit op args) :=
  push

theorem emitValue {op : Op} {type : Id} {args : List Arg} :
    Needs (Lower.emitValue op type args) :=
  later fun _ => first push

end Needs

namespace Lower

variable {w : World} {env : Environment} {s : State} {μ : Invocation}

/-- What a scalar operand supplies, read as bits. -/
theorem readScalar_looks (op : Operand) : Looks w env (readScalar op .u32) s μ fun id t ν =>
    ∃ a, t.Knows ν.processor id (.words [a]) ∧
      ∀ u, t.Maintains u → op.word? w.device env u μ.memory 0 = some a := by
  have number : ScalarType.ofData op.data ≠ .bool := by cases op.data <;> decide
  refine .bind (readOperand_delivers op .x s μ rfl) fun v t ν since _ h => ?_
  obtain ⟨g, words, carries⟩ := h
  refine .bind (.of_reads (bitcast_steady v .u32)
    (bitcast_reads number (carries (by decide)) .u32)) fun v u κ since' _ cast => .pure fun _ => ?_
  exact ⟨g 0, cast.knows, fun u' later => words u' (since'.maintains.trans later) 0⟩

/-- The first components that a vector operand supplies, read as bits. -/
theorem readVector_looks (op : Operand) {count : Nat} (some_ : 0 < count) (few : count ≤ 4) :
    Looks w env (readVector op count .u32) s μ fun v t ν =>
      ∃ g, t.Carries ν.processor v .u32 (List.range count) g ∧
        ∀ u, t.Maintains u → ∀ c, op.word? w.device env u μ.memory c = some (g c) := by
  have number : ScalarType.ofData op.data ≠ .bool := by cases op.data <;> decide
  have all : (WriteMask.firstN count).components = List.range count :=
    WriteMask.components_firstN few
  have any : (WriteMask.firstN count).components ≠ [] := by
    rw [all, Ne, List.range_eq_nil]
    omega
  refine .bind (readOperand_delivers op (.firstN count) s μ rfl) fun v t ν since _ h => ?_
  obtain ⟨g, words, carries⟩ := h
  refine (Looks.of_reads (bitcast_steady v .u32)
    (bitcast_reads number (carries any) .u32)).mono fun v u κ since' _ cast => ?_
  rw [all] at cast
  exact ⟨g, cast, fun u' later => words u' (since'.maintains.trans later)⟩

theorem dwordAt_steady (bytes : Id) : IsSteady env (dwordAt bytes) :=
  .bind (scalarType_steady _) fun _ => .bind (constant_steady _ _) fun _ => .emitValue rfl _ _

theorem structureByte_steady (stride : UInt32) (element offset : Id) :
    IsSteady env (structureByte stride element offset) :=
  .bind (scalarType_steady _) fun _ => .bind (constant_steady _ _) fun _ =>
    .bind (.emitValue rfl _ _) fun _ => .emitValue rfl _ _

theorem dwordAt_looks {bytes : Id} {b : UInt32} (known : s.Knows μ.processor bytes (.words [b])) :
    Looks w env (dwordAt bytes) s μ fun id t ν => t.Knows ν.processor id (.words [b >>> 2]) := by
  refine .of_reads (P := fun id t κ => t.Knows κ id (.words [b >>> 2])) (dwordAt_steady bytes) ?_
  refine .bind (scalarType_reads .u32) fun word t ν later _ => ?_
  refine .bind (constant_reads (by decide) 2) fun two u κ later' isTwo => ?_
  exact number_reads rfl (later'.knows (later.knows known)) (.of_constant later'.ready isTwo) rfl

theorem structureDword_looks {element offset : Id} {e b : UInt32} (stride : UInt32)
    (he : s.Knows μ.processor element (.words [e]))
    (hb : s.Knows μ.processor offset (.words [b])) :
    Looks w env (structureByte stride element offset >>= dwordAt) s μ fun id t ν =>
      t.Knows ν.processor id (.words [structureDword stride e b]) :=
  .of_reads (P := fun id t κ => t.Knows κ id (.words [structureDword stride e b]))
    (.bind (structureByte_steady _ _ _) fun _ => dwordAt_steady _)
    (structureByte_reads stride he hb)

/-- The dword at an offset of raw memory. -/
theorem firstDword_raw_looks {stride : UInt32} (offset : Operand) :
    Looks w env (firstDword stride none offset) s μ fun id t ν =>
      ∃ b : UInt32, t.Knows ν.processor id (.words [b >>> 2]) ∧
        ∀ u, t.Maintains u → offset.word? w.device env u μ.memory 0 = some b := by
  refine .bind (readScalar_looks offset) fun bytes t ν _ _ h => ?_
  obtain ⟨b, known, words⟩ := h
  refine .pure_bind ((dwordAt_looks known).mono fun id u κ since _ dword => ?_)
  exact ⟨b, dword, fun v later => words v (since.maintains.trans later)⟩

/-- The dword at an offset of a structure. -/
theorem firstDword_structured_looks (stride : UInt32) (element offset : Operand) :
    Looks w env (firstDword stride (some element) offset) s μ fun id t ν =>
      ∃ e b, t.Knows ν.processor id (.words [structureDword stride e b]) ∧
        ∀ u, t.Maintains u → element.word? w.device env u μ.memory 0 = some e ∧
          offset.word? w.device env u μ.memory 0 = some b := by
  refine .bind (readScalar_looks offset) fun bytes t ν since unmoved h => ?_
  obtain ⟨b, hb, offsets⟩ := h
  refine .bind (readScalar_looks element) fun number u κ since' _ h => ?_
  obtain ⟨e, he, elements⟩ := h
  refine (structureDword_looks stride he (since'.knows hb)).mono
    fun id v ξ since'' _ dword => ⟨e, b, dword, fun x later => ⟨?_, ?_⟩⟩
  · rw [← unmoved.memory]
    exact elements x (since''.maintains.trans later)
  · exact offsets x ((since'.trans since'').maintains.trans later)

/-- The dword that the address of an atomic names. Structured memory takes both numbers from it. -/
theorem atomicDword_looks (array : DwordArray) (address : Operand) :
    Looks w env (atomicDword array address) s μ fun id t ν =>
      ∃ e b, t.Knows ν.processor id (.words [array.dword e b]) ∧ ∀ u, t.Maintains u →
        if array.stride = 0 then e = 0 ∧ address.word? w.device env u μ.memory 0 = some b
        else address.word? w.device env u μ.memory 0 = some e ∧
          address.word? w.device env u μ.memory 1 = some b := by
  refine .ite (fun raw => ?_) fun structured => ?_
  · refine (firstDword_raw_looks address).mono fun id t ν _ _ h => ?_
    obtain ⟨b, dword, words⟩ := h
    rw [← DwordArray.dword_raw (e := 0) raw] at dword
    refine ⟨0, b, dword, fun u later => ?_⟩
    rw [if_pos raw]
    exact ⟨rfl, words u later⟩
  · refine .bind (readVector_looks address (by decide) (by decide)) fun v t ν since unmoved h => ?_
    obtain ⟨g, carries, words⟩ := h
    refine .bind (.of_reads (extract_steady v 0) (extract_reads carries (by decide) (by decide)))
      fun element t₁ ν₁ since₁ _ first => ?_
    refine .bind (.of_reads (extract_steady v 1)
      (extract_reads ⟨carries.type, since₁.knows carries.knows⟩ (by decide) (by decide)))
      fun offset t₂ ν₂ since₂ _ second => ?_
    refine (structureDword_looks array.stride (since₂.knows first.knows) second.knows).mono
      fun id u κ since₃ _ dword => ?_
    have both : t.Maintains u := ((since₁.trans since₂).trans since₃).maintains
    refine ⟨g 0, g 1, ?_, fun u' later => ?_⟩
    · rwa [DwordArray.dword_structured structured]
    · rw [if_neg structured]
      exact ⟨words u' (both.trans later) 0, words u' (both.trans later) 1⟩

theorem dwordAfter_looks {first : Id} {n : UInt32} {count : Nat}
    (known : s.Knows μ.processor first (.words [n])) :
    Looks w env (dwordAfter first count) s μ fun id t ν =>
      t.Knows ν.processor id (.words [n + .ofNat count]) := by
  refine .ite (fun zero => .pure fun _ => ?_) fun _ => ?_
  · rw [zero]
    exact (UInt32.add_zero n).symm ▸ known
  · have sum : Op.number? w.device .iAdd [n, .ofNat count] = some (n + .ofNat count) := rfl
    refine .bind (.of_reads (scalarType_steady .u32) (scalarType_reads .u32))
      fun word t ν since _ _ => ?_
    refine .bind (constant_looks (.ofNat count)) fun number u κ since' _ is => ?_
    exact .of_reads (P := fun id t κ => t.Knows κ id (.words [n + .ofNat count]))
      (.emitValue rfl _ _) (number_reads rfl (since'.knows (since.knows known)) is sum)

theorem resource_run {op : Operand} {slot : UInt32} {r : Resource} (index : op.index? 0 = some slot)
    (is : op.type = .resource ∧ s.textures.find? slot = some r ∨
      op.type = .uav ∧ s.uavs.find? slot = some r) :
    (resource op).run env s = (.ok r, s) := by
  unfold resource orFault
  rw [index, run_idle_bind (a := slot) rfl]
  rcases is with ⟨type, found⟩ | ⟨type, found⟩
  · rw [type]
    dsimp only
    rw [run_idle_bind (a := s) rfl, found]
    rfl
  · rw [type]
    dsimp only
    rw [run_idle_bind (a := s) rfl, found]
    rfl

/-- An operand that names dwords finds them as they were declared. -/
theorem dwordArray_run {op : Operand} {array : DwordArray} (is : s.dwordArray? op = some array) :
    (dwordArray op).run env s = (.ok array, s) := by
  have view {slot : UInt32} {r : Resource} (other : op.type ≠ .threadGroupSharedMemory)
      (index : op.index? 0 = some slot)
      (found : op.type = .resource ∧ s.textures.find? slot = some r ∨
        op.type = .uav ∧ s.uavs.find? slot = some r)
      (is : (if r.image?.isSome then none else
        some (⟨r.variable_, .storageBuffer, r.stride⟩ : DwordArray)) = some array) :
      (dwordArray op).run env s = (.ok array, s) := by
    unfold dwordArray
    rw [if_neg other, run_idle_bind (resource_run index found)]
    split at is
    · cases is
    · next untyped =>
      cases is
      rw [if_neg untyped]
      rfl
  unfold State.dwordArray? at is
  split at is
  · next type =>
    obtain ⟨reg, index, is⟩ := Option.bind_eq_some_iff.1 is
    obtain ⟨memory, found, same⟩ := Option.bind_eq_some_iff.1 is
    cases same
    unfold dwordArray orFault
    rw [if_pos type, index, run_idle_bind (a := reg) rfl, run_idle_bind (a := s) rfl, found]
    rfl
  · next type =>
    obtain ⟨slot, index, is⟩ := Option.bind_eq_some_iff.1 is
    obtain ⟨r, found, is⟩ := Option.bind_eq_some_iff.1 is
    exact view (by rw [type]; decide) index (.inl ⟨type, found⟩) is
  · next type =>
    obtain ⟨slot, index, is⟩ := Option.bind_eq_some_iff.1 is
    obtain ⟨r, found, is⟩ := Option.bind_eq_some_iff.1 is
    exact view (by rw [type]; decide) index (.inr ⟨type, found⟩) is
  · cases is

/-- The variable behind dwords is known for good. -/
theorem dwordArray_leads {op : Operand} {array : DwordArray} (settled : s.Settled env)
    (is : s.dwordArray? op = some array) :
    s.Leads μ array.variable_ ⟨array.variable_, []⟩ := by
  refine .of_variable settled.sound ?_
  unfold State.dwordArray? at is
  split at is
  · obtain ⟨reg, index, is⟩ := Option.bind_eq_some_iff.1 is
    obtain ⟨memory, found, same⟩ := Option.bind_eq_some_iff.1 is
    cases same
    exact settled.furnished.groupMemory.find? found
  · obtain ⟨slot, index, is⟩ := Option.bind_eq_some_iff.1 is
    obtain ⟨r, found, is⟩ := Option.bind_eq_some_iff.1 is
    split at is
    · cases is
    · cases is
      exact settled.furnished.textures.find? found
  · obtain ⟨slot, index, is⟩ := Option.bind_eq_some_iff.1 is
    obtain ⟨r, found, is⟩ := Option.bind_eq_some_iff.1 is
    split at is
    · cases is
    · cases is
      exact settled.furnished.uavs.find? found
  · cases is

/-- A pointer to a dword leads to its place. -/
theorem dwordPointer_looks {array : DwordArray} {index : Id} {n : UInt32}
    (start : s.Leads μ array.variable_ ⟨array.variable_, []⟩)
    (known : s.Knows μ.processor index (.words [n])) :
    Looks w env (dwordPointer array index) s μ fun id t ν => t.Leads ν id (array.place n) := by
  refine .bind (.of_reads (scalarType_steady .u32) (scalarType_reads .u32))
    fun word t ν since _ _ => ?_
  refine .bind (.of_reads (pointerType_steady word array.storage) (declareType_reads _))
    fun pointer t₁ ν₁ since₁ _ _ => ?_
  have start := since₁.leads (since.leads start)
  have known := since₁.knows (since.knows known)
  refine .ite (fun group => ?_) fun buffer => ?_
  · refine (accessChain_looks start (.cons known .nil)).mono fun id u κ _ _ leads => ?_
    rw [DwordArray.place, if_pos group]
    exact leads
  · refine .bind (constant_looks 0) fun member t₂ ν₂ since₂ _ zero => ?_
    refine (accessChain_looks (since₂.leads start)
      (.cons zero (.cons (since₂.knows known) .nil))).mono fun id u κ _ _ leads => ?_
    rw [DwordArray.place, if_neg buffer]
    exact leads

/-- The dword that lies some components behind another, read. -/
theorem readDword_looks {array : DwordArray} {word first : Id} {n : UInt32} {count : Nat}
    (start : s.Leads μ array.variable_ ⟨array.variable_, []⟩)
    (known : s.Knows μ.processor first (.words [n]))
    (is : s.builder.module.IsVector (.single .u32) word) :
    Looks w env (do
      let index ← dwordAfter first count
      let pointer ← dwordPointer array index
      loadFrom word pointer) s μ fun id t ν =>
        t.Knows ν.processor id (.words [μ.memory (array.place (n + .ofNat count))]) := by
  refine .bind (dwordAfter_looks known) fun index t ν since unmoved number => ?_
  refine .bind (dwordPointer_looks (since.leads start) number)
    fun pointer t₁ ν₁ since₁ unmoved₁ leads => ?_
  have type := is.mono (since.trans since₁).grows
  refine (loadFrom_looks leads type (by decide) (by decide) (by decide)).mono
    fun id u κ _ _ loaded => ?_
  rw [(unmoved.trans unmoved₁).memory] at loaded
  exact loaded

end Lower

end ShaderLowering
