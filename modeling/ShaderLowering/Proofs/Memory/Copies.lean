import ShaderLowering.Proofs.Memory.Dwords
import ShaderLowering.Proofs.Memory.Transits

/-!
Copies between the interface and the register arrays. What a copy does is known word for word, but
for the constants of a patch: of those it is known which variables are stored to, one after the
other.
-/

namespace ShaderLowering

open Spirv (Id Instr Arg Op Module StorageClass BuiltIn Invocation World Address Memory Event)

open Lower (asIndex verticesOf)

section Values

variable {w : World} {env : Environment} {s t : State} {μ ν : Invocation} {v : Value}
  {mask : WriteMask} {g : Nat → UInt32}

/-- A value can be stored under a mask, and has the word for each of its components. -/
def State.Offers (s : State) (μ : Invocation) (v : Value) (mask : WriteMask) (g : Nat → UInt32) :
    Prop :=
  ∃ ws, ws ≠ [] ∧ s.Holds μ.processor v ws ∧
    (mask.components ≠ [] → v.type.count = 1 ∨ mask.count ≤ v.type.count) ∧
    ∀ c ∈ mask.components, v.wordFor mask ws c = g c

theorem State.Offers.since (h : s.Offers μ v mask g) (since : State.Since env s μ t ν) :
    t.Offers ν v mask g := by
  obtain ⟨ws, some_, ⟨size, known⟩, wide⟩ := h
  refine ⟨ws, some_, ⟨size, ?_⟩, wide⟩
  split at known
  · next truth =>
    obtain ⟨truths, known, same⟩ := known
    rw [if_pos truth]
    exact ⟨truths, since.knows known, same⟩
  · next number =>
    rw [if_neg number]
    exact since.knows known

/-- A single number goes under any mask. -/
theorem State.Carries.offers {scalar : ScalarType} {c : Nat}
    (h : s.Carries μ.processor v scalar [c] g) (number : scalar ≠ .bool) :
    s.Offers μ v mask fun _ => g c := by
  have one : v.type.count = 1 := congrArg VectorType.count h.type
  refine ⟨[g c], List.cons_ne_nil _ _, h.holds number, fun _ => .inl one, fun _ _ => ?_⟩
  rw [Value.wordFor, if_pos one]
  rfl

namespace Lower

theorem IsBuiltin.holder? {builtin : BuiltIn} {storage : StorageClass} {b : BuiltinVariable}
    (made : IsBuiltin env t builtin storage b) :
    t.holder? (.port (.builtin builtin storage)) = some b.id :=
  congrArg (Option.map _) made.found

theorem bitcast_offers (h : s.Offers μ v mask g) {scalar : ScalarType}
    (number : scalar ≠ .bool) : Looks w env (bitcast v scalar) s μ fun u t ν =>
      u.type.scalar = scalar ∧ t.Offers ν u mask g := by
  obtain ⟨ws, some_, holds, wide, words⟩ := h
  have size : ws.length = v.type.count := holds.1
  refine (Looks.of_reads (bitcast_steady v scalar) (bitcast_holds holds some_ number)).mono
    fun u t ν _ _ carries => ?_
  have count : u.type.count = v.type.count := by
    rw [carries.type, ← size]
    exact List.length_range
  refine ⟨congrArg VectorType.scalar carries.type, ws, some_, ?_, ?_, fun c mem => ?_⟩
  · have same := carries.holds number
    rwa [map_range_getD] at same
  · rwa [count]
  · rw [Value.wordFor, count]
    exact words c mem

/-- The components of a mask of a vector. -/
theorem selectMask_offers {scalar : ScalarType}
    (h : s.Carries μ.processor v scalar (List.range 4) g)
    (number : scalar ≠ .bool) (mask : WriteMask) :
    Looks w env (selectMask v mask) s μ fun u t ν => t.Offers ν u mask g := by
  by_cases any : mask.components = []
  · -- Nothing is selected of a value that is not stored either.
    unfold selectMask swizzle
    rw [any]
    refine .pure fun _ => ⟨(List.range 4).map g, List.cons_ne_nil _ _, h.holds number,
      fun other => absurd any other, fun c mem => ?_⟩
    rw [any] at mem
    cases mem
  · refine (Looks.of_reads (swizzle_steady v mask.components) (swizzle_range_reads number h
      (Nat.le_refl 4) fun i hi => WriteMask.lt_of_mem_components hi)).mono
      fun u t ν _ _ picked => ?_
    obtain ⟨cs, all, carries⟩ := picked
    obtain rfl := all any
    have count : u.type.count = mask.count := congrArg VectorType.count carries.type
    refine ⟨_, ?_, carries.holds number, fun _ => .inr (Nat.le_of_eq count.symm), fun c mem => ?_⟩
    · rwa [Ne, List.map_eq_nil_iff]
    · rw [Value.wordFor_map count _ mem, if_pos (WriteMask.lt_of_mem_components mem)]

/-- What a store does. It does nothing if nothing is to be stored. -/
theorem storeMasked_fills {p : Pointer} {q : Address} (leads : s.Leads μ p.id q)
    (number : p.type.scalar ≠ .bool) (few : p.type.count ≤ 4)
    (within_ : ∀ c ∈ mask.components, c < p.type.count) (offers : s.Offers μ v mask g) :
    Performs w env (storeMasked p v mask) s μ fun _ _ ν =>
      μ.Filled ν (mask.components.map fun c => (q.component p.type.count c, g c)) := by
  by_cases none_ : mask.isEmpty = true
  · have empty : mask.components = [] :=
      List.filter_eq_nil_iff.2 fun c _ => Bool.eq_false_iff.1 ((mask.isEmpty_iff).1 none_ c)
    unfold storeMasked
    rw [if_pos none_, empty]
    exact Performs.pure fun _ => .of_unmoved (.refl μ)
  · have some_ := WriteMask.components_ne_nil none_
    obtain ⟨ws, _, holds, wide, words⟩ := offers
    refine (storeMasked_performs leads number few within_ some_ (wide some_) holds).mono
      fun _ t ν _ stored => ?_
    rw [← List.map_congr_left fun c mem => congrArg (Prod.mk _) (words c mem)]
    exact .of_stored within_ some_ stored

/-- A store of things whose words are given. -/
theorem storeMasked_given {ι : Type} {F : Flow ι} {place : Nat → ι} {p : Pointer} {q : Address}
    (leads : s.Leads μ p.id q) (number : p.type.scalar ≠ .bool) (few : p.type.count ≤ 4)
    (within_ : ∀ c ∈ mask.components, c < p.type.count) (offers : s.Offers μ v mask g)
    (target : ∀ u, s.Maintains u → ∀ c ∈ mask.components,
      F.target u (place c) = some (q.component p.type.count c)) :
    Conveys w env F.given.Filled (mask.components.map fun c => (place c, g c))
    (storeMasked p v mask)
      s μ := by
  refine (storeMasked_fills leads number few within_ offers).mono fun _ t ν since filled =>
    ⟨trivial, fun u maintains _ => ⟨_, ?_, filled⟩⟩
  have targets := target u (since.maintains.trans maintains)
  generalize mask.components = cs at targets
  induction cs with
  | nil => rfl
  | cons c rest ih =>
    have first : F.given.cell? u μ.memory (place c, g c) =
      some (q.component p.type.count c, g c) := by
      rw [Flow.cell?, Flow.given, targets c List.mem_cons_self]
      rfl
    rw [List.map_cons, List.mapM_cons, first, ih fun c' mem =>
      targets c' (List.mem_cons_of_mem _ mem)]
    rfl

/-- A store to the variable that its place is in. -/
theorem storeMasked_visits {r : Role} {p : Pointer} {q : Address}
    (is : s.holder? r = some q.variable_) (leads : s.Leads μ p.id q)
    (number : p.type.scalar ≠ .bool) (few : p.type.count ≤ 4)
    (within_ : ∀ c ∈ mask.components, c < p.type.count) (offers : s.Offers μ v mask g) :
    Conveys w env State.Visited (if mask.isEmpty then [] else [r]) (storeMasked p v mask) s μ := by
  by_cases none_ : mask.isEmpty = true
  · unfold storeMasked
    rw [if_pos none_, if_pos none_]
    exact .pure trivial
  · have some_ := WriteMask.components_ne_nil none_
    obtain ⟨ws, _, holds, wide, _⟩ := offers
    rw [if_neg none_]
    refine (storeMasked_performs leads number few within_ some_ (wide some_) holds).mono
      fun _ t ν since stored => ⟨trivial, fun u maintains _ => ?_⟩
    exact .of_stored ((since.maintains.trans maintains).holder? is) stored

end Lower

end Values

/-- A location variable holds four numbers. -/
def State.HasVector (s : State) (l : LocationVariable) : Prop :=
  s.builder.module.DefinesVariable l.id ∧ l.type.count = 4 ∧ l.type.scalar ≠ .bool

theorem State.HasVector.since {env : Environment} {s t : State} {μ ν : Invocation}
    {l : LocationVariable} (h : s.HasVector l) (since : State.Since env s μ t ν) : t.HasVector l :=
  ⟨h.1.mono since.grows, h.2⟩

/-- What a register has for a location is such a variable. -/
def State.Draws (s : State) (r : InterfaceRegister) : Prop :=
  ∀ l, r.location? = some l → s.HasVector l

theorem State.Draws.since {env : Environment} {s t : State} {μ ν : Invocation}
    {r : InterfaceRegister} (h : s.Draws r) (since : State.Since env s μ t ν) : t.Draws r :=
  fun l is => (h l is).since since

namespace WriteMask

theorem first_lt (mask : WriteMask) : mask.first?.getD 0 < 4 := by
  cases first : mask.first? with
  | none => decide
  | some c => exact lt_of_mem_components (List.mem_of_mem_head? first)

theorem component_not_isEmpty {c : Nat} (low : c < 4) : ¬(component c).isEmpty = true := by
  match c, low with
  | 0, _ | 1, _ | 2, _ | 3, _ => decide

end WriteMask

namespace Lower

theorem inputVertexCount_run {env : Environment} {s : State} :
    inputVertexCount.run env s = (.ok (s.vertexCount env), s) := by
  cases env with
  | mk stage => cases stage <;> rfl

theorem verticesOf_zero {count : Nat} (zero : count = 0) : verticesOf count = [none] :=
  if_pos zero

theorem verticesOf_pos {count : Nat} (some_ : count ≠ 0) :
    verticesOf count = (List.range count).map some :=
  if_neg some_

section Inputs

variable {w : World} {env : Environment} {s : State} {μ : Invocation} {v : Value}
  {mask : WriteMask} {g : Nat → UInt32}

theorem constantU32_looks (n : Nat) : Looks w env (constantU32 n) s μ fun id t ν =>
    t.Knows ν.processor id (.words [.ofNat n]) :=
  constant_looks _

theorem numbers_looks (n? : Option Nat) : Looks w env (n?.mapM constantU32) s μ fun id? t ν =>
    Numbered t ν id? (n?.map .ofNat) := by
  cases n? with
  | none => exact .pure fun _ => .none
  | some n => exact .bind (constantU32_looks n) fun id t ν _ _ known => .pure fun _ => .some known

theorem inputPointer_looks {vertex? : Option Id} {v? : Option UInt32} {reg : Id} {r : UInt32}
    (vertex : Numbered s μ vertex? v?) (known : s.Knows μ.processor reg (.words [r])) :
    Looks w env (inputPointer vertex? reg) s μ fun p t ν => p.type = float4 ∧ ∃ array,
      t.inputArray? = some array ∧ t.Leads ν p.id ⟨array, (v?.toList ++ [r]).map UInt32.toNat⟩ := by
  refine .bind inputArray_looks fun array t ν since _ h => ?_
  have numbers := List.rel_append (vertex.since since).toList
    (.cons (since.knows known) .nil : List.Forall₂ _ [reg] [r])
  refine (chain_looks h.2 numbers).mono fun p u κ since' _ led => ⟨led.1, array, ?_, led.2⟩
  exact since'.maintains.within_.inputArray array h.1

/-- The vertices that an input is written for: the one that is named, or all there are. -/
def writtenVertices (env : Environment) (s : State) (vertex? : Option Nat) : List (Option Nat) :=
  vertex?.elim (verticesOf (s.vertexCount env)) fun v => [some v]

theorem writtenVertices_since {t : State} {ν : Invocation} (since : State.Since env s μ t ν)
    (vertex? : Option Nat) : writtenVertices env t vertex? = writtenVertices env s vertex? := by
  rw [writtenVertices, since.maintains.vertexCount]
  rfl

theorem writeInput_given (vertex? : Option Nat) (reg : UInt32) (k : Carrier)
    (offers : s.Offers μ v mask g) :
    Conveys w env (intake w env).given.Filled ((writtenVertices env s vertex?).flatMap fun v =>
      mask.components.map fun c => (⟨reg, v, c, k⟩, g c)) (writeInput vertex? reg mask v) s μ := by
  unfold writeInput
  refine .after (constant_looks reg) fun regId t ν since _ known => ?_
  refine .after (bitcast_offers (offers.since since) (by decide)) fun u t₁ ν₁ since₁ _ h => ?_
  have loop (vertices : List (Option Nat)) : Conveys w env (intake w env).given.Filled
      (vertices.flatMap fun v => mask.components.map fun c => (⟨reg, v, c, k⟩, g c)) (do
        for vertex? in vertices do
          let vertexId? ← vertex?.mapM constantU32
          let p ← inputPointer vertexId? regId
          storeMasked p u mask) t₁ ν₁ := by
    refine .last (.forIn fun vertex? _ c t₂ ν₂ since₂ _ => ?_) trivial
    refine .after (numbers_looks vertex?) fun vertexId? t₃ ν₃ since₃ _ vertex => ?_
    have since := since₂.trans since₃
    refine .after (inputPointer_looks vertex (since.knows (since₁.knows known)))
      fun p t₄ ν₄ since₄ _ led => ?_
    obtain ⟨type, array, here_, leads⟩ := led
    refine .last (storeMasked_given leads (by rw [type]; decide) (by rw [type]; decide)
      (fun c hc => by rw [type]; exact WriteMask.lt_of_mem_components hc)
      ((h.2.since since).since since₄) fun u maintains c _ => ?_) ⟨_, rfl⟩
    have there : u.inputArray? = some array := maintains.within_.inputArray array here_
    rw [type, Address.component_several (by decide)]
    refine (congrArg (Option.map _) there).trans ?_
    cases vertex? <;> rfl
  unfold writtenVertices
  split
  · exact .pure_bind (loop _)
  · refine .idle_bind inputVertexCount_run (.pure_bind ?_)
    rw [(since.trans since₁).maintains.vertexCount]
    exact loop _

/-- What a value brings to an input register, if it has the words that are to arrive. -/
theorem writeInput_conveys {vertex? : Option Nat} {vertices : List (Option Nat)} {reg : UInt32}
    {k : Carrier} (all : writtenVertices env s vertex? = vertices) (offers : s.Offers μ v mask g)
    (arrives : ∀ u, s.Maintains u → ∀ v ∈ vertices, ∀ c ∈ mask.components,
      Transit.word? w env u μ.memory ⟨reg, v, c, k⟩ = some (g c)) :
    Conveys w env (intake w env).Filled (transits vertices reg mask.components k)
      (writeInput vertex? reg mask v) s μ := by
  subst all
  have words : (transits (writtenVertices env s vertex?) reg mask.components k).map
      (fun i => (i, g i.component)) = (writtenVertices env s vertex?).flatMap fun v =>
        mask.components.map fun c => (⟨reg, v, c, k⟩, g c) := by
    rw [transits, List.map_flatMap]
    simp only [List.map_map]
    rfl
  refine .of_given (words ▸ writeInput_given vertex? reg k offers) fun u maintains i mem => ?_
  obtain ⟨v, hv, mem⟩ := List.mem_flatMap.1 mem
  obtain ⟨c, hc, rfl⟩ := List.mem_map.1 mem
  exact arrives u maintains v hv c hc

/-- What a location variable holds for a vertex. -/
theorem loadLocation_looks {location : LocationVariable} {vertex? : Option Nat}
    (variable_ : s.builder.module.DefinesVariable location.id) (four : location.type.count = 4)
    (number : location.type.scalar ≠ .bool) :
    Looks w env (loadLocation location vertex?) s μ fun v t ν =>
      t.Carries ν.processor v location.type.scalar (List.range 4) fun c =>
        μ.memory (Address.part
          ⟨location.id, (vertex?.map UInt32.ofNat).toList.map UInt32.toNat⟩ c) := by
  refine .bind (numbers_looks vertex?) fun vertexId? t ν since unmoved vertex => ?_
  have start := State.Leads.of_variable (μ := ν) since.settled.sound (variable_.mono since.grows)
  refine .bind (chain_looks start vertex.toList) fun p u κ since' unmoved' led => ?_
  obtain ⟨type, leads⟩ := led
  refine (load_looks leads ?_ ?_ ?_).mono fun v u' κ' _ _ carries => ?_
  · rwa [type]
  · rw [type, four]; decide
  · rw [type, four]; decide
  · rw [type, four, (unmoved.trans unmoved').memory] at carries
    exact carries.congr fun c _ => by rw [Address.component_several (by decide)]; rfl

/-- Only positions and distances are arrayed over vertices. -/
theorem isPerVertex_eq_false {stage : ShaderStage} {builtin : BuiltIn} {storage : StorageClass}
    (other : builtin ≠ .position ∧ builtin ≠ .clipDistance ∧ builtin ≠ .cullDistance) :
    isPerVertex stage builtin storage = false := by
  unfold isPerVertex
  rw [decide_eq_false other.1, decide_eq_false other.2.1, decide_eq_false other.2.2]
  exact Bool.and_false _

theorem IsBuiltin.path_single {b : BuiltinVariable} {builtin : BuiltIn}
    (made : IsBuiltin env s builtin .input b) (one : isPerVertex env.stage builtin .input = false)
    (vertex? : Option Nat) : b.path vertex? none = [] := by
  unfold BuiltinVariable.path
  rw [made.vertices one, if_neg (Nat.lt_irrefl 0)]
  split <;> rfl

/-- What lies in a built-in that is not arrayed lies there for every vertex. -/
theorem IsBuiltin.place? {b : BuiltinVariable} {builtin : BuiltIn} {u : State}
    (made : IsBuiltin env s builtin .input b) (one : isPerVertex env.stage builtin .input = false)
    (maintains : s.Maintains u) (vertex? : Option Nat) (c : Nat) :
    (Carrier.builtin builtin).place? u .input vertex? c =
      some (Address.component ⟨b.id, []⟩ b.type.count c) := by
  refine (congrArg (Option.map _) (maintains.within_.builtins _ _ made.found)).trans ?_
  rw [Option.map_some, made.path_single one]

theorem IsBuiltin.draw? {b : BuiltinVariable} {builtin : BuiltIn} {u : State}
    (made : IsBuiltin env s builtin .input b) (maintains : s.Maintains u) (memory : Memory) :
    u.draw? memory builtin = some (memory ⟨b.id, []⟩) :=
  congrArg (Option.map _) (maintains.within_.builtins _ _ made.found)

/-- What a built-in that is one integer brings to an input register, if that arrives. -/
theorem IsBuiltin.arrives {b : BuiltinVariable} {builtin : BuiltIn} {u : State} {memory : Memory}
    (made : IsBuiltin env s builtin .input b) (one : isPerVertex env.stage builtin .input = false)
    (single : b.type.count = 1) (maintains : s.Maintains u) (reg : UInt32) (vertex? : Option Nat)
    (c : Nat) : Transit.word? w env u memory ⟨reg, vertex?, c, .builtin builtin⟩ =
      (Carrier.builtin builtin).arrive? w env u memory c (memory ⟨b.id, []⟩) := by
  unfold Transit.word?
  rw [made.place? one maintains, Option.bind_some, single,
    Address.component_single (Nat.le_refl 1)]

/-- A built-in that holds one integer. -/
theorem loadInteger_looks {builtin : BuiltIn}
    (integer : ∀ a, builtinShape a builtin .input = (.single .i32, 0)) :
    Looks w env (loadBuiltin builtin none none) s μ fun v t ν =>
      ∃ b, IsBuiltin env t builtin .input b ∧ b.type = .single .i32 ∧
        t.Carries ν.processor v .i32 [0] fun _ => μ.memory ⟨b.id, []⟩ := by
  have number : builtin ≠ .frontFacing := by
    rintro rfl
    cases integer env.analysis
  refine (loadBuiltin_looks number .none .none).mono fun v t ν _ _ h => ?_
  obtain ⟨b, made, carries⟩ := h
  have type : b.type = .single .i32 := congrArg Prod.fst (made.shape.trans (integer _))
  rw [type, Option.map_none, BuiltinVariable.path_none] at carries
  exact ⟨b, made, type, carries.congr fun c hc => by rw [List.mem_singleton.1 hc]; rfl⟩

theorem copyBuiltin_conveys {builtin : BuiltIn}
    (integer : ∀ a, builtinShape a builtin .input = (.single .i32, 0))
    (one : builtin ≠ .position ∧ builtin ≠ .clipDistance ∧ builtin ≠ .cullDistance)
    (plain : ∀ u memory c x,
      (Carrier.builtin builtin).arrive? w env u memory c x = some x) (reg : UInt32) :
    Conveys w env (intake w env).Filled
      (transits (verticesOf (s.vertexCount env)) reg mask.components (.builtin builtin))
      (copyBuiltin builtin reg mask) s μ := by
  refine .after (loadInteger_looks integer) fun v t ν since unmoved h => ?_
  obtain ⟨b, made, type, carries⟩ := h
  refine writeInput_conveys (writtenVertices_since since none) (carries.offers (by decide))
    fun u maintains vertex? _ c _ => ?_
  rw [made.arrives (isPerVertex_eq_false one) (congrArg VectorType.count type) maintains, plain,
    unmoved.memory]

theorem requireExtension_looks (text : String) :
    Looks w env (requireExtension text) s μ fun _ _ _ => True := by
  refine .of_reads (P := fun _ _ _ => True)
    (.state_bind fun _ => .ite (.pure _) (.note (fun _ _ h => h) fun _ => rfl)) (.state_bind ?_)
  exact .ite (fun _ => .pure fun _ => trivial) fun _ => .note fun _ _ h => h

theorem requireExtensionBefore_looks (major minor : UInt8) (text : String) :
    Looks w env (requireExtensionBefore major minor text) s μ fun _ _ _ => True := by
  refine .read_bind (.ite (fun _ => .pure fun _ => trivial) fun _ => requireExtension_looks text)

theorem loadDrawParameter_looks {builtin : BuiltIn}
    (integer : ∀ a, builtinShape a builtin .input = (.single .i32, 0)) :
    Looks w env (loadDrawParameter builtin) s μ fun v t ν =>
      ∃ b, IsBuiltin env t builtin .input b ∧
        t.Carries ν.processor v .i32 [0] fun _ => μ.memory ⟨b.id, []⟩ := by
  refine .bind (requireCapability_stays _).looks fun _ t ν _ unmoved _ => ?_
  refine .bind (requireExtensionBefore_looks _ _ _) fun _ t₁ ν₁ _ unmoved₁ _ => ?_
  refine (loadInteger_looks integer).mono fun v u κ _ _ h => ?_
  obtain ⟨b, made, _, carries⟩ := h
  rw [(unmoved.trans unmoved₁).memory] at carries
  exact ⟨b, made, carries⟩

/-- A number that counts from a base. -/
theorem subtract_looks {int x y : Id} {a b : UInt32} (hx : s.Knows μ.processor x (.words [a]))
    (hy : s.Knows μ.processor y (.words [b])) :
    Looks w env (emitValue .iSub int [.id x, .id y]) s μ fun id t ν =>
      t.Knows ν.processor id (.words [a - b]) :=
  .of_reads (P := fun id t κ => t.Knows κ id (.words [a - b])) (.emitValue rfl _ _)
    (number_reads rfl hx hy rfl)

/-- Whether a face is at the front. -/
theorem loadFacing_looks : Looks w env (loadBuiltin .frontFacing none none) s μ fun v t ν =>
    ∃ b, IsBuiltin env t .frontFacing .input b ∧ b.type = .single .bool ∧
      t.Decides ν.processor v [0] fun _ => μ.memory ⟨b.id, []⟩ ≠ 0 := by
  refine .bind (builtinPointer_looks .none .none) fun p t ν _ unmoved h => ?_
  obtain ⟨b, made, type, leads⟩ := h
  rw [Option.map_none, BuiltinVariable.path_none] at leads
  have shape : b.type = .single .bool := congrArg Prod.fst made.shape
  refine (loadTruth_looks leads (type.trans shape)).mono fun v u κ since _ decides => ?_
  rw [unmoved.memory] at decides
  exact ⟨b, made.later since.maintains since.grows, shape, decides⟩

/-- A quotient of floats, as the device computes it. -/
theorem divide_looks {float x y : Id} {a b : UInt32} (hx : s.Knows μ.processor x (.words [a]))
    (hy : s.Knows μ.processor y (.words [b])) :
    Looks w env (emitValue .fDiv float [.id x, .id y]) s μ fun id t ν =>
      t.Knows ν.processor id (.words [w.device.float .fDiv [a, b]]) := by
  refine emitValue_looks rfl fun n grows distinct => ?_
  have hold : s.Hold μ.processor [0] [x, y] [fun _ => a, fun _ => b] := .cons hx (.cons hy .nil)
  have lanes := hold.lanes? (f := fun ws => some (w.device.float .fDiv ws))
    (g := fun _ => w.device.float .fDiv [a, b]) (List.cons_ne_nil _ _) (fun _ _ => rfl)
      grows distinct
  have unfolded : w.act? n μ
      ⟨.ordinary .fDiv, some float, some s.builder.nextId, [.id x, .id y]⟩ =
        ((Spirv.Device.lanes? n μ.processor (fun ws => some (w.device.float .fDiv ws))
          ([x, y].map .id)).map Spirv.Datum.words).bind fun x =>
            some { μ with values := Function.update μ.values s.builder.nextId (some x) } := rfl
  rw [unfolded, lanes]
  rfl

/-- A vector with another word in one component. -/
theorem insert_looks {vector part whole : Id} {a : UInt32} {n : Nat} {g : Nat → UInt32} {k : UInt32}
    (hpart : s.Knows μ.processor part (.words [a]))
    (hwhole : s.Knows μ.processor whole (.words ((List.range n).map g))) :
    Looks w env (emitValue .compositeInsert vector [.id part, .id whole, .word k]) s μ fun id t ν =>
      t.Knows ν.processor id (.words ((List.range n).map (Function.update g k.toNat a))) := by
  refine emitValue_looks rfl fun m grows distinct => ?_
  have inserted : ((List.range n).map g).set k.toNat a =
      (List.range n).map (Function.update g k.toNat a) := by
    refine List.ext_getElem (by simp) fun i _ _ => ?_
    simp [List.getElem_set, Function.update_apply, eq_comm]
  have evaluated : μ.evaluate? w.device m .compositeInsert (some vector)
      [.id part, .id whole, .word k] =
        some (.words ((List.range n).map (Function.update g k.toNat a))) := by
    rw [Invocation.evaluate?, hpart.words? grows distinct, hwhole.words? grows distinct, ← inserted]
    rfl
  have unfolded : w.act? m μ ⟨.ordinary .compositeInsert, some vector, some s.builder.nextId,
      [.id part, .id whole, .word k]⟩ =
        (μ.evaluate? w.device m .compositeInsert (some vector)
          [.id part, .id whole, .word k]).bind fun x =>
            some { μ with values := Function.update μ.values s.builder.nextId (some x) } := rfl
  rw [unfolded, evaluated]
  rfl

theorem copyFragCoord_conveys (reg : UInt32) :
    Conveys w env (intake w env).Filled
      (transits (verticesOf (s.vertexCount env)) reg mask.components (.builtin .fragCoord))
      (copyFragCoord reg mask) s μ := by
  refine .after (loadBuiltin_looks (by decide) .none .none) fun coord t ν since unmoved h => ?_
  obtain ⟨b, made, carries⟩ := h
  have type : b.type = float4 := congrArg Prod.fst made.shape
  rw [type, Option.map_none, BuiltinVariable.path_none] at carries
  refine .after (.of_reads (scalarType_steady .f32) (scalarType_reads .f32))
    fun float t₁ ν₁ since₁ unmoved₁ _ => ?_
  have carries := (State.Carries.mk carries.type (since₁.knows carries.knows))
  refine .after (.of_reads (extract_steady coord 3) (extract_reads carries (by decide) (by decide)))
    fun last t₂ ν₂ since₂ unmoved₂ w_ => ?_
  refine .after (number_looks (by decide) floatOne) fun one t₃ ν₃ since₃ unmoved₃ one_ => ?_
  refine .after (divide_looks one_ (since₃.knows w_.knows))
    fun inverse t₄ ν₄ since₄ unmoved₄ inverse_ => ?_
  refine .after (.of_reads (vectorType_steady float4) (vectorType_reads float4))
    fun vector t₅ ν₅ since₅ unmoved₅ _ => ?_
  have whole := (((since₂.trans since₃).trans since₄).trans since₅).knows carries.knows
  refine .after (insert_looks (since₅.knows inverse_) whole)
    fun fixed t₆ ν₆ since₆ unmoved₆ fixed_ => ?_
  have floats : t₆.Carries ν₆.processor ⟨float4, fixed⟩ .f32 (List.range 4) _ := ⟨rfl, fixed_⟩
  refine .after (selectMask_offers floats (by decide) mask)
    fun value t₇ ν₇ since₇ unmoved₇ offers => ?_
  have behind := ((((since₁.trans since₂).trans since₃).trans since₄).trans since₅).trans
    (since₆.trans since₇)
  have still := ((((unmoved.trans unmoved₁).trans unmoved₂).trans unmoved₃).trans unmoved₄).trans
    ((unmoved₅.trans unmoved₆).trans unmoved₇)
  refine writeInput_conveys (writtenVertices_since (since.trans behind) none) offers
    fun u maintains vertex? _ c _ => ?_
  unfold Transit.word?
  rw [made.place? (isPerVertex_eq_false (by decide)) (behind.maintains.trans maintains),
    Option.bind_some, type,
    Carrier.arrive?, still.memory, Function.update_apply]
  by_cases last_ : c = 3
  · subst last_
    rfl
  · have other : ¬c = UInt32.toNat 3 := last_
    rw [if_neg last_]
    exact congrArg some (if_neg other).symm

/-- The vertices of an arrayed input one by one, or a single one that has no number. -/
theorem verticesOf_eq_map (count : Nat) : verticesOf count =
    (List.range (max count 1)).map fun vertex => if 0 < count then some vertex else none := by
  by_cases zero : count = 0
  · subst zero
    rfl
  · have some_ : 0 < count := Nat.pos_of_ne_zero zero
    rw [verticesOf_pos zero, Nat.max_eq_left some_]
    simp only [if_pos some_]

theorem isPerVertex_of_vertexCount {builtin : BuiltIn} {storage : StorageClass}
    (zero : s.vertexCount env = 0) : isPerVertex env.stage builtin storage = false := by
  have some_ : (if s.stage.inputVertices = 0 then maxInterfaceRegisters else s.stage.inputVertices)
      ≠ 0 := by
    split
    · decide
    · next other => exact other
  unfold State.vertexCount at zero
  split at zero
  · exact absurd zero some_
  · exact absurd zero some_
  · exact absurd zero some_
  · next geometry hull _ =>
    unfold isPerVertex
    rw [decide_eq_false geometry, decide_eq_false hull, Bool.or_false, Bool.and_false,
      Bool.false_and]

theorem copyPosition_conveys (reg : UInt32) :
    Conveys w env (intake w env).Filled
      (transits (verticesOf (s.vertexCount env)) reg mask.components (.builtin .position))
      (copyPosition reg mask) s μ := by
  refine .idle_bind inputVertexCount_run ?_
  rw [verticesOf_eq_map, transits_map]
  refine .last (.forIn (g := fun vertex =>
    transits [if 0 < s.vertexCount env then some vertex else none] reg mask.components
      (.builtin .position)) fun vertex _ c t₁ ν₁ since₁ _ => ?_) trivial
  refine .after (constantU32_looks vertex) fun index t₂ ν₂ since₂ unmoved₂ known => ?_
  refine .after (loadBuiltin_looks (by decide) (.some known) .none)
    fun position t₃ ν₃ since₃ unmoved₃ h => ?_
  obtain ⟨b, made, carries⟩ := h
  have type : b.type = float4 := congrArg Prod.fst made.shape
  rw [type] at carries
  refine .after (selectMask_offers carries (by decide) mask)
    fun value t₄ ν₄ since₄ unmoved₄ offers => ?_
  have since := ((since₁.trans since₂).trans since₃).trans since₄
  refine .idle_bind inputVertexCount_run ?_
  rw [since.maintains.vertexCount]
  refine .last (writeInput_conveys ?_ offers fun u maintains vertex? mem c _ => ?_) ⟨_, rfl⟩
  · by_cases some_ : 0 < s.vertexCount env
    · rw [if_pos some_]
      rfl
    · have zero := Nat.eq_zero_of_not_pos some_
      rw [if_neg some_, writtenVertices_since since, writtenVertices]
      exact verticesOf_zero zero
  · -- Without several vertices the place is the same, whatever the index.
    have path : b.path (vertex?.map asIndex) none = b.path (some (asIndex vertex)) none := by
      obtain rfl := List.mem_singleton.1 mem
      by_cases some_ : 0 < s.vertexCount env
      · rw [if_pos some_]
        rfl
      · have one : isPerVertex env.stage .position .input = false :=
          isPerVertex_of_vertexCount (Nat.eq_zero_of_not_pos some_)
        rw [made.path_single one, made.path_single one]
    have found := (since₄.maintains.trans maintains).within_.builtins _ _ made.found
    have place : (Carrier.builtin .position).place? u .input vertex? c =
        some (Address.component ⟨b.id, b.path (some (asIndex vertex)) none⟩ float4.count c) := by
      refine (congrArg (Option.map _) found).trans ?_
      rw [Option.map_some, path, type]
    unfold Transit.word?
    rw [place, Option.bind_some, (unmoved₃.trans unmoved₄).memory]
    rfl

/-- The number of a vertex, counted from the base if that is wanted. -/
theorem copyVertexId_conveys (reg : UInt32) :
    Conveys w env (intake w env).Filled
      (transits (verticesOf (s.vertexCount env)) reg mask.components (.builtin .vertexIndex))
      (copyInputValue reg mask .vertexId) s μ := by
  refine .after (loadInteger_looks fun _ => rfl) fun index t ν since unmoved h => ?_
  obtain ⟨b, made, type, carries⟩ := h
  have arrives {t' u : State} (later : t.Maintains t') (maintains : t'.Maintains u)
      (memory : Memory) (v : Option Nat) (c : Nat) :
      Transit.word? w env u memory ⟨reg, v, c, .builtin .vertexIndex⟩ =
        (Carrier.builtin .vertexIndex).arrive? w env u memory c (memory ⟨b.id, []⟩) :=
    made.arrives (isPerVertex_eq_false (by decide)) (congrArg VectorType.count type)
      (later.trans maintains) reg v c
  refine .read_bind (.ite (fun subtract => ?_) fun whole => .pure_bind ?_)
  · refine .after (loadDrawParameter_looks fun _ => rfl) fun base t₁ ν₁ since₁ unmoved₁ h => ?_
    obtain ⟨b', made', base_⟩ := h
    refine .after (.of_reads (scalarType_steady .i32) (scalarType_reads .i32))
      fun int t₂ ν₂ since₂ unmoved₂ _ => ?_
    refine .after (subtract_looks ((since₁.trans since₂).knows carries.knows)
      (since₂.knows base_.knows)) fun id t₃ ν₃ since₃ unmoved₃ known => .pure_bind ?_
    have number : t₃.Carries ν₃.processor ⟨index.type, id⟩ .i32 [0] fun _ => _ :=
      ⟨carries.type, known⟩
    have behind := (since₁.trans since₂).trans since₃
    have still := (unmoved₁.trans unmoved₂).trans unmoved₃
    refine writeInput_conveys (writtenVertices_since (since.trans behind) none)
      (number.offers (by decide)) fun u maintains v _ c _ => ?_
    rw [arrives behind.maintains maintains, Carrier.arrive?, if_pos subtract,
      made'.draw? ((since₂.trans since₃).maintains.trans maintains), (unmoved.trans still).memory,
      unmoved.memory]
    rfl
  · refine writeInput_conveys (writtenVertices_since since none) (carries.offers (by decide))
      fun u maintains v _ c _ => ?_
    rw [arrives (.refl t) maintains, Carrier.arrive?, if_neg whole, unmoved.memory]

/-- The number of an instance, counted from the base. -/
theorem copyInstanceId_conveys (reg : UInt32) :
    Conveys w env (intake w env).Filled
      (transits (verticesOf (s.vertexCount env)) reg mask.components (.builtin .instanceIndex))
      (copyInputValue reg mask .instanceId) s μ := by
  refine .after (loadInteger_looks fun _ => rfl) fun index t ν since unmoved h => ?_
  obtain ⟨b, made, type, carries⟩ := h
  refine .after (loadDrawParameter_looks fun _ => rfl) fun base t₁ ν₁ since₁ unmoved₁ h => ?_
  obtain ⟨b', made', base_⟩ := h
  refine .after (.of_reads (scalarType_steady .i32) (scalarType_reads .i32))
    fun int t₂ ν₂ since₂ unmoved₂ _ => ?_
  refine .after (subtract_looks ((since₁.trans since₂).knows carries.knows)
    (since₂.knows base_.knows)) fun id t₃ ν₃ since₃ unmoved₃ known => ?_
  have number : t₃.Carries ν₃.processor ⟨index.type, id⟩ .i32 [0] fun _ => _ :=
    ⟨carries.type, known⟩
  have behind := (since₁.trans since₂).trans since₃
  have still := unmoved.trans ((unmoved₁.trans unmoved₂).trans unmoved₃)
  refine writeInput_conveys (writtenVertices_since (since.trans behind) none)
    (number.offers (by decide)) fun u maintains v _ c _ => ?_
  rw [made.arrives (isPerVertex_eq_false (by decide)) (congrArg VectorType.count type)
    (behind.maintains.trans maintains), Carrier.arrive?,
    made'.draw? ((since₂.trans since₃).maintains.trans maintains), still.memory, unmoved.memory]
  rfl

/-- Which way a face looks, as a mask. -/
theorem copyFacing_conveys (reg : UInt32) :
    Conveys w env (intake w env).Filled
      (transits (verticesOf (s.vertexCount env)) reg mask.components (.builtin .frontFacing))
      (copyInputValue reg mask .isFrontFace) s μ := by
  refine .after loadFacing_looks fun facing t ν since unmoved h => ?_
  obtain ⟨b, made, type, facing_⟩ := h
  refine .after (.of_reads (boolToMask_steady facing) (boolToMask_reads facing_ (by decide)))
    fun value t₁ ν₁ since₁ unmoved₁ carries => ?_
  refine writeInput_conveys (writtenVertices_since (since.trans since₁) none)
    (carries.offers (by decide)) fun u maintains v _ c _ => ?_
  rw [made.arrives (isPerVertex_eq_false (by decide)) (congrArg VectorType.count type)
    (since₁.maintains.trans maintains), Carrier.arrive?, (unmoved.trans unmoved₁).memory]
  simp only [decide_eq_true_eq]

theorem copyInputValue_conveys (reg : UInt32) (value : SystemValue) :
    Conveys w env (intake w env).Filled ((value.carrier? env.stage .input).toList.flatMap fun k =>
      transits (verticesOf (s.vertexCount env)) reg mask.components k)
      (copyInputValue reg mask value) s μ := by
  have goes {k : Carrier} {e : Emission Unit} (is : value.carrier? env.stage .input = some k)
      (h : Conveys w env (intake w env).Filled
        (transits (verticesOf (s.vertexCount env)) reg mask.components k) e s μ) :
      Conveys w env (intake w env).Filled ((value.carrier? env.stage .input).toList.flatMap fun k =>
        transits (verticesOf (s.vertexCount env)) reg mask.components k) e s μ := by
    rwa [is, Option.toList_some, List.flatMap_singleton]
  have required (c : Spirv.Capability) {e : Emission Unit} {k : Carrier}
      (h : ∀ (t : State) (ν : Invocation), Conveys w env (intake w env).Filled
        (transits (verticesOf (t.vertexCount env)) reg mask.components k) e t ν) :
      Conveys w env (intake w env).Filled
        (transits (verticesOf (s.vertexCount env)) reg mask.components k) (do
          requireCapability c
          e) s μ :=
    .after (requireCapability_stays c).looks fun _ t ν since _ _ =>
      since.maintains.vertexCount ▸ h t ν
  cases value with
  | position =>
    refine .read_bind (.ite (fun pixel => ?_) fun other => ?_)
    · exact goes (by rw [SystemValue.carrier?, if_pos pixel]) (copyFragCoord_conveys reg)
    · exact goes (by rw [SystemValue.carrier?, if_neg other]) (copyPosition_conveys reg)
  | vertexId => exact goes rfl (copyVertexId_conveys reg)
  | instanceId => exact goes rfl (copyInstanceId_conveys reg)
  | isFrontFace => exact goes rfl (copyFacing_conveys reg)
  | sampleIndex =>
    exact goes rfl (copyBuiltin_conveys (fun _ => rfl) (by decide) (fun _ _ _ _ => rfl) reg)
  | primitiveId =>
    have copies (t : State) (ν : Invocation) : Conveys w env (intake w env).Filled
        (transits (verticesOf (t.vertexCount env)) reg mask.components (.builtin .primitiveId))
        (copyBuiltin .primitiveId reg mask) t ν :=
      copyBuiltin_conveys (fun _ => rfl) (by decide) (fun _ _ _ _ => rfl) reg
    exact goes rfl (.read_bind (.ite (fun _ => required .geometry copies) fun _ => copies s μ))
  | renderTargetArrayIndex =>
    exact goes rfl (required .geometry fun _ _ =>
      copyBuiltin_conveys (fun _ => rfl) (by decide) (fun _ _ _ _ => rfl) reg)
  | viewportArrayIndex =>
    exact goes rfl (required .multiViewport fun _ _ =>
      copyBuiltin_conveys (fun _ => rfl) (by decide) (fun _ _ _ _ => rfl) reg)
  | _ => exact .pure trivial

/-- What lies at a location arrives as it is, for one vertex or for all. -/
theorem copyLocation_conveys {location : LocationVariable} (reg : UInt32)
    (vector : s.HasVector location) (own : s.inventory.location? .input reg = some location) :
    Conveys w env (intake w env).Filled (transits
      (verticesOf (if location.vertices = 0 then s.vertexCount env else location.vertices)) reg
        mask.components (.location reg))
      (forIn (verticesOf location.vertices) PUnit.unit fun vertex? _ => do
        let value ← loadLocation location vertex?
        let value ← selectMask value mask
        writeInput vertex? reg mask value
        pure (ForInStep.yield PUnit.unit)) s μ := by
  obtain ⟨variable_, four, number⟩ := vector
  have each : transits (verticesOf (if location.vertices = 0 then s.vertexCount env else
      location.vertices)) reg mask.components (.location reg) =
        (verticesOf location.vertices).flatMap fun vertex? =>
          transits (writtenVertices env s vertex?) reg mask.components (.location reg) := by
    by_cases one : location.vertices = 0
    · rw [if_pos one, verticesOf_zero one, List.flatMap_singleton]
      rfl
    · rw [if_neg one, verticesOf_pos one, transits_map, List.flatMap_map]
      rfl
  rw [each]
  refine .forIn fun vertex? mem c t ν since _ => ?_
  refine .after (loadLocation_looks (variable_.mono since.grows) four number)
    fun value t₁ ν₁ since₁ unmoved₁ carries => ?_
  refine .after (selectMask_offers carries number mask) fun value t₂ ν₂ since₂ unmoved₂ offers => ?_
  have behind := since₁.trans since₂
  refine .last (writeInput_conveys (writtenVertices_since (since.trans behind) vertex?) offers
    fun u maintains v hv c _ => ?_) ⟨_, rfl⟩
  have found : u.inventory.location? .input reg = some location :=
    ((since.trans behind).maintains.trans maintains).within_.locations .input reg location own
  have path : location.path (v.map asIndex) =
    (vertex?.map UInt32.ofNat).toList.map UInt32.toNat := by
    unfold LocationVariable.path
    by_cases one : location.vertices = 0
    · rw [verticesOf_zero one, List.mem_singleton] at mem
      rw [mem, if_neg (by rw [one]; exact Nat.lt_irrefl 0)]
      rfl
    · rw [verticesOf_pos one] at mem
      obtain ⟨n, _, rfl⟩ := List.mem_map.1 mem
      obtain rfl := List.mem_singleton.1 hv
      rw [if_pos (Nat.pos_of_ne_zero one)]
      rfl
  have place : (Carrier.location reg).place? u .input v c =
      some (Address.part ⟨location.id, (vertex?.map UInt32.ofNat).toList.map UInt32.toNat⟩ c) := by
    rw [← path]
    exact congrArg (Option.map _) found
  unfold Transit.word?
  rw [place, Option.bind_some, (unmoved₁.trans unmoved₂).memory]
  rfl

/-- A register is brought in from its location and from the built-ins of its system values. -/
theorem copyInput_conveys {r : InterfaceRegister} (reg : UInt32) (drawn : s.Draws r)
    (own : ∀ l, r.location? = some l → s.inventory.location? .input reg = some l) :
    Conveys w env (intake w env).Filled (r.intakes env.stage (s.vertexCount env) reg)
      (copyInput reg r) s μ := by
  unfold copyInput
  apply Conveys.of_tail (Q := fun _ => True)
    (r.systemValues.flatMap fun p => (p.2.carrier? env.stage .input).toList.flatMap fun k =>
      transits (verticesOf (s.vertexCount env)) reg p.1.components k)
  · intro values
    split
    · next location is =>
      rw [InterfaceRegister.intakes, is, Option.toList_some, List.flatMap_singleton]
      exact .bind (copyLocation_conveys reg (drawn location is) (own location is))
        fun _ t ν since _ => values t ν since
    · next none_ =>
      have missing : r.location? = none := Option.eq_none_iff_forall_ne_some.2 none_
      rw [InterfaceRegister.intakes, missing]
      exact fun settled => values s μ (.refl settled) settled
  · intro t ν since
    refine .last (.forIn fun p _ c t₁ ν₁ since₁ _ => ?_) trivial
    obtain ⟨mask, value⟩ := p
    refine .ite (fun distance => ?_) fun _ => ?_
    · cases value with
      | clipDistance | cullDistance => exact .pure ⟨_, rfl⟩
      | _ => cases distance
    · rw [← (since.trans since₁).maintains.vertexCount]
      exact .last (copyInputValue_conveys reg value) ⟨_, rfl⟩

/-- A pointer into the register array of the patch. -/
def PatchPointer (t : State) (ν : Invocation) (p : Pointer) (reg : UInt32) : Prop :=
  p.type = float4 ∧ ∃ array, t.patchArray? = some array ∧ t.Leads ν p.id ⟨array, [reg.toNat]⟩

theorem patchPointer_looks {reg : Id} {a : UInt32} (known : s.Knows μ.processor reg (.words [a])) :
    Looks w env (patchPointer reg) s μ fun p t ν => PatchPointer t ν p a := by
  refine .bind patchArray_looks fun array t ν since _ h => ?_
  refine (chain_looks h.2 (.cons (since.knows known) .nil)).mono fun p u κ since' _ led =>
    ⟨led.1, array, since'.maintains.within_.patchArray array h.1, led.2⟩

theorem storePatch_visits {p : Pointer} {a : UInt32} (led : PatchPointer s μ p a)
    (offers : s.Offers μ v mask g) : Conveys w env State.Visited
      (if mask.isEmpty then [] else [.patch]) (storeMasked p v mask) s μ := by
  obtain ⟨type, array, here_, leads⟩ := led
  refine storeMasked_visits (q := ⟨array, _⟩) here_ leads ?_ ?_ (fun c hc => ?_) offers
  · rw [type]; decide
  · rw [type]; decide
  · rw [type]
    exact WriteMask.lt_of_mem_components hc

/-- A tessellation level. -/
theorem loadLevel_looks (level : TessLevel) {element : Id} {a : UInt32}
    (known : s.Knows μ.processor element (.words [a])) :
    Looks w env (loadBuiltin (levelBuiltin level) none (some element)) s μ fun v t ν =>
      ∃ b, t.Carries ν.processor v .f32 [0] fun _ => b := by
  have number : levelBuiltin level ≠ .frontFacing := by cases level <;> decide
  refine (loadBuiltin_looks number .none (.some known)).mono fun v t ν _ _ h => ?_
  obtain ⟨b, made, carries⟩ := h
  have type : b.type = .single .f32 := by
    rw [show b.type = _ from congrArg Prod.fst made.shape]
    cases level <;> rfl
  rw [type] at carries
  exact ⟨_, carries.congr fun c hc => by rw [List.mem_singleton.1 hc]⟩

/-- The stores by which a patch constant is brought in: of what lies at its location, and of the
levels among its values. -/
def patchInputRoles (r : InterfaceRegister) : List Role :=
  (if r.location?.isNone ∨ r.userMask.isEmpty then [] else [.patch]) ++
    r.systemValues.flatMap fun p => p.2.tessLevel?.toList.map fun _ => .patch

theorem eq_patch_of_mem {r : InterfaceRegister} {role : Role} (mem : role ∈ patchInputRoles r) :
    role = .patch := by
  rcases List.mem_append.1 mem with mem | mem
  · split at mem
    · cases mem
    · exact List.mem_singleton.1 mem
  · obtain ⟨p, _, mem⟩ := List.mem_flatMap.1 mem
    obtain ⟨_, _, rfl⟩ := List.mem_map.1 mem
    rfl

theorem copyPatchInput_visits {r : InterfaceRegister} (reg : UInt32) (drawn : s.Draws r) :
    Conveys w env State.Visited (patchInputRoles r) (copyPatchInput reg r) s μ := by
  refine .after (constant_looks reg) fun regId t ν since _ known => ?_
  apply Conveys.of_tail (Q := fun _ => True)
    (r.systemValues.flatMap fun p => p.2.tessLevel?.toList.map fun _ => Role.patch)
  · intro levels
    split
    · next location is =>
      obtain ⟨variable_, four, number⟩ := drawn location is
      refine .after (loadLocation_looks (variable_.mono since.grows) four number)
        fun value t₁ ν₁ since₁ _ carries => ?_
      refine .after (selectMask_offers carries number r.userMask)
        fun value t₂ ν₂ since₂ _ offers => ?_
      refine .after (patchPointer_looks ((since₁.trans since₂).knows known))
        fun p t₃ ν₃ since₃ _ led => ?_
      simp only [patchInputRoles, is, Option.isNone_some, Bool.false_eq_true, false_or]
      exact .bind (storePatch_visits led (offers.since since₃)) fun _ t₄ ν₄ since₄ _ =>
        levels t₄ ν₄ (((since₁.trans since₂).trans since₃).trans since₄)
    · next none_ =>
      rw [patchInputRoles,
        if_pos (.inl (Option.isNone_iff_eq_none.2 (Option.eq_none_iff_forall_not_mem.2 none_)))]
      exact fun settled => levels t ν (.refl settled) settled
  · intro t' ν' since'
    refine .last (.forIn fun p _ c t₁ ν₁ since₁ _ => ?_) trivial
    obtain ⟨mask, value⟩ := p
    dsimp only
    rcases value.tessLevel? with _ | ⟨level, i⟩
    · exact .pure ⟨_, rfl⟩
    · refine .after (constantU32_looks i) fun element t₂ ν₂ since₂ _ element_ => ?_
      refine .after (loadLevel_looks level element_) fun v t₃ ν₃ since₃ _ h => ?_
      obtain ⟨a, carries⟩ := h
      have since := ((since'.trans since₁).trans since₂).trans since₃
      refine .after (patchPointer_looks (since.knows known)) fun p t₄ ν₄ since₄ _ led => ?_
      have offers : t₃.Offers ν₃ v (.component (mask.first?.getD 0)) fun _ => a :=
        carries.offers (by decide)
      have stored : Conveys w env State.Visited _ (storeMasked p v _) t₄ ν₄ :=
        storePatch_visits led (offers.since since₄)
      rw [if_neg (WriteMask.component_not_isEmpty mask.first_lt)] at stored
      exact .last stored ⟨_, rfl⟩

end Inputs

section Outputs

variable {w : World} {env : Environment} {s : State} {μ : Invocation} {v : Value}
  {mask : WriteMask} {g : Nat → UInt32}

theorem outputPointer_looks {reg : Id} {a : UInt32} (known : s.Knows μ.processor reg (.words [a])) :
    Looks w env (outputPointer reg) s μ fun p t ν => p.type = float4 ∧ ∃ array,
      t.outputArray? = some array ∧ t.Leads ν p.id ⟨array, [a.toNat]⟩ := by
  refine .bind outputArray_looks fun array t ν since _ h => ?_
  refine (chain_looks h.2 (.cons (since.knows known) .nil)).mono fun p u κ since' _ led =>
    ⟨led.1, array, since'.maintains.within_.outputArray array h.1, led.2⟩

/-- A whole register of an array. -/
theorem loadFloats_looks {p : Pointer} {q : Address} (type : p.type = float4)
    (leads : s.Leads μ p.id q) : Looks w env (load p) s μ fun v t ν =>
      t.Carries ν.processor v .f32 (List.range 4) fun c => μ.memory (q.part c) := by
  refine (load_looks leads ?_ ?_ ?_).mono fun v t ν _ _ carries => ?_
  · rw [type]; decide
  · rw [type]; decide
  · rw [type]; decide
  · rw [type] at carries
    exact carries

/-- The first component of a mask. -/
theorem extractFirst_looks (carries : s.Carries μ.processor v .f32 (List.range 4) g)
    (mask : WriteMask) : Looks w env (extract v (mask.first?.getD 0)) s μ fun u t ν =>
      t.Carries ν.processor u .f32 [0] fun _ => g (mask.first?.getD 0) := by
  have low := mask.first_lt
  refine (Looks.of_reads (extract_steady v _) (extract_reads carries (by rwa [List.length_range])
    (Nat.lt_trans low (by decide)))).mono fun u t ν _ _ part => ⟨part.type, ?_⟩
  have knows := part.knows
  rwa [List.getElem_range] at knows

theorem writeLayer_given {builtin : BuiltIn} (reg : UInt32)
    (integer : ∀ a, builtinShape a builtin .output = (.single .i32, 0))
    (carries : s.Carries μ.processor v .f32 (List.range 4) g) :
    Conveys w env outlet.given.Filled
      [(⟨reg, none, mask.first?.getD 0, .builtin builtin⟩, g (mask.first?.getD 0))]
      (writeLayer builtin v mask) s μ := by
  have required : Looks w env (requireLayerOutput builtin) s μ fun _ _ _ => True := by
    refine .read_bind (.ite (fun _ => (requireCapability_stays _).looks) fun _ => ?_)
    exact .bind (requireCapability_stays _).looks fun _ _ _ _ _ _ => requireExtension_looks _
  refine .after required fun _ t ν since _ _ => ?_
  refine .after (extractFirst_looks ⟨carries.type, since.knows carries.knows⟩ mask)
    fun component t₁ ν₁ _ _ component_ => ?_
  refine .after (builtinPointer_looks .none .none) fun p t₂ ν₂ since₂ _ h => ?_
  obtain ⟨b, made, type, leads⟩ := h
  have single : b.type = .single .i32 := congrArg Prod.fst (made.shape.trans (integer _))
  have one : p.type = .single .i32 := type.trans single
  let i : Transit := ⟨reg, none, mask.first?.getD 0, .builtin builtin⟩
  have target (u : State) (maintains : t₂.Maintains u) (c : Nat) : outlet.target u i =
      some (Address.component ⟨b.id, b.path none none⟩ p.type.count c) := by
    refine (congrArg (Option.map _) (maintains.within_.builtins _ _ made.found)).trans ?_
    rw [Option.map_some, single, one]
    rfl
  change Conveys w env _ (WriteMask.x.components.map fun _ => (i, g i.component)) _ _ _
  refine storeMasked_given leads ?_ ?_ (fun c hc => ?_)
    ((component_.offers (by decide)).since since₂) fun u maintains c _ => target u maintains c
  · rw [one]; decide
  · rw [one]; decide
  · rw [one]
    exact List.mem_singleton.1 (show c ∈ [0] from hc) ▸ Nat.one_pos

/-- What is written to a location variable is stored to its place. -/
theorem writeLocation_conveys {ι : Type} {C : State → List ι → Invocation → Invocation → Prop}
    [Composes C] {items : List ι} {location : LocationVariable} {scalar : ScalarType}
    (drawn : s.HasVector location) (carries : s.Carries μ.processor v scalar (List.range 4) g)
    (number : scalar ≠ .bool)
    (store : ∀ p picked t ν, State.Since env s μ t ν → p.type = location.type →
      t.Leads ν p.id ⟨location.id, []⟩ → t.Offers ν picked mask g →
        Conveys w env C items (storeMasked p picked mask) t ν) :
    Conveys w env C items (writeLocation location v mask) s μ := by
  refine .after (selectMask_offers carries number mask) fun picked t ν since _ offers => ?_
  have start := State.Leads.of_variable (μ := ν) since.settled.sound (drawn.1.mono since.grows)
  refine .after (chain_looks start .nil) fun p t₁ ν₁ since₁ _ led => ?_
  exact store p picked t₁ ν₁ (since.trans since₁) led.1 led.2 (offers.since since₁)

theorem writeLocation_given {location : LocationVariable} {scalar : ScalarType} (reg : UInt32)
    (vector : s.HasVector location) (own : s.inventory.location? .output reg = some location)
    (carries : s.Carries μ.processor v scalar (List.range 4) g) (number : scalar ≠ .bool) :
    Conveys w env outlet.given.Filled
      ((transits [none] reg mask.components (.location reg)).map fun i => (i, g i.component))
      (writeLocation location v mask) s μ := by
  rw [transits_none]
  refine writeLocation_conveys vector carries number fun p picked t ν since type leads offers => ?_
  refine storeMasked_given leads ?_ ?_ (fun c hc => ?_) offers fun u maintains c _ => ?_
  · rw [type]
    exact vector.2.2
  · rw [type, vector.2.1]
  · rw [type, vector.2.1]
    exact WriteMask.lt_of_mem_components hc
  · rw [type, vector.2.1]
    have found := (since.maintains.trans maintains).within_.locations .output reg location own
    refine (congrArg (Option.map _) found).trans ?_
    rw [Option.map_some, Option.map_none, LocationVariable.path_none,
      Address.component_several (by decide)]

theorem writePosition_given (reg : UInt32)
    (carries : s.Carries μ.processor v .f32 (List.range 4) g) :
    Conveys w env outlet.given.Filled
      ((transits [none] reg mask.components (.builtin .position)).map fun i =>
        (i, g i.component)) (do
        let picked ← selectMask v mask
        let p ← builtinPointer .position .output none none
        storeMasked p picked mask
        pure (ForInStep.yield PUnit.unit)) s μ GoesOn := by
  rw [transits_none]
  refine .after (selectMask_offers carries (by decide) mask) fun picked t ν _ _ offers => ?_
  refine .after (builtinPointer_looks .none .none) fun p t₁ ν₁ since₁ _ h => ?_
  obtain ⟨b, made, type, leads⟩ := h
  have shape : b.type = float4 := congrArg Prod.fst made.shape
  refine .last (storeMasked_given leads ?_ ?_ (fun c hc => ?_) (offers.since since₁)
    fun u maintains c _ => ?_) ⟨_, rfl⟩
  · rw [type, shape]; decide
  · rw [type, shape]; decide
  · rw [type, shape]
    exact WriteMask.lt_of_mem_components hc
  · rw [type]
    exact congrArg (Option.map _) (maintains.within_.builtins _ _ made.found)

/-- A register goes out to its location and to the built-ins of its system values. -/
theorem copyOutput_conveys {r : InterfaceRegister} (reg : UInt32) (drawn : s.Draws r)
    (own : ∀ l, r.location? = some l → s.inventory.location? .output reg = some l) :
    Conveys w env outlet.Filled (r.outlets env.stage reg) (copyOutput reg r) s μ := by
  refine .after (constant_looks reg) fun regId t ν since _ known => ?_
  refine .after (outputPointer_looks known) fun p t₁ ν₁ since₁ _ led => ?_
  obtain ⟨type, array, there, leads⟩ := led
  refine .after (loadFloats_looks type leads) fun value t₂ ν₂ since₂ unmoved carries => ?_
  have since := (since.trans since₁).trans since₂
  let g (c : Nat) : UInt32 := ν₁.memory ⟨array, [reg.toNat, c]⟩
  have carries : t₂.Carries ν₂.processor value .f32 (List.range 4) g := carries
  refine .of_given (x := fun i => g i.component) ?_ fun u maintains i mem => ?_
  · rw [InterfaceRegister.outlets, List.map_append, List.map_flatMap, List.map_flatMap]
    apply Conveys.of_tail (Q := fun _ => True) (r.systemValues.flatMap fun p =>
      (((p.2.carrier? env.stage .output).toList.flatMap fun k => transits [none] reg
        (if p.2 = .position then p.1.components else [p.1.first?.getD 0]) k).map
          fun i => (i, g i.component)))
    · intro values
      split
      · next location is =>
        have found := since.maintains.within_.locations .output reg location (own location is)
        rw [is, Option.toList_some, List.flatMap_singleton]
        refine .after (.of_reads (bitcast_steady value _) (bitcast_reads (by decide) carries _))
          fun typed t₃ ν₃ since₃ _ typed_ => ?_
        refine .bind (writeLocation_given reg ((drawn location is).since (since.trans since₃))
          (since₃.maintains.within_.locations .output reg location found) typed_
          (drawn location is).2.2) fun _ t₄ ν₄ since₄ _ => values t₄ ν₄ (since₃.trans since₄)
      · next none_ =>
        have missing : r.location? = none := Option.eq_none_iff_forall_ne_some.2 none_
        rw [missing]
        exact fun settled => values t₂ ν₂ (.refl settled) settled
    · intro t' ν' since'
      refine .last (.forIn fun p _ c t₃ ν₃ since₃ _ => ?_) trivial
      obtain ⟨mask, systemValue⟩ := p
      have since := since'.trans since₃
      have carries : t₃.Carries ν₃.processor value .f32 (List.range 4) g :=
        ⟨carries.type, since.knows carries.knows⟩
      cases systemValue with
      | position =>
        change Conveys w env _ ((transits [none] reg mask.components (.builtin .position) ++ []).map
          _) _ _ _ _
        rw [List.append_nil]
        exact writePosition_given reg carries
      | renderTargetArrayIndex | viewportArrayIndex =>
        exact .last (writeLayer_given reg (fun _ => rfl) carries) ⟨_, rfl⟩
      | _ => exact .pure ⟨_, rfl⟩
  · have found := (since₂.maintains.trans maintains).within_.outputArray array there
    refine (congrArg (Option.map _) found).trans ?_
    rw [Option.map_some, unmoved.memory, InterfaceRegister.register_of_mem_outlets mem]

/-- The smaller of two floats, as the device computes it. -/
theorem minimum_looks {type : VectorType} {x y : Id} {a b : UInt32}
    (hx : s.Knows μ.processor x (.words [a])) (hy : s.Knows μ.processor y (.words [b])) :
    Looks w env (extended .nMin type [x, y]) s μ fun v t ν => v.type = type ∧
      t.Knows ν.processor v.id (.words [w.device.extended .nMin [a, b]]) := by
  refine .bind (.of_reads (vectorType_steady type) (vectorType_reads type))
    fun typeId t ν since _ _ => .state_bind fun _ => ?_
  have hold : t.Hold ν.processor [0] [x, y] [fun _ => a, fun _ => b] :=
    .cons (since.knows hx) (.cons (since.knows hy) .nil)
  refine .bind (emitValue_looks rfl fun n grows distinct => ?_) fun id u κ _ _ known =>
    .pure fun _ => ⟨rfl, known⟩
  have lanes := hold.lanes? (f := fun ws => some (w.device.extended .nMin ws))
    (g := fun _ => w.device.extended .nMin [a, b]) (List.cons_ne_nil _ _) (fun _ _ => rfl) grows
    distinct
  have unfolded : w.act? n ν ⟨.ordinary .extInst, some typeId, some t.builder.nextId,
      .id t.extendedSet :: .word Spirv.ExtOp.nMin.code :: [x, y].map .id⟩ =
        ((Spirv.Device.lanes? n ν.processor (fun ws => some (w.device.extended .nMin ws))
          ([x, y].map .id)).map Spirv.Datum.words).bind fun x =>
            some { ν with values := Function.update ν.values t.builder.nextId (some x) } := rfl
  rw [unfolded, lanes]
  rfl

/-- A number goes to a place of one component. -/
theorem storeFirst_visits {r : Role} {p : Pointer} {q : Address}
    (is : s.holder? r = some q.variable_) (leads : s.Leads μ p.id q) {scalar : ScalarType}
    (single : p.type = .single scalar) (number : scalar ≠ .bool) (offers : s.Offers μ v .x g) :
    Conveys w env State.Visited [r] (storeMasked p v .x) s μ := by
  change Conveys w env State.Visited (if WriteMask.x.isEmpty then [] else [r])
    (storeMasked p v .x) s μ
  refine storeMasked_visits is leads ?_ ?_ (fun c hc => ?_) offers
  · rw [single]
    exact number
  · rw [single]
    exact Nat.le_of_ble_eq_true rfl
  · rw [single]
    exact List.mem_singleton.1 (show c ∈ [0] from hc) ▸ Nat.one_pos

/-- Where a patch constant is copied to: its location, and the levels among its values. -/
def patchRoles (reg : UInt32) (r : InterfaceRegister) : List Role :=
  (if r.location?.isNone ∨ r.userMask.isEmpty then [] else [.port (.register .patchOutput reg)]) ++
    r.systemValues.flatMap fun p =>
      p.2.tessLevel?.toList.map fun l => .port (.builtin (levelBuiltin l.1) .output)

theorem copyPatchOutput_visits {maxTessFactor : UInt32} {r : InterfaceRegister} (reg : UInt32)
    (drawn : s.Draws r)
    (own : ∀ l, r.location? = some l → s.holder? (.port (.register .patchOutput reg)) = some l.id) :
    Conveys w env State.Visited (patchRoles reg r) (copyPatchOutput maxTessFactor reg r) s μ := by
  refine .after (constant_looks reg) fun regId t ν since _ known => ?_
  refine .after (patchPointer_looks known) fun p t₁ ν₁ since₁ _ led => ?_
  obtain ⟨type, array, _, leads⟩ := led
  refine .after (loadFloats_looks type leads) fun value t₂ ν₂ since₂ _ carries => ?_
  have since := (since.trans since₁).trans since₂
  apply Conveys.of_tail (Q := fun _ => True) (r.systemValues.flatMap fun p =>
    p.2.tessLevel?.toList.map fun l => Role.port (.builtin (levelBuiltin l.1) .output))
  · intro levels
    split
    · next location is =>
      obtain ⟨variable_, four, number⟩ := drawn location is
      have vector : t₂.HasVector location := ⟨variable_.mono since.grows, four, number⟩
      simp only [patchRoles, is, Option.isNone_some, Bool.false_eq_true, false_or]
      refine .bind (writeLocation_conveys vector carries (by decide)
        fun p picked t₃ ν₃ since₃ type leads offers => ?_) fun _ t₄ ν₄ since₄ _ =>
        levels t₄ ν₄ since₄
      refine storeMasked_visits ((since.trans since₃).maintains.holder? (own location is))
        leads ?_ ?_
        (fun c hc => ?_) offers
      · rwa [type]
      · rw [type, four]
      · rw [type, four]
        exact WriteMask.lt_of_mem_components hc
    · next none_ =>
      rw [patchRoles,
        if_pos (.inl (Option.isNone_iff_eq_none.2 (Option.eq_none_iff_forall_not_mem.2 none_)))]
      exact fun settled => levels t₂ ν₂ (.refl settled) settled
  · intro t' ν' since'
    refine .last (.forIn fun p _ c t₃ ν₃ since₃ _ => ?_) trivial
    obtain ⟨mask, systemValue⟩ := p
    have since := since'.trans since₃
    have carries : t₃.Carries ν₃.processor value .f32 (List.range 4) _ :=
      ⟨carries.type, since.knows carries.knows⟩
    dsimp only
    rcases systemValue.tessLevel? with _ | ⟨level, i⟩
    · exact .pure ⟨_, rfl⟩
    · refine .after (extractFirst_looks carries mask) fun factor t₄ ν₄ _ _ factor_ => ?_
      refine .after (number_looks (by decide) maxTessFactor)
        fun greatest t₅ ν₅ since₅ _ greatest_ => ?_
      refine .after (minimum_looks (since₅.knows factor_.knows) greatest_)
        fun clamped t₆ ν₆ _ _ h => ?_
      obtain ⟨type, clamped_⟩ := h
      have clamped_ : t₆.Carries ν₆.processor clamped .f32 [0] fun _ =>
          w.device.extended .nMin [_, maxTessFactor] :=
        ⟨type.trans factor_.type, clamped_⟩
      refine .after (constantU32_looks i) fun element t₇ ν₇ since₇ _ element_ => ?_
      refine .after (builtinPointer_looks .none (.some element_)) fun p t₈ ν₈ since₈ _ h => ?_
      obtain ⟨b, made, type, leads⟩ := h
      have single : p.type = .single .f32 := by
        rw [type, show b.type = _ from congrArg Prod.fst made.shape]
        cases level <;> rfl
      exact .last (storeFirst_visits (q := ⟨b.id, _⟩) made.holder? leads single (by decide)
        ((clamped_.offers (by decide)).since (since₇.trans since₈))) ⟨_, rfl⟩

/-- Where the patch constants are copied to. -/
def patchOutputRoles (s : State) : List Role :=
  s.patchOutputs.entries.flatMap fun e => patchRoles e.1 e.2

theorem copyPatchOutputs_visits (maxTessFactor : UInt32) :
    Conveys w env State.Visited (patchOutputRoles s) (copyPatchOutputs maxTessFactor) s μ := by
  refine Conveys.state_bind fun settled => ?_
  refine .last (.forIn fun e he c t ν since _ => ?_) trivial
  have drawn : s.Draws e.2 := settled.furnished.registers .patchOutput e he
  refine .last (copyPatchOutput_visits e.1 (drawn.since since) fun l is => ?_) ⟨_, rfl⟩
  have found : s.patchOutputs.find? e.1 = some e.2 := Table.mem_entries.1 he
  refine since.maintains.holder? ?_
  rw [State.holder?, State.port?, State.located_inventory]
  exact congrArg (Option.map _) ((congrArg (Option.bind · _) found).trans is)

end Outputs

end Lower

end ShaderLowering
