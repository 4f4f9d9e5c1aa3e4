import ShaderLowering.Lowering.Arithmetic
import ShaderLowering.Proofs.Execution.Steps

/-!
What computed values hold. A value carries a function on components if it is a vector with one word
for each of some components, in their order. Operations on words act on each component by itself,
so what they compute is again a function on components; picking lanes changes the components and
not the function.
-/

namespace ShaderLowering

open Spirv (Id Instr Arg Op ExtOp Module Processor Device Datum)

namespace Spirv

theorem mapM_of_forall {α β : Type} {f : α → Option β} {g : α → β} {l : List α}
    (h : ∀ a ∈ l, f a = some (g a)) : l.mapM f = some (l.map g) := by
  induction l with
  | nil => rfl
  | cons a rest ih =>
    rw [List.mapM_cons, h a List.mem_cons_self, ih fun b hb => h b (List.mem_cons_of_mem _ hb)]
    rfl

/-- What is computed for vectors is computed for each component. -/
theorem lanewise?_map {β : Type} {f : List UInt32 → Option β} {gs : List (Nat → UInt32)}
    {cs : List Nat} {g : Nat → β} (some_ : gs ≠ [])
    (is : ∀ c ∈ cs, f (gs.map (· c)) = some (g c)) :
    lanewise? f (gs.map fun h => cs.map h) = some (cs.map g) := by
  cases gs with
  | nil => exact absurd rfl some_
  | cons first rest =>
    have sizes : (rest.map fun h => cs.map h).all (·.length = (cs.map first).length) = true := by
      simp
    rw [List.map_cons, lanewise?, if_pos sizes, ← List.map_cons (f := fun h => cs.map h),
      mapM_of_forall (g := fun i => g (cs.getD i 0))]
    · rw [List.length_map]
      congr 1
      apply List.ext_getElem <;> simp
      grind
    · intro i hi
      rw [List.length_map, List.mem_range] at hi
      have here : ((first :: rest).map fun h => cs.map h).map (·.getD i 0) =
          (first :: rest).map (· (cs.getD i 0)) := by
        rw [List.map_map]
        refine List.map_congr_left fun h _ => ?_
        simp [hi]
      rw [here]
      refine is _ ?_
      rw [← List.getElem_eq_getD (h := hi)]
      exact List.getElem_mem hi

theorem select?_map {cs : List Nat} (p : Nat → Bool) (a b : Nat → UInt32) :
    select? (cs.map p) (cs.map a) (cs.map b) =
      some (cs.map fun c => if p c then a c else b c) := by
  induction cs with
  | nil => rfl
  | cons c rest ih =>
    simp only [List.map_cons, select?, ih]
    rfl

end Spirv

namespace State

variable {s t : State} {μ ν : Processor} {v : Value} {scalar : ScalarType} {cs : List Nat}
  {g : Nat → UInt32}

/-- A value holds a word for each of some components. -/
structure Carries (s : State) (μ : Processor) (v : Value) (scalar : ScalarType) (cs : List Nat)
    (g : Nat → UInt32) : Prop where
  type : v.type = ⟨scalar, cs.length⟩
  knows : s.Knows μ v.id (.words (cs.map g))

/-- A value holds a truth value for each of some components. -/
structure Decides (s : State) (μ : Processor) (v : Value) (cs : List Nat) (p : Nat → Bool) :
    Prop where
  type : v.type = ⟨.bool, cs.length⟩
  knows : s.Knows μ v.id (.truths (cs.map p))

theorem Carries.after (h : s.Carries μ v scalar cs g) (after : s.After μ t ν) :
    t.Carries ν v scalar cs g :=
  ⟨h.type, after.knows h.knows⟩

theorem Carries.later (h : s.Carries μ v scalar cs g) (later : s.Later μ t ν) :
    t.Carries ν v scalar cs g :=
  ⟨h.type, later.knows h.knows⟩

theorem Decides.after {p : Nat → Bool} (h : s.Decides μ v cs p) (after : s.After μ t ν) :
    t.Decides ν v cs p :=
  ⟨h.type, after.knows h.knows⟩

theorem Decides.later {p : Nat → Bool} (h : s.Decides μ v cs p) (later : s.Later μ t ν) :
    t.Decides ν v cs p :=
  ⟨h.type, later.knows h.knows⟩

theorem Carries.congr {g' : Nat → UInt32} (h : s.Carries μ v scalar cs g)
    (same : ∀ c ∈ cs, g c = g' c) : s.Carries μ v scalar cs g' :=
  ⟨h.type, List.map_congr_left same ▸ h.knows⟩

/-- Ids that hold words for the same components. -/
abbrev Hold (s : State) (μ : Processor) (cs : List Nat) (ids : List Id)
    (gs : List (Nat → UInt32)) : Prop :=
  List.Forall₂ (fun id g => s.Knows μ id (.words (cs.map g))) ids gs

theorem Knows.words? {id : Id} {ws : List UInt32} (h : s.Knows μ id (.words ws)) {n : Module}
    (grows : s.builder.module.Grows n) (distinct : n.Distinct) :
    Device.words? n μ (.id id) = some ws := by
  have known : Device.datum? n μ (.id id) = some _ := h.2 n grows distinct
  rw [Device.words?, known]
  rfl

theorem Knows.datum? {id : Id} {x : Datum} (h : s.Knows μ id x) {n : Module}
    (grows : s.builder.module.Grows n) (distinct : n.Distinct) :
    Device.datum? n μ (.id id) = some x :=
  h.2 n grows distinct

end State

namespace Spirv

/-- The operations that give a word in each component. -/
def Op.isNumber : Op → Bool
  | bitcast | not | sNegate | bitCount | bitReverse | bitwiseAnd | bitwiseOr | bitwiseXor | iAdd
  | iSub | iMul | uDiv | uMod | shiftLeftLogical | shiftRightLogical | shiftRightArithmetic
  | fNegate => true
  | _ => false

def Op.isTest : Op → Bool
  | iEqual | iNotEqual | sLessThan | sGreaterThanEqual | uLessThan | uGreaterThanEqual => true
  | _ => false

def Op.isPair : Op → Bool
  | uMulExtended | sMulExtended | iAddCarry | iSubBorrow => true
  | _ => false

namespace Device

variable {d : Device} {m : Module} {μ : Processor} {op : Op} {args : List Arg}

theorem evaluate?_number (is : op.isNumber = true) :
    d.evaluate? m μ op args = (lanes? m μ (op.number? d) args).map .words := by
  cases op <;> first | rfl | cases is

theorem evaluate?_test (is : op.isTest = true) :
    d.evaluate? m μ op args = (lanes? m μ op.test? args).map .truths := by
  cases op <;> first | rfl | cases is

theorem evaluate?_pair (is : op.isPair = true) :
    d.evaluate? m μ op args = (lanes? m μ op.pair? args).map .pairs := by
  cases op <;> first | rfl | cases is

theorem evaluate?_extended {e : ExtOp} (known : e ∈ ExtOp.known) (set : Arg) :
    d.evaluate? m μ .extInst (set :: .word e.code :: args) =
      (lanes? m μ (e.number? d) args).map .words := by
  have found : ExtOp.ofCode? e.code = some e := by
    cases e <;> first | rfl | cases (of_decide_eq_false rfl : ¬ _ ∈ ExtOp.known) known
  have unfolded : d.evaluate? m μ .extInst (set :: .word e.code :: args) =
      (ExtOp.ofCode? e.code).bind fun op => (lanes? m μ (op.number? d) args).map .words := rfl
  rw [unfolded, found, Option.bind_some]

end Device

end Spirv

namespace State

variable {s : State} {μ : Processor} {cs : List Nat}

theorem Hold.later {ids : List Id} {gs : List (Nat → UInt32)} {t : State} {ν : Processor}
    (h : s.Hold μ cs ids gs) (later : s.Later μ t ν) : t.Hold ν cs ids gs :=
  h.imp fun _ _ known => later.knows known

/-- What ids hold is computed with in every module that the state grows into. -/
theorem Hold.lanes? {α : Type} {f : List UInt32 → Option α} {ids : List Id}
    {gs : List (Nat → UInt32)} {g : Nat → α} (h : s.Hold μ cs ids gs) (some_ : gs ≠ [])
    (is : ∀ c ∈ cs, f (gs.map (· c)) = some (g c)) {n : Module}
    (grows : s.builder.module.Grows n) (distinct : n.Distinct) :
    Device.lanes? n μ f (ids.map .id) = some (cs.map g) := by
  have words : (ids.map Arg.id).mapM (Device.words? n μ) = some (gs.map fun g => cs.map g) := by
    clear some_ is
    induction h with
    | nil => rfl
    | cons first _ ih =>
      rw [List.map_cons, List.mapM_cons, first.words? grows distinct, ih]
      rfl
  rw [Device.lanes?, words, Option.bind_some, Spirv.lanewise?_map some_ is]

end State

namespace Lower

variable {d : Device} {L : Id → Prop} {env : Environment} {s : State} {μ : Processor} {v : Value}
  {scalar : ScalarType} {cs : List Nat} {g : Nat → UInt32}

theorem declareType_reads (key : Spirv.TypeKey) :
    Reads d L env (declareType key) s μ fun _ _ _ => True :=
  (Reads.declare (.type key)).mono fun _ _ _ _ _ => trivial

theorem scalarType_reads (scalar : ScalarType) :
    Reads d L env (scalarType scalar) s μ fun _ _ _ => True := by
  exact declareType_reads _

theorem vectorType_reads (type : VectorType) :
    Reads d L env (vectorType type) s μ fun _ _ _ => True :=
  .bind (scalarType_reads _) fun _ _ _ _ _ =>
    .ite (fun _ => .pure fun _ => trivial) fun _ => declareType_reads _

theorem constant_reads (number : scalar ≠ .bool) (bits : UInt32) :
    Reads d L env (constant scalar bits) s μ fun id t _ => t.builder.module.IsConstant id bits := by
  refine .bind (scalarType_reads scalar) fun type t ν _ _ => ?_
  cases scalar with
  | bool => exact absurd rfl number
  | u32 | i32 | f32 => exact (Reads.declare _).mono fun _ _ _ _ is => ⟨type, is⟩

theorem constantParts_reads (number : scalar ≠ .bool) (bits : List UInt32) :
    Reads d L env (bits.mapM (constant scalar)) s μ fun ids t _ =>
      List.Forall₂ t.builder.module.IsConstant ids bits :=
  (Reads.mapM (P := fun w id t _ => t.builder.module.IsConstant id w)
    (fun later is => is.mono later.grows) fun w _ _ _ _ => constant_reads number w).mono
      fun _ _ _ _ are => are.flip

/-- A constant of some components. -/
theorem constantVector_reads (number : scalar ≠ .bool) (bits : List UInt32) :
    Reads d L env (constantVector scalar bits) s μ fun id t ν => t.Knows ν id (.words bits) := by
  refine .bind (constantParts_reads number bits) fun parts t ν _ are => ?_
  split
  · next part =>
    obtain ⟨w, rest, is, none_, rfl⟩ := List.forall₂_cons_left_iff.1 are
    obtain rfl := List.forall₂_nil_left_iff.1 none_
    exact .pure fun ready => .of_constant ready is
  · refine .bind (vectorType_reads _) fun type u κ later _ => ?_
    refine (Reads.declare _).mono fun id w κ' later' declared => ?_
    exact .of_composite later'.ready declared
      (are.imp fun _ _ is => (is.mono later.grows).mono later'.grows)

theorem constantValue_reads (number : scalar ≠ .bool) (g : Nat → UInt32) :
    Reads d L env (constantValue scalar (cs.map g)) s μ fun v t ν => t.Carries ν v scalar cs g := by
  refine .bind (constantVector_reads number _) fun id t ν _ known => .pure fun _ => ⟨?_, known⟩
  rw [List.length_map]

/-- The same word for each of some components. -/
theorem splat_reads (number : scalar ≠ .bool) (some_ : cs ≠ []) (w : UInt32) :
    Reads d L env (splat scalar w cs.length) s μ fun v t ν =>
      t.Carries ν v scalar cs fun _ => w := by
  have bits : List.replicate (max cs.length 1) w = cs.map fun _ => w := by
    rw [Nat.max_eq_left (List.length_pos_iff.2 some_), List.map_const']
  rw [splat, bits]
  exact constantValue_reads number _

section Operations

variable {op : Op} {type : VectorType} {args : List Id} {gs : List (Nat → UInt32)} {x : Datum}

theorem operate_reads (computed : op.isComputed = true) (noLoad : op ≠ .load)
    (yields : s.Yields d μ op (args.map .id) x) :
    Reads d L env (operate op type args) s μ fun v t ν => v.type = type ∧ t.Knows ν v.id x := by
  refine .bind (vectorType_reads _) fun _ t ν later _ => ?_
  refine .bind (.emitValue computed (absurd · noLoad) fun u κ more => yields u κ (later.trans more))
    fun id u κ _ h => ?_
  exact .pure fun _ => ⟨rfl, h⟩

/-- An operation on words. -/
theorem operate_number (is : op.isNumber = true) (h : s.Hold μ cs args gs) (some_ : gs ≠ [])
    (each : ∀ c ∈ cs, op.number? d (gs.map (· c)) = some (g c)) :
    Reads d L env (operate op ⟨scalar, cs.length⟩ args) s μ
      fun v t ν => t.Carries ν v scalar cs g := by
  have ⟨computed, noLoad⟩ : op.isComputed = true ∧ op ≠ .load := by
    cases op <;> first | exact ⟨rfl, by decide⟩ | cases is
  refine (operate_reads computed noLoad fun t ν later n grows distinct => ?_).mono
    fun v t ν _ h => ⟨h.1, h.2⟩
  rw [Device.evaluate?_number is, (h.later later).lanes? some_ each grows distinct]
  rfl

/-- An operation on two words. -/
theorem number_reads {op : Op} {type x y : Id} {a b w : UInt32} (is : op.isNumber = true)
    (hx : s.Knows μ x (.words [a])) (hy : s.Knows μ y (.words [b]))
    (computes : op.number? d [a, b] = some w) :
    Reads d L env (emitValue op type [.id x, .id y]) s μ fun id t ν =>
      t.Knows ν id (.words [w]) := by
  have ⟨computed, noLoad⟩ : op.isComputed = true ∧ op ≠ .load := by
    cases op <;> first | exact ⟨rfl, by decide⟩ | cases is
  refine .emitValue computed (absurd · noLoad) fun t ν later n grows distinct => ?_
  have hold : s.Hold μ [0] [x, y] [fun _ => a, fun _ => b] := .cons hx (.cons hy .nil)
  have lanes := (hold.later later).lanes? (f := op.number? d) (g := fun _ => w) nofun
    (fun _ _ => computes) grows distinct
  rw [Device.evaluate?_number is]
  exact congrArg (Option.map Datum.words) lanes

/-- A comparison of words. -/
theorem operate_test {p : Nat → Bool} (is : op.isTest = true) (h : s.Hold μ cs args gs)
    (some_ : gs ≠ []) (each : ∀ c ∈ cs, op.test? (gs.map (· c)) = some (p c)) :
    Reads d L env (operate op ⟨.bool, cs.length⟩ args) s μ fun v t ν => t.Decides ν v cs p := by
  have ⟨computed, noLoad⟩ : op.isComputed = true ∧ op ≠ .load := by
    cases op <;> first | exact ⟨rfl, by decide⟩ | cases is
  refine (operate_reads computed noLoad fun t ν later n grows distinct => ?_).mono
    fun v t ν _ h => ⟨h.1, h.2⟩
  rw [Device.evaluate?_test is, (h.later later).lanes? some_ each grows distinct]
  rfl

/-- A function of the extended set. -/
theorem extended_reads {e : ExtOp} (known : e ∈ ExtOp.known) (h : s.Hold μ cs args gs)
    (some_ : gs ≠ []) (each : ∀ c ∈ cs, e.number? d (gs.map (· c)) = some (g c)) :
    Reads d L env (extended e ⟨scalar, cs.length⟩ args) s μ fun v t ν =>
      t.Carries ν v scalar cs g := by
  refine .bind (vectorType_reads _) fun _ t ν later _ => .state_bind ?_
  refine .bind (.emitValue (x := .words (cs.map g)) rfl (by nofun)
    fun u κ more n grows distinct => ?_)
    fun id u κ _ h => .pure fun _ => ⟨rfl, h⟩
  rw [Device.evaluate?_extended known,
    (h.later (later.trans more)).lanes? some_ each grows distinct]
  rfl

/-- One of two values for each component. -/
theorem select_reads (scalar : ScalarType) {c a b : Value} {p : Nat → Bool} {ga gb : Nat → UInt32}
    (hc : s.Decides μ c cs p) (ha : s.Knows μ a.id (.words (cs.map ga)))
    (hb : s.Knows μ b.id (.words (cs.map gb))) :
    Reads d L env (operate .select ⟨scalar, cs.length⟩ [c.id, a.id, b.id]) s μ fun v t ν =>
      t.Carries ν v scalar cs fun i => if p i then ga i else gb i := by
  refine (operate_reads rfl (by decide) fun t ν later n grows distinct => ?_).mono
    fun v t ν _ h => ⟨h.1, h.2⟩
  have truths := (later.knows hc.knows).datum? grows distinct
  have yes := (later.knows ha).words? grows distinct
  have no := (later.knows hb).words? grows distinct
  have unfolded : d.evaluate? n ν .select ([c.id, a.id, b.id].map .id) = do
      let truths ← (← Device.datum? n ν (.id c.id)).truths?
      return .words (← Spirv.select? truths (← Device.words? n ν (.id a.id))
        (← Device.words? n ν (.id b.id))) := rfl
  rw [unfolded, truths, yes, no]
  simp only [Option.bind_eq_bind, Option.bind_some, Datum.truths?, Spirv.select?_map]
  rfl

end Operations

theorem boolToMask_reads {p : Nat → Bool} (h : s.Decides μ v cs p) (some_ : cs ≠ []) :
    Reads d L env (boolToMask v) s μ fun v t ν =>
      t.Carries ν v .u32 cs fun c => if p c then 0xffffffff else 0 := by
  unfold boolToMask
  rw [h.type]
  refine .bind (splat_reads (by decide) some_ _) fun ones t ν later hones => ?_
  refine .bind (splat_reads (by decide) some_ _) fun zero u κ later' hzero => ?_
  exact select_reads _ ((h.later later).later later') (hones.later later').knows hzero.knows

theorem recast_reads (h : s.Carries μ v scalar cs g) (other : ScalarType) :
    Reads d L env (recast v other) s μ fun v t ν => t.Carries ν v other cs g := by
  unfold recast
  rw [h.type]
  refine .ite (fun same => .pure fun _ => ⟨same ▸ h.type, h.knows⟩) fun _ => ?_
  exact operate_number rfl (.cons h.knows .nil) nofun fun _ _ => rfl

/-- Reading the bits of numbers as another scalar type. -/
theorem bitcast_reads (number : scalar ≠ .bool) (h : s.Carries μ v scalar cs g)
    (other : ScalarType) :
    Reads d L env (bitcast v other) s μ fun v t ν => t.Carries ν v other cs g := by
  unfold bitcast
  rw [h.type]
  refine .ite (fun same => .pure fun _ => ⟨same ▸ h.type, h.knows⟩) fun _ => ?_
  rw [if_neg number]
  exact .pure_bind (recast_reads h other)

/-- Component `i` of a vector. -/
theorem extract_reads (h : s.Carries μ v scalar cs g) {i : Nat} (inside : i < cs.length)
    (short : i < UInt32.size) :
    Reads d L env (extract v i) s μ fun v t ν => t.Carries ν v scalar [cs[i]] g := by
  unfold extract
  rw [h.type]
  refine .ite (fun one => .pure fun _ => ?_) fun _ => ?_
  · match cs, one, inside, h with
    | [c], _, inside, h =>
      obtain rfl : i = 0 := Nat.lt_one_iff.1 inside
      exact h
  · refine .bind (vectorType_reads _) fun _ t ν later _ => ?_
    refine .bind (.emitValue (x := .words [g cs[i]]) rfl (by nofun)
      fun u κ more n grows distinct => ?_)
      fun id u κ _ known => .pure fun _ => ⟨rfl, known⟩
    have vector := (more.knows (later.knows h.knows)).datum? grows distinct
    have unfolded : d.evaluate? n κ .compositeExtract [.id v.id, .word (.ofNat i)] =
        (Device.datum? n κ (.id v.id)).bind (·.member? (.ofNat i)) := rfl
    have index : (UInt32.ofNat i).toNat = i := UInt32.toNat_ofNat_of_lt' short
    rw [unfolded, vector, Option.bind_some, Datum.member?, index]
    simp [inside]

/-- A scalar in each of some components. -/
theorem extend_reads {c n : Nat} (h : s.Carries μ v scalar [c] g) (some_ : 0 < n) :
    Reads d L env (extend v n) s μ fun v t ν => t.Carries ν v scalar (List.replicate n c) g := by
  unfold extend
  rw [h.type]
  refine .ite (fun few => .pure fun _ => ?_) fun _ => ?_
  · obtain rfl : n = 1 := by
      rcases few with few | few
      · omega
      · exact few.symm
    exact h
  · refine .bind (extract_reads h Nat.one_pos (by simp [UInt32.size]))
      fun part t ν later hpart => ?_
    refine (operate_reads (x := .words (List.replicate n (g c))) rfl (by decide)
      fun u κ more m grows distinct => ?_).mono fun v t ν _ h => ⟨?_, ?_⟩
    · have word := (more.knows hpart.knows).words? grows distinct
      have parts : ((List.replicate n part.id).map Arg.id).mapM (Device.words? m κ) =
          some (List.replicate n [g c]) := by
        rw [List.map_replicate]
        refine (Spirv.mapM_of_forall (g := fun _ => [g c]) fun a ha => ?_).trans ?_
        · rw [List.eq_of_mem_replicate ha, word]
          rfl
        · rw [List.map_replicate]
      have unfolded : d.evaluate? m κ .compositeConstruct
          ((List.replicate n part.id).map .id) =
            (((List.replicate n part.id).map Arg.id).mapM (Device.words? m κ)).bind
              fun parts => some (.words parts.flatten) := rfl
      rw [unfolded, parts, Option.bind_some, List.flatten_replicate_singleton]
    · rw [List.length_replicate]
      exact h.1
    · rw [List.map_replicate]
      exact h.2

/-- Lanes of two vectors, numbered from the first on. -/
theorem shuffle_reads {a b type : Id} {wa wb : List UInt32} (ha : s.Knows μ a (.words wa))
    (hb : s.Knows μ b (.words wb)) {lanes : List Nat} (inside : ∀ i ∈ lanes, i < (wa ++ wb).length)
    (short : ∀ i ∈ lanes, i < UInt32.size) :
    Reads d L env (emitValue .vectorShuffle type
        (.id a :: .id b :: lanes.map fun lane => .word (.ofNat lane))) s μ fun id t ν =>
      t.Knows ν id (.words (lanes.map ((wa ++ wb).getD · 0))) := by
  refine .emitValue rfl (by nofun) fun t ν later n grows distinct => ?_
  let literals := lanes.map fun lane => Arg.word (.ofNat lane)
  have unfolded : d.evaluate? n ν .vectorShuffle (.id a :: .id b :: literals) = do
      let all := (← Device.words? n ν (.id a)) ++ (← Device.words? n ν (.id b))
      return .words (← literals.mapM fun lane =>
        (Device.literal? lane).bind fun n => all[n.toNat]?) := rfl
  have picked : (literals.mapM fun lane => (Device.literal? lane).bind fun n =>
      (wa ++ wb)[n.toNat]?) = some (lanes.map ((wa ++ wb).getD · 0)) := by
    rw [Spirv.mapM_of_forall (g := fun lane =>
      (wa ++ wb).getD ((Device.literal? lane).elim 0 UInt32.toNat) 0)]
    · rw [List.map_map]
      congr 1
      refine List.map_congr_left fun i hi => ?_
      simp only [Function.comp_apply, Device.literal?, Option.elim_some]
      rw [UInt32.toNat_ofNat_of_lt' (short i hi)]
    · intro lane hlane
      obtain ⟨i, hi, rfl⟩ := List.mem_map.1 hlane
      have here := inside i hi
      simp only [Device.literal?, Option.bind_some, Option.elim_some]
      rw [UInt32.toNat_ofNat_of_lt' (short i hi), List.getElem?_eq_getElem here,
        List.getElem_eq_getD]
  rw [unfolded, (later.knows ha).words? grows distinct, (later.knows hb).words? grows distinct]
  simp only [Option.bind_eq_bind, Option.bind_some, picked]
  rfl

/-- Some lanes of a vector, in a given order. -/
theorem pick_reads (h : s.Carries μ v scalar cs g) {lanes : List Nat} (some_ : lanes ≠ [])
    (inside : ∀ i ∈ lanes, i < cs.length) (short : cs.length ≤ 4) :
    Reads d L env (pick v lanes) s μ fun v t ν =>
      t.Carries ν v scalar (lanes.map (cs.getD · 0)) g := by
  unfold pick
  rw [h.type]
  refine .ite (fun all => .pure fun _ => ?_) fun _ => .ite (fun one => ?_) fun _ => ?_
  · have same : lanes.map (cs.getD · 0) = cs := by
      rw [all]
      apply List.ext_getElem <;> simp
      grind
    rwa [same]
  · match cs, one, inside, h with
    | [c], _, inside, h =>
      have zeros : lanes.map ([c].getD · 0) = List.replicate lanes.length c := by
        refine List.eq_replicate_iff.2 ⟨List.length_map _, fun b hb => ?_⟩
        obtain ⟨i, hi, rfl⟩ := List.mem_map.1 hb
        obtain rfl : i = 0 := Nat.lt_one_iff.1 (inside i hi)
        rfl
      rw [zeros]
      exact extend_reads h (List.length_pos_iff.2 some_)
  · rcases lanes with _ | ⟨lane, _ | ⟨next, rest⟩⟩
    · exact absurd rfl some_
    · have here := inside lane (List.mem_singleton_self _)
      refine (extract_reads h here (by simp only [UInt32.size]; omega)).mono fun v t ν _ h => ?_
      rw [List.map_singleton, ← List.getElem_eq_getD (h := here)]
      exact h
    · have low : ∀ i ∈ lane :: next :: rest, i < UInt32.size := fun i hi =>
        Nat.lt_of_lt_of_le (inside i hi) (Nat.le_trans short (by decide))
      refine .bind (vectorType_reads _) fun _ t ν later _ => ?_
      refine .bind (shuffle_reads (later.knows h.knows) (later.knows h.knows) (fun i hi => ?_) low)
        fun id u κ _ known => .pure fun _ => ⟨by rw [List.length_map], ?_⟩
      · have := inside i hi
        simp only [List.length_append, List.length_map]
        omega
      · refine Eq.mp (congrArg (u.Knows κ id <| .words ·) ?_) known
        rw [List.map_map]
        refine List.map_congr_left fun i hi => ?_
        have := inside i hi
        simp [List.getElem?_append, this]

/-- The lanes of a vector; it has them all. -/
theorem swizzle_reads (h : s.Carries μ v scalar cs g) {lanes : List Nat} (some_ : lanes ≠ [])
    (inside : ∀ i ∈ lanes, i < cs.length) (short : cs.length ≤ 4) :
    Reads d L env (swizzle v lanes) s μ fun v t ν =>
      t.Carries ν v scalar (lanes.map (cs.getD · 0)) g := by
  unfold swizzle
  rw [h.type, if_neg (by simpa using some_)]
  have within :
      lanes.any (fun i => decide ((⟨scalar, cs.length⟩ : VectorType).count ≤ i)) = false := by
    rw [List.any_eq_false]
    intro i hi
    simpa using inside i hi
  rw [within]
  exact .pure_bind (pick_reads h some_ inside short)

/-- What a sign modifier makes of a word. Numbers other than floats count as signed integers. -/
def modified (d : Device) (scalar : ScalarType) (modifier : Modifier) (w : UInt32) : UInt32 :=
  let absolute (w : UInt32) : UInt32 :=
    if scalar = .f32 then d.extended .fAbs [w] else if Spirv.signed w < 0 then -w else w
  let negate (w : UInt32) : UInt32 := if scalar = .f32 then d.float .fNegate [w] else -w
  match modifier with
  | .none => w
  | .neg => negate w
  | .abs => absolute w
  | .absNeg => negate (absolute w)

theorem absolute_reads (h : s.Carries μ v scalar cs g) :
    Reads d L env (absolute v) s μ fun v t ν =>
      t.Carries ν v scalar cs fun c => modified d scalar .abs (g c) := by
  have hold : s.Hold μ cs [v.id] [g] := .cons h.knows .nil
  unfold absolute Value.isFloat
  rw [h.type]
  by_cases float : scalar = .f32
  · rw [if_pos (by simpa using float)]
    exact extended_reads (by decide) hold nofun fun c _ => by simp [modified, float]; rfl
  · rw [if_neg (by simpa using float)]
    exact extended_reads (by decide) hold nofun fun c _ => by simp [modified, float]; rfl

theorem negate_reads (h : s.Carries μ v scalar cs g) :
    Reads d L env (negate v) s μ fun v t ν =>
      t.Carries ν v scalar cs fun c => modified d scalar .neg (g c) := by
  have hold : s.Hold μ cs [v.id] [g] := .cons h.knows .nil
  unfold negate Value.isFloat
  rw [h.type]
  by_cases float : scalar = .f32
  · rw [if_pos (by simpa using float)]
    exact operate_number rfl hold nofun fun c _ => by simp [modified, float]; rfl
  · rw [if_neg (by simpa using float)]
    exact operate_number rfl hold nofun fun c _ => by simp [modified, float]; rfl

theorem applyModifier_reads (h : s.Carries μ v scalar cs g) (modifier : Modifier) :
    Reads d L env (applyModifier v modifier) s μ fun v t ν =>
      t.Carries ν v scalar cs fun c => modified d scalar modifier (g c) := by
  cases modifier with
  | none => exact .pure_bind (.pure fun _ => h)
  | neg => exact .pure_bind (negate_reads h)
  | abs => exact .bind (absolute_reads h) fun v t ν _ h => .pure fun _ => h
  | absNeg => exact .bind (absolute_reads h) fun v t ν _ h => negate_reads h

/-- Which components are not zero. -/
theorem zeroTest_reads (number : scalar ≠ .bool) (some_ : cs ≠ []) (h : s.Carries μ v scalar cs g) :
    Reads d L env (zeroTest v .ifNonZero) s μ fun v t ν => t.Decides ν v cs fun c => g c ≠ 0 := by
  refine .bind (bitcast_reads number h .u32) fun v t ν _ h => ?_
  rw [h.type]
  refine .bind (splat_reads (by decide) some_ 0) fun zero u κ later hzero => ?_
  exact operate_test rfl (.cons (h.later later).knows (.cons hzero.knows .nil)) nofun
    fun _ _ => rfl

/-- Only floats are clamped. -/
def saturated (d : Device) (scalar : ScalarType) (isSaturated : Bool) (w : UInt32) : UInt32 :=
  if isSaturated ∧ scalar = .f32 then d.extended .fClamp [w, 0, floatOne] else w

theorem saturate_reads (some_ : cs ≠ []) (h : s.Carries μ v scalar cs g) :
    Reads d L env (saturate v) s μ fun v t ν =>
      t.Carries ν v scalar cs fun c => saturated d scalar true (g c) := by
  unfold saturate
  rw [h.type]
  refine .ite (fun other => .pure fun _ => h.congr fun c _ => ?_) fun float => ?_
  · simp [saturated, other]
  · obtain rfl : scalar = .f32 := not_not.1 float
    refine .bind (splat_reads (by decide) some_ 0) fun zero t ν later hzero => ?_
    refine .bind (splat_reads (by decide) some_ floatOne) fun one u κ later' hone => ?_
    exact extended_reads (by decide) (.cons ((h.later later).later later').knows
      (.cons (hzero.later later').knows (.cons hone.knows .nil))) nofun fun _ _ => rfl

theorem markPrecise_reads (inst : Instruction) (v : Value) :
    Reads d L env (markPrecise inst v) s μ fun _ _ _ => True :=
  .ite (fun _ => (Reads.annotate _).mono fun _ _ _ _ _ => trivial) fun _ => .pure fun _ => trivial

end Lower

end ShaderLowering
