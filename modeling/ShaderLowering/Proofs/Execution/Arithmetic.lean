import ShaderLowering.Proofs.Execution.Registers
import ShaderLowering.Proofs.Execution.Words

/-!
Integer arithmetic at run time. Each group of opcodes is computed by one or two operations of the
processor; the lemmas on words say that these are the functions of the instruction set.
-/

namespace ShaderLowering

open Spirv (Id Instr Arg Op ExtOp Module Processor Device Datum)

namespace Spirv

def Op.isField : Op → Bool
  | bitFieldUExtract | bitFieldSExtract | bitFieldInsert => true
  | _ => false

theorem Device.evaluate?_field {d : Device} {m : Module} {μ : Processor} {op : Op} {args : List Arg}
    (is : op.isField = true) {w : UInt32} (h : lanes? m μ (op.field? d) args = some [w]) :
    d.evaluate? m μ op args = some (.words [w]) := by
  cases op with
  | bitFieldUExtract | bitFieldSExtract | bitFieldInsert =>
    rw [Device.evaluate?, h]
    rfl
  | _ => cases is

end Spirv

/-- A value of integers. -/
def State.Integers (s : State) (μ : Processor) (v : Value) (cs : List Nat) (g : Nat → UInt32) :
    Prop :=
  ∃ scalar : ScalarType, scalar ≠ .bool ∧ scalar ≠ .f32 ∧ s.Carries μ v scalar cs g

theorem State.Carries.integers {s : State} {μ : Processor} {v : Value} {scalar : ScalarType}
    {cs : List Nat} {g : Nat → UInt32} (h : s.Carries μ v scalar cs g)
    (integer : scalar = .u32 ∨ scalar = .i32) : s.Integers μ v cs g := by
  rcases integer with rfl | rfl <;> exact ⟨_, by nofun, by nofun, h⟩

theorem State.Integers.later {s t : State} {μ ν : Processor} {v : Value} {cs : List Nat}
    {g : Nat → UInt32} (h : s.Integers μ v cs g) (later : s.Later μ t ν) :
    t.Integers ν v cs g := by
  obtain ⟨scalar, number, whole, carries⟩ := h
  exact ⟨scalar, number, whole, carries.later later⟩

namespace Lower

variable {d : Device} {L : Id → Prop} {env : Environment} {s : State} {μ : Processor}
  {scalar : ScalarType} {cs : List Nat} {g : Nat → UInt32}

/-- Integers are read as words of either kind. -/
theorem integers_reads {v : Value} (h : s.Integers μ v cs g) (other : ScalarType) :
    Reads d L env (bitcast v other) s μ fun v t ν => t.Carries ν v other cs g := by
  obtain ⟨scalar, number, _, carries⟩ := h
  exact bitcast_reads number carries other

section Scalars

variable {op : Op} {type : Id} {args : List Arg} {ids : List Id} {gs : List (Nat → UInt32)}

theorem emitValue_number (is : op.isNumber = true) (are : args = ids.map .id)
    (h : s.Hold μ cs ids gs)
    (some_ : gs ≠ []) (each : ∀ c ∈ cs, op.number? d (gs.map (· c)) = some (g c)) :
    Reads d L env (emitValue op type args) s μ fun id t ν =>
      t.Knows ν id (.words (cs.map g)) := by
  subst are
  have ⟨computed, noLoad⟩ : op.isComputed = true ∧ op ≠ .load := by
    cases op <;> first | exact ⟨rfl, by decide⟩ | cases is
  refine .emitValue computed (absurd · noLoad) fun t ν later n grows distinct => ?_
  rw [Device.evaluate?_number is, (h.later later).lanes? some_ each grows distinct]
  rfl

theorem emitValue_field {c : Nat} (is : op.isField = true) (are : args = ids.map .id)
    (h : s.Hold μ [c] ids gs) (some_ : gs ≠ []) (here : op.field? d (gs.map (· c)) = some (g c)) :
    Reads d L env (emitValue op type args) s μ fun id t ν =>
      t.Knows ν id (.words [g c]) := by
  subst are
  have ⟨computed, noLoad⟩ : op.isComputed = true ∧ op ≠ .load := by
    cases op <;> first | exact ⟨rfl, by decide⟩ | cases is
  refine .emitValue computed (absurd · noLoad) fun t ν later n grows distinct => ?_
  refine Device.evaluate?_field is ((h.later later).lanes? some_ (fun c' mem => ?_) grows distinct)
  rwa [List.mem_singleton.1 mem]

/-- An operation on scalars that are known. -/
theorem emitValue_word {ws : List UInt32} {w : UInt32} (is : op.isNumber = true)
    (are : args = ids.map .id) (h : List.Forall₂ (fun id w => s.Knows μ id (.words [w])) ids ws)
    (some_ : ws ≠ []) (here : op.number? d ws = some w) :
    Reads d L env (emitValue op type args) s μ fun id t ν => t.Knows ν id (.words [w]) := by
  have hold : s.Hold μ [0] ids (ws.map fun w _ => w) := List.forall₂_map_right_iff.2 h
  refine emitValue_number (g := fun _ => w) is are hold (by simpa using some_) fun c _ => ?_
  rw [List.map_map]
  exact (congrArg _ (List.map_id ws)).trans here

theorem extended_word {e : ExtOp} {ws : List UInt32} {w : UInt32} (known : e ∈ ExtOp.known)
    (h : List.Forall₂ (fun id w => s.Knows μ id (.words [w])) ids ws) (some_ : ws ≠ [])
    (here : e.number? d ws = some w) :
    Reads d L env (extended e (.single scalar) ids) s μ fun v t ν =>
      t.Knows ν v.id (.words [w]) := by
  have hold : s.Hold μ [0] ids (ws.map fun w _ => w) := List.forall₂_map_right_iff.2 h
  refine (extended_reads (g := fun _ => w) known hold (by simpa using some_) fun c _ => ?_).mono
    fun v t ν _ carries => carries.knows
  rw [List.map_map]
  exact (congrArg _ (List.map_id ws)).trans here

end Scalars

/-- Scalars put together to a vector. -/
theorem construct_reads {parts : List Id}
    (h : List.Forall₂ (fun c id => s.Knows μ id (.words [g c])) cs parts) :
    Reads d L env (operate .compositeConstruct ⟨scalar, cs.length⟩ parts) s μ fun v t ν =>
      t.Carries ν v scalar cs g := by
  refine (operate_reads (x := .words (cs.map g)) rfl (by decide)
    fun t ν later n grows distinct => ?_).mono fun v t ν _ h => ⟨h.1, h.2⟩
  have words : (parts.map Arg.id).mapM (Device.words? n ν) = some (cs.map fun c => [g c]) := by
    induction h with
    | nil => rfl
    | cons first _ ih =>
      rw [List.map_cons, List.mapM_cons, (later.knows first).words? grows distinct, ih]
      rfl
  have unfolded : d.evaluate? n ν .compositeConstruct (parts.map .id) =
      ((parts.map Arg.id).mapM (Device.words? n ν)).bind
        fun parts => some (.words parts.flatten) := rfl
  rw [unfolded, words, Option.bind_some, ← List.flatMap_def, ← List.map_eq_flatMap]

/-- Scalars put together to a vector; a single one stands for itself. -/
theorem compose_reads {parts : List Id}
    (h : List.Forall₂ (fun c id => s.Knows μ id (.words [g c])) cs parts) :
    Reads d L env (compose scalar parts) s μ fun v t ν => t.Carries ν v scalar cs g := by
  unfold compose
  split
  · next part =>
    obtain ⟨c, rest, known, none_, rfl⟩ := List.forall₂_cons_right_iff.1 h
    obtain rfl := List.forall₂_nil_right_iff.1 none_
    exact .pure fun _ => ⟨rfl, known⟩
  · rw [← h.length_eq]
    exact construct_reads h

/-- What is computed for each component by itself. -/
theorem perComponent_reads {f : Nat → Emission Id}
    (each : ∀ i (h : i < cs.length) t ν, s.Later μ t ν → Reads d L env (f i) t ν
      fun id u κ => u.Knows κ id (.words [g cs[i]])) :
    Reads d L env (perComponent cs.length scalar f) s μ fun v t ν => t.Carries ν v scalar cs g := by
  refine .bind (.mapM (P := fun i id t ν => ∀ h : i < cs.length, t.Knows ν id (.words [g cs[i]]))
    (fun later known h => later.knows (known h)) fun i hi t ν later => ?_)
      fun parts t ν later known => compose_reads ?_
  · exact (each i (List.mem_range.1 hi) t ν later).mono fun _ _ _ _ known _ => known
  · rw [List.forall₂_iff_get] at known ⊢
    obtain ⟨size, known⟩ := known
    rw [List.length_range] at size
    refine ⟨size, fun i hi hj => ?_⟩
    have here := known i (by rwa [List.length_range]) hj
    simp only [List.get_eq_getElem, List.getElem_range] at here ⊢
    exact here hi

/-- The offset of a bit field and its width, as far as the word goes. -/
theorem fieldRange_reads {width offset : Id} {w o : UInt32} (hw : s.Knows μ width (.words [w]))
    (ho : s.Knows μ offset (.words [o])) :
    Reads d L env (fieldRange width offset) s μ fun p t ν =>
      t.Knows ν p.1 (.words [o &&& 0x1f]) ∧ t.Knows ν p.2 (.words [Word.fieldCount w o]) := by
  refine .bind (scalarType_reads _) fun word s₁ μ₁ l₁ _ => ?_
  refine .bind (constantU32_reads 31) fun lowBits s₂ μ₂ l₂ hlow => ?_
  refine .bind (constantU32_reads 32) fun size s₃ μ₃ l₃ hsize => ?_
  have l₁₃ := (l₁.trans l₂).trans l₃
  have hlow := l₃.knows hlow
  refine .bind (emitValue_word rfl rfl (.cons (l₁₃.knows hw) (.cons hlow .nil)) nofun rfl)
    fun width s₄ μ₄ l₄ hw => ?_
  refine .bind (emitValue_word rfl rfl (.cons ((l₁₃.trans l₄).knows ho)
    (.cons (l₄.knows hlow) .nil)) nofun rfl) fun offset s₅ μ₅ l₅ ho => ?_
  refine .bind (emitValue_word rfl rfl (.cons ((l₄.trans l₅).knows hsize) (.cons ho .nil)) nofun
    rfl) fun room s₆ μ₆ l₆ hroom => ?_
  refine .bind (extended_word (e := .uMin) (by decide) (.cons ((l₅.trans l₆).knows hw)
    (.cons hroom .nil)) nofun rfl) fun count s₇ μ₇ l₇ hcount => ?_
  exact .pure fun _ => ⟨(l₆.trans l₇).knows ho, hcount⟩

section Fields

variable {width offset value : Value} {gw go : Nat → UInt32} (hw : s.Integers μ width cs gw)
  (ho : s.Integers μ offset cs go) (short : cs.length ≤ 4)
include hw ho short

theorem extractField_reads (isSigned : Bool) (hv : s.Integers μ value cs g) :
    Reads d L env (extractField isSigned width offset value) s μ fun v t ν =>
      t.Integers ν v cs fun c =>
        (if isSigned then Word.signedField else Word.field) (gw c) (go c) (g c) := by
  refine .bind (integers_reads hw .u32) fun width s₁ μ₁ l₁ hw => ?_
  refine .bind (integers_reads (ho.later l₁) .u32) fun offset s₂ μ₂ l₂ ho => ?_
  refine .bind (integers_reads (hv.later (l₁.trans l₂)) _) fun value s₃ μ₃ l₃ hv => ?_
  have hw := hw.later (l₂.trans l₃)
  have ho := ho.later l₃
  rw [hw.type]
  refine (perComponent_reads fun i inside t ν later => ?_).mono fun v t ν _ h =>
    h.integers (by cases isSigned <;> simp)
  have small : i < UInt32.size := by simp only [UInt32.size]; omega
  refine .bind (extract_reads (hw.later later) inside small) fun width s₄ μ₄ l₄ hw => ?_
  refine .bind (extract_reads ((ho.later later).later l₄) inside small)
    fun offset s₅ μ₅ l₅ ho => ?_
  refine .bind (extract_reads (((hv.later later).later l₄).later l₅) inside small)
    fun value s₆ μ₆ l₆ hv => ?_
  refine .bind (fieldRange_reads ((l₅.trans l₆).knows hw.knows) (l₆.knows ho.knows))
    fun range s₇ μ₇ l₇ hrange => ?_
  obtain ⟨start, count⟩ := range
  refine .bind (scalarType_reads _) fun type s₈ μ₈ l₈ _ => ?_
  have hold : s₈.Hold μ₈ [cs[i]] [value.id, start, count] [g, fun c => go c &&& 0x1f,
      fun c => Word.fieldCount (gw c) (go c)] :=
    .cons ((l₇.trans l₈).knows hv.knows) (.cons (l₈.knows hrange.1)
      (.cons (l₈.knows hrange.2) .nil))
  cases isSigned with
  | false =>
    simp only [Bool.false_eq_true, if_false]
    have here := Word.field?_unsigned d (gw cs[i]) (go cs[i]) (g cs[i])
    exact emitValue_field (g := fun c => Word.field (gw c) (go c) (g c)) rfl rfl hold
      nofun here
  | true =>
    simp only [if_true]
    have here := Word.field?_signed d (gw cs[i]) (go cs[i]) (g cs[i])
    exact emitValue_field (g := fun c => Word.signedField (gw c) (go c) (g c)) rfl rfl hold
      nofun here

theorem insertField_reads {base : Value} {gf gb : Nat → UInt32}
    (hf : s.Integers μ value cs gf) (hb : s.Integers μ base cs gb) :
    Reads d L env (insertField width offset value base) s μ fun v t ν =>
      t.Integers ν v cs fun c => Word.insertField (gw c) (go c) (gf c) (gb c) := by
  refine .bind (integers_reads hw .u32) fun width s₁ μ₁ l₁ hw => ?_
  refine .bind (integers_reads (ho.later l₁) .u32) fun offset s₂ μ₂ l₂ ho => ?_
  refine .bind (integers_reads (hf.later (l₁.trans l₂)) .u32) fun field s₃ μ₃ l₃ hf => ?_
  refine .bind (integers_reads (hb.later ((l₁.trans l₂).trans l₃)) .u32)
    fun base s₄ μ₄ l₄ hb => ?_
  have hw := hw.later ((l₂.trans l₃).trans l₄)
  have ho := ho.later (l₃.trans l₄)
  have hf := hf.later l₄
  rw [hw.type]
  refine (perComponent_reads fun i inside t ν later => ?_).mono fun v t ν _ h =>
    h.integers (.inl rfl)
  have small : i < UInt32.size := by simp only [UInt32.size]; omega
  refine .bind (extract_reads (hw.later later) inside small) fun width s₅ μ₅ l₅ hw => ?_
  refine .bind (extract_reads ((ho.later later).later l₅) inside small)
    fun offset s₆ μ₆ l₆ ho => ?_
  have l := (later.trans l₅).trans l₆
  refine .bind (extract_reads (hf.later l) inside small) fun field s₇ μ₇ l₇ hf => ?_
  refine .bind (extract_reads ((hb.later l).later l₇) inside small) fun base s₈ μ₈ l₈ hb => ?_
  refine .bind (fieldRange_reads (((l₆.trans l₇).trans l₈).knows hw.knows)
    ((l₇.trans l₈).knows ho.knows)) fun range s₉ μ₉ l₉ hrange => ?_
  obtain ⟨start, count⟩ := range
  refine .bind (scalarType_reads _) fun type t ν last _ => ?_
  have hold : t.Hold ν [cs[i]] [base.id, field.id, start, count] [gb, gf,
      fun c => go c &&& 0x1f, fun c => Word.fieldCount (gw c) (go c)] :=
    .cons ((l₉.trans last).knows hb.knows) (.cons (((l₈.trans l₉).trans last).knows hf.knows)
      (.cons (last.knows hrange.1) (.cons (last.knows hrange.2) .nil)))
  have here := Word.field?_insert d (gw cs[i]) (go cs[i]) (gf cs[i]) (gb cs[i])
  exact emitValue_field (g := fun c => Word.insertField (gw c) (go c) (gf c) (gb c)) rfl rfl hold
    nofun here

end Fields

/-- A search from the top, in terms of a search from the bottom. -/
theorem firstBitFromTop_reads {op : ExtOp} {a : Value} {ga msb : Nat → UInt32} (some_ : cs ≠ [])
    (known : op ∈ ExtOp.known) (number : scalar ≠ .bool) (ha : s.Carries μ a scalar cs ga)
    (each : ∀ c ∈ cs, op.number? d [ga c] = some (msb c))
    (flips : ∀ c ∈ cs, (if msb c = 0xffffffff then 0xffffffff else 31 - msb c) = g c) :
    Reads d L env (firstBitFromTop op a cs.length) s μ fun v t ν => t.Integers ν v cs g := by
  unfold firstBitFromTop
  rw [ha.type]
  refine .bind (extended_reads known (.cons ha.knows .nil) nofun each)
    fun found s₁ μ₁ _ found_ => ?_
  refine .bind (bitcast_reads number found_ .u32) fun found s₂ μ₂ _ found_ => ?_
  refine .bind (splat_reads (by decide) some_ _) fun missing s₃ μ₃ l₃ missing_ => ?_
  refine .bind (splat_reads (by decide) some_ _) fun top s₄ μ₄ l₄ top_ => ?_
  have found_ := found_.later (l₃.trans l₄)
  have missing_ := missing_.later l₄
  refine .bind (operate_number (g := fun c => 31 - msb c) rfl
    (.cons top_.knows (.cons found_.knows .nil)) nofun fun _ _ => rfl)
      fun flipped s₅ μ₅ l₅ flipped_ => ?_
  refine .bind (operate_test (p := fun c => msb c = 0xffffffff) rfl
    (.cons (found_.later l₅).knows (.cons (missing_.later l₅).knows .nil)) nofun fun _ _ => rfl)
    fun isMissing s₆ μ₆ l₆ isMissing_ => ?_
  refine (select_reads .u32 isMissing_ ((missing_.later l₅).later l₆).knows
    (flipped_.later l₆).knows).mono fun v t ν _ chosen => ?_
  exact (chosen.congr fun c mem => by simpa using flips c mem).integers (.inl rfl)

/-- The one word that an instruction computes. -/
theorem word_eq {x y : UInt32} (h : some [x] = some [y]) : x = y :=
  List.head_eq_of_cons_eq (Option.some.inj h)

section Groups

variable {inst : Instruction} {op : Opcode} {src : Nat → Emission Value} {a b c₂ c₃ : Value}
  {ga gb gc ge : Nat → UInt32} {f : Op}

theorem wordUnary_reads (is : wordUnary? op = some f) (first : src 0 = pure a)
    (ha : s.Integers μ a cs ga) (computes : ∀ c ∈ cs, op.words? [ga c] = some [g c]) :
    Reads d L env (computeVector inst op src cs.length) s μ fun v t ν => t.Integers ν v cs g := by
  have number : f.isNumber = true := by cases op <;> cases is <;> rfl
  have each : ∀ c ∈ cs, f.number? d [ga c] = some (g c) := by
    intro c hc
    cases op <;> cases is <;> exact congrArg some (word_eq (computes c hc))
  have runs : Reads d L env (do
      let a ← bitcast (← src 0) .u32
      operate f ⟨.u32, cs.length⟩ [a.id]) s μ fun v t ν => t.Integers ν v cs g := by
    rw [first]
    refine .pure_bind (.bind (integers_reads ha _) fun a s₁ μ₁ l₁ ha => ?_)
    exact (operate_number number (.cons ha.knows .nil) nofun each).mono
      fun v t ν _ h => h.integers (.inl rfl)
  cases op <;> cases is <;> exact runs

theorem bitwise_reads (is : bitwise? op = some f) (first : src 0 = pure a)
    (second : src 1 = pure b) (ha : s.Integers μ a cs ga) (hb : s.Integers μ b cs gb)
    (computes : ∀ c ∈ cs, op.words? [ga c, gb c] = some [g c]) :
    Reads d L env (computeVector inst op src cs.length) s μ fun v t ν => t.Integers ν v cs g := by
  have number : f.isNumber = true := by cases op <;> cases is <;> rfl
  have each : ∀ c ∈ cs, f.number? d [ga c, gb c] = some (g c) := by
    intro c hc
    cases op <;> cases is <;> exact congrArg some (word_eq (computes c hc))
  have runs : Reads d L env (do
      let a ← bitcast (← src 0) .u32
      let b ← bitcast (← src 1) .u32
      operate f ⟨.u32, cs.length⟩ [a.id, b.id]) s μ fun v t ν => t.Integers ν v cs g := by
    rw [first, second]
    refine .pure_bind (.bind (integers_reads ha _) fun a s₁ μ₁ l₁ ha => .pure_bind ?_)
    refine .bind (integers_reads (hb.later l₁) _) fun b s₂ μ₂ l₂ hb => ?_
    exact (operate_number number (.cons (ha.later l₂).knows (.cons hb.knows .nil)) nofun each).mono
      fun v t ν _ h => h.integers (.inl rfl)
  cases op <;> cases is <;> exact runs

/-- Shifts go by the low five bits of their distance. -/
theorem shift_reads (some_ : cs ≠ []) (is : shift? op = some f) (first : src 0 = pure a)
    (second : src 1 = pure b) (ha : s.Integers μ a cs ga) (hb : s.Integers μ b cs gb)
    (computes : ∀ c ∈ cs, op.words? [ga c, gb c] = some [g c]) :
    Reads d L env (computeVector inst op src cs.length) s μ fun v t ν => t.Integers ν v cs g := by
  have number : f.isNumber = true := by cases op <;> cases is <;> rfl
  have each : ∀ c ∈ cs, f.number? d [ga c, gb c &&& 0x1f] = some (g c) := by
    intro c hc
    have word := computes c hc
    cases op <;> cases is
    · rw [Word.number?_shiftLeft]
      exact congrArg some (word_eq word)
    · rw [Word.number?_shiftRightSigned]
      exact congrArg some (word_eq word)
    · rw [Word.number?_shiftRight]
      exact congrArg some (word_eq word)
  have runs : Reads d L env (do
      let a ← src 0
      let lowBits ← splat .u32 0x1f cs.length
      let b ← bitcast (← src 1) .u32
      let b ← operate .bitwiseAnd ⟨.u32, cs.length⟩ [b.id, lowBits.id]
      operate f a.type [a.id, b.id]) s μ fun v t ν => t.Integers ν v cs g := by
    obtain ⟨scalar, boolean, float, carries⟩ := ha
    rw [first, second]
    refine .pure_bind (.bind (splat_reads (by decide) some_ _) fun low s₁ μ₁ l₁ low_ => ?_)
    refine .pure_bind (.bind (integers_reads (hb.later l₁) _) fun b s₂ μ₂ l₂ hb => ?_)
    refine .bind (operate_number (g := fun c => gb c &&& 0x1f) rfl
      (.cons hb.knows (.cons (low_.later l₂).knows .nil)) nofun fun _ _ => rfl)
      fun b s₃ μ₃ l₃ hb => ?_
    have carries := ((carries.later l₁).later l₂).later l₃
    rw [carries.type]
    exact (operate_number number (.cons carries.knows (.cons hb.knows .nil)) nofun each).mono
      fun v t ν _ h => ⟨scalar, boolean, float, h⟩
  cases op <;> cases is <;> exact runs

/-- Comparisons of integers give masks. -/
theorem comparison_reads (some_ : cs ≠ []) (is : comparison? op = some f) (test : f.isTest = true)
    (first : src 0 = pure a) (second : src 1 = pure b) (ha : s.Integers μ a cs ga)
    (hb : s.Integers μ b cs gb) (computes : ∀ c ∈ cs, op.words? [ga c, gb c] = some [g c]) :
    Reads d L env (computeVector inst op src cs.length) s μ fun v t ν => t.Integers ν v cs g := by
  obtain ⟨p, each, masks⟩ : ∃ p : Nat → Bool, (∀ c ∈ cs, f.test? [ga c, gb c] = some (p c)) ∧
      ∀ c ∈ cs, Word.mask (p c) = g c := by
    refine ⟨fun c => (f.test? [ga c, gb c]).getD false, fun c hc => ?_, fun c hc => ?_⟩
    · cases op <;> cases is <;> first | rfl | cases test
    · have word := computes c hc
      cases op <;> cases is <;> first | exact word_eq word | cases test
  have runs : Reads d L env (do
      let a ← src 0
      let b ← bitcast (← src 1) a.type.scalar
      let result ← operate f ⟨.bool, cs.length⟩ [a.id, b.id]
      boolToMask result) s μ fun v t ν => t.Integers ν v cs g := by
    obtain ⟨scalar, _, _, carries⟩ := ha
    rw [first, second]
    refine .pure_bind (.pure_bind (.bind (integers_reads hb _) fun b s₁ μ₁ l₁ hb => ?_))
    refine .bind (operate_test test (.cons (carries.later l₁).knows
      (.cons hb.knows .nil)) nofun each)
      fun result s₂ μ₂ l₂ result_ => ?_
    exact (boolToMask_reads result_ some_).mono fun v t ν _ h =>
      (h.congr masks).integers (.inl rfl)
  cases op <;> cases is <;> exact runs

theorem extremum_reads {e : ExtOp} (is : integerExtremum? op = some (e, scalar))
    (first : src 0 = pure a) (second : src 1 = pure b) (ha : s.Integers μ a cs ga)
    (hb : s.Integers μ b cs gb) (computes : ∀ c ∈ cs, op.words? [ga c, gb c] = some [g c]) :
    Reads d L env (computeVector inst op src cs.length) s μ fun v t ν => t.Integers ν v cs g := by
  have known : e ∈ ExtOp.known := by cases op <;> cases is <;> decide
  have integer : scalar = .u32 ∨ scalar = .i32 := by cases op <;> cases is <;> decide
  have each : ∀ c ∈ cs, e.number? d [ga c, gb c] = some (g c) := by
    intro c hc
    have word := computes c hc
    have swap {p q : Prop} [Decidable p] [Decidable q] (h : ¬p ↔ q) {x y : UInt32} :
        (if p then y else x) = if q then x else y := by
      by_cases hp : p <;> simp [hp, ← h]
    cases op <;> cases is <;> rw [← word_eq word] <;> refine congrArg some (swap ?_)
    · exact Int.not_lt
    · exact Int.not_lt
    · exact UInt32.not_lt
    · exact UInt32.not_lt
  have runs : Reads d L env (do
      let a ← bitcast (← src 0) scalar
      let b ← bitcast (← src 1) scalar
      extended e ⟨scalar, cs.length⟩ [a.id, b.id]) s μ fun v t ν => t.Integers ν v cs g := by
    rw [first, second]
    refine .pure_bind (.bind (integers_reads ha _) fun a s₁ μ₁ l₁ ha => .pure_bind ?_)
    refine .bind (integers_reads (hb.later l₁) _) fun b s₂ μ₂ l₂ hb => ?_
    exact (extended_reads known (.cons (ha.later l₂).knows (.cons hb.knows .nil)) nofun each).mono
      fun v t ν _ h => h.integers integer
  cases op <;> cases is <;> exact runs

theorem add_reads (first : src 0 = pure a) (second : src 1 = pure b) (ha : s.Integers μ a cs ga)
    (hb : s.Integers μ b cs gb) :
    Reads d L env (computeVector inst .iadd src cs.length) s μ fun v t ν =>
      t.Integers ν v cs fun c => ga c + gb c := by
  have runs : Reads d L env (do
      let a ← src 0
      let b ← bitcast (← src 1) a.type.scalar
      operate .iAdd a.type [a.id, b.id]) s μ fun v t ν =>
        t.Integers ν v cs fun c => ga c + gb c := by
    obtain ⟨scalar, boolean, float, carries⟩ := ha
    rw [first, second]
    refine .pure_bind (.pure_bind (.bind (integers_reads hb _) fun b s₁ μ₁ l₁ hb => ?_))
    rw [carries.type]
    exact (operate_number rfl (.cons (carries.later l₁).knows (.cons hb.knows .nil)) nofun
      fun _ _ => rfl).mono fun v t ν _ h => ⟨scalar, boolean, float, h⟩
  exact runs

theorem multiplyAdd_reads (is : op = .imad ∨ op = .umad) (first : src 0 = pure a)
    (second : src 1 = pure b) (third : src 2 = pure c₂) (ha : s.Integers μ a cs ga)
    (hb : s.Integers μ b cs gb) (hc : s.Integers μ c₂ cs gc) :
    Reads d L env (computeVector inst op src cs.length) s μ fun v t ν =>
      t.Integers ν v cs fun c => ga c * gb c + gc c := by
  have runs : Reads d L env (do
      let a ← src 0
      let b ← bitcast (← src 1) a.type.scalar
      let c ← bitcast (← src 2) a.type.scalar
      let product ← operate .iMul a.type [a.id, b.id]
      operate .iAdd a.type [product.id, c.id]) s μ fun v t ν =>
        t.Integers ν v cs fun c => ga c * gb c + gc c := by
    obtain ⟨scalar, boolean, float, carries⟩ := ha
    rw [first, second, third]
    refine .pure_bind (.pure_bind (.bind (integers_reads hb _) fun b s₁ μ₁ l₁ hb => .pure_bind ?_))
    refine .bind (integers_reads (hc.later l₁) _) fun c s₂ μ₂ l₂ hc => ?_
    have carries := (carries.later l₁).later l₂
    rw [carries.type]
    refine .bind (operate_number (g := fun c => ga c * gb c) rfl
      (.cons carries.knows (.cons (hb.later l₂).knows .nil)) nofun fun _ _ => rfl)
      fun product s₃ μ₃ l₃ product_ => ?_
    exact (operate_number rfl (.cons product_.knows (.cons (hc.later l₃).knows .nil)) nofun
      fun _ _ => rfl).mono fun v t ν _ h => ⟨scalar, boolean, float, h⟩
  rcases is with rfl | rfl <;> exact runs

theorem negative_reads (first : src 0 = pure a) (ha : s.Integers μ a cs ga) :
    Reads d L env (computeVector inst .ineg src cs.length) s μ fun v t ν =>
      t.Integers ν v cs fun c => -ga c := by
  have runs : Reads d L env (do
      let a ← bitcast (← src 0) .i32
      operate .sNegate ⟨.i32, cs.length⟩ [a.id]) s μ fun v t ν =>
        t.Integers ν v cs fun c => -ga c := by
    rw [first]
    refine .pure_bind (.bind (integers_reads ha _) fun a s₁ μ₁ l₁ ha => ?_)
    exact (operate_number rfl (.cons ha.knows .nil) nofun fun _ _ => rfl).mono
      fun v t ν _ h => h.integers (.inr rfl)
  exact runs

theorem firstBitLow_reads (first : src 0 = pure a) (ha : s.Integers μ a cs ga) :
    Reads d L env (computeVector inst .firstbitLo src cs.length) s μ fun v t ν =>
      t.Integers ν v cs fun c => Word.firstBitLow (ga c) := by
  have runs : Reads d L env (do
      let a ← bitcast (← src 0) .u32
      extended .findILsb ⟨.u32, cs.length⟩ [a.id]) s μ fun v t ν =>
        t.Integers ν v cs fun c => Word.firstBitLow (ga c) := by
    rw [first]
    refine .pure_bind (.bind (integers_reads ha _) fun a s₁ μ₁ l₁ ha => ?_)
    exact (extended_reads (by decide) (.cons ha.knows .nil) nofun fun _ _ => rfl).mono
      fun v t ν _ h => h.integers (.inl rfl)
  exact runs

theorem firstBitHigh_reads (some_ : cs ≠ []) (first : src 0 = pure a)
    (ha : s.Integers μ a cs ga) :
    Reads d L env (computeVector inst .firstbitHi src cs.length) s μ fun v t ν =>
      t.Integers ν v cs fun c => Word.firstBitHigh (ga c) := by
  have runs : Reads d L env (do
      let a ← bitcast (← src 0) .u32
      firstBitFromTop .findUMsb a cs.length) s μ fun v t ν =>
        t.Integers ν v cs fun c => Word.firstBitHigh (ga c) := by
    rw [first]
    refine .pure_bind (.bind (integers_reads ha _) fun a s₁ μ₁ l₁ ha => ?_)
    exact firstBitFromTop_reads some_ (by decide) (by decide) ha (fun _ _ => rfl)
      fun c _ => Word.firstBitHigh_eq (ga c)
  exact runs

theorem firstBitSigned_reads (some_ : cs ≠ []) (first : src 0 = pure a)
    (ha : s.Integers μ a cs ga) :
    Reads d L env (computeVector inst .firstbitShi src cs.length) s μ fun v t ν =>
      t.Integers ν v cs fun c => Word.firstBitSigned (ga c) := by
  have runs : Reads d L env (do
      let a ← bitcast (← src 0) .i32
      firstBitFromTop .findSMsb a cs.length) s μ fun v t ν =>
        t.Integers ν v cs fun c => Word.firstBitSigned (ga c) := by
    rw [first]
    refine .pure_bind (.bind (integers_reads ha _) fun a s₁ μ₁ l₁ ha => ?_)
    exact firstBitFromTop_reads some_ (by decide) (by decide) ha (fun _ _ => rfl)
      fun c _ => Word.firstBitSigned_eq (ga c)
  exact runs

theorem bitExtract_reads (isSigned : Bool) (is : op = if isSigned then .ibfe else .ubfe)
    (short : cs.length ≤ 4) (first : src 0 = pure a) (second : src 1 = pure b)
    (third : src 2 = pure c₂) (ha : s.Integers μ a cs ga) (hb : s.Integers μ b cs gb)
    (hc : s.Integers μ c₂ cs gc) :
    Reads d L env (computeVector inst op src cs.length) s μ fun v t ν => t.Integers ν v cs fun c =>
      (if isSigned then Word.signedField else Word.field) (ga c) (gb c) (gc c) := by
  have runs : Reads d L env (do extractField isSigned (← src 0) (← src 1) (← src 2)) s μ
      fun v t ν => t.Integers ν v cs fun c =>
        (if isSigned then Word.signedField else Word.field) (ga c) (gb c) (gc c) := by
    rw [first, second, third]
    exact .pure_bind (.pure_bind (.pure_bind
      (extractField_reads ha hb short isSigned hc)))
  cases isSigned <;> cases is <;> exact runs

theorem bitInsert_reads (short : cs.length ≤ 4) (first : src 0 = pure a)
    (second : src 1 = pure b) (third : src 2 = pure c₂) (fourth : src 3 = pure c₃)
    (ha : s.Integers μ a cs ga) (hb : s.Integers μ b cs gb) (hc : s.Integers μ c₂ cs gc)
    (he : s.Integers μ c₃ cs ge) :
    Reads d L env (computeVector inst .bfi src cs.length) s μ fun v t ν =>
      t.Integers ν v cs fun c => Word.insertField (ga c) (gb c) (gc c) (ge c) := by
  have runs : Reads d L env
      (do insertField (← src 0) (← src 1) (← src 2) (← src 3)) s μ fun v t ν =>
        t.Integers ν v cs fun c => Word.insertField (ga c) (gb c) (gc c) (ge c) := by
    rw [first, second, third, fourth]
    exact .pure_bind (.pure_bind (.pure_bind (.pure_bind
      (insertField_reads ha hb short hc he))))
  exact runs

end Groups

section Arity

variable {α β : Type} {r : α → β → Prop} {as : List α} {bs : List β}

theorem forall₂_one (h : List.Forall₂ r as bs) (size : bs.length = 1) :
    ∃ a b, as = [a] ∧ bs = [b] ∧ r a b := by
  obtain ⟨b, rfl⟩ := List.length_eq_one_iff.1 size
  obtain ⟨a, rest, first, none_, rfl⟩ := List.forall₂_cons_right_iff.1 h
  obtain rfl := List.forall₂_nil_right_iff.1 none_
  exact ⟨a, b, rfl, rfl, first⟩

theorem forall₂_succ (h : List.Forall₂ r as bs) {n : Nat} (size : bs.length = n + 1) :
    ∃ a b as' bs', as = a :: as' ∧ bs = b :: bs' ∧ r a b ∧ List.Forall₂ r as' bs' ∧
      bs'.length = n := by
  obtain ⟨b, bs', rfl⟩ := List.exists_cons_of_length_eq_add_one size
  obtain ⟨a, as', first, others, rfl⟩ := List.forall₂_cons_right_iff.1 h
  exact ⟨a, b, as', bs', rfl, rfl, first, others, Nat.succ.inj size⟩

theorem forall₂_two (h : List.Forall₂ r as bs) (size : bs.length = 2) :
    ∃ a₁ a₂ b₁ b₂, as = [a₁, a₂] ∧ bs = [b₁, b₂] ∧ r a₁ b₁ ∧ r a₂ b₂ := by
  obtain ⟨a₁, b₁, _, _, rfl, rfl, first, others, size⟩ := forall₂_succ h size
  obtain ⟨a₂, b₂, rfl, rfl, second⟩ := forall₂_one others size
  exact ⟨a₁, a₂, b₁, b₂, rfl, rfl, first, second⟩

theorem forall₂_three (h : List.Forall₂ r as bs) (size : bs.length = 3) :
    ∃ a₁ a₂ a₃ b₁ b₂ b₃, as = [a₁, a₂, a₃] ∧ bs = [b₁, b₂, b₃] ∧
      r a₁ b₁ ∧ r a₂ b₂ ∧ r a₃ b₃ := by
  obtain ⟨a₁, b₁, _, _, rfl, rfl, first, others, size⟩ := forall₂_succ h size
  obtain ⟨a₂, a₃, b₂, b₃, rfl, rfl, second, third⟩ := forall₂_two others size
  exact ⟨a₁, a₂, a₃, b₁, b₂, b₃, rfl, rfl, first, second, third⟩

theorem forall₂_four (h : List.Forall₂ r as bs) (size : bs.length = 4) :
    ∃ a₁ a₂ a₃ a₄ b₁ b₂ b₃ b₄, as = [a₁, a₂, a₃, a₄] ∧ bs = [b₁, b₂, b₃, b₄] ∧
      r a₁ b₁ ∧ r a₂ b₂ ∧ r a₃ b₃ ∧ r a₄ b₄ := by
  obtain ⟨a₁, b₁, _, _, rfl, rfl, first, others, size⟩ := forall₂_succ h size
  obtain ⟨a₂, a₃, a₄, b₂, b₃, b₄, rfl, rfl, second, third, last⟩ := forall₂_three others size
  exact ⟨a₁, a₂, a₃, a₄, b₁, b₂, b₃, b₄, rfl, rfl, first, second, third, last⟩

end Arity

/-- An integer instruction with one destination computes its word for each component. -/
theorem computeVector_reads {inst : Instruction} {op : Opcode} {src : Nat → Emission Value}
    {vs : List Value} {gs : List (Nat → UInt32)} (integer : op ∈ Opcode.integers)
    (single : op.destinations.length = 1) (some_ : cs ≠ []) (short : cs.length ≤ 4)
    (size : gs.length = op.sources.length) (given : ∀ n v, vs[n]? = some v → src n = pure v)
    (h : List.Forall₂ (fun v g => s.Integers μ v cs g) vs gs)
    (computes : ∀ c ∈ cs, op.words? (gs.map (· c)) = some [g c]) :
    Reads d L env (computeVector inst op src cs.length) s μ fun v t ν => t.Integers ν v cs g := by
  have word {h : Nat → UInt32} {v : Value} {t : State} {ν : Processor}
      (same : ∀ c ∈ cs, some [h c] = some [g c]) (held : t.Integers ν v cs h) :
      t.Integers ν v cs g := by
    obtain ⟨scalar, boolean, float, carries⟩ := held
    exact ⟨scalar, boolean, float, carries.congr fun c mem => word_eq (same c mem)⟩
  cases op
  case and | or | xor =>
    obtain ⟨a, b, ga, gb, rfl, rfl, ha, hb⟩ := forall₂_two h size
    exact bitwise_reads rfl (given 0 _ rfl) (given 1 _ rfl) ha hb computes
  case not | countBits | bfrev =>
    obtain ⟨a, ga, rfl, rfl, ha⟩ := forall₂_one h size
    exact wordUnary_reads rfl (given 0 _ rfl) ha computes
  case ishl | ishr | ushr =>
    obtain ⟨a, b, ga, gb, rfl, rfl, ha, hb⟩ := forall₂_two h size
    exact shift_reads some_ rfl (given 0 _ rfl) (given 1 _ rfl) ha hb computes
  case ieq | ine | ilt | ige | ult | uge =>
    obtain ⟨a, b, ga, gb, rfl, rfl, ha, hb⟩ := forall₂_two h size
    exact comparison_reads some_ rfl rfl (given 0 _ rfl) (given 1 _ rfl) ha hb computes
  case imin | imax | umin | umax =>
    obtain ⟨a, b, ga, gb, rfl, rfl, ha, hb⟩ := forall₂_two h size
    exact extremum_reads rfl (given 0 _ rfl) (given 1 _ rfl) ha hb computes
  case iadd =>
    obtain ⟨a, b, ga, gb, rfl, rfl, ha, hb⟩ := forall₂_two h size
    exact (add_reads (given 0 _ rfl) (given 1 _ rfl) ha hb).mono fun _ _ _ _ => word computes
  case imad | umad =>
    obtain ⟨a, b, c, ga, gb, gc, rfl, rfl, ha, hb, hc⟩ := forall₂_three h size
    exact (multiplyAdd_reads (by decide) (given 0 _ rfl) (given 1 _ rfl) (given 2 _ rfl) ha hb
      hc).mono fun _ _ _ _ => word computes
  case ineg =>
    obtain ⟨a, ga, rfl, rfl, ha⟩ := forall₂_one h size
    exact (negative_reads (given 0 _ rfl) ha).mono fun _ _ _ _ => word computes
  case firstbitLo =>
    obtain ⟨a, ga, rfl, rfl, ha⟩ := forall₂_one h size
    exact (firstBitLow_reads (given 0 _ rfl) ha).mono fun _ _ _ _ => word computes
  case firstbitHi =>
    obtain ⟨a, ga, rfl, rfl, ha⟩ := forall₂_one h size
    exact (firstBitHigh_reads some_ (given 0 _ rfl) ha).mono fun _ _ _ _ => word computes
  case firstbitShi =>
    obtain ⟨a, ga, rfl, rfl, ha⟩ := forall₂_one h size
    exact (firstBitSigned_reads some_ (given 0 _ rfl) ha).mono fun _ _ _ _ => word computes
  case ubfe =>
    obtain ⟨w, o, a, gw, go, ga, rfl, rfl, hw, ho, ha⟩ := forall₂_three h size
    exact (bitExtract_reads false rfl short (given 0 _ rfl) (given 1 _ rfl)
      (given 2 _ rfl) hw ho
      ha).mono fun _ _ _ _ => word computes
  case ibfe =>
    obtain ⟨w, o, a, gw, go, ga, rfl, rfl, hw, ho, ha⟩ := forall₂_three h size
    exact (bitExtract_reads true rfl short (given 0 _ rfl) (given 1 _ rfl)
      (given 2 _ rfl) hw ho
      ha).mono fun _ _ _ _ => word computes
  case bfi =>
    obtain ⟨w, o, f, b, gw, go, gf, gb, rfl, rfl, hw, ho, hf, hb⟩ := forall₂_four h size
    exact (bitInsert_reads short (given 0 _ rfl) (given 1 _ rfl) (given 2 _ rfl)
      (given 3 _ rfl) hw ho hf hb).mono fun _ _ _ _ => word computes
  all_goals first
    | exact absurd integer (by decide)
    | exact absurd single (by decide)

section Pairs

variable {op : Op} {a b : Value} {ga gb : Nat → UInt32} {pair : Id}
  {p : Nat → UInt32 × UInt32}

theorem operatePair_reads (is : op.isPair = true) (ha : s.Carries μ a scalar cs ga)
    (hb : s.Carries μ b scalar cs gb) (each : ∀ c ∈ cs, op.pair? [ga c, gb c] = some (p c)) :
    Reads d L env (operatePair op ⟨scalar, cs.length⟩ a b) s μ fun id t ν =>
      t.Knows ν id (.pairs (cs.map p)) := by
  have ⟨computed, noLoad⟩ : op.isComputed = true ∧ op ≠ .load := by
    cases op <;> first | exact ⟨rfl, by decide⟩ | cases is
  refine .bind (vectorType_reads _) fun member s₁ μ₁ l₁ _ => ?_
  refine .bind (declareType_reads _) fun pairType s₂ μ₂ l₂ _ => ?_
  refine .emitValue computed (absurd · noLoad) fun t ν later n grows distinct => ?_
  have hold : t.Hold ν cs [a.id, b.id] [ga, gb] :=
    .cons (((l₁.trans l₂).trans later).knows ha.knows)
      (.cons (((l₁.trans l₂).trans later).knows hb.knows) .nil)
  have lanes : Device.lanes? n ν op.pair? [.id a.id, .id b.id] = some (cs.map p) :=
    hold.lanes? nofun each grows distinct
  rw [Device.evaluate?_pair is, lanes]
  rfl

/-- One of the two results. -/
theorem pairMember_reads (scalar : ScalarType) (h : s.Knows μ pair (.pairs (cs.map p))) {n : UInt32}
    (is : n = 0 ∧ (g = fun c => (p c).1) ∨ n = 1 ∧ g = fun c => (p c).2) :
    Reads d L env (pairMember ⟨scalar, cs.length⟩ pair n) s μ fun v t ν =>
      t.Carries ν v scalar cs g := by
  refine .bind (vectorType_reads _) fun type s₁ μ₁ l₁ _ => ?_
  refine .bind (.emitValue (x := .words (cs.map g)) rfl (by nofun)
    fun t ν later m grows distinct => ?_) fun id s₂ μ₂ _ known => .pure fun _ => ⟨rfl, known⟩
  have both := (later.knows (l₁.knows h)).datum? grows distinct
  have unfolded : d.evaluate? m ν .compositeExtract [.id pair, .word n] =
      (Device.datum? m ν (.id pair)).bind (·.member? n) := rfl
  rw [unfolded, both, Option.bind_some]
  rcases is with ⟨rfl, rfl⟩ | ⟨rfl, rfl⟩
  · rw [Datum.member?, if_pos rfl, List.map_map]
    rfl
  · rw [Datum.member?, if_neg (by decide), if_pos rfl, List.map_map]
    rfl

end Pairs

end Lower

end ShaderLowering
