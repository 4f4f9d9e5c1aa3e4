import Mathlib.Data.List.Chain
import Mathlib.Data.List.Nodup
import ShaderLowering.Proofs.Program.Layout
import ShaderLowering.Proofs.Program.Tiling

/-!
Decoding undoes the layout. Every reader reads back what the layout has written for it and leaves
what follows, so the statements compose as the readers do; for operands they go by induction on
the nesting of their indices.
-/

namespace ShaderLowering

namespace Layout

namespace Fields

variable {fs : Fields}

/-- Every value fits into its field, and the fields into a token. -/
structure Fit (fs : Fields) : Prop where
  values : ∀ f ∈ fs, f.2 < 2 ^ f.1
  width : width fs ≤ 32

theorem value_append (fs gs : Fields) : value (fs ++ gs) = value fs + 2 ^ width fs * value gs := by
  induction fs with
  | nil => simp [value, width]
  | cons f fs ih =>
    have width_ : width (f :: fs) = f.1 + width fs := List.sum_cons
    rw [List.cons_append, value, value, ih, width_, Nat.pow_add, Nat.mul_add, Nat.mul_assoc,
      Nat.add_assoc]

theorem value_lt (small : ∀ f ∈ fs, f.2 < 2 ^ f.1) : value fs < 2 ^ width fs := by
  induction fs with
  | nil => exact Nat.one_pos
  | cons f fs ih =>
    have head := small f List.mem_cons_self
    have tail := ih fun g hg => small g (List.mem_cons_of_mem _ hg)
    have width_ : width (f :: fs) = f.1 + width fs := List.sum_cons
    calc value (f :: fs) < 2 ^ f.1 + 2 ^ f.1 * value fs := Nat.add_lt_add_right head _
      _ = 2 ^ f.1 * (value fs + 1) := by rw [Nat.mul_add, Nat.mul_one, Nat.add_comm]
      _ ≤ 2 ^ f.1 * 2 ^ width fs := Nat.mul_le_mul_left _ tail
      _ = 2 ^ width (f :: fs) := by rw [width_, Nat.pow_add]

theorem toNat_token (fit : Fit fs) : (token fs).toNat = value fs := by
  have small : value fs < 2 ^ 32 :=
    Nat.lt_of_lt_of_le (value_lt fit.values) (Nat.pow_le_pow_right Nat.two_pos fit.width)
  exact UInt32.toNat_ofNat_of_lt' small

/-- A field holds its value. -/
theorem extract_eq {front back : Fields} {w v : Nat} (fit : Fit (front ++ (w, v) :: back)) :
    value (front ++ (w, v) :: back) / 2 ^ width front % 2 ^ w = v := by
  have small : v < 2 ^ w := fit.values (w, v) (List.mem_append_right _ List.mem_cons_self)
  have low : value front < 2 ^ width front :=
    value_lt fun f hf => fit.values f (List.mem_append_left _ hf)
  rw [value_append, Nat.add_mul_div_left _ _ (Nat.two_pow_pos _), Nat.div_eq_of_lt low,
    Nat.zero_add, value, Nat.add_mul_mod_self_left, Nat.mod_eq_of_lt small]

/-- A place among some fields is one behind those in front of them. -/
theorem split_behind (fs : Fields) {front gs : Fields} {f : Nat × Nat}
    (split : ∃ back, gs = front ++ f :: back) :
    ∃ back, fs ++ gs = fs ++ front ++ f :: back := by
  obtain ⟨back, rfl⟩ := split
  exact ⟨back, (List.append_assoc _ _ _).symm⟩

/-- What is read behind the fields in front of it. -/
theorem field_token (fit : Fit fs) (front : Fields) (lo w v : Nat)
    (split : ∃ back, fs = front ++ (w, v) :: back) (start : width front = lo) :
    Decode.field (token fs) lo w = .ofNat v := by
  obtain ⟨back, rfl⟩ := split
  subst start
  rw [Decode.field, toNat_token fit]
  exact congrArg UInt32.ofNat (extract_eq fit)

theorem toNat_field_token (fit : Fit fs) (front : Fields) (lo w v : Nat)
    (split : ∃ back, fs = front ++ (w, v) :: back) (start : width front = lo) :
    (Decode.field (token fs) lo w).toNat = v := by
  rw [field_token fit front lo w v split start]
  obtain ⟨back, rfl⟩ := split
  have small : v < 2 ^ w := fit.values (w, v) (List.mem_append_right _ List.mem_cons_self)
  have narrow : w ≤ 32 := by
    have := fit.width
    simp only [width, List.map_append, List.map_cons, List.sum_append, List.sum_cons] at this
    omega
  exact UInt32.toNat_ofNat_of_lt'
    (Nat.lt_of_lt_of_le small (Nat.pow_le_pow_right Nat.two_pos narrow))

/-- The last bit says whether an extended token follows. -/
theorem isExtended_token (front : Fields) {b : Bool} (fit : Fit (front ++ [bit b]))
    (last : width front = 31) : Decode.isExtended (token (front ++ [bit b])) = b := by
  have value_ : value (front ++ [bit b]) / 2 ^ width front % 2 ^ 1 = b.toNat := extract_eq fit
  rw [last, Nat.pow_one] at value_
  rw [Decode.isExtended, toNat_token fit, Nat.testBit_eq_decide_div_mod_eq, value_]
  cases b <;> rfl

@[simp] theorem width_nil : width [] = 0 := rfl

@[simp] theorem width_cons (f : Nat × Nat) (fs : Fields) : width (f :: fs) = f.1 + width fs :=
  List.sum_cons

@[simp] theorem width_append (fs gs : Fields) : width (fs ++ gs) = width fs + width gs := by
  rw [width, List.map_append, List.sum_append]
  rfl

end Fields

end Layout

namespace Decode

/-- A reader reads a value off some dwords and leaves those behind them. -/
def Reads {α : Type} (r : TokenReader α) (toks : List UInt32) (a : α) : Prop :=
  ∀ stop more, r stop (toks ++ more) = .ok (a, more)

namespace Reads

variable {α β : Type} {r : TokenReader α} {f : α → TokenReader β} {xs ys : List UInt32} {a : α}
  {b : β}

protected theorem pure (a : α) : Reads (pure a) [] a := fun _ _ => rfl

theorem next (t : UInt32) : Reads next [t] t := fun _ _ => rfl

/-- The step behind a reader that has come to its end. -/
theorem run_bind (first : Reads r xs a) (stop : Nat) (more : List UInt32) :
    (r >>= f) stop (xs ++ more) = f a stop more := by
  change (r stop (xs ++ more) >>= fun p => f p.1 stop p.2) = _
  rw [first]
  rfl

protected theorem bind (first : Reads r xs a) (second : Reads (f a) ys b) :
    Reads (r >>= f) (xs ++ ys) b := by
  intro stop more
  rw [List.append_assoc, first.run_bind]
  exact second stop more

theorem map (first : Reads r xs a) (g : α → β) :
    Reads (r >>= fun a => Pure.pure (g a)) xs (g a) := by
  have both := first.bind (f := fun a => Pure.pure (g a)) (Reads.pure (g a))
  rwa [List.append_nil] at both

theorem next_bind {t : UInt32} {f : UInt32 → TokenReader β} (later : Reads (f t) ys b) :
    Reads (Decode.next >>= f) (t :: ys) b :=
  fun stop more => later stop more

theorem pure_bind (later : Reads (f a) ys b) : Reads (Pure.pure a >>= f) ys b :=
  fun stop more => later stop more

theorem here_bind {f : Nat → TokenReader β} (later : ∀ position, Reads (f position) ys b) :
    Reads (here >>= f) ys b :=
  fun stop more => later _ stop more

theorem mapM {γ : Type} {f : γ → TokenReader β} {toks : γ → List UInt32} {value : γ → β}
    (xs : List γ) (each : ∀ x ∈ xs, Reads (f x) (toks x) (value x)) :
    Reads (xs.mapM f) (xs.flatMap toks) (xs.map value) := by
  induction xs with
  | nil =>
    rw [List.mapM_nil]
    exact .pure _
  | cons x xs ih =>
    rw [List.mapM_cons, List.flatMap_cons, List.map_cons]
    refine .bind (each x List.mem_cons_self) ?_
    exact (ih fun y hy => each y (List.mem_cons_of_mem _ hy)).map (value x :: ·)

open Layout in
/-- A chain reads back as it was laid out, if each extended token does. -/
theorem chain {σ ε : Type} {step : σ → UInt32 → Except DecodeFault σ} {fields : ε → Fields}
    {apply : σ → ε → σ} (fit : ∀ e more, Fields.Fit (fields e ++ [bit more]))
    (last : ∀ e, (Fields.width (fields e)) = 31)
    (steps : ∀ s e more, step s (Fields.token (fields e ++ [bit more])) = .ok (apply s e))
    (es : List ε) (s : σ) :
    Reads (chain step s !es.isEmpty) (chainTokens fields es) (es.foldl apply s) := by
  intro stop more
  unfold Decode.chain
  induction es generalizing s with
  | nil =>
    rw [chainTokens, List.nil_append]
    cases more <;> rfl
  | cons e es ih =>
    rw [chainTokens, List.cons_append]
    change chainFrom step stop s true _ = _
    rw [chainFrom, steps, Fields.isExtended_token _ (fit _ _) (last _)]
    exact ih _

end Reads

end Decode

namespace Opcode

theorem mem_all (op : Opcode) : op ∈ all := by
  have there : all[op.ctorIdx]? = some op := by
    cases op <;> rfl
  exact List.mem_of_getElem? there

/-- The numbers of the opcodes increase. -/
theorem increasing_codes : (all.map (·.code.toNat)).Pairwise (· < ·) :=
  List.isChain_iff_pairwise.1 (by decide +kernel)

theorem code_inj {a b : Opcode} (same : a.code = b.code) : a = b :=
  List.inj_on_of_nodup_map (increasing_codes.imp Nat.ne_of_lt) a.mem_all b.mem_all
    (congrArg UInt32.toNat same)

theorem ofCode?_code (op : Opcode) : ofCode? op.code = some op := by
  have found : (ofCode? op.code).isSome = true :=
    List.find?_isSome.2 ⟨op, op.mem_all, decide_eq_true rfl⟩
  obtain ⟨other, at_⟩ := Option.isSome_iff_exists.1 found
  have same := List.find?_some at_
  rw [at_, code_inj (of_decide_eq_true same)]

theorem code_lt (op : Opcode) : op.code.toNat < 2 ^ 11 := by
  have small : ∀ op ∈ all, op.code.toNat < 2 ^ 11 := by decide +kernel
  exact small op op.mem_all

end Opcode

namespace Instruction

variable (inst : Instruction)

theorem toNat_controls : inst.controls.toNat = inst.token.toNat / 2 ^ 11 % 2 ^ 13 :=
  UInt32.toNat_ofNat_of_lt' (Nat.lt_of_lt_of_le (Nat.mod_lt _ (by decide)) (by decide))

/-- Bits of the opcode token that stand among the controls. -/
theorem toNat_bits {lo hi : Nat} (above : 11 ≤ lo) (below : hi ≤ 23) :
    (inst.bits lo hi).toNat = inst.controls.toNat / 2 ^ (lo - 11) % 2 ^ (hi + 1 - lo) := by
  have fits : 2 ^ (hi + 1 - lo) ≤ 2 ^ 13 := Nat.pow_le_pow_right (by decide) (by omega)
  have small (n : Nat) : n % 2 ^ (hi + 1 - lo) < UInt32.size :=
    Nat.lt_of_lt_of_le (Nat.mod_lt _ (Nat.two_pow_pos _)) (Nat.le_trans fits (by decide))
  rw [toNat_controls]
  refine (UInt32.toNat_ofNat_of_lt' (small _)).trans (Nat.eq_of_testBit_eq fun i => ?_)
  simp only [Nat.pow_eq, Nat.testBit_mod_two_pow, Nat.testBit_div_two_pow]
  by_cases inside : i < hi + 1 - lo
  · have among : i + (lo - 11) < 13 := by omega
    rw [decide_eq_true among, Bool.true_and, show i + lo = i + (lo - 11) + 11 by omega]
  · simp [inside]

theorem flag_eq {bit : Nat} (above : 11 ≤ bit) (below : bit ≤ 23) :
    inst.flag bit = inst.controls.toNat.testBit (bit - 11) := by
  have among : bit - 11 < 13 := by omega
  rw [toNat_controls, Nat.testBit_mod_two_pow, decide_eq_true among, Bool.true_and,
    Nat.testBit_div_two_pow, Nat.sub_add_cancel above, flag]

end Instruction

theorem OperandType.ofCode?_toNat_code (type : OperandType) :
    ofCode? (UInt32.ofNat type.code).toNat = some type := by
  cases type <;> rfl

theorem OperandType.code_lt (type : OperandType) : type.code < 2 ^ 8 := by
  cases type <;> decide

namespace Layout

open Decode (Reads)

theorem bit_lt (b : Bool) : (bit b).2 < 2 ^ (bit b).1 := by
  cases b <;> decide

namespace OperandExtension

theorem fit (e : OperandExtension) (more : Bool) : Fields.Fit (e.fields ++ [bit more]) := by
  rcases e with _ | (_ | _ | _ | _) <;> cases more <;> exact ⟨by decide, by decide⟩

theorem width_fields (e : OperandExtension) : Fields.width e.fields = 31 := by
  rcases e with _ | (_ | _ | _ | _) <;> rfl

theorem extendModifier_token (m : Modifier) (e : OperandExtension) (more : Bool) :
    Decode.extendModifier m (Fields.token (e.fields ++ [bit more])) = .ok (e.apply m) := by
  rcases e with _ | (_ | _ | _ | _) <;> cases more <;> rfl

end OperandExtension

namespace Selection4

theorem width_fields (s : Selection4) : Fields.width s.fields = 10 := by
  cases s <;> rfl

theorem values (s : Selection4) : ∀ f ∈ s.fields, f.2 < 2 ^ f.1 := by
  cases s with
  | mask m => simp [fields]
  | swizzle s =>
    simp only [fields, List.mem_cons, List.not_mem_nil, or_false, forall_eq_or_imp, forall_eq]
    omega
  | select c => simp [fields]

end Selection4

namespace Selected

@[simp] theorem width_fields (s : Selected) : Fields.width s.fields = 12 := by
  cases s with
  | zero | one => rfl
  | four selection =>
    change 2 + Fields.width selection.fields = 12
    rw [selection.width_fields]

theorem values (s : Selected) : ∀ f ∈ s.fields, f.2 < 2 ^ f.1 := by
  cases s with
  | zero | one => simp [fields]
  | four selection =>
    intro f hf
    rcases List.mem_cons.1 hf with rfl | hf
    · decide
    · exact selection.values f hf

theorem toUInt8_mask (m : Fin 16) : (UInt32.ofNat m).toUInt8 = .ofNat m := by
  revert m
  decide

/-- The lanes of a swizzle, from its eight bits. -/
theorem ofBits_lanes (s : Swizzle) :
    Swizzle.ofBits (.ofNat (s.x + 4 * s.y + 16 * s.z + 64 * s.w)) = s := by
  obtain ⟨x, y, z, w⟩ := s
  have value : (UInt32.ofNat (x + 4 * y + 16 * z + 64 * w)).toNat =
      x + 4 * y + 16 * z + 64 * w := UInt32.toNat_ofNat_of_lt' (by simp only [UInt32.size]; omega)
  unfold Swizzle.ofBits
  rw [value]
  simp only [Swizzle.mk.injEq, Fin.ext_iff, Fin.ofNat]
  omega

/-- The selection of components reads back, whatever the other fields of the token hold. -/
theorem components_token (s : Selected) {back : Fields} (fit : Fields.Fit (s.fields ++ back)) :
    Decode.components (Fields.token (s.fields ++ back)) = .ok s.components := by
  unfold Decode.components
  cases s with
  | zero =>
    rw [Fields.toNat_field_token fit [] 0 2 0 ⟨_, rfl⟩ rfl]
    rfl
  | one =>
    rw [Fields.toNat_field_token fit [] 0 2 1 ⟨_, rfl⟩ rfl]
    rfl
  | four selection =>
    rw [Fields.toNat_field_token fit [] 0 2 2 ⟨_, rfl⟩ rfl]
    cases selection with
    | mask m =>
      dsimp only
      rw [Fields.toNat_field_token fit [(2, 2)] 2 2 0 ⟨_, rfl⟩ rfl]
      rw [Fields.field_token fit [(2, 2), (2, 0)] 4 4 m ⟨_, rfl⟩ rfl, toUInt8_mask]
      rfl
    | swizzle s =>
      dsimp only
      rw [Fields.toNat_field_token fit [(2, 2)] 2 2 1 ⟨_, rfl⟩ rfl]
      rw [Fields.field_token fit [(2, 2), (2, 1)] 4 8 _ ⟨_, rfl⟩ rfl, ofBits_lanes]
      rfl
    | select c =>
      dsimp only
      rw [Fields.toNat_field_token fit [(2, 2)] 2 2 2 ⟨_, rfl⟩ rfl]
      rw [Fields.toNat_field_token fit [(2, 2), (2, 2)] 4 2 c ⟨_, rfl⟩ rfl]
      rfl

end Selected

namespace Index

theorem representation_lt (i : Index) : i.representation < 2 ^ 3 := by
  unfold representation
  split
  · split <;> decide
  · decide
  · split <;> decide

end Index

namespace Operand

variable {content : Content} {extensions : List OperandExtension} {dims : Fin 4}
  {index : Fin dims → Index}

theorem representation_lt (dim : Nat) : representation index dim < 2 ^ 3 := by
  unfold representation
  split
  · exact Index.representation_lt _
  · decide

theorem fit_head : Fields.Fit (head content extensions dims index) := by
  constructor
  · intro f hf
    rcases List.mem_append.1 hf with hf | hf
    · exact content.selected.values f hf
    · simp only [List.mem_cons, List.not_mem_nil, or_false] at hf
      rcases hf with rfl | rfl | rfl | rfl | rfl | rfl
      · exact content.type.code_lt
      · exact dims.isLt
      · exact representation_lt 0
      · exact representation_lt 1
      · exact representation_lt 2
      · exact bit_lt _
  · simp [head, bit]

theorem type_head : Decode.field (Fields.token (head content extensions dims index)) 12 8 =
    .ofNat content.type.code :=
  Fields.field_token fit_head content.selected.fields _ _ _ ⟨_, rfl⟩ (by simp)

theorem dims_head :
    (Decode.field (Fields.token (head content extensions dims index)) 20 2).toNat = dims := by
  refine Fields.toNat_field_token fit_head
    (content.selected.fields ++ [(8, content.type.code)]) _ _ _ ?_ (by simp)
  exact Fields.split_behind _ ⟨_, rfl⟩

theorem isExtended_head :
    Decode.isExtended (Fields.token (head content extensions dims index)) =
      !extensions.isEmpty := by
  have split : head content extensions dims index = (content.selected.fields ++
      [(8, content.type.code), (2, dims.val), (3, representation index 0),
        (3, representation index 1), (3, representation index 2)]) ++
        [bit !extensions.isEmpty] := by
    rw [List.append_assoc]
    rfl
  have fit := split ▸ (fit_head : Fields.Fit (head content extensions dims index))
  rw [split]
  exact Fields.isExtended_token _ fit (by simp)

/-- The representation in a field, for an index that is there or not. -/
theorem field_head {dim : Nat} (few : dim < 3) :
    (Decode.field (Fields.token (head content extensions dims index)) (22 + 3 * dim) 3).toNat =
      representation index dim := by
  match dim, few with
  | 0, _ =>
    refine Fields.toNat_field_token fit_head
      (content.selected.fields ++ [(8, content.type.code), (2, dims.val)]) _ _ _ ?_ (by simp)
    exact Fields.split_behind _ ⟨_, rfl⟩
  | 1, _ =>
    refine Fields.toNat_field_token fit_head
      (content.selected.fields ++ [(8, content.type.code), (2, dims.val),
        (3, representation index 0)]) _ _ _ ?_ (by simp)
    exact Fields.split_behind _ ⟨_, rfl⟩
  | 2, _ =>
    refine Fields.toNat_field_token fit_head
      (content.selected.fields ++ [(8, content.type.code), (2, dims.val),
        (3, representation index 0), (3, representation index 1)]) _ _ _ ?_ (by simp)
    exact Fields.split_behind _ ⟨_, rfl⟩

theorem representation_head (i : Fin dims) :
    (Decode.field (Fields.token (head content extensions dims index)) (22 + 3 * i) 3).toNat =
      (index i).representation :=
  (field_head (Nat.lt_of_lt_of_le i.isLt (Nat.le_of_lt_succ dims.isLt))).trans (dif_pos i.isLt)

end Operand

theorem reads_offset32 (offset : UInt32) : Reads Decode.next (offsetTokens false offset) offset :=
  .next offset

theorem reads_offset64 (offset : UInt32) :
    Reads Decode.index64 (offsetTokens true offset) offset :=
  fun _ _ => rfl

/-- The words of an immediate read back, as far as they are kept. -/
theorem Content.reads_payload (content : Content) (position : Nat) :
    Reads (Decode.immediate position content.type content.selected.components.count)
      content.payload content.kept := by
  cases content with
  | imm32 | imm64 => exact fun _ _ => rfl
  | imm32x4 selection | imm64x4 selection => cases selection <;> exact fun _ _ => rfl
  | register type named selected =>
    change Reads (Decode.immediate position type selected.components.count) [] .zero
    unfold Decode.immediate
    split
    · exact absurd rfl named.1
    · exact absurd rfl named.1
    · exact absurd rfl named.2
    · exact absurd rfl named.2
    · exact absurd rfl named.1
    · exact absurd rfl named.2
    · exact .pure _

mutual

/-- An operand reads back, if the bound on the depth leaves room for its dwords. -/
theorem Operand.reads : (operand : Operand) → (depth : Nat) → operand.tokens.length ≤ depth →
    (data : DataType) →
    Reads (Decode.operandWithin depth data) operand.tokens (operand.record data)
  | .mk content extensions dims index, depth, deep, data => by
    rw [Operand.tokens] at deep ⊢
    cases depth with
    | zero => cases deep
    | succ depth =>
      have shallow (i : Fin dims) : (index i).tokens.length ≤ depth := by
        have part := (List.sublist_flatten_of_mem (List.mem_map_of_mem
          (f := fun i => (index i).tokens) (List.mem_finRange i))).length_le
        rw [← List.flatMap_def] at part
        simp only [List.length_cons, List.length_append] at deep
        omega
      have type_ : OperandType.ofCode? (Decode.field
          (Fields.token (Operand.head content extensions dims index)) 12 8).toNat =
            some content.type := by
        rw [Operand.type_head]
        exact content.type.ofCode?_toNat_code
      rw [Decode.operandWithin]
      refine .here_bind fun position => .next_bind ?_
      rw [type_]
      dsimp only
      rw [Operand.head, Selected.components_token _ Operand.fit_head, ← Operand.head,
        Operand.isExtended_head, Operand.dims_head]
      have indices : Reads ((List.range dims).mapM fun dim =>
          Decode.index (Decode.operandWithin depth .sint32) position (Decode.field
            (Fields.token (Operand.head content extensions dims index)) (22 + 3 * dim) 3))
          ((List.finRange dims).flatMap fun i => (index i).tokens)
          ((List.finRange dims).map fun i => (index i).record) := by
        rw [← List.map_coe_finRange_eq_range, List.mapM_map]
        exact .mapM _ fun i _ => Index.reads (index i) depth (shallow i) position _
          (Operand.representation_head i)
      exact .pure_bind (.bind (.chain OperandExtension.fit OperandExtension.width_fields
        OperandExtension.extendModifier_token extensions .none)
        (.bind indices ((content.reads_payload position).map _)))

theorem Index.reads : (i : Index) → (depth : Nat) → i.tokens.length ≤ depth → (position : Nat) →
    (representation : UInt32) → representation.toNat = i.representation →
    Reads (Decode.index (Decode.operandWithin depth .sint32) position representation) i.tokens
      i.record
  | .immediate wide offset, depth, deep, position, representation, written => by
    rw [Decode.index, written]
    cases wide with
    | false => exact (reads_offset32 offset).map _
    | true => exact (reads_offset64 offset).map _
  | .relative operand, depth, deep, position, representation, written => by
    rw [Decode.index, written]
    exact (operand.reads depth deep .sint32).map _
  | .sum wide offset operand, depth, deep, position, representation, written => by
    have room : operand.tokens.length ≤ depth := by
      rw [Index.tokens, List.length_append] at deep
      omega
    rw [Decode.index, written]
    cases wide with
    | false => exact (reads_offset32 offset).bind ((operand.reads depth room .sint32).map _)
    | true => exact (reads_offset64 offset).bind ((operand.reads depth room .sint32).map _)

end

theorem Operand.reads_operand (operand : Operand) (data : DataType) :
    Reads (Decode.operand data) operand.tokens (operand.record data) :=
  fun stop more => operand.reads (operand.tokens ++ more).length
    (by rw [List.length_append]; exact Nat.le_add_right _ _) data stop more

/-- The arguments of a format read back and leave nothing. -/
theorem Arguments.reads {slots : List OperandSlot} (arguments : Arguments slots)
    (inst : ShaderLowering.Instruction) (stop : Nat) :
    slots.foldlM Decode.slot inst stop arguments.tokens =
      .ok ({ inst with
        dst := inst.dst ++ arguments.dsts
        src := inst.src ++ arguments.srcs
        imm := inst.imm ++ arguments.imms }, []) := by
  induction arguments generalizing inst with
  | nil =>
    simp only [dsts, srcs, imms, List.append_nil]
    rfl
  | @dst data _ operand later ih =>
    have slot : Reads (Decode.slot inst (.dst data)) operand.tokens
        { inst with dst := inst.dst ++ [operand.record data] } :=
      (operand.reads_operand data).map _
    rw [tokens, List.foldlM_cons, slot.run_bind, ih]
    simp only [dsts, srcs, imms, List.append_assoc, List.singleton_append]
  | @src data _ operand later ih =>
    have slot : Reads (Decode.slot inst (.src data)) operand.tokens
        { inst with src := inst.src ++ [operand.record data] } :=
      (operand.reads_operand data).map _
    rw [tokens, List.foldlM_cons, slot.run_bind, ih]
    simp only [dsts, srcs, imms, List.append_assoc, List.singleton_append]
  | @imm32 _ word later ih =>
    have slot : Reads (Decode.slot inst .imm32) [word] { inst with imm := inst.imm ++ [word] } :=
      (Reads.next word).map _
    rw [tokens, List.foldlM_cons, ← List.singleton_append, slot.run_bind, ih]
    simp only [dsts, srcs, imms, List.append_assoc, List.singleton_append]
  | rest words =>
    simp only [dsts, srcs, imms, List.append_nil]
    rfl

namespace OpcodeExtension

theorem nibble_lt (i : Int) : nibble i < 2 ^ 4 := by
  unfold nibble
  omega

theorem signed4_nibble {i : Int} (small : -8 ≤ i ∧ i < 8) :
    Decode.signed4 (.ofNat (nibble i)) = i := by
  have value : (UInt32.ofNat (nibble i)).toNat = nibble i :=
    UInt32.toNat_ofNat_of_lt' (Nat.lt_trans (nibble_lt i) (by decide))
  unfold Decode.signed4
  rw [value]
  unfold nibble
  split <;> omega

theorem fit (e : OpcodeExtension) (more : Bool) : Fields.Fit (e.fields ++ [bit more]) := by
  have more_ := bit_lt more
  constructor
  · cases e with
    | empty => simpa [fields] using more_
    | sampleOffsets o =>
      simpa [fields] using ⟨nibble_lt o.texel.u, nibble_lt o.texel.v, nibble_lt o.texel.w, more_⟩
    | resourceDim dim => simpa [fields] using more_
    | returnType x y z w => simpa [fields] using more_
  · cases e <;> simp [fields, bit]

theorem width_fields (e : OpcodeExtension) : Fields.width e.fields = 31 := by
  cases e <;> rfl

theorem extendOpcode_token (inst : ShaderLowering.Instruction) (e : OpcodeExtension)
    (more : Bool) :
    Decode.extendOpcode inst (Fields.token (e.fields ++ [bit more])) = .ok (e.apply inst) := by
  have fit := e.fit more
  unfold Decode.extendOpcode
  cases e with
  | empty =>
    rw [Fields.toNat_field_token fit [] 0 6 0 ⟨_, rfl⟩ rfl]
    rfl
  | sampleOffsets o =>
    rw [Fields.toNat_field_token fit [] 0 6 1 ⟨_, rfl⟩ rfl]
    rw [Fields.field_token fit [(6, 1), (3, 0)] 9 4 _ ⟨_, rfl⟩ rfl,
      Fields.field_token fit [(6, 1), (3, 0), (4, _)] 13 4 _ ⟨_, rfl⟩ rfl,
      Fields.field_token fit [(6, 1), (3, 0), (4, _), (4, _)] 17 4 _ ⟨_, rfl⟩ rfl,
      signed4_nibble o.u, signed4_nibble o.v, signed4_nibble o.w]
    rfl
  | resourceDim dim =>
    rw [Fields.toNat_field_token fit [] 0 6 2 ⟨_, rfl⟩ rfl]
    rw [Fields.field_token fit [(6, 2)] 6 5 dim ⟨_, rfl⟩ rfl]
    rfl
  | returnType x y z w =>
    rw [Fields.toNat_field_token fit [] 0 6 3 ⟨_, rfl⟩ rfl]
    rw [Fields.field_token fit [(6, 3)] 6 4 x ⟨_, rfl⟩ rfl,
      Fields.field_token fit [(6, 3), (4, x.val)] 10 4 y ⟨_, rfl⟩ rfl,
      Fields.field_token fit [(6, 3), (4, x.val), (4, y.val)] 14 4 z ⟨_, rfl⟩ rfl,
      Fields.field_token fit [(6, 3), (4, x.val), (4, y.val), (4, z.val)] 18 4 w ⟨_, rfl⟩ rfl]
    rfl

/-- Extended tokens add no operands. -/
theorem foldl_lists (es : List OpcodeExtension) (inst : ShaderLowering.Instruction) :
    (es.foldl apply inst).dst = inst.dst ∧ (es.foldl apply inst).src = inst.src ∧
      (es.foldl apply inst).imm = inst.imm ∧ (es.foldl apply inst).token = inst.token := by
  induction es generalizing inst with
  | nil => exact ⟨rfl, rfl, rfl, rfl⟩
  | cons e es ih =>
    obtain ⟨dst, src, imm, token⟩ := ih (e.apply inst)
    rw [List.foldl_cons, dst, src, imm, token]
    cases e <;> exact ⟨rfl, rfl, rfl, rfl⟩

end OpcodeExtension

namespace Instruction

variable (l : Instruction)

theorem length_chainTokens {ε : Type} (fields : ε → Fields) (es : List ε) :
    (chainTokens fields es).length = es.length := by
  induction es with
  | nil => rfl
  | cons e es ih => rw [chainTokens, List.length_cons, List.length_cons, ih]

theorem length_tokens : l.tokens.length = l.length := by
  rw [tokens, List.length_cons, List.length_append, length_chainTokens, length, Nat.add_comm]

theorem length_le : l.length ≤ 127 := by
  have := l.short
  unfold length
  omega

theorem fit_head : Fields.Fit l.head := by
  have short := l.length_le
  have code := l.op.code_lt
  constructor
  · simp only [head, List.mem_cons, List.not_mem_nil, or_false, forall_eq_or_imp, forall_eq]
    exact ⟨code, l.controls.isLt, by omega, bit_lt _⟩
  · simp [head, bit]

theorem opcode_head : Decode.field (Fields.token l.head) 0 11 = l.op.code := by
  rw [Fields.field_token l.fit_head [] 0 11 l.op.code.toNat ⟨_, rfl⟩ rfl, UInt32.ofNat_toNat]

theorem length_head : (Decode.field (Fields.token l.head) 24 7).toNat = l.length :=
  Fields.toNat_field_token l.fit_head [(11, l.op.code.toNat), (13, l.controls.val)] 24 7 l.length
    ⟨_, rfl⟩ rfl

theorem isExtended_head : Decode.isExtended (Fields.token l.head) = !l.extensions.isEmpty :=
  Fields.isExtended_token [(11, l.op.code.toNat), (13, l.controls.val), (7, l.length)] l.fit_head
    rfl

theorem token_record (position : Nat) : (l.record position).token = Fields.token l.head :=
  (OpcodeExtension.foldl_lists l.extensions
    (Decode.blank l.op.code l.op.family position l.head.token)).2.2.2

/-- The controls stand between the opcode and the length. -/
theorem controls_record (position : Nat) : (l.record position).controls.toNat = l.controls := by
  rw [ShaderLowering.Instruction.controls, ShaderLowering.Instruction.bits, token_record]
  exact Fields.toNat_field_token l.fit_head [(11, l.op.code.toNat)] 11 13 l.controls ⟨_, rfl⟩ rfl

/-- What declarations have in the controls is read back: the mode of a sampler, the sample count of
a resource, the access pattern of a constant buffer, the counter of an unordered access view. -/
theorem declared_record (position : Nat) :
    (l.record position).samplerMode.toNat = l.controls % 2 ^ 4 ∧
      (l.record position).sampleCount.toNat = l.controls / 2 ^ 5 % 2 ^ 7 ∧
      (l.record position).constantBufferIsIndexed = l.controls.val.testBit 0 ∧
      (l.record position).hasCounter = l.controls.val.testBit 12 := by
  rw [← l.controls_record position]
  refine ⟨?_, ?_, ?_, ?_⟩
  · refine (ShaderLowering.Instruction.toNat_bits _ (by decide) (by decide)).trans ?_
    rw [Nat.sub_self, Nat.pow_zero, Nat.div_one]
  · exact ShaderLowering.Instruction.toNat_bits _ (by decide) (by decide)
  · exact ShaderLowering.Instruction.flag_eq _ (by decide) (by decide)
  · exact ShaderLowering.Instruction.flag_eq _ (by decide) (by decide)

theorem operands_tokens (position stop : Nat) :
    Decode.operands l.op.format (Decode.blank l.op.code l.op.family position l.head.token) stop
      (chainTokens OpcodeExtension.fields l.extensions ++ l.arguments.tokens) =
        .ok (l.record position, []) := by
  have chain := Reads.chain OpcodeExtension.fit OpcodeExtension.width_fields
    OpcodeExtension.extendOpcode_token l.extensions
    (Decode.blank l.op.code l.op.family position l.head.token)
  obtain ⟨dst, src, imm, -⟩ := OpcodeExtension.foldl_lists l.extensions
    (Decode.blank l.op.code l.op.family position l.head.token)
  have arguments := l.arguments.reads (l.extensions.foldl OpcodeExtension.apply
    (Decode.blank l.op.code l.op.family position l.head.token)) stop
  rw [dst, src, imm] at arguments
  unfold Decode.operands
  change (Decode.chain _ _ (Decode.isExtended l.head.token) >>= _) _ _ = _
  rw [l.isExtended_head, chain.run_bind]
  change (List.foldlM Decode.slot _ _ stop _ >>= fun p => _) = _
  rw [arguments]
  rfl

/-- The tokens behind the first one. -/
def tail : List UInt32 :=
  chainTokens OpcodeExtension.fields l.extensions ++ l.arguments.tokens

theorem length_tail : l.tail.length = l.length - 1 := by
  rw [tail, List.length_append, length_chainTokens, length, Nat.add_sub_cancel_left]

theorem decode (position : Nat) (more : List UInt32) :
    Decode.instruction l.head.token (l.tail ++ more) position =
      .ok (l.record position, l.length) := by
  have ordinary : l.op.code ≠ Opcode.customData.code := fun same =>
    l.ordinary (Opcode.code_inj same)
  have positive : l.length ≠ 0 := by
    unfold length
    omega
  have enough : ¬(l.tail ++ more).length + 1 < l.length := by
    rw [List.length_append, length_tail]
    omega
  have own : (l.tail ++ more).take (l.length - 1) = l.tail := by
    rw [← length_tail, List.take_left]
  unfold Decode.instruction
  dsimp only
  rw [opcode_head, length_head, if_neg ordinary, if_neg positive, if_neg enough,
    Opcode.ofCode?_code, own]
  dsimp only
  rw [tail, operands_tokens]

end Instruction

namespace Block

variable (b : Block)

theorem fit_head : Fields.Fit b.head := by
  constructor
  · simp only [head, List.mem_cons, List.not_mem_nil, or_false, forall_eq_or_imp, forall_eq]
    exact ⟨Opcode.code_lt _, b.family.isLt⟩
  · simp [head]

theorem decode (position : Nat) (more : List UInt32) :
    Decode.instruction b.head.token (.ofNat (b.payload.length + 2) :: (b.payload ++ more))
      position = .ok (b.record position, b.payload.length + 2) := by
  have opcode : Decode.field b.head.token 0 11 = Opcode.customData.code := by
    rw [Fields.field_token b.fit_head [] 0 11 Opcode.customData.code.toNat ⟨_, rfl⟩ rfl,
      UInt32.ofNat_toNat]
  have family : Decode.field b.head.token 11 21 = .ofNat b.family :=
    Fields.field_token b.fit_head [(11, Opcode.customData.code.toNat)] 11 21 _ ⟨_, rfl⟩ rfl
  have length : (UInt32.ofNat (b.payload.length + 2)).toNat = b.payload.length + 2 :=
    UInt32.toNat_ofNat_of_lt' b.short
  have inside : ¬(b.payload.length + 2 < 2 ∨
      (b.payload ++ more).length + 2 < b.payload.length + 2) := by
    rw [List.length_append]
    omega
  have class_ : UInt32.ofNat b.family = 3 ↔ b.family = 3 := by
    have small : b.family.val < UInt32.size := Nat.lt_trans b.family.isLt (by decide)
    rw [← UInt32.toNat_inj, UInt32.toNat_ofNat_of_lt' small, Fin.ext_iff]
    rfl
  unfold Decode.instruction Decode.customData
  dsimp only
  rw [if_pos opcode, length, if_neg inside, family, Nat.add_sub_cancel, List.take_left]
  unfold record content
  simp only [class_]

end Block

namespace Part

/-- A part decodes to its record, and what stands behind it is left. -/
theorem run_tokens (part : Part) (position : Nat) (more : List UInt32) :
    Decode.run (part.tokens ++ more) position =
      { Decode.run more (position + part.tokens.length) with
        instructions := part.record position ::
          (Decode.run more (position + part.tokens.length)).instructions } := by
  cases part with
  | instruction l =>
    have rest : (l.tail ++ more).drop (l.length - 1) = more := by
      rw [← l.length_tail, List.drop_left]
    have run := Decode.run_ok (l.decode position more)
    rw [rest, ← l.length_tokens] at run
    exact run
  | block b =>
    have rest : (UInt32.ofNat (b.payload.length + 2) :: (b.payload ++ more)).drop
        (b.payload.length + 2 - 1) = more := List.drop_left
    have run := Decode.run_ok (b.decode position more)
    rw [rest] at run
    exact run

end Part

theorem run_parts (parts : List Part) (position : Nat) :
    Decode.run (parts.flatMap Part.tokens) position =
      ⟨records parts position, position + (parts.flatMap Part.tokens).length, none⟩ := by
  induction parts generalizing position with
  | nil => exact Decode.run_nil position
  | cons part parts ih =>
    rw [List.flatMap_cons, part.run_tokens, ih, List.length_append, Nat.add_assoc]
    rfl

/-- Decoding undoes the layout: a program framed and laid out part by part is taken for one, and
decodes to the records of its parts, whatever was chosen that leaves no trace in them. -/
theorem decode_layout (version : UInt32) (parts : List Part)
    (short : (parts.flatMap Part.tokens).length + 2 < UInt32.size) :
    ∃ p, Program.ofTokens (programTokens version parts) = .ok p ∧
      p.instructions = .ok (records parts 2) ∧
      ∀ l, .instruction l ∈ parts →
        ∀ position, (l.record position).controls.toNat = l.controls := by
  have declared : (UInt32.ofNat ((parts.flatMap Part.tokens).length + 2)).toNat =
      (parts.flatMap Part.tokens).length + 2 := UInt32.toNat_ofNat_of_lt' short
  have framed : ¬((parts.flatMap Part.tokens).length + 2 < 2 ∨
      (programTokens version parts).length < (parts.flatMap Part.tokens).length + 2) := by
    rw [programTokens, List.length_cons, List.length_cons]
    omega
  refine ⟨.assume (programTokens version parts), ?_, ?_, fun l _ => l.controls_record⟩
  · rw [programTokens, Program.ofTokens, declared, ← programTokens]
    exact if_neg framed
  · have body : (Program.assume (programTokens version parts)).body =
        parts.flatMap Part.tokens := by
      have limit : (Program.assume (programTokens version parts)).limit =
          (programTokens version parts).length := by
        change min (UInt32.ofNat _).toNat _ = _
        rw [declared]
        exact Nat.min_eq_right (Nat.le_of_eq rfl)
      rw [Program.body, limit]
      exact congrArg (List.drop 2) (List.take_length)
    rw [Program.instructions, Program.decode, body, run_parts]

/-- `mov r0.x, x1[r2.y + 3].x` -/
theorem decode_layout_indexedMove :
    ∃ (move : Instruction) (p : Program),
      Program.ofTokens [0x50, 10, 0x08000036, 0x00100012, 0, 0x0620300a, 1, 3, 0x0010001a, 2] =
        .ok p ∧
      p.instructions = .ok [move.record 2] ∧ move.op = .mov := by
  obtain ⟨p, framed, decoded, -⟩ := decode_layout 0x50
    [.instruction
      { op := .mov, ordinary := by decide, controls := 0, extensions := []
        arguments :=
          .dst (.mk (.register .temp (by decide) (.four (.mask 1))) [] 1 fun _ =>
            .immediate false 0)
          (.src (.mk (.register .indexableTemp (by decide) (.four (.select 0))) [] 2 fun i =>
            if i.val = 0 then .immediate false 1
            else .sum false 3 (.mk (.register .temp (by decide) (.four (.select 1))) [] 1 fun _ =>
              .immediate false 2)) .nil)
        short := by decide }] (by decide)
  exact ⟨_, p, framed, decoded, rfl⟩

end Layout

end ShaderLowering
