import Mathlib.Data.List.Infix
import ShaderLowering.Program.Decode

/-!
What the readers of an instruction have in common. A reader sees no dword outside of the
instruction, and it uses the position of the instruction only to say which dword is at fault. So
the same dwords read the same wherever they stand, and the dword at fault is one of theirs or the
first one behind them.
-/

namespace ShaderLowering

/-- The error in dwords that stand some way further on. -/
def DecodeError.shift (distance : Nat) (e : DecodeError) : DecodeError :=
  { e with position := e.position + distance }

/-- The instruction in dwords that stand some way further on. -/
def Instruction.shift (distance : Nat) (inst : Instruction) : Instruction :=
  { inst with position := inst.position + distance }

namespace Decode

/-- What is read from the same dwords at two places, the second `k` dwords further on. At the
first place they belong to an instruction that lies between `lo` and `stop`. -/
inductive Matching {α : Type} (k lo stop : Nat) (related : α → α → Prop) (toks : List UInt32) :
    Except DecodeError (α × List UInt32) → Except DecodeError (α × List UInt32) → Prop
  | ok {a b : α} {rest : List UInt32} (same : related a b) (suffix : rest <:+ toks) :
    Matching k lo stop related toks (.ok (a, rest)) (.ok (b, rest))
  | error {e : DecodeError} (start : lo ≤ e.position) (bound : e.position ≤ stop) :
    Matching k lo stop related toks (.error e) (.error (e.shift k))

/-- Two readers that do the same with up to `n` dwords at two places. -/
def Parallel {α : Type} (k lo stop n : Nat) (related : α → α → Prop) (r s : TokenReader α) : Prop :=
  ∀ toks, lo + toks.length ≤ stop → toks.length ≤ n →
    Matching k lo stop related toks (r stop toks) (s (stop + k) toks)

namespace Parallel

variable {α β : Type} {k lo stop n : Nat} {related : α → α → Prop} {related' : β → β → Prop}

protected theorem pure {a b : α} (h : related a b) :
    Parallel k lo stop n related (pure a) (pure b) :=
  fun _ _ _ => .ok h List.suffix_rfl

theorem fail {position : Nat} (start : lo ≤ position) (bound : position ≤ stop)
    (fault : DecodeFault) :
    Parallel k lo stop n related (fail position fault) (fail (position + k) fault) :=
  fun _ _ _ => .error start bound

protected theorem bind {r s : TokenReader α} {f g : α → TokenReader β}
    (first : Parallel k lo stop n related r s)
    (second : ∀ a b, related a b → Parallel k lo stop n related' (f a) (g b)) :
    Parallel k lo stop n related' (r >>= f) (s >>= g) := by
  intro toks inside few
  change Matching _ _ _ _ _ (r stop toks >>= fun p => f p.1 stop p.2)
    (s (stop + k) toks >>= fun p => g p.1 (stop + k) p.2)
  have matching := first toks inside few
  generalize r stop toks = x at matching
  generalize s (stop + k) toks = y at matching
  cases matching with
  | error start bound => exact .error start bound
  | @ok a b rest same suffix =>
    have shorter := suffix.length_le
    have matching := second a b same rest (by omega) (by omega)
    change Matching _ _ _ _ _ (f a stop rest) (g b (stop + k) rest)
    generalize f a stop rest = x at matching
    generalize g b (stop + k) rest = y at matching
    cases matching with
    | error start bound => exact .error start bound
    | ok same suffix' => exact .ok same (suffix'.trans suffix)

theorem next : Parallel k lo stop n Eq next next := by
  intro toks inside _
  cases toks with
  | nil => exact .error inside (Nat.le_refl _)
  | cons t rest => exact .ok rfl (List.suffix_cons t rest)

/-- Reading a dword leaves one dword less. -/
theorem next_bind {f g : UInt32 → TokenReader β}
    (later : ∀ t, Parallel k lo stop n related' (f t) (g t)) :
    Parallel k lo stop (n + 1) related' (Decode.next >>= f) (Decode.next >>= g) := by
  intro toks inside few
  cases toks with
  | nil => exact .error inside (Nat.le_refl _)
  | cons t rest =>
    rw [List.length_cons] at inside few
    have matching := later t rest (by omega) (by omega)
    change Matching _ _ _ _ _ (f t stop rest) (g t (stop + k) rest)
    generalize f t stop rest = x at matching
    generalize g t (stop + k) rest = y at matching
    cases matching with
    | error start bound => exact .error start bound
    | ok same suffix => exact .ok same (suffix.trans (List.suffix_cons t rest))

theorem here_bind {f g : Nat → TokenReader β}
    (later : ∀ position, lo ≤ position → position ≤ stop →
      Parallel k lo stop n related' (f position) (g (position + k))) :
    Parallel k lo stop n related' (here >>= f) (here >>= g) := by
  intro toks inside few
  change Matching _ _ _ _ _ (f (stop - toks.length) stop toks)
    (g (stop + k - toks.length) (stop + k) toks)
  have further : stop + k - toks.length = stop - toks.length + k := by omega
  rw [further]
  exact later _ (by omega) (by omega) toks inside few

theorem chain {σ : Type} {related : σ → σ → Prop} {step : σ → UInt32 → Except DecodeFault σ}
    (steps : ∀ s t token, related s t →
      (∃ fault, step s token = .error fault ∧ step t token = .error fault) ∨
        ∃ s' t', step s token = .ok s' ∧ step t token = .ok t' ∧ related s' t')
    {s t : σ} (start : related s t) (more : Bool) :
    Parallel k lo stop n related (chain step s more) (chain step t more) := by
  intro toks inside few
  unfold Decode.chain
  induction toks generalizing s t more with
  | nil =>
    cases more with
    | false => exact .ok start List.suffix_rfl
    | true => exact .error inside (Nat.le_refl _)
  | cons token rest ih =>
    cases more with
    | false => exact .ok start List.suffix_rfl
    | true =>
      rw [List.length_cons] at inside few
      unfold chainFrom
      obtain ⟨fault, first, second⟩ | ⟨s', t', first, second, related'⟩ := steps s t token start
      · rw [first, second]
        dsimp only
        have further : stop + k - (rest.length + 1) = stop - (rest.length + 1) + k := by omega
        rw [further]
        exact .error (by dsimp only; omega) (by dsimp only; omega)
      · rw [first, second]
        dsimp only
        have matching := ih related' (isExtended token) (by omega) (by omega)
        generalize chainFrom step stop s' _ rest = x at matching
        generalize chainFrom step (stop + k) t' _ rest = y at matching
        cases matching with
        | error start bound => exact .error start bound
        | ok same suffix => exact .ok same (suffix.trans (List.suffix_cons token rest))

theorem mapM {γ : Type} {f g : γ → TokenReader β}
    (each : ∀ x, Parallel k lo stop n Eq (f x) (g x)) (xs : List γ) :
    Parallel k lo stop n Eq (xs.mapM f) (xs.mapM g) := by
  induction xs with
  | nil =>
    rw [List.mapM_nil, List.mapM_nil]
    exact .pure rfl
  | cons x xs ih =>
    rw [List.mapM_cons, List.mapM_cons]
    refine .bind (each x) ?_
    rintro y _ rfl
    refine .bind ih ?_
    rintro ys _ rfl
    exact .pure rfl

theorem foldlM {σ γ : Type} {related : σ → σ → Prop} {f : σ → γ → TokenReader σ}
    (each : ∀ s t x, related s t → Parallel k lo stop n related (f s x) (f t x)) (xs : List γ)
    {s t : σ} (start : related s t) :
    Parallel k lo stop n related (xs.foldlM f s) (xs.foldlM f t) := by
  induction xs generalizing s t with
  | nil =>
    rw [List.foldlM_nil, List.foldlM_nil]
    exact .pure start
  | cons x xs ih =>
    rw [List.foldlM_cons, List.foldlM_cons]
    exact .bind (each s t x start) fun _ _ => ih

/-- As `bind`, for a value that does not depend on the place. -/
theorem bind_eq {r s : TokenReader α} {f g : α → TokenReader β}
    (first : Parallel k lo stop n Eq r s)
    (second : ∀ a, Parallel k lo stop n related' (f a) (g a)) :
    Parallel k lo stop n related' (r >>= f) (s >>= g) :=
  first.bind fun a _ same => same ▸ second a

/-- A loop that carries nothing along. -/
theorem forIn {γ : Type} {f g : γ → TokenReader (ForInStep PUnit)}
    (each : ∀ x, Parallel k lo stop n Eq (f x) (g x)) (xs : List γ) :
    Parallel k lo stop n Eq (forIn xs PUnit.unit fun x _ => f x)
      (forIn xs PUnit.unit fun x _ => g x) := by
  induction xs with
  | nil =>
    rw [List.forIn_nil, List.forIn_nil]
    exact .pure rfl
  | cons x xs ih =>
    rw [List.forIn_cons, List.forIn_cons]
    refine .bind_eq (each x) fun s => ?_
    cases s with
    | done => exact .pure rfl
    | yield => exact ih

end Parallel

variable {k lo stop n : Nat}

theorem index64_parallel : Parallel k lo stop n Eq index64 index64 := by
  unfold index64
  refine .here_bind fun position start bound => .bind_eq .next fun hi =>
    .bind_eq .next fun low => ?_
  split
  · exact .pure rfl
  · exact .fail start bound _

theorem index_parallel {r s : TokenReader Operand} (operand : Parallel k lo stop n Eq r s)
    {position : Nat} (start : lo ≤ position) (bound : position ≤ stop) (representation : UInt32) :
    Parallel k lo stop n Eq (index r position representation)
      (index s (position + k) representation) := by
  unfold index
  split
  · exact .bind_eq .next fun _ => .pure rfl
  · exact .bind_eq index64_parallel fun _ => .pure rfl
  · exact .bind_eq operand fun _ => .pure rfl
  · exact .bind_eq .next fun _ => .bind_eq operand fun _ => .pure rfl
  · exact .bind_eq index64_parallel fun _ => .bind_eq operand fun _ => .pure rfl
  · exact .fail start bound _

theorem immediate_parallel {position : Nat} (start : lo ≤ position) (bound : position ≤ stop)
    (type : OperandType) (count : ComponentCount) :
    Parallel k lo stop n Eq (immediate position type count)
      (immediate (position + k) type count) := by
  unfold immediate
  split
  · exact .bind_eq .next fun _ => .pure rfl
  · exact .bind_eq .next fun _ => .bind_eq .next fun _ => .bind_eq .next fun _ =>
      .bind_eq .next fun _ => .pure rfl
  · exact .bind_eq .next fun _ => .bind_eq .next fun _ => .pure rfl
  · refine .bind_eq .next fun _ => .bind_eq .next fun _ => .bind_eq .next fun _ =>
      .bind_eq .next fun _ => .bind_eq ?_ fun _ => .pure rfl
    exact .forIn (fun _ => .bind_eq .next fun _ => .pure rfl) _
  · exact .fail start bound _
  · exact .fail start bound _
  · exact .pure rfl

theorem extendModifier_steps (m m' : Modifier) (token : UInt32) (same : m = m') :
    (∃ fault, extendModifier m token = .error fault ∧ extendModifier m' token = .error fault) ∨
      ∃ s t, extendModifier m token = .ok s ∧ extendModifier m' token = .ok t ∧ s = t := by
  subst same
  cases extendModifier m token with
  | error fault => exact .inl ⟨fault, rfl, rfl⟩
  | ok m' => exact .inr ⟨m', m', rfl, rfl, rfl⟩

/-- With at most `depth` dwords left the bound on the depth is never met. -/
theorem operandWithin_parallel (depth : Nat) (data : DataType) :
    Parallel k lo stop depth Eq (operandWithin depth data) (operandWithin depth data) := by
  induction depth generalizing data with
  | zero =>
    intro toks inside none_left
    obtain rfl := List.length_eq_zero_iff.1 (Nat.le_zero.1 none_left)
    exact .error inside (Nat.le_refl _)
  | succ depth ih =>
    rw [operandWithin]
    refine .here_bind fun position start bound => .next_bind fun token => ?_
    split
    · next type _ =>
      cases components token with
      | error fault =>
        intro toks _ _
        exact .error start bound
      | ok selected =>
        refine .bind_eq (.pure rfl) fun selected => ?_
        refine .bind_eq (.chain extendModifier_steps rfl _) fun modifier => ?_
        refine .bind_eq (.mapM (fun dim => ?_) _) fun indices => ?_
        · exact index_parallel (ih .sint32) start bound _
        · exact .bind_eq (immediate_parallel start bound _ _) fun imm => .pure rfl
    · exact .fail start bound _

theorem operand_parallel (data : DataType) :
    Parallel k lo stop n Eq (operand data) (operand data) :=
  fun toks inside _ => operandWithin_parallel toks.length data toks inside (Nat.le_refl _)

/-- The same instruction read at two places: at `lo`, and `k` dwords further on. -/
def SameAt (token : UInt32) (k lo : Nat) (inst inst' : Instruction) : Prop :=
  inst.token = token ∧ inst.position = lo ∧ inst' = inst.shift k

variable {token : UInt32}

theorem SameAt.blank (opcode : UInt32) (family : Opcode.Family) :
    SameAt token k lo (blank opcode family lo token) (blank opcode family (lo + k) token) :=
  ⟨rfl, rfl, rfl⟩

theorem slot_parallel (inst inst' : Instruction) (s : OperandSlot)
    (same : SameAt token k lo inst inst') :
    Parallel k lo stop n (SameAt token k lo) (slot inst s) (slot inst' s) := by
  obtain ⟨token_, position, rfl⟩ := same
  cases s with
  | dst data =>
    exact .bind_eq (operand_parallel data) fun _ => .pure ⟨token_, position, rfl⟩
  | src data =>
    exact .bind_eq (operand_parallel data) fun _ => .pure ⟨token_, position, rfl⟩
  | imm32 => exact .bind_eq .next fun _ => .pure ⟨token_, position, rfl⟩
  | rest => exact fun toks _ _ => .ok ⟨token_, position, rfl⟩ List.nil_suffix

theorem extendOpcode_steps (inst inst' : Instruction) (ext : UInt32)
    (same : SameAt token k lo inst inst') :
    (∃ fault, extendOpcode inst ext = .error fault ∧ extendOpcode inst' ext = .error fault) ∨
      ∃ s t, extendOpcode inst ext = .ok s ∧ extendOpcode inst' ext = .ok t ∧
        SameAt token k lo s t := by
  obtain ⟨token_, position, rfl⟩ := same
  unfold extendOpcode
  split
  · exact .inr ⟨_, _, rfl, rfl, token_, position, rfl⟩
  · exact .inr ⟨_, _, rfl, rfl, token_, position, rfl⟩
  · exact .inr ⟨_, _, rfl, rfl, token_, position, rfl⟩
  · exact .inr ⟨_, _, rfl, rfl, token_, position, rfl⟩
  · exact .inl ⟨_, rfl, rfl⟩

theorem operands_parallel (format : Opcode.Format) {inst inst' : Instruction}
    (same : SameAt token k lo inst inst') :
    Parallel k lo stop n (SameAt token k lo) (operands format inst) (operands format inst') := by
  have extended : inst'.token = inst.token := by
    obtain ⟨_, _, rfl⟩ := same
    rfl
  unfold operands
  rw [extended]
  refine .bind (.chain extendOpcode_steps same _) fun inst inst' same => ?_
  refine .bind (.foldlM slot_parallel _ same) fun inst inst' same => ?_
  refine .here_bind fun position start bound => ?_
  intro toks _ _
  cases toks with
  | nil => exact .ok same List.suffix_rfl
  | cons t rest => exact .error start bound

end Decode

end ShaderLowering
