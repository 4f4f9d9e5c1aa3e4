import ShaderLowering.Proofs.Program.Reader

/-!
Instructions tile a program. Each one starts where the one before it ends and takes as many dwords
as it says, and nothing outside of them has a part in how it decodes. So a program decodes as its
beginning does, followed by its remainder further on.
-/

namespace ShaderLowering

namespace Decode

/-- The length that an instruction claims for itself: in its second dword if it is a block of raw
data, otherwise in its token. -/
def claimedLength (token : UInt32) (rest : List UInt32) : Nat :=
  if field token 0 11 = Opcode.customData.code then (rest.headD 0).toNat
  else (field token 24 7).toNat

/-- What an instruction decodes to at two places, the second `k` dwords further on. -/
inductive Reading (k position : Nat) (token : UInt32) (rest : List UInt32) :
    Except DecodeError (Instruction × Nat) → Except DecodeError (Instruction × Nat) → Prop
  | ok {inst : Instruction} {len : Nat} (token_ : inst.token = token)
    (start : inst.position = position) (claimed : len = claimedLength token rest)
    (positive : 0 < len) (inside : len ≤ rest.length + 1) :
    Reading k position token rest (.ok (inst, len)) (.ok (inst.shift k, len))
  | error {e : DecodeError} (start : position ≤ e.position)
    (bound : e.position ≤ position + (rest.length + 1)) :
    Reading k position token rest (.error e) (.error (e.shift k))

variable {token : UInt32} {rest toks : List UInt32} {position len : Nat} {inst : Instruction}
  {e : DecodeError}

theorem customData_reading (k : Nat) (custom : field token 0 11 = Opcode.customData.code) :
    Reading k position token rest (customData token rest position)
      (customData token rest (position + k)) := by
  have here_ {fault : DecodeFault} : Reading k position token rest
      (.error ⟨position, fault⟩) (.error ⟨position + k, fault⟩) :=
    .error (e := ⟨position, fault⟩) (Nat.le_refl _) (Nat.le_add_right _ _)
  unfold customData
  cases rest with
  | nil => exact here_
  | cons length payload =>
    dsimp only
    split
    · exact here_
    · next fits =>
      refine .ok rfl rfl ?_ (by omega) (by rw [List.length_cons]; omega)
      rw [claimedLength, if_pos custom]
      rfl

/-- An instruction decodes alike at all places, and it keeps to its dwords. -/
theorem instruction_reading (k : Nat) (token : UInt32) (rest : List UInt32) (position : Nat) :
    Reading k position token rest (instruction token rest position)
      (instruction token rest (position + k)) := by
  have here_ {fault : DecodeFault} : Reading k position token rest
      (.error ⟨position, fault⟩) (.error ⟨position + k, fault⟩) :=
    .error (e := ⟨position, fault⟩) (Nat.le_refl _) (Nat.le_add_right _ _)
  unfold instruction
  dsimp only
  split
  · next custom => exact customData_reading k custom
  · next ordinary =>
    split
    · exact here_
    · next positive =>
      split
      · exact here_
      · next fits =>
        cases Opcode.ofCode? (field token 0 11) with
        | none => exact here_
        | some op =>
          dsimp only
          have length : (rest.take ((field token 24 7).toNat - 1)).length =
              (field token 24 7).toNat - 1 := by
            rw [List.length_take]
            omega
          have same : SameAt token k position _ _ := .blank (field token 0 11) op.family
          have parallel : Parallel k position (position + (field token 24 7).toNat) rest.length
              (SameAt token k position) _ _ := operands_parallel op.format same
          have matching := parallel (rest.take ((field token 24 7).toNat - 1)) (by omega) (by omega)
          have further : position + k + (field token 24 7).toNat =
              position + (field token 24 7).toNat + k := by omega
          rw [further]
          generalize operands op.format _ (position + _) _ = x at matching
          generalize operands op.format _ (position + _ + k) _ = y at matching
          cases matching with
          | error start bound => exact .error start (by omega)
          | ok same suffix =>
            obtain ⟨token_, start, rfl⟩ := same
            refine .ok token_ start ?_ (by omega) (by omega)
            rw [claimedLength, if_neg ordinary]

theorem instruction_eq_ok (h : instruction token rest position = .ok (inst, len)) :
    inst.token = token ∧ inst.position = position ∧ len = claimedLength token rest ∧ 0 < len ∧
      len ≤ rest.length + 1 := by
  have reading := instruction_reading 0 token rest position
  rw [h] at reading
  generalize instruction token rest (position + 0) = x at reading
  cases reading with
  | ok token_ start claimed positive inside => exact ⟨token_, start, claimed, positive, inside⟩

theorem instruction_eq_error (h : instruction token rest position = .error e) :
    position ≤ e.position ∧ e.position ≤ position + (rest.length + 1) := by
  have reading := instruction_reading 0 token rest position
  rw [h] at reading
  generalize instruction token rest (position + 0) = x at reading
  cases reading with
  | error start bound => exact ⟨start, bound⟩

theorem instruction_shift_ok (h : instruction token rest position = .ok (inst, len)) (k : Nat) :
    instruction token rest (position + k) = .ok (inst.shift k, len) := by
  have reading := instruction_reading k token rest position
  rw [h] at reading
  generalize instruction token rest (position + k) = x at reading
  cases reading with
  | ok => rfl

theorem instruction_shift_error (h : instruction token rest position = .error e) (k : Nat) :
    instruction token rest (position + k) = .error (e.shift k) := by
  have reading := instruction_reading k token rest position
  rw [h] at reading
  generalize instruction token rest (position + k) = x at reading
  cases reading with
  | error => rfl

/-- What stands behind an instruction is of no concern to it. -/
theorem instruction_append (h : instruction token rest position = .ok (inst, len))
    (more : List UInt32) : instruction token (rest ++ more) position = .ok (inst, len) := by
  unfold instruction at h ⊢
  dsimp only at h ⊢
  split at h
  · next custom =>
    rw [if_pos custom]
    unfold customData at h ⊢
    cases rest with
    | nil => cases h
    | cons length payload =>
      dsimp only [List.cons_append] at h ⊢
      split at h
      · cases h
      · next fits =>
        have within : length.toNat - 2 ≤ payload.length := by omega
        rw [if_neg (by rw [List.length_append]; omega), List.take_append_of_le_length within]
        exact h
  · next ordinary =>
    rw [if_neg ordinary]
    split at h
    · cases h
    · next positive =>
      split at h
      · cases h
      · next fits =>
        have within : (field token 24 7).toNat - 1 ≤ rest.length := by omega
        rw [if_neg positive, if_neg (by rw [List.length_append]; omega),
          List.take_append_of_le_length within]
        exact h

theorem run_nil (position : Nat) : run [] position = ⟨[], position, none⟩ := by
  rw [run]

theorem run_error (h : instruction token rest position = .error e) :
    run (token :: rest) position = ⟨[], position, some e⟩ := by
  rw [run, h]

theorem run_ok (h : instruction token rest position = .ok (inst, len)) :
    run (token :: rest) position =
      { run (rest.drop (len - 1)) (position + len) with
        instructions := inst :: (run (rest.drop (len - 1)) (position + len)).instructions } := by
  rw [run, h]

/-- The instructions and the error of a run, in the order in which they are found. -/
def Run.items (r : Run) : List (Except DecodeError Instruction) :=
  r.instructions.map .ok ++ r.error?.toList.map .error

/-- The run of dwords that stand some way further on. -/
def Run.shift (distance : Nat) (r : Run) : Run :=
  ⟨r.instructions.map (·.shift distance), r.position + distance, r.error?.map (·.shift distance)⟩

/-- One run behind another that went well. -/
def Run.append (r s : Run) : Run :=
  { s with instructions := r.instructions ++ s.instructions }

/-- A run is the same wherever its dwords stand. -/
theorem run_shift (toks : List UInt32) (position distance : Nat) :
    run toks (position + distance) = (run toks position).shift distance := by
  fun_induction run toks position with
  | case1 position => exact run_nil _
  | case2 position token rest e h => exact run_error (instruction_shift_error h distance)
  | case3 position token rest inst len h tail ih =>
    rw [run_ok (instruction_shift_ok h distance), Nat.add_right_comm, ih]
    rfl

/-- Behind an instruction the run goes on to the same end. -/
theorem stop_eq (h : instruction token rest position = .ok (inst, len)) :
    position + len + (rest.drop (len - 1)).length = position + (token :: rest).length := by
  obtain ⟨_, _, _, positive, inside⟩ := instruction_eq_ok h
  rw [List.length_drop, List.length_cons]
  omega

/-- Dwords that decode without error leave nothing undecided for those behind them. -/
theorem run_append {toks : List UInt32} {position : Nat} (clean : (run toks position).error? = none)
    (more : List UInt32) :
    run (toks ++ more) position =
      (run toks position).append (run more (position + toks.length)) := by
  fun_induction run toks position with
  | case1 position => rfl
  | case2 position token rest e h => cases clean
  | case3 position token rest inst len h tail ih =>
    obtain ⟨_, _, _, positive, inside⟩ := instruction_eq_ok h
    have within : len - 1 ≤ rest.length := by omega
    rw [List.cons_append, run_ok (instruction_append h more),
      List.drop_append_of_le_length within, ih clean, stop_eq h]
    rfl

/-- Where a run stops: at the end, or at an instruction that does not decode. -/
inductive Run.Stops (stop : Nat) (r : Run) : Prop
  | atEnd (clean : r.error? = none) (stops : r.position = stop)
  | atError {e : DecodeError} (fails : r.error? = some e) (inside : r.position < stop)
    (start : r.position ≤ e.position) (bound : e.position ≤ stop)

theorem run_stops (toks : List UInt32) (position : Nat) :
    Run.Stops (position + toks.length) (run toks position) := by
  fun_induction run toks position with
  | case1 position => exact .atEnd rfl rfl
  | case2 position token rest e h =>
    obtain ⟨start, bound⟩ := instruction_eq_error h
    exact .atError rfl (Nat.lt_add_of_pos_right (Nat.succ_pos _)) start bound
  | case3 position token rest inst len h tail ih =>
    rw [stop_eq h] at ih
    cases ih with
    | atEnd clean stops => exact .atEnd clean stops
    | atError fails inside start bound => exact .atError fails inside start bound

/-- Instructions that follow on each other from one position to another, as the tokens of a
program have them. -/
inductive Tiles (tokens : List UInt32) : Nat → List Instruction → Nat → Prop
  | nil (position : Nat) : Tiles tokens position [] position
  | cons {inst : Instruction} {rest : List UInt32} {later : List Instruction} {stop : Nat}
    (here : tokens.drop inst.position = inst.token :: rest)
    (positive : 0 < claimedLength inst.token rest)
    (next : Tiles tokens (inst.position + claimedLength inst.token rest) later stop) :
    Tiles tokens inst.position (inst :: later) stop

/-- A longer list of dwords claims the same length. -/
theorem claimedLength_append (h : instruction token rest position = .ok (inst, len))
    (more : List UInt32) : claimedLength token (rest ++ more) = len := by
  obtain ⟨_, _, claimed, _⟩ := instruction_eq_ok (instruction_append h more)
  exact claimed.symm

theorem run_tiles {tokens : List UInt32} (toks : List UInt32) (position : Nat)
    {back : List UInt32} (there : tokens.drop position = toks ++ back) :
    Tiles tokens position (run toks position).instructions (run toks position).position := by
  fun_induction run toks position with
  | case1 position => exact .nil position
  | case2 position token rest e h => exact .nil position
  | case3 position token rest inst len h tail ih =>
    obtain ⟨rfl, rfl, _, positive, inside⟩ := instruction_eq_ok h
    have claims := claimedLength_append h back
    have behind : tokens.drop (inst.position + len) = rest.drop (len - 1) ++ back := by
      have within : len - 1 ≤ rest.length := by omega
      rw [← List.drop_append_of_le_length within, ← List.drop_drop, there, List.cons_append]
      obtain ⟨short, rfl⟩ : ∃ n, len = n + 1 := ⟨len - 1, by omega⟩
      rfl
    exact .cons there (claims.symm ▸ positive) (claims.symm ▸ ih behind)

end Decode

/-- A decoder that yields one instruction after another. -/
structure Decoder where
  /-- The dwords of the program, up to its limit. -/
  tokens : List UInt32
  /-- Where the next instruction starts. -/
  position : Nat
  /-- Whether an instruction did not decode. -/
  failed : Bool

namespace Decoder

def start (p : Program) : Decoder := ⟨p.tokens.take p.limit, 2, false⟩

/-- The next instruction, or why there is none, and the decoder behind it. -/
def next (d : Decoder) : Option (Except DecodeError Instruction) × Decoder :=
  if d.failed then (none, d)
  else
    match d.tokens.drop d.position with
    | [] => (none, d)
    | token :: rest =>
      match Decode.instruction token rest d.position with
      | .ok (inst, len) => (some (.ok inst), { d with position := d.position + len })
      | .error e => (some (.error e), { d with failed := true })

/-- The decoder after some calls. -/
def after (d : Decoder) : Nat → Decoder
  | 0 => d
  | n + 1 => d.next.2.after n

/-- What the call yields that comes after `n` others. -/
def item? (d : Decoder) (n : Nat) : Option (Except DecodeError Instruction) :=
  (d.after n).next.1

/-- A decoder that has nothing to yield stays as it is. -/
theorem after_of_stays {d : Decoder} (stays : d.next = (none, d)) (n : Nat) : d.after n = d := by
  induction n with
  | zero => rfl
  | succ n ih => rw [after, stays, ih]

variable {tokens : List UInt32} {position : Nat}

theorem next_of_failed : next ⟨tokens, position, true⟩ = (none, ⟨tokens, position, true⟩) := rfl

/-- A decoder yields the items of a run, one at a time, and stands where the next one starts. -/
theorem yields_run (toks : List UInt32) (position : Nat) (there : tokens.drop position = toks)
    (n : Nat) :
    item? ⟨tokens, position, false⟩ n = (Decode.run toks position).items[n]? ∧
      (after ⟨tokens, position, false⟩ n).position =
        ((Decode.run toks position).instructions[n]?).elim (Decode.run toks position).position
          (·.position) := by
  fun_induction Decode.run toks position generalizing n with
  | case1 position =>
    have stays : next ⟨tokens, position, false⟩ = (none, ⟨tokens, position, false⟩) := by
      rw [next, there]
      rfl
    rw [item?, after_of_stays stays, stays]
    exact ⟨rfl, rfl⟩
  | case2 position token rest e h =>
    have fails : next ⟨tokens, position, false⟩ = (some (.error e), ⟨tokens, position, true⟩) := by
      rw [next, there]
      dsimp only
      rw [h]
      rfl
    cases n with
    | zero => exact ⟨congrArg Prod.fst fails, rfl⟩
    | succ n =>
      rw [item?, after, fails, after_of_stays next_of_failed]
      exact ⟨rfl, rfl⟩
  | case3 position token rest inst len h tail ih =>
    obtain ⟨-, start_, -, positive, inside⟩ := Decode.instruction_eq_ok h
    have yields : next ⟨tokens, position, false⟩ =
        (some (.ok inst), ⟨tokens, position + len, false⟩) := by
      rw [next, there]
      dsimp only
      rw [h]
      rfl
    cases n with
    | zero => exact ⟨congrArg Prod.fst yields, start_.symm⟩
    | succ n =>
      have behind : tokens.drop (position + len) = rest.drop (len - 1) := by
        rw [← List.drop_drop, there]
        obtain ⟨short, rfl⟩ : ∃ n, len = n + 1 := ⟨len - 1, by omega⟩
        rfl
      rw [item?, after, yields]
      exact ih behind n

end Decoder

namespace Program

variable {p q r : Program}

theorem limit_le (p : Program) : p.limit ≤ p.tokens.length := by
  unfold limit
  split
  · exact Nat.min_le_right _ _
  · exact Nat.zero_le _

theorem length_body (p : Program) : p.body.length = p.limit - 2 := by
  rw [body, List.length_drop, List.length_take, Nat.min_eq_left p.limit_le]

/-- The body stands behind the version and the length. -/
theorem drop_tokens (p : Program) (long : 2 ≤ p.limit) :
    p.tokens.drop 2 = p.body ++ p.tokens.drop p.limit := by
  have within : 2 ≤ (p.tokens.take p.limit).length := by
    rw [List.length_take, Nat.min_eq_left p.limit_le]
    exact long
  rw [body, ← List.drop_append_of_le_length within, List.take_append_drop]

theorem decode_of_short (short : p.limit ≤ 2) : p.decode = ⟨[], 2, none⟩ := by
  have empty : p.body = [] := List.length_eq_zero_iff.1 (by rw [length_body]; omega)
  rw [decode, empty, Decode.run_nil]

theorem decode_tiles (p : Program) :
    Decode.Tiles p.tokens 2 p.decode.instructions p.decode.position := by
  by_cases short : p.limit ≤ 2
  · rw [decode_of_short short]
    exact .nil 2
  · exact Decode.run_tiles p.body 2 (p.drop_tokens (by omega))

theorem decode_stops (p : Program) : Decode.Run.Stops (max 2 p.limit) p.decode := by
  have stops := Decode.run_stops p.body 2
  have limit_ : 2 + p.body.length = max 2 p.limit := by rw [length_body]; omega
  rwa [limit_] at stops

theorem decode_append (parts : p.body = q.body ++ r.body) (clean : q.decode.error? = none) :
    p.decode = q.decode.append (r.decode.shift q.body.length) := by
  rw [decode, parts, Decode.run_append clean, Decode.run_shift]
  rfl

/-- Decoding tiles the program, by what the dwords up to its limit say and nothing else, and what
stands behind a part of it decodes as it would alone. -/
theorem decode_tiled (p : Program) :
    -- Instruction follows on instruction, from dword 2 on.
    Decode.Tiles p.tokens 2 p.decode.instructions p.decode.position ∧
      -- They end at the limit, or at one that fails for a dword of its own or the limit.
      (p.limit ≤ 2 → p.decode = ⟨[], 2, none⟩) ∧
      Decode.Run.Stops (max 2 p.limit) p.decode ∧
      -- The decoder yields them one by one, then the error, then nothing, and stays.
      (∀ n, (Decoder.start p).item? n = p.decode.items[n]?) ∧
      (∀ n, ((Decoder.start p).after n).position =
        (p.decode.instructions[n]?).elim p.decode.position (·.position)) ∧
      -- Dwords from the limit on do not matter.
      (∀ q : Program, q.limit = p.limit → q.tokens.take p.limit = p.tokens.take p.limit →
        q.decode = p.decode) ∧
      -- A program in two parts decodes as one part behind the other.
      ∀ q r : Program, p.body = q.body ++ r.body → q.decode.error? = none →
        p.decode = q.decode.append (r.decode.shift q.body.length) := by
  have yields := Decoder.yields_run p.body 2 (rfl : (p.tokens.take p.limit).drop 2 = p.body)
  refine ⟨p.decode_tiles, decode_of_short, p.decode_stops, fun n => (yields n).1,
    fun n => (yields n).2, fun q limit_ same => ?_, fun _ _ => decode_append⟩
  rw [decode, decode, body, body, limit_, same]

/-- Two returns in a row. -/
theorem decode_tiled_returns :
    let ret : UInt32 := 0x0100003e
    (assume [0x50, 4, ret, ret]).decode =
      (assume [0x50, 3, ret]).decode.append ((assume [0x50, 3, ret]).decode.shift 1) :=
  (decode_tiled (assume [0x50, 4, 0x0100003e, 0x0100003e])).2.2.2.2.2.2
    (assume [0x50, 3, 0x0100003e]) (assume [0x50, 3, 0x0100003e]) (by decide) (by decide +kernel)

end Program

end ShaderLowering
