import ShaderLowering.Program.Decode

/-!
The head of a decoded instruction: its opcode and family. Extended tokens and operands leave the
head alone, so a decoded instruction has a known opcode and the family that belongs to it.
-/

namespace ShaderLowering

namespace Instruction

/-- Two instructions with the same opcode and family. -/
structure SameHead (inst inst' : Instruction) : Prop where
  opcode : inst'.opcode = inst.opcode
  family : inst'.family = inst.family

theorem SameHead.refl (inst : Instruction) : inst.SameHead inst :=
  ⟨rfl, rfl⟩

theorem SameHead.trans {a b c : Instruction} (first : a.SameHead b) (second : b.SameHead c) :
    a.SameHead c :=
  ⟨second.opcode.trans first.opcode, second.family.trans first.family⟩

/-- An instruction with a known opcode and the family of that opcode. -/
def HasFamily (inst : Instruction) : Prop :=
  ∃ op : Opcode, inst.op? = some op ∧ inst.family = op.family

theorem SameHead.hasFamily {inst inst' : Instruction} (same : inst.SameHead inst')
    (h : inst.HasFamily) : inst'.HasFamily := by
  obtain ⟨op, known, family⟩ := h
  refine ⟨op, ?_, same.family.trans family⟩
  rw [op?, same.opcode]
  exact known

/-- The opcode settles the family. -/
theorem HasFamily.family_eq {inst : Instruction} {op : Opcode} (h : inst.HasFamily)
    (known : inst.op? = some op) : inst.family = op.family := by
  obtain ⟨op', known', family⟩ := h
  cases known.symm.trans known'
  exact family

end Instruction

namespace Decode

open Instruction

/-- A reader whose results have the head of a given instruction. -/
def KeepsHead (inst : Instruction) (r : TokenReader Instruction) : Prop :=
  ∀ stop toks inst' rest, r stop toks = .ok (inst', rest) → inst.SameHead inst'

/-- A reader that is run for its result, and then another. -/
theorem KeepsHead.of_bind {α : Type} {inst : Instruction} {r : TokenReader α}
    {f : α → TokenReader Instruction} (later : ∀ a, KeepsHead inst (f a)) :
    KeepsHead inst (r >>= f) := by
  intro stop toks inst' rest h
  change (r stop toks >>= fun p => f p.1 stop p.2) = _ at h
  cases first : r stop toks with
  | error e =>
    rw [first] at h
    cases h
  | ok p =>
    rw [first] at h
    exact later p.1 stop p.2 inst' rest h

theorem KeepsHead.bind {inst : Instruction} {r : TokenReader Instruction}
    {f : Instruction → TokenReader Instruction} (first : KeepsHead inst r)
    (later : ∀ inst', KeepsHead inst' (f inst')) : KeepsHead inst (r >>= f) := by
  intro stop toks inst' rest h
  change (r stop toks >>= fun p => f p.1 stop p.2) = _ at h
  cases first_ : r stop toks with
  | error e =>
    rw [first_] at h
    cases h
  | ok p =>
    rw [first_] at h
    exact (first stop toks p.1 p.2 first_).trans (later p.1 stop p.2 inst' rest h)

theorem KeepsHead.of_pure {inst inst' : Instruction} (same : inst.SameHead inst') :
    KeepsHead inst (pure inst') := by
  intro stop toks read rest h
  cases h
  exact same

theorem slot_keepsHead (inst : Instruction) (s : OperandSlot) : KeepsHead inst (slot inst s) := by
  cases s with
  | dst data | src data | imm32 => exact .of_bind fun _ => .of_pure ⟨rfl, rfl⟩
  | rest =>
    intro stop toks inst' rest h
    cases h
    exact ⟨rfl, rfl⟩

theorem slots_keepHead (slots : List OperandSlot) (inst : Instruction) :
    KeepsHead inst (slots.foldlM slot inst) := by
  induction slots generalizing inst with
  | nil => exact .of_pure (.refl inst)
  | cons s rest ih =>
    rw [List.foldlM_cons]
    exact .bind (slot_keepsHead inst s) ih

theorem extendOpcode_sameHead {inst inst' : Instruction} {ext : UInt32}
    (h : extendOpcode inst ext = .ok inst') : inst.SameHead inst' := by
  unfold extendOpcode at h
  split at h
  all_goals cases h
  all_goals exact ⟨rfl, rfl⟩

theorem extensions_keepHead (inst : Instruction) (more : Bool) :
    KeepsHead inst (chain extendOpcode inst more) := by
  intro stop toks inst' rest h
  unfold chain at h
  fun_induction chainFrom extendOpcode stop inst more toks with
  | case1 =>
    cases h
    exact .refl _
  | case2 => cases h
  | case3 inst token rest extended step ih => exact (extendOpcode_sameHead step).trans (ih h)
  | case4 => cases h

theorem operands_keepHead (format : Opcode.Format) (inst : Instruction) :
    KeepsHead inst (operands format inst) := by
  refine .bind (extensions_keepHead inst _) fun extended => ?_
  refine .bind (slots_keepHead _ extended) fun read => ?_
  refine .of_bind fun position => ?_
  intro stop toks inst' rest h
  cases toks with
  | nil =>
    cases h
    exact .refl read
  | cons => cases h

theorem instruction_hasFamily {token : UInt32} {rest : List UInt32} {position len : Nat}
    {inst : Instruction} (h : instruction token rest position = .ok (inst, len)) :
    inst.HasFamily := by
  unfold instruction at h
  dsimp only at h
  split at h
  · unfold customData at h
    split at h
    · cases h
    · dsimp only at h
      split at h
      · cases h
      · cases h
        have known : Opcode.ofCode? Opcode.customData.code = some .customData := by decide
        exact ⟨.customData, known, rfl⟩
  · split at h
    · cases h
    · split at h
      · cases h
      · split at h
        · cases h
        · next op known =>
          split at h
          · next read rest' ran =>
            cases h
            have head := operands_keepHead _ _ _ _ _ _ ran
            exact head.hasFamily ⟨op, known, rfl⟩
          · cases h

theorem run_hasFamily (toks : List UInt32) (position : Nat) :
    ∀ inst ∈ (run toks position).instructions, inst.HasFamily := by
  fun_induction run toks position with
  | case1 => exact fun _ h => absurd h List.not_mem_nil
  | case2 => exact fun _ h => absurd h List.not_mem_nil
  | case3 position token rest first len here_ tail ih =>
    intro inst member
    obtain rfl | member := List.mem_cons.1 member
    · exact instruction_hasFamily here_
    · exact ih inst member

end Decode

/-- All instructions of a program that decodes have the family of their opcode. -/
theorem Program.hasFamily {p : Program} {insts : List Instruction}
    (h : p.instructions = .ok insts) : ∀ inst ∈ insts, inst.HasFamily := by
  unfold instructions at h
  split at h
  · cases h
  · cases h
    exact Decode.run_hasFamily _ _

end ShaderLowering
