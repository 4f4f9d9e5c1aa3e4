import ShaderLowering.Proofs.Program.Heads
import ShaderLowering.Proofs.Typing.Decoded

/-!
The operands of a decoded instruction are those that the format of its opcode asks for: as many
destinations and sources, each of the type of its slot, and as many immediates, unless the format
takes all the dwords that are left.
-/

namespace ShaderLowering

namespace OperandSlot

/-- The type of a destination. -/
def destination? : OperandSlot → Option DataType
  | dst data => some data
  | _ => none

/-- The type of a source. -/
def source? : OperandSlot → Option DataType
  | src data => some data
  | _ => none

end OperandSlot

namespace Opcode

/-- The types of the destinations of an instruction. -/
def destinations (op : Opcode) : List DataType :=
  op.format.operands.filterMap OperandSlot.destination?

/-- The types of the sources of an instruction. -/
def sources (op : Opcode) : List DataType :=
  op.format.operands.filterMap OperandSlot.source?

/-- How many immediates an instruction has, if its format does not take all dwords that are left. -/
def immediates (op : Opcode) : Nat :=
  op.format.operands.count .imm32

end Opcode

namespace Instruction

/-- An instruction has the family and the operands of its opcode. -/
structure Fits (inst : Instruction) (op : Opcode) : Prop where
  op? : inst.op? = some op
  family : inst.family = op.family
  dst : inst.dst.map (·.data) = op.destinations
  src : inst.src.map (·.data) = op.sources
  imm : .rest ∉ op.format.operands → inst.imm.length = op.immediates

theorem Fits.length_dst {inst : Instruction} {op : Opcode} (fits : inst.Fits op) :
    inst.dst.length = op.destinations.length := by
  rw [← List.length_map (fun operand : Operand => operand.data), fits.dst]

theorem Fits.length_src {inst : Instruction} {op : Opcode} (fits : inst.Fits op) :
    inst.src.length = op.sources.length := by
  rw [← List.length_map (fun operand : Operand => operand.data), fits.src]

/-- Operands are added to an instruction for some slots. -/
structure Takes (inst : Instruction) (slots : List OperandSlot) (inst' : Instruction) : Prop where
  dst : inst'.dst.map (·.data) =
    inst.dst.map (·.data) ++ slots.filterMap OperandSlot.destination?
  src : inst'.src.map (·.data) = inst.src.map (·.data) ++ slots.filterMap OperandSlot.source?
  imm : .rest ∉ slots → inst'.imm.length = inst.imm.length + slots.count .imm32

namespace Takes

variable {a b c : Instruction} {slots more : List OperandSlot}

theorem of_eq (dst : b.dst = a.dst) (src : b.src = a.src) (imm : b.imm = a.imm) : a.Takes [] b :=
  ⟨by rw [dst]; simp, by rw [src]; simp, fun _ => by rw [imm]; simp⟩

theorem trans (first : a.Takes slots b) (second : b.Takes more c) : a.Takes (slots ++ more) c :=
  ⟨by rw [second.dst, first.dst, List.filterMap_append, List.append_assoc],
    by rw [second.src, first.src, List.filterMap_append, List.append_assoc],
    fun bounded => by
      rw [List.mem_append, not_or] at bounded
      rw [second.imm bounded.2, first.imm bounded.1, List.count_append, Nat.add_assoc]⟩

end Takes

end Instruction

namespace Decode

open Instruction

theorem slot_takes (inst : Instruction) (s : OperandSlot) :
    Returns (inst.Takes [s]) (slot inst s) := by
  cases s with
  | dst data =>
    refine .bind (fun stop toks => operandWithin_returns toks.length data stop toks)
      fun op known => .pure ⟨?_, ?_, fun _ => rfl⟩
    · rw [List.map_append, List.map_singleton, known.1]
      rfl
    · simp [OperandSlot.source?]
  | src data =>
    refine .bind (fun stop toks => operandWithin_returns toks.length data stop toks)
      fun op known => .pure ⟨?_, ?_, fun _ => rfl⟩
    · simp [OperandSlot.destination?]
    · rw [List.map_append, List.map_singleton, known.1]
      rfl
  | imm32 =>
    exact .after fun w => .pure ⟨by simp [OperandSlot.destination?], by simp [OperandSlot.source?],
      fun _ => by simp⟩
  | rest =>
    intro stop toks inst' rest ran
    cases ran
    exact ⟨by simp [OperandSlot.destination?], by simp [OperandSlot.source?],
      fun bounded => absurd (List.mem_singleton_self _) bounded⟩

/-- The slots of a format are filled in their order. -/
theorem slots_take (slots : List OperandSlot) (inst : Instruction) :
    Returns (inst.Takes slots) (slots.foldlM slot inst) := by
  induction slots generalizing inst with
  | nil => exact .pure (.of_eq rfl rfl rfl)
  | cons s rest ih =>
    rw [List.foldlM_cons]
    intro stop toks inst' left ran
    refine Returns.bind (slot_takes inst s) (fun read first => ?_) stop toks inst' left ran
    intro stop toks inst' left ran
    exact first.trans (ih read stop toks inst' left ran)

theorem extendOpcode_takes {inst inst' : Instruction} {ext : UInt32}
    (extended : extendOpcode inst ext = .ok inst') : inst.Takes [] inst' := by
  unfold extendOpcode at extended
  split at extended
  all_goals cases extended
  all_goals exact .of_eq rfl rfl rfl

theorem extensions_take (inst : Instruction) (more : Bool) :
    Returns (inst.Takes []) (chain extendOpcode inst more) := by
  intro stop toks inst' rest ran
  unfold chain at ran
  fun_induction chainFrom extendOpcode stop inst more toks with
  | case1 =>
    cases ran
    exact .of_eq rfl rfl rfl
  | case2 => cases ran
  | case3 inst token rest extended step ih => exact (extendOpcode_takes step).trans (ih ran)
  | case4 => cases ran

theorem operands_take (format : Opcode.Format) (inst : Instruction) :
    Returns (inst.Takes format.operands) (operands format inst) := by
  refine .bind (extensions_take inst _) fun extended first => ?_
  refine .bind (slots_take _ extended) fun read second => ?_
  refine .after fun position stop toks inst' rest ran => ?_
  cases toks with
  | nil =>
    cases ran
    exact first.trans second
  | cons => cases ran

theorem instruction_fits {token : UInt32} {rest : List UInt32} {position len : Nat}
    {inst : Instruction} (h : instruction token rest position = .ok (inst, len)) :
    ∃ op, inst.Fits op := by
  unfold instruction at h
  dsimp only at h
  split at h
  · unfold customData at h
    split at h
    · cases h
    · dsimp only at h
      split at h
      · cases h
      · cases h
        have known : Opcode.ofCode? Opcode.customData.code = some .customData := by decide
        exact ⟨.customData, known, rfl, rfl, rfl, fun _ => rfl⟩
  · split at h
    · cases h
    · split at h
      · cases h
      · split at h
        · cases h
        · next op known =>
          split at h
          · next read rest' ran =>
            cases h
            have head := operands_keepHead _ _ _ _ _ _ ran
            have takes := operands_take _ _ _ _ _ _ ran
            refine ⟨op, ?_, head.family, takes.dst, takes.src, fun bounded => ?_⟩
            case refine_2 => exact (takes.imm bounded).trans (Nat.zero_add _)
            rw [op?, head.opcode]
            exact known
          · cases h

theorem run_fits (toks : List UInt32) (position : Nat) :
    ∀ inst ∈ (run toks position).instructions, ∃ op, inst.Fits op := by
  fun_induction run toks position with
  | case1 => exact fun _ h => absurd h List.not_mem_nil
  | case2 => exact fun _ h => absurd h List.not_mem_nil
  | case3 position token rest first len here_ tail ih =>
    intro inst member
    obtain rfl | member := List.mem_cons.1 member
    · exact instruction_fits here_
    · exact ih inst member

end Decode

/-- The instructions of a program that decodes have the operands of their opcodes. -/
theorem Program.fits {p : Program} {insts : List Instruction} (h : p.instructions = .ok insts)
    {inst : Instruction} (member : inst ∈ insts) {op : Opcode} (known : inst.op? = some op) :
    inst.Fits op := by
  unfold instructions at h
  split at h
  · cases h
  · cases h
    obtain ⟨op', fits⟩ := Decode.run_fits _ _ inst member
    cases known.symm.trans fits.op?
    exact fits

end ShaderLowering
