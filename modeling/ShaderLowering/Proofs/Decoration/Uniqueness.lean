import ShaderLowering.Proofs.Conduct.Instructions
import ShaderLowering.Proofs.Typing.Lowered

/-!
No decoration is repeated, with one exception: a literal that precise instructions move is marked
against contraction by each of them.
-/

namespace ShaderLowering

open Spirv (Id Annotation Module Decoration)

variable {env : Environment} {moves : Prop} {s t u : State} {inst : Instruction}

theorem State.Tallies.imp {moves' : Prop} (h : s.Tallies moves t) (more : moves → moves') :
    s.Tallies moves' t :=
  ⟨h.nextId, h.globals, fun k => (h.tally k).imp_right fun ⟨same, literal, why⟩ =>
    ⟨same, literal, more why⟩⟩

/-- Instructions that are lowered one after the other. -/
theorem Lowering.steps_tallies {l m : Lowering} {insts : List Instruction} (bare : l.state.Bare)
    (ran : l.steps insts = .ok m) :
    m.state.Bare ∧ l.state.Tallies (∃ i ∈ insts, i.movesLiteral = true) m.state := by
  induction insts generalizing l with
  | nil =>
    cases ran
    exact ⟨bare, .refl _⟩
  | cons inst rest ih =>
    obtain ⟨n, stepped, ran⟩ := steps_cons.1 ran
    have lowers : MarksOnce CompileError.IsAny _ (Lower.lowerInstruction inst) :=
      Lower.lowerInstruction_marksOnce (.inr fun _ => trivial)
    obtain ⟨bare', first⟩ :=
      lowers.tallies _ _ _ _ bare (step_eq_ok.1 stepped).1
    obtain ⟨bare'', later⟩ := ih bare' ran
    refine ⟨bare'', (first.imp fun moves => ⟨inst, List.mem_cons_self, moves⟩).trans ?_⟩
    exact later.imp fun ⟨i, mem, moves⟩ => ⟨i, List.mem_cons_of_mem _ mem, moves⟩

/-- A lowering puts each mark on each id at most once, literals that are moved apart. -/
theorem lowerInstructions_tally {l : Lowering} {insts : List Instruction}
    (ran : lowerInstructions env insts = .ok l) (k : Annotation) :
    l.state.builder.module.marks.count k ≤ 1 ∨
      k = Decoration.noContraction.on k.target ∧ l.state.builder.module.IsLiteral k.target ∧
        ∃ i ∈ insts, i.movesLiteral = true := by
  obtain ⟨first, last, started, stepped, closed⟩ := lowerInstructions_eq_ok.1 ran
  obtain ⟨stage, _, begun, _⟩ := Lowering.start_eq_ok.1 started
  have bare : (State.initial env.options.version stage).Bare := fun _ => List.forall_mem_nil _
  have begins : Neat CompileError.IsAny [] Lower.begin := Lower.begin_neat
  have ends : Neat CompileError.IsAny [] Lower.finish := Lower.finish_neat
  obtain ⟨bare₁, opened⟩ := begins.decorates _ _ () _ bare nofun begun
  obtain ⟨bare₂, lowered⟩ := Lowering.steps_tallies bare₁ stepped
  obtain ⟨_, ended⟩ := ends.decorates _ _ () _ bare₂ nofun
    (Lowering.run_eq_ok.1 (Lowering.close_eq_ok.1 closed)).1
  have tallies := ((State.Tallies.of_stamps opened).trans lowered).trans (.of_stamps ended)
  refine (tallies.tally k).imp_left fun few => Nat.le_trans few ?_
  have unmarked : (State.initial env.options.version stage).tally k = 0 := rfl
  split <;> omega

section Compilation

variable {program : Program} {entries : SignatureEntries} {options : Options}
  {artifact : Artifact} {insts : List Instruction}

/-- In a compiled module no id has a decoration twice, and no member of a type has. Only a literal
may be marked against contraction more than once, where precise instructions move it. -/
theorem compile_marks (h : compile program entries options = .ok artifact)
    (decoded : program.instructions = .ok insts) :
    ∃ l, lowerInstructions (program.environment insts entries options) insts = .ok l ∧
      artifact = l.artifact ∧ ∀ k, l.state.builder.module.marks.count k ≤ 1 ∨
        k = Decoration.noContraction.on k.target ∧ l.state.builder.module.IsLiteral k.target ∧
          ∃ i ∈ insts, i.movesLiteral = true := by
  obtain ⟨insts', l, decoded', lowered, rfl⟩ := compile_eq_ok.1 h
  obtain rfl : insts' = insts := Except.ok.inj (decoded'.symm.trans decoded)
  exact ⟨l, lowered, rfl, lowerInstructions_tally lowered⟩

/-- A pixel shader that adds to a constant, precisely and twice. -/
def preciseAdds : Program :=
  .assume [0x50, 25, 0x04000059, 0x00208e46, 0, 1, 0x0b780000, 0x001000f2, 0, 0x00208e46, 0, 0,
    0x00004002, 0x3f800000, 0x3f800000, 0x3f800000, 0x3f800000, 0x07780000, 0x001000f2, 0,
    0x00100e46, 0, 0x00100e46, 0, 0x0100003e]

theorem compile_marks_preciseAdds :
    ∃ artifact insts l, compile preciseAdds ⟨[], [], []⟩ .default = .ok artifact ∧
      lowerInstructions (preciseAdds.environment insts ⟨[], [], []⟩ .default) insts = .ok l ∧
      artifact = l.artifact ∧ l.state.builder.module.marks.Nodup := by
  obtain ⟨artifact, insts, _, compiles, _, _, decoded, none_⟩ :=
    exists_compile preciseAdds ⟨[], [], []⟩ .default
      (fun insts _ _ => insts.all fun i => !i.movesLiteral) (by decide +kernel)
  obtain ⟨l, lowered, same, marks⟩ := compile_marks compiles decoded
  refine ⟨artifact, insts, l, compiles, lowered, same, List.nodup_iff_count_le_one.2 fun k => ?_⟩
  refine (marks k).resolve_right fun ⟨_, _, i, mem, moves⟩ => ?_
  have := List.all_eq_true.1 none_ i mem
  rw [moves] at this
  cases this

/-- A pixel shader that moves one literal to the same register twice, both times precisely. -/
def preciseMoves : Program :=
  .assume [0x50, 19, 0x08780036, 0x001000f2, 0, 0x00004002, 0x3f800000, 0x3f800000, 0x3f800000,
    0x3f800000, 0x08780036, 0x001000f2, 0, 0x00004002, 0x3f800000, 0x3f800000, 0x3f800000,
    0x3f800000, 0x0100003e]

/-- The literal is marked against contraction twice. -/
theorem exists_not_nodup_marks :
    ∃ artifact insts l, compile preciseMoves ⟨[], [], []⟩ .default = .ok artifact ∧
      lowerInstructions (preciseMoves.environment insts ⟨[], [], []⟩ .default) insts = .ok l ∧
      artifact = l.artifact ∧ ∃ id, l.state.builder.module.IsLiteral id ∧
        l.state.builder.module.marks.count (Decoration.noContraction.on id) = 2 := by
  obtain ⟨artifact, insts, l, compiles, lowered, same, _, twice⟩ :=
    exists_compile preciseMoves ⟨[], [], []⟩ .default (fun _ _ l =>
      decide (∃ k ∈ l.state.builder.module.marks, l.state.builder.module.IsLiteral k.target ∧
        l.state.builder.module.marks.count (Decoration.noContraction.on k.target) = 2))
      (by decide +kernel)
  obtain ⟨k, _, literal, twice⟩ := of_decide_eq_true twice
  exact ⟨artifact, insts, l, compiles, lowered, same, k.target, literal, twice⟩

end Compilation

end ShaderLowering
