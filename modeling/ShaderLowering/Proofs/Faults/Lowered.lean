import ShaderLowering.Compile
import ShaderLowering.Proofs.Conduct.Instructions

/-!
What compiling a program complains of. Whatever decodes has the operands that it is lowered with,
so that no program is refused for the lack of one.
-/

namespace ShaderLowering

variable {ok : CompileError → Prop}

namespace Lowering

variable [Refusing ok] {l : Lowering} {insts : List Instruction} {e : CompileError}

theorem start_reports {env : Environment} (failed : start env = .error e) : ok e := by
  unfold start at failed
  split at failed
  · cases failed
    exact Reporting.stage _
  · next stage _ =>
    have begun :
        (Lower.result Lower.begin env (.initial env.options.version stage)).1 = .error e := by
      change Except.map _ (Lower.result Lower.begin env (.initial env.options.version stage)).1 =
        _ at failed
      cases ran : (Lower.result Lower.begin env (.initial env.options.version stage)).1 with
      | ok => rw [ran] at failed; cases failed
      | error => rw [ran] at failed; cases failed; rfl
    exact Lower.begin_neat.reports _ _ e begun

theorem steps_reports (fits : ∀ inst ∈ insts, ∃ op, inst.Fits op)
    (failed : l.steps insts = .error e) : ok e := by
  fun_induction steps l insts with
  | case1 => cases failed
  | case2 l inst rest _ l' ran ih =>
    exact ih (fun i mem => fits i (List.mem_cons_of_mem _ mem)) failed
  | case3 l inst rest e' l' ran =>
    cases failed
    have lowers : MarksOnce ok _ (Lower.lowerInstruction inst) :=
      Lower.lowerInstruction_marksOnce (.inl (fits inst List.mem_cons_self))
    exact lowers.reports l.environment l.state e (congrArg Prod.fst ran)

theorem close_reports (failed : l.close = .error e) : ok e := by
  unfold close at failed
  split at failed
  · cases failed
  · next ran =>
    cases failed
    exact Lower.finish_neat.reports l.environment l.state e (congrArg Prod.fst ran)

end Lowering

/-- Instructions with the operands of their opcodes are lowered, or refused for what may be said of
any program. -/
theorem lowerInstructions_reports [Refusing ok] {env : Environment} {insts : List Instruction}
    {e : CompileError} (fits : ∀ inst ∈ insts, ∃ op, inst.Fits op)
    (failed : lowerInstructions env insts = .error e) : ok e := by
  unfold lowerInstructions at failed
  cases started : Lowering.start env with
  | error e' =>
    rw [started] at failed
    cases failed
    exact Lowering.start_reports started
  | ok first =>
    rw [started] at failed
    change (first.steps insts >>= Lowering.close) = _ at failed
    cases ran : first.steps insts with
    | error e' =>
      rw [ran] at failed
      cases failed
      exact Lowering.steps_reports fits ran
    | ok last =>
      rw [ran] at failed
      exact Lowering.close_reports failed

/-- Every error but the lack of an operand. -/
def CompileError.IsEquipped (e : CompileError) : Prop :=
  e.isShortage = false

instance : Refusing CompileError.IsEquipped where
  fault _ plain := plain
  unsupported _ _ _ := rfl
  slot _ _ := rfl
  stage _ := rfl
  builder _ := rfl

/-- Operand counts never stop a compile. Every instruction that decodes, from whatever tokens, has
exactly the destinations, sources and immediates of its opcode's format, any number of immediates
if the format takes all that is left; and they are enough for lowering it, so that no program is
refused because an instruction lacks an operand. -/
theorem Program.equipped (p : Program) :
    (∀ inst ∈ p.decode.instructions, ∃ op, inst.op? = some op ∧ inst.family = op.family ∧
      inst.dst.length = op.destinations.length ∧ inst.src.length = op.sources.length ∧
      (.rest ∉ op.format.operands → inst.imm.length = op.immediates)) ∧
    ∀ entries options e, compile p entries options = .error e → e.isShortage = false := by
  have fits := Decode.run_fits p.body 2
  refine ⟨fun inst mem => ?_, fun entries options e failed => ?_⟩
  · obtain ⟨op, fit⟩ := fits inst mem
    exact ⟨op, fit.op?, fit.family, fit.length_dst, fit.length_src, fit.imm⟩
  · unfold compile Program.instructions at failed
    split at failed
    · cases failed
      rfl
    · next insts decoded =>
      have decoded : p.decode.instructions = insts := by
        split at decoded <;> cases decoded
        rfl
      cases lowered : lowerInstructions (p.environment insts entries options) insts with
      | ok l =>
        rw [lowered] at failed
        cases failed
      | error e' =>
        rw [lowered] at failed
        cases failed
        exact @lowerInstructions_reports CompileError.IsEquipped _ _ _ _ (decoded ▸ fits) lowered

end ShaderLowering
