import ShaderLowering.Proofs.Conduct.Control
import ShaderLowering.Proofs.Decoration.Literals

/-!
Whole instructions, each as its family says. All are neat but for those whose results may not be
contracted: these mark each new id at most once in each way, and the literals that they move.
-/

namespace ShaderLowering

open Spirv (Id Op ExtOp)

section

variable {m : Type → Type} [Monad m] [MonadReader Environment m] [Stepping m]

/-- A modest step that marks each new id at most once in each way, literals that are moved apart. -/
structure MarksOnce {α : Type} (ok : CompileError → Prop) (moves : Prop) (e : m α) : Prop
    extends Modest ok e where
  tallies : ∀ env, Tallying moves env (Stepping.run e)

variable {α β γ : Type} {ok : CompileError → Prop} {moves : Prop} {e : m α} {f : α → m β}

theorem Neat.marksOnce (h : Neat ok [] e) : MarksOnce ok moves e :=
  ⟨h.toModest, fun env => (h.decorates env).tallying⟩

namespace MarksOnce

protected theorem bind (first : Neat ok [] e) (later : ∀ a, MarksOnce ok moves (f a)) :
    MarksOnce ok moves (e >>= f) where
  toModest := first.toModest.bind fun a => (later a).toModest
  tallies env := by
    rw [Stepping.run_bind_eq]
    exact .andThen (first.decorates env).tallying fun a => (later a).tallies env

/-- The marks are put on ahead of other steps. -/
theorem before (first : MarksOnce ok moves e) (later : ∀ a, MarksOnce ok moves (f a)) :
    MarksOnce ok moves (e >>= f) where
  toModest := first.toModest.bind fun a => (later a).toModest
  tallies env := by
    rw [Stepping.run_bind_eq]
    exact .andThen (first.tallies env) fun a => (later a).tallies env

theorem ite {p : Prop} [Decidable p] {e e' : m α} (yes : MarksOnce ok moves e)
    (no : MarksOnce ok moves e') : MarksOnce ok moves (if p then e else e') := by
  split
  · exact yes
  · exact no

theorem forInMem {f : γ → β → m (ForInStep β)} {list : List γ} {b : β}
    (each : ∀ c ∈ list, ∀ b, MarksOnce ok moves (f c b)) :
    MarksOnce ok moves (ForIn.forIn list b f) := by
  induction list generalizing b with
  | nil => exact (Neat.pure b).marksOnce
  | cons c rest ih =>
    rw [List.forIn_cons]
    refine .before (each c List.mem_cons_self b) fun r => ?_
    cases r with
    | done b => exact (Neat.pure b).marksOnce
    | yield b => exact ih fun c mem => each c (List.mem_cons_of_mem _ mem)

theorem lift {e : Emission α} (h : MarksOnce ok moves e) : MarksOnce ok moves (liftM e : Lower α) :=
  ⟨⟨h.reports, h.blind⟩, h.tallies⟩

theorem get_bind {f : State → Lower β} (later : ∀ s, MarksOnce ok moves (f s))
    (same : ∀ s : State, f s.unnamed = f s) : MarksOnce ok moves (get >>= f) :=
  ⟨.get_bind (fun s => (later s).toModest) same,
    fun env s b t bare ran => (later s).tallies env s b t bare ran⟩

/-- A result that may be contracted only where the instruction lets it be. It is new, or it is a
literal that is moved. -/
theorem result {e : Emission Value} {inst : Instruction} {f : Value → Emission β}
    (first : Neat ok [] e)
    (origin : ∀ env s v t, e.run env s = (.ok v, t) → s.Between t v.id ∨
      (v.type.scalar = .f32 → inst.preciseMask.isEmpty = false →
        t.builder.module.IsLiteral v.id ∧ moves))
    (later : ∀ v, Neat ok [] (f v)) :
    MarksOnce ok moves (e >>= fun v => Lower.markPrecise inst v >>= fun _ => f v) where
  toModest := first.toModest.bind fun v =>
    .bind (.ite (Lower.decorate_neat v.id .noContraction []).toModest (Neat.pure ()).toModest)
      fun _ => (later v).toModest
  tallies env := .result (first.decorates env) (origin env) fun v => (later v).decorates env

end MarksOnce

end

namespace Lower

variable {ok : CompileError → Prop} {inst : Instruction} {op : Opcode} {moves : Prop}

theorem groupMemoryRegister_neat (given : Equipped ok inst 1 0) :
    Neat ok [] (groupMemoryRegister inst) :=
  .bind (given.dst 0 (by decide)) fun _ => .pure _

section Declared

variable [Reporting ok]

theorem lowerStructuredGroupMemory_neat (given : Equipped ok inst 1 0) (stride count : UInt32) :
    Neat ok [] (lowerStructuredGroupMemory inst stride count) :=
  .bind (groupMemoryRegister_neat given) fun _ => .optional (.failWith rfl) <|
    declareGroupMemory_neat _ _ _

/-- A declaration needs the operands of its opcode, the declaration of a register one to name it. -/
theorem lowerRegisterDeclaration_neat (given : Provided ok inst) (known : inst.op? = some op) :
    Neat ok [] (lowerRegisterDeclaration inst op) := by
  have equipped := given.equips known
  have named (target : 1 ≤ op.destinations.length) (none_ : inst.dst = []) :
      ok (.fault (.declarationWithoutRegister inst.name)) := by
    refine given.lacking known (fun fits nothing => ?_) none_
    rw [← fits.length_dst, nothing] at target
    cases target
  unfold lowerRegisterDeclaration
  dsimp only
  split
  · exact .liftInterface (declareTemps_neat _)
  · exact .liftInterface (declareIndexableTemp_neat _ _)
  · exact .bind (.liftInterface (groupMemoryRegister_neat equipped)) fun _ =>
      .liftInterface (declareGroupMemory_neat _ _ _)
  · exact .liftInterface (lowerStructuredGroupMemory_neat equipped _ _)
  iterate 6 exact lowerInputDeclaration_neat (named (by decide))
  iterate 3 exact lowerOutputDeclaration_neat (named (by decide))
  · exact .liftInterface (lowerConstantBufferDeclaration_neat equipped)
  · exact .liftInterface (lowerSamplerDeclaration_neat equipped)
  iterate 3 exact .liftInterface (lowerResourceDeclaration_neat equipped)
  iterate 3 exact .liftInterface (lowerUavDeclaration_neat equipped)
  iterate 3 exact .liftInterface (.unsupported _)
  · exact .pure _

theorem lowerDeclaration_neat (given : Provided ok inst) : Neat ok [] (lowerDeclaration inst) := by
  unfold lowerDeclaration
  split
  · next known =>
    exact .ite (.liftInterface (lowerStageDeclaration_neat _ _))
      (lowerRegisterDeclaration_neat given known)
  · exact .pure ()

end Declared

theorem lowerCustomData_neat (inst : Instruction) : Neat ok [] (lowerCustomData inst) := by
  unfold lowerCustomData
  split
  · exact lowerImmediateConstants_neat _
  · exact .pure _

variable [Refusing ok]

theorem lowerVector_marksOnce (given : Provided ok inst)
    (target : Neat ok [] (destination inst 0)) :
    MarksOnce ok (inst.movesLiteral = true) (lowerVector inst) := by
  rw [lowerVector_eq]
  refine .bind target fun out => .ite (Neat.pure ()).marksOnce ?_
  exact .result (vectorResult_neat given _) (fun _ _ _ _ => vectorResult_origin)
    fun _ => writeOperand_neat _ _ _

theorem lowerDot_marksOnce (given : Equipped ok inst 1 2) (width : Nat) :
    MarksOnce ok moves (lowerDot inst width) := by
  refine .bind (given.dst 0 (by decide)) fun out => .bind (given.src 0 (by decide)) fun _ => ?_
  refine .bind (readOperand_neat _ _) fun a => .bind (given.src 1 (by decide)) fun _ => ?_
  refine .bind (readOperand_neat _ _) fun b => ?_
  exact .result (operate_routine rfl _ .anything).neat
    (fun _ _ _ _ ran => .inl ((operate_passes _ _ _).between ran)) fun _ => writeOperand_neat _ _ _

theorem lowerSinCos_marksOnce (given : Equipped ok inst 2 1) :
    MarksOnce ok moves (lowerSinCos inst) := by
  refine .bind (given.src 0 (by decide)) fun input => .before (.forInMem fun (f, n) mem _ => ?_)
    fun _ => (Neat.pure ()).marksOnce
  have below : n < 2 := by
    obtain is | is := List.mem_pair.1 mem <;> cases is <;> decide
  refine .bind (given.dst n below) fun out => .ite (Neat.pure _).marksOnce ?_
  refine .bind (readOperand_neat _ _) fun value => ?_
  exact .result (extended_routine _ _ .anything).neat
    (fun _ _ _ _ ran => .inl ((extended_passes _ _ _).between ran))
    fun _ => .bind (writeOperand_neat _ _ _) fun _ => .pure _

theorem lowerArithmetic_marksOnce (given : Provided ok inst)
    (target : Neat ok [] (destination inst 0)) :
    MarksOnce ok (inst.movesLiteral = true) (lowerArithmetic inst) := by
  unfold lowerArithmetic
  split
  case h_12 => exact lowerVector_marksOnce given target
  all_goals
    rename_i known
    have equipped := given.equips known
    have short := given.short known
  · exact (Neat.pure ()).marksOnce
  · exact lowerDot_marksOnce equipped _
  · exact lowerDot_marksOnce equipped _
  · exact lowerDot_marksOnce equipped _
  · exact lowerSinCos_marksOnce equipped
  · exact (lowerWideMultiply_neat equipped short _).marksOnce
  · exact (lowerWideMultiply_neat equipped short _).marksOnce
  · exact (lowerDivide_neat equipped short).marksOnce
  · exact (lowerCarry_neat equipped short rfl).marksOnce
  · exact (lowerCarry_neat equipped short rfl).marksOnce
  · exact (lowerSwap_neat (equipped.mono (Nat.le_refl _) (Nat.zero_le _)) short).marksOnce

/-- An instruction finds the operands that its kind asks for in the format of its opcode. -/
theorem lowerOperation_marksOnce (given : Provided ok inst) :
    MarksOnce ok (inst.movesLiteral = true) (lowerOperation inst) := by
  have special {f : Opcode.Family} (is : inst.family = f) (extra : Opcode) {n : Nat}
      (more : n ≤ extra.sources.length) :
      Equipped ok inst f.least.1 (if inst.op? = some extra then n else f.least.2) := by
    refine given.sources is fun op known family => ?_
    rw [known]
    simpa only [Option.some.injEq] using Opcode.special_sources family extra more
  unfold lowerOperation
  split
  all_goals rename_i is
  · exact (Neat.pure ()).marksOnce
  · exact (lowerVertexOutput_neat inst).marksOnce
  · refine (lowerAtomic_neat (given.sources is fun op known family => ?_)).marksOnce
    simpa only [known, Option.some.injEq] using Opcode.atomic_sources family
  · exact (lowerCounter_neat (given.least is)).marksOnce
  · exact (lowerBarrier_neat inst).marksOnce
  · exact (lowerBufferQuery_neat (given.least is)).marksOnce
  · exact (lowerBufferLoad_neat (special is .ldStructured (by decide))).marksOnce
  · exact (lowerBufferStore_neat (special is .storeStructured (by decide))).marksOnce
  · refine (lowerInterpolation_neat (given.sources is fun op known family => ?_)).marksOnce
    simpa only [known, Option.some.injEq] using Opcode.interpolate_sources family
  · exact (lowerSizeQuery_neat (given.least is)).marksOnce
  · exact (lowerLodQuery_neat (given.least is)).marksOnce
  · exact (lowerSampleCountQuery_neat (given.least is)).marksOnce
  · exact (lowerFetch_neat (special is .ldMs (by decide))).marksOnce
  · refine (lowerGather_neat (given.sources is fun op known family => ?_)).marksOnce
    simpa only [known, Option.some.injEq] using Opcode.gather_sources family
  · exact (lowerSample_neat given (given.least is)).marksOnce
  · exact (lowerTypedLoad_neat (given.least is)).marksOnce
  · exact (lowerTypedStore_neat (given.least is)).marksOnce
  iterate 12 exact lowerArithmetic_marksOnce given ((given.least is).dst 0 (by decide))
  iterate 6 exact (Neat.unsupported inst).marksOnce

theorem lowerByFamily_marksOnce (given : Provided ok inst) :
    MarksOnce ok (inst.movesLiteral = true) (lowerByFamily inst) := by
  have executes : MarksOnce ok (inst.movesLiteral = true) (lowerExecutable inst) := by
    unfold lowerExecutable
    split
    · exact (lowerControlFlow_neat given).marksOnce
    · exact (lowerOperation_marksOnce given).lift
  unfold lowerByFamily
  split
  · exact (Neat.liftDeclaring (lowerDeclaration_neat given)).marksOnce
  · exact (Neat.lift (lowerCustomData_neat inst)).marksOnce
  · exact (lowerHullPhase_neat inst).marksOnce
  · exact (Neat.lift (.unsupported inst)).marksOnce
  · exact (Neat.lift (.unsupported inst)).marksOnce
  · refine .get_bind (fun s => ?_) fun _ => rfl
    exact .ite executes (.bind (.lift (.failWith rfl)) fun _ => executes)

theorem lowerInstruction_marksOnce (given : Provided ok inst) :
    MarksOnce ok (inst.movesLiteral = true) (lowerInstruction inst) :=
  .before (lowerByFamily_marksOnce given) fun _ =>
    Neat.marksOnce <| by exact .modify (fun _ _ => rfl) fun _ => rfl

end Lower

end ShaderLowering
