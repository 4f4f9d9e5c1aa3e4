import ShaderLowering.Compile
import ShaderLowering.Proofs.WellFormed.Entry

/-!
Modules are well formed. Every instruction leaves a state between instructions behind, so all that
a successful compilation writes is sealed in the end: every function is well formed, and the
switches have the literals that the program declares.
-/

namespace ShaderLowering

variable {insts rest : List Instruction} {inst : Instruction} {total : List (List UInt32)}
  {env : Environment} {s t : State}

theorem declaredLiterals_skip (h : inst.family ≠ .controlFlow) :
    declaredLiterals (inst :: rest) = declaredLiterals rest := by
  refine declaredLiterals_other ?_
  rw [Instruction.control?, if_neg h]
  exact nofun

/-- An instruction that leaves control alone says nothing about switches. -/
theorem State.Standing.skip (h : s.Standing (inst :: rest) total)
    (notControl : inst.family ≠ .controlFlow) : s.Standing rest total := by
  have none_ : inst.concernsCases = false := by
    rw [Instruction.concernsCases, Instruction.control?, if_neg notControl]
  cases h with
  | outside h =>
    refine .outside ⟨h.rest, h.inFunction, ?_⟩
    rw [← declaredLiterals_skip notControl]
    exact h.closed
  | @inside d _ describes inFunction sound earlier expected =>
    refine .inside describes inFunction sound earlier ?_
    rw [sound.forecast_other none_ (.of_eq rfl) rfl, ← declaredLiterals_skip notControl, expected]

/-- Only the builder, the constructs and whether a body is open matter. -/
theorem State.Standing.of_same (h : s.Standing insts total) (builder : t.builder = s.builder)
    (constructs : t.constructs = s.constructs) (inFunction : t.inFunction = s.inFunction) :
    t.Standing insts total := by
  cases h with
  | outside h =>
    refine .outside ⟨⟨?_, ?_, constructs.trans h.rest.constructs⟩,
      inFunction.trans h.inFunction, ?_⟩
    all_goals rw [builder]
    · exact h.rest.function?
    · exact h.rest.block?
    · exact h.closed
  | @inside d _ describes inside sound earlier expected =>
    exact .inside (d := { d with last? := t.lastOpcode?.bind Opcode.ofCode? })
      ⟨builder ▸ describes.builder.withLast _, constructs.trans describes.constructs, rfl⟩
      (inFunction.trans inside) sound earlier expected

/-- Outside of functions, what the module says in front of them does not matter either. -/
theorem State.Outside.emits_of_same {u : State} (h : s.Outside insts total) (added : Emits u t)
    (function? : u.builder.function? = s.builder.function?)
    (block? : u.builder.block? = s.builder.block?)
    (functions : u.builder.module.functions = s.builder.module.functions)
    (constructs : u.constructs = s.constructs) (inFunction : u.inFunction = s.inFunction) :
    t.Outside insts total := by
  have same : u.Outside insts total :=
    ⟨⟨function?.trans h.rest.function?, block?.trans h.rest.block?,
      constructs.trans h.rest.constructs⟩, inFunction.trans h.inFunction, functions ▸ h.closed⟩
  exact same.emits added

namespace Lower

/-- Every instruction leads from one state between instructions to the next. -/
theorem lowerInstruction_standing (h : s.Standing (inst :: rest) total)
    (run : result (lowerInstruction inst) env s = (.ok (), t)) : t.Standing rest total := by
  obtain ⟨_, u, lowered, noted⟩ := result_bind_eq_ok.1 run
  by_cases phase : inst.family = .hullShaderPhase
  · have notControl : inst.family ≠ .controlFlow := by
      rw [phase]
      exact nofun
    have lowered : result (lowerHullPhase inst) env s = (.ok (), u) := by
      unfold lowerByFamily at lowered
      rw [phase] at lowered
      exact lowered
    cases noted
    exact ((lowerHullPhase_standing h lowered).skip notControl).of_same rfl rfl rfl
  · cases h with
    | outside h =>
      have notControl : inst.family ≠ .controlFlow := by
        intro control
        have inside := ((lowerByFamily_controlFlow control).1 lowered).1
        rw [h.inFunction] at inside
        cases inside
      have added := h.emits (lowerByFamily_emits notControl phase lowered)
      cases noted
      exact ((State.Standing.outside added).skip notControl).of_same rfl rfl rfl
    | @inside d literals describes inFunction sound earlier expected =>
      obtain ⟨e, lowers, he, setting⟩ := lowerInstruction_describes describes phase run
      refine .inside he (setting.inFunction.trans inFunction) (sound.lowers lowers)
        (lowers.sameFunction.earlier ▸ earlier) ?_
      rw [List.append_assoc, sound.forecast_lowers lowers, ← List.append_assoc, expected]

theorem begin_standing (fresh : s.Outside insts total)
    (run : result begin env s = (.ok (), t)) : t.Standing insts total := by
  unfold begin at run
  rw [result_read_bind] at run
  obtain ⟨_, s₁, taken, run⟩ := result_bind_eq_ok.1 run
  have h₁ := fresh.emits (emits_of_result taken)
  rw [result_modify_bind] at run
  obtain ⟨_, s₂, required, run⟩ := result_bind_eq_ok.1 run
  have h₂ := h₁.emits_of_same (emits_of_result required) rfl rfl rfl rfl rfl
  obtain ⟨_, s₃, taken, run⟩ := result_bind_eq_ok.1 run
  have h₃ := h₂.emits (emits_of_result taken)
  rw [result_modify_bind] at run
  obtain ⟨_, s₄, named, run⟩ := result_bind_eq_ok.1 run
  have h₄ := h₃.emits_of_same (emits_of_result named) rfl rfl rfl rfl rfl
  split at run
  · obtain ⟨body, s₅, opened, run⟩ := result_bind_eq_ok.1 run
    have h₅ := beginBody_standing h₄ opened
    cases run
    exact h₅.of_same rfl rfl rfl
  · cases run
    exact .outside h₄

theorem finish_sealed (h : s.Standing [] total) (run : result finish env s = (.ok (), t)) :
    Sealed t.builder.module.functions total := by
  unfold finish at run
  rw [result_get_bind] at run
  obtain ⟨_, run⟩ := result_check.1 run
  obtain ⟨_, u, closed, run⟩ := result_bind_eq_ok.1 run
  have outside := closeBody_outside h closed
  obtain ⟨literals, sealed, expected⟩ := outside.closed
  rw [declaredLiterals, List.append_nil] at expected
  exact expected ▸ lowerEntryPoint_sealed outside.rest sealed run

end Lower

namespace Lowering

variable {l m : Lowering}

theorem start_standing (h : start env = .ok l) :
    l.state.Standing insts (declaredLiterals insts) := by
  obtain ⟨stage, _, begun, _⟩ := start_eq_ok.1 h
  refine Lower.begin_standing ⟨⟨rfl, rfl, rfl⟩, rfl, [], ⟨fun f hf => ?_, rfl⟩, rfl⟩ begun
  exact absurd hf (Array.not_mem_empty f)

theorem steps_standing (h : l.state.Standing insts total) (run : l.steps insts = .ok m) :
    m.state.Standing [] total := by
  induction insts generalizing l with
  | nil =>
    cases run
    exact h
  | cons inst rest ih =>
    obtain ⟨k, stepped, run⟩ := steps_cons.1 run
    exact ih (Lower.lowerInstruction_standing h (step_eq_ok.1 stepped).1) run

end Lowering

/-- All functions of a lowered shader are sealed. -/
theorem lowerInstructions_sealed {l : Lowering} (h : lowerInstructions env insts = .ok l) :
    Sealed l.state.builder.module.functions (declaredLiterals insts) := by
  obtain ⟨first, last, started, stepped, closed⟩ := lowerInstructions_eq_ok.1 h
  have standing := Lowering.steps_standing (Lowering.start_standing started) stepped
  exact Lower.finish_sealed standing (Lowering.run_eq_ok.1 (Lowering.close_eq_ok.1 closed)).1

theorem nodup_eraseDups : ∀ xs : List UInt32, xs.eraseDups.Nodup
  | [] => List.nodup_nil
  | x :: rest => by
    rw [List.eraseDups_cons]
    refine List.nodup_cons.2 ⟨fun h => ?_, nodup_eraseDups (rest.filter fun y => !y == x)⟩
    have := (List.mem_filter.1 (List.mem_eraseDups.1 h)).2
    simp at this
termination_by xs => xs.length
decreasing_by
  exact Nat.lt_succ_of_le (List.length_filter_le _ _)

theorem nodup_of_mem_declaredLiterals {literals : List UInt32}
    (h : literals ∈ declaredLiterals insts) : literals.Nodup := by
  induction insts with
  | nil => exact absurd h List.not_mem_nil
  | cons inst rest ih =>
    rw [declaredLiterals] at h
    split at h
    · rcases List.mem_cons.1 h with rfl | h
      · exact nodup_eraseDups _
      · exact ih h
    · exact ih h

/-- What a successful compilation yields is the module of a lowering all of whose functions are
well formed. Its switches, in the order of functions and blocks, have the literals that the
program declares for them, each once and in the order of first declaration. -/
theorem compile_wellFormed {program : Program} {entries : SignatureEntries} {options : Options}
    {artifact : Artifact} (h : compile program entries options = .ok artifact) :
    ∃ insts l, program.instructions = .ok insts ∧
      lowerInstructions (program.environment insts entries options) insts = .ok l ∧
      artifact = l.artifact ∧
      (∀ f ∈ l.state.builder.module.functions, f.WellFormed) ∧
      l.state.builder.module.switches.map Spirv.Instr.literals = declaredLiterals insts ∧
      ∀ i ∈ l.state.builder.module.switches, i.literals.Nodup := by
  obtain ⟨insts, l, decoded, lowered, rfl⟩ := compile_eq_ok.1 h
  have sealed := lowerInstructions_sealed lowered
  refine ⟨insts, l, decoded, lowered, rfl, sealed.wellFormed, sealed.literals, fun i hi => ?_⟩
  have declared : i.literals ∈ declaredLiterals insts := by
    rw [← sealed.literals]
    exact List.mem_map_of_mem hi
  exact nodup_of_mem_declaredLiterals declared

/-- A pixel shader with a switch in a loop. The literal of its last case is taken already. -/
def switchInLoop : Program :=
  .assume [0x50, 22, 0x01000030, 0x0300004c, 0x00004001, 1, 0x03000006, 0x00004001, 2, 0x01000002,
    0x03000006, 0x00004001, 1, 0x0100000a, 0x03000006, 0x00004001, 2, 0x01000017, 0x01000002,
    0x01000016, 0x0100003e, 0x0100003e]

theorem compile_wellFormed_switchInLoop :
    ∃ artifact, compile switchInLoop ⟨[], [], []⟩ .default = .ok artifact ∧
      ∃ insts l, switchInLoop.instructions = .ok insts ∧
        lowerInstructions (switchInLoop.environment insts ⟨[], [], []⟩ .default) insts = .ok l ∧
        artifact = l.artifact ∧
        (∀ f ∈ l.state.builder.module.functions, f.WellFormed) ∧
        l.state.builder.module.switches.map Spirv.Instr.literals = declaredLiterals insts ∧
        ∀ i ∈ l.state.builder.module.switches, i.literals.Nodup := by
  have succeeds : (compile switchInLoop ⟨[], [], []⟩ .default).isOk = true := by decide +kernel
  cases h : compile switchInLoop ⟨[], [], []⟩ .default with
  | error e =>
    rw [h] at succeeds
    cases succeeds
  | ok artifact => exact ⟨artifact, rfl, compile_wellFormed h⟩

end ShaderLowering
