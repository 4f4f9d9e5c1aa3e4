import ShaderLowering.Proofs.Lowering.Run
import ShaderLowering.Proofs.Typing.Decoded
import ShaderLowering.Proofs.Typing.Instructions

/-!
A whole run of the lowering. The invariant holds when the module is opened, each instruction keeps
it, and so does the entry point; by induction on the instructions it holds of the module that comes
out.
-/

namespace ShaderLowering

open Spirv (Id Module Builder)

variable {x : Shader} {v : VertexCounts} {m : Module} {s t : State}

namespace Spirv.Builder

theorem sound_empty (version : SpirvVersion) : (empty version).Sound where
  function := nofun
  block := nofun
  below := fun _ h => absurd h List.not_mem_nil
  distinct := fun _ h => absurd h List.not_mem_nil
  interned := fun _ _ _ _ _ _ h => absurd h List.not_mem_nil
  named := fun _ h => absurd h List.not_mem_nil

end Spirv.Builder

namespace Shader

theorem tables_initial {version : SpirvVersion} {stage : StageState}
    (start : StageState.initial? x.env.stage = some stage) :
    x.Tables m (.initial version stage) where
  temps := fun _ h => absurd h List.not_mem_nil
  ownTemps := List.nodup_nil
  housedTemps := fun _ h => absurd h List.not_mem_nil
  indexableTemps := Table.all_empty
  groupMemory := Table.all_empty
  immediates := nofun
  inputArray := nofun
  outputArray := nofun
  patchArray := nofun
  inputs := Table.all_empty
  outputs := Table.all_empty
  patchInputs := Table.all_empty
  patchOutputs := Table.all_empty
  builtins := fun _ h => absurd h List.not_mem_nil
  constantBuffers := Table.all_empty
  textures := Table.all_empty
  uavs := Table.all_empty
  uniformBlocks := fun _ h => absurd h List.not_mem_nil
  storageBlock := nofun
  counterBlock := nofun
  phases := by
    intro h is p hp
    unfold StageState.initial? at start
    split at start <;> cases start <;> cases is
    cases hp
  capabilities := fun _ h => absurd h List.not_mem_nil

theorem invariant_initial {version : SpirvVersion} {stage : StageState}
    (start : StageState.initial? x.env.stage = some stage) :
    x.Invariant (.initial x.env.stage) (.initial version stage) := by
  have ⟨kind, inputs, outputs⟩ : stage.kind = x.env.stage ∧ stage.inputVertices = 0 ∧
      stage.outputVertices = (VertexCounts.initial x.env.stage).outputs := by
    unfold StageState.initial? at start
    split at start <;> cases start <;> simp only [*] <;> exact ⟨rfl, rfl, rfl⟩
  exact
    { builder := Spirv.Builder.sound_empty version
      explains := ⟨fun _ h => absurd h List.not_mem_nil, fun _ h => absurd h List.not_mem_nil⟩
      tables := tables_initial start
      kind, inputs, outputs }

end Shader

namespace Lower

theorem begin_safe : Safe x v m (result begin) := by
  refine .readLower (.bindLower (.lift fresh_safe) fun extendedSet => .bindLower ?_ fun _ => ?_)
  · intro s _ t hs outgrown ran
    cases ran
    have grows : s.builder.module.Grows { s.builder.module with
        memoryModel := #[memoryModel]
        imports :=
          #[⟨.ordinary .extInstImport, none, some extendedSet, [.text extendedSetName]⟩] } :=
      ⟨fun _ h => h, fun _ h => h, fun _ h => h⟩
    have opened := hs.remodel grows s.builder.tables rfl rfl rfl
    exact ⟨opened.retable rfl rfl { opened.tables with }, grows, trivial⟩
  · refine .bindLower (.lift (requireCapability_safe _)) fun _ => ?_
    refine .bindLower (.lift fresh_safe) fun entryPoint => ?_
    refine .bindLower (.modifyLower (fun _ => rfl) (fun _ => rfl) fun _ _ tables => { tables with })
      fun _ => .bindLower (.lift (name_safe _ _)) fun _ => ?_
    split
    · exact .bindLower (beginBody_safe _) fun body => .modifyLower (fun _ => rfl) (fun _ => rfl)
        fun _ _ tables => { tables with }
    · exact .pureLower ()

theorem finish_safe (sees : x.Sees v) : Safe x v m (result finish) := by
  refine .getLower fun s => ?_
  extract_lets left close
  have close_safe : Safe x v m (result (close ())) :=
    .bindLower closeBody_safe fun _ => lowerEntryPoint_safe sees
  split
  · exact .bindLower (.lift (.failWith _)) fun _ => close_safe
  · exact close_safe

end Lower

namespace Lowering

variable {l n : Lowering}

/-- The invariant holds behind every instruction; by induction on those that are left. -/
theorem invariant_steps {done rest : List Instruction} (all : x.insts = done ++ rest)
    (env : l.environment = x.env) (hs : x.Invariant (.after x.env.stage done) l.state)
    (ran : l.steps rest = .ok n) : n.environment = x.env ∧ x.Invariant x.counts n.state := by
  induction rest generalizing done l with
  | nil =>
    cases ran
    rw [List.append_nil] at all
    exact ⟨env, by rwa [Shader.counts, all]⟩
  | cons inst rest ih =>
    obtain ⟨k, stepped, ran⟩ := steps_cons.1 ran
    obtain ⟨lowered, env'⟩ := step_eq_ok.1 stepped
    rw [env] at lowered
    have hk := Lower.lowerInstruction_note ⟨done, rest, all, rfl⟩ hs lowered
    have all' : x.insts = (done ++ [inst]) ++ rest := by
      rw [all, List.append_assoc]
      rfl
    refine ih all' (env'.trans env) ?_ ran
    rwa [VertexCounts.after, List.foldl_append]

end Lowering

/-- The shader of the first instructions. -/
def Shader.upTo (x : Shader) (done : List Instruction) (first : done <+: x.insts) : Shader where
  env := x.env
  insts := done
  signed inst mem := x.signed inst (first.subset mem)
  proper := x.proper

/-- Every state on the way fits the shader up to there. -/
theorem Lowering.invariant_upTo {first l : Lowering} {done : List Instruction}
    (prefix_ : done <+: x.insts) (started : start x.env = .ok first)
    (ran : first.steps done = .ok l) :
    (x.upTo done prefix_).Invariant (x.upTo done prefix_).counts l.state := by
  let y := x.upTo done prefix_
  obtain ⟨stage, initial, begun, env⟩ := start_eq_ok.1 started
  have opened : y.Invariant (.initial y.env.stage) first.state :=
    (Lower.begin_safe (x := y) _ () _ (Shader.invariant_initial initial) (.refl _) begun).1
  have all : y.insts = [] ++ done := rfl
  exact (invariant_steps all env opened ran).2

/-- What comes out of the lowering fits the shader. -/
theorem Shader.invariant {l : Lowering} (lowered : lowerInstructions x.env x.insts = .ok l) :
    x.Invariant x.counts l.state := by
  obtain ⟨first, last, started, stepped, closed⟩ := lowerInstructions_eq_ok.1 lowered
  obtain ⟨stage, start, begun, env⟩ := Lowering.start_eq_ok.1 started
  have hs := (Lower.begin_safe _ () _ (invariant_initial start) (.refl _) begun).1
  have all : x.insts = [] ++ x.insts := rfl
  obtain ⟨env', hs⟩ := Lowering.invariant_steps all env hs stepped
  obtain ⟨finished, _⟩ := Lowering.run_eq_ok.1 (Lowering.close_eq_ok.1 closed)
  rw [env'] at finished
  exact (Lower.finish_safe (.inr rfl) _ () _ hs (.refl _) finished).1

/-- A program compiles if its lowering can be evaluated, with any property of it that can be. -/
theorem exists_compile (program : Program) (entries : SignatureEntries) (options : Options)
    (property : ∀ insts, program.instructions = .ok insts → Lowering → Bool)
    (evaluates : (match decoded : program.instructions with
      | .error _ => none
      | .ok insts =>
        (lowerInstructions (program.environment insts entries options) insts).toOption.map
          (property insts decoded)) = some true) :
    ∃ artifact insts l, compile program entries options = .ok artifact ∧
      lowerInstructions (program.environment insts entries options) insts = .ok l ∧
      artifact = l.artifact ∧
      ∃ decoded : program.instructions = .ok insts, property insts decoded l = true := by
  split at evaluates
  · cases evaluates
  · next insts decoded =>
    cases lowered : lowerInstructions (program.environment insts entries options) insts with
    | error e =>
      rw [lowered] at evaluates
      cases evaluates
    | ok l =>
      rw [lowered] at evaluates
      exact ⟨l.artifact, insts, l, compile_eq_ok.2 ⟨insts, l, decoded, lowered, rfl⟩, lowered, rfl,
        decoded, Option.some.inj evaluates⟩

end ShaderLowering
