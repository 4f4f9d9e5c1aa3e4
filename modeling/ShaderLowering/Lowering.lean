import ShaderLowering.Lowering.EntryPoint
import ShaderLowering.Lowering.Instruction

/-!
A shader in the course of being lowered. `start` opens the module, `step` lowers one instruction,
and `finish` adds the entry point and gives the artifact. A step that fails leaves a lowering
behind that can still be asked how many constructs are open.
-/

namespace ShaderLowering

structure Lowering where
  environment : Environment
  state : State

namespace State

/-- The state in front of everything. -/
def initial (version : SpirvVersion) (stage : StageState) : State :=
  { builder := .empty version, extendedSet := 0, globals := [], capabilities := []
    extensions := [], uniformBlocks := [], storageBlock? := none, counterBlock? := none
    entryPoint := 0, stage, body? := none, inFunction := false, constructs := []
    lastOpcode? := none, temps := #[], indexableTemps := .empty, groupMemory := .empty
    immediateConstants? := none, inputArray? := none, outputArray? := none, patchArray? := none
    inputs := .empty, outputs := .empty, patchInputs := .empty, patchOutputs := .empty
    builtins := [], constantBuffers := .empty, samplers := .empty, textures := .empty
    uavs := .empty, slots := .empty }

end State

namespace Lower

open Spirv

/-- The extended instruction set that lowered shaders import. -/
def extendedSetName : String := "GLSL.std.450"

/-- Numbers of the logical addressing model and of the GLSL memory model. -/
def memoryModel : Instr := .plain .memoryModel [.word 0, .word 1]

/-- Opens the module: the extended set takes the first id, the entry point the second. Stages with
one body open it here; a hull shader opens one with each phase. -/
def begin : Lower Unit := do
  let env ← read
  let extendedSet ← fresh
  modify fun s =>
    { s with
      extendedSet
      builder.module.memoryModel := #[memoryModel]
      builder.module.imports :=
        #[⟨.ordinary .extInstImport, none, some extendedSet, [.text extendedSetName]⟩] }
  requireCapability .shader
  let entryPoint ← fresh
  modify fun s => { s with entryPoint }
  name entryPoint env.options.entryPoint
  if env.stage ≠ .hull then
    let body ← beginBody s!"{env.stage.abbreviation}_main"
    modify fun s => { s with body? := some body }

/-- Closes the last body and adds the entry point. -/
def finish : Lower Unit := do
  let left := (← get).constructs.length
  if left ≠ 0 then failWith (.constructsLeftOpen left "the shader")
  closeBody
  lowerEntryPoint

end Lower

namespace Lowering

/-- Runs a lowering step. -/
def run (l : Lowering) (step : Lower Unit) : Except CompileError Unit × Lowering :=
  let (result, state) := (step l.environment).run l.state
  (result, { l with state })

/-- A lowering with an open module. -/
def start (environment : Environment) : Except CompileError Lowering :=
  match StageState.initial? environment.stage with
  | none => .error (.unsupportedStage environment.stage)
  | some stage =>
    let opened := run ⟨environment, .initial environment.options.version stage⟩ Lower.begin
    opened.1.map fun _ => opened.2

/-- Lowers one instruction. -/
def step (l : Lowering) (inst : Instruction) : Except CompileError Unit × Lowering :=
  l.run (Lower.lowerInstruction inst)

/-- Lowers instructions up to the first that fails. -/
def steps : Lowering → List Instruction → Except CompileError Lowering
  | l, [] => .ok l
  | l, inst :: rest =>
    match l.step inst with
    | (.ok _, l) => steps l rest
    | (.error e, _) => .error e

/-- How many control-flow constructs are open. -/
def depth (l : Lowering) : Nat :=
  l.state.constructs.length

/-- What the state amounts to once the entry point is there. -/
def artifact (l : Lowering) : Artifact :=
  { stage := l.environment.stage
    entryPoint := l.environment.options.entryPoint
    code := l.state.builder.words
    slots := l.state.slots.values
    interface := Lower.interfaceSlots l.environment l.state }

/-- Ends the shader. -/
def close (l : Lowering) : Except CompileError Lowering :=
  match l.run Lower.finish with
  | (.ok _, l) => .ok l
  | (.error e, _) => .error e

def finish (l : Lowering) : Except CompileError Artifact :=
  l.close.map artifact

end Lowering

end ShaderLowering
