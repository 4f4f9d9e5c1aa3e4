import ShaderLowering.Lowering

/-!
Compiling a shader from start to end: from a container, or from a program with the entries of its
signatures.
-/

namespace ShaderLowering

/-- The interpolation mode of every input that a pixel shader declares; the last one for a
register counts. -/
def declaredInterpolation (insts : List Instruction) : List (UInt32 × Interpolation) :=
  insts.filterMap fun inst =>
    match inst.op? with
    | some .dclInputPs | some .dclInputPsSgv | some .dclInputPsSiv =>
      (inst.dst.head?.bind (·.index? 0)).map fun reg => (reg, .ofCode inst.interpolation)
    | _ => none

/-- The entries of a shader's signature chunks. -/
structure SignatureEntries where
  inputs : List SignatureEntry
  outputs : List SignatureEntry
  /-- Patch constants, of hull and domain shaders. -/
  patch : List SignatureEntry
deriving DecidableEq, Repr

/-- Lowers instructions from start to end. -/
def lowerInstructions (environment : Environment) (insts : List Instruction) :
    Except CompileError Lowering := do
  let l ← Lowering.start environment
  let l ← l.steps insts
  l.close

/-- What is fixed for a shader with given instructions. -/
def Program.environment (program : Program) (insts : List Instruction)
    (entries : SignatureEntries) (options : Options) : Environment :=
  let inputs :=
    (Signature.ofEntries entries.inputs).withInterpolation (declaredInterpolation insts)
  let outputs := Signature.ofEntries entries.outputs
  { stage := program.stage, options, inputs, outputs
    patch := .ofEntries entries.patch, analysis := .ofProgram insts inputs outputs }

/-- Compiles a program. -/
def compile (program : Program) (entries : SignatureEntries) (options : Options) :
    Except CompileError Artifact :=
  match program.instructions with
  | .error e => .error (.malformed e)
  | .ok insts =>
    (lowerInstructions (program.environment insts entries options) insts).map Lowering.artifact

/-- The entries of a signature chunk; none if there is no such chunk. -/
def Container.entries (c : Container) (id : FourCC) : Except ContainerError (List SignatureEntry) :=
  (c.signature? id).getD (.ok [])

/-- Compiles the shader in a container. -/
def compileContainer (bytes : Bytes) (options : Options) : Except CompileError Artifact := do
  let container ← (Container.parse bytes).mapError .container
  let program ← (Program.ofContainer container).mapError .program
  let entries (id : FourCC) := (container.entries id).mapError .container
  let inputs ← entries .isgn
  let outputs ← entries .osgn
  let patch ← entries .pcsg
  compile program { inputs, outputs, patch } options

end ShaderLowering
