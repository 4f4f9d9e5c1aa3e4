import ShaderLowering.Lowering.Register

/-!
Built-in variables: their shapes, and access to them. A built-in is declared when it is first
used, once for each storage class.
-/

namespace ShaderLowering.Lower

open Spirv

/-- Element type and array length of a built-in; a length of zero means no array. -/
def builtinShape (analysis : Analysis) (builtin : BuiltIn) (storage : StorageClass) :
    VectorType × Nat :=
  let counts := if storage = .input then analysis.inputs else analysis.outputs
  match builtin with
  | .position | .fragCoord => (float4, 0)
  | .frontFacing => (.single .bool, 0)
  | .sampleMask => (.single .i32, 1)
  | .fragDepth => (.single .f32, 0)
  | .globalInvocationId | .workgroupId | .localInvocationId => (⟨.u32, 3⟩, 0)
  | .localInvocationIndex => (.single .u32, 0)
  | .tessCoord => (⟨.f32, 3⟩, 0)
  | .tessLevelOuter => (.single .f32, 4)
  | .tessLevelInner => (.single .f32, 2)
  | .clipDistance => (.single .f32, max counts.clip 1)
  | .cullDistance => (.single .f32, max counts.cull 1)
  | _ => (.single .i32, 0)

/-- Whether a built-in has a value for every vertex of the input primitive. -/
def isPerVertex (stage : ShaderStage) (builtin : BuiltIn) (storage : StorageClass) : Bool :=
  storage = .input && (stage = .geometry || stage = .hull) &&
    (builtin = .position || builtin = .clipDistance || builtin = .cullDistance)

/-- The variable of a built-in. -/
def builtinVariable (builtin : BuiltIn) (storage : StorageClass) : Emission BuiltinVariable := do
  match (← .state).builtins.lookup (builtin, storage) with
  | some found => return found
  | none =>
    let stage := (← read).stage
    let (type, length) := builtinShape (← read).analysis builtin storage
    let vertices ← if isPerVertex stage builtin storage then inputVertexCount else pure 0
    let element ← vectorType type
    let array ← arrayOf element length
    let pointee ← arrayOf array vertices
    let id ← newVariable pointee storage none
    decorateBuiltin id builtin
    if stage = .pixel ∧ storage = .input ∧ type.scalar.isInteger then
      decorate id .flat []
    if builtin = .tessLevelOuter ∨ builtin = .tessLevelInner then
      decorate id .patch []
    match builtin with
    | .clipDistance => requireCapability .clipDistance
    | .cullDistance => requireCapability .cullDistance
    | .sampleId => requireCapability .sampleRateShading
    | _ => pure ()
    name id builtin.name
    let made : BuiltinVariable := { id, type, length, vertices }
    .note fun s => { s with builtins := ((builtin, storage), made) :: s.builtins }
    return made

/-- The place of a built-in, of one vertex and array element as far as it has such. -/
def builtinPointer (builtin : BuiltIn) (storage : StorageClass) (vertex? element? : Option Id) :
    Emission Pointer := do
  let found ← builtinVariable builtin storage
  let vertex := if 0 < found.vertices then vertex?.toList else []
  let element := if 0 < found.length then element?.toList else []
  chain found.type storage found.id (vertex ++ element)

/-- The value of an input built-in. -/
def loadBuiltin (builtin : BuiltIn) (vertex? element? : Option Id) : Emission Value := do
  load (← builtinPointer builtin .input vertex? element?)

/-- The number of the invocation, as an unsigned word. -/
def invocationId : Emission Id := do
  let value ← loadBuiltin .invocationId none none
  return (← bitcast value .u32).id

end ShaderLowering.Lower
