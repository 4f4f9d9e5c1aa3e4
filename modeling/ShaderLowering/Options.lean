/-!
What a caller may choose for one shader.
-/

namespace ShaderLowering

/-- A SPIR-V version. -/
structure SpirvVersion where
  major : UInt8
  minor : UInt8
deriving DecidableEq, Repr, Inhabited

/-- Whether a version is at least `major.minor`. -/
def SpirvVersion.atLeast (v : SpirvVersion) (major minor : UInt8) : Bool :=
  major < v.major || (v.major = major && minor ≤ v.minor)

structure Options where
  /-- Report vertex numbers relative to the draw's base vertex. Instance numbers are always
  relative to the base instance. -/
  subtractBaseVertex : Bool
  /-- Clamp the mip levels of fetches and size queries to those of the view. -/
  clampLod : Bool
  /-- Zero all thread group memory at the start of a dispatch. -/
  zeroGroupMemory : Bool
  version : SpirvVersion
  entryPoint : String
  stripNames : Bool
deriving DecidableEq, Repr, Inhabited

def Options.default : Options :=
  { subtractBaseVertex := false
    clampLod := false
    zeroGroupMemory := false
    version := ⟨1, 3⟩
    entryPoint := "main"
    stripNames := false }

end ShaderLowering
