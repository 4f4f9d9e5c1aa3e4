import ShaderLowering.Binding
import ShaderLowering.Bytes
import ShaderLowering.Signature

/-!
What lowering a shader yields: the module's words, and what a caller has to know to use it.
-/

namespace ShaderLowering

/-- What the compiled shader consumes or produces under a semantic. -/
structure InterfaceEntry where
  register : UInt32
  mask : WriteMask
  name : String
  index : UInt32
  systemValue : SystemValue
deriving DecidableEq, Repr, Inhabited

/-- Which registers are bound to locations, as bit masks, and what the signatures say of the
declared ones. -/
structure InterfaceSlots where
  inputSlots : UInt32
  outputSlots : UInt32
  patchSlots : UInt32
  inputs : List InterfaceEntry
  outputs : List InterfaceEntry
deriving DecidableEq, Repr, Inhabited

structure Artifact where
  stage : ShaderStage
  entryPoint : String
  /-- The words of the module, header included. -/
  code : List UInt32
  /-- The descriptors that the module expects, by increasing binding. -/
  slots : List ResourceSlot
  interface : InterfaceSlots
deriving Repr

/-- The module as it is stored in files. -/
def Artifact.bytes (a : Artifact) : Bytes :=
  Bytes.ofWords a.code

end ShaderLowering
