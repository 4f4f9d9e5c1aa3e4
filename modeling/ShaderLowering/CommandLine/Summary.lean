import ShaderLowering.Artifact
import ShaderLowering.Digest.Blake3
import ShaderLowering.Text.Quoted

/-!
What the command prints of a compiled shader: its stage, entry point and hash, the registers that
cross the interface, and its bindings.
-/

namespace ShaderLowering.CommandLine

/-- A number with blanks in front, as far as it needs them to be `width` wide. -/
def padded (width n : Nat) : String :=
  let digits := (toString n).toList
  String.ofList (List.replicate (width - digits.length) ' ' ++ digits)

/-- A word with all of its hexadecimal digits. -/
def wordText (w : UInt32) : String :=
  "0x" ++ Hex.text 8 w.toNat

def headLine (a : Artifact) : String :=
  s!"{a.stage.name} shader, entry {Quoted.text a.entryPoint}, {a.code.length} words, " ++
  s!"blake3 {Hex.ofBytes (Blake3.hash a.bytes)}"

def interfaceLine (i : InterfaceSlots) : String :=
  s!"inputs {wordText i.inputSlots} outputs {wordText i.outputSlots} " ++
  s!"patch {wordText i.patchSlots}"

def registerLine (letter : String) (e : InterfaceEntry) : String :=
  s!"  {letter}{e.register} WriteMask({e.mask.bits}) {e.name}{e.index} {e.systemValue.name}"

def bindingLine (s : ResourceSlot) : String :=
  s!"  [{padded 3 s.binding}] {s.kind.name} slot {s.slot} {s.dimension.name} " ++
  s!"stride {s.stride} stages StageMask({s.stages.text})"

def summaryLines (a : Artifact) : List String :=
  [headLine a, interfaceLine a.interface] ++
  a.interface.inputs.map (registerLine "v") ++
  a.interface.outputs.map (registerLine "o") ++
  ["bindings (set 0):"] ++
  a.slots.map bindingLine

def summary (a : Artifact) : String :=
  String.join ((summaryLines a).map (· ++ "\n"))

end ShaderLowering.CommandLine
