import ShaderLowering.CommandLine

/-!
The command on a disk.
-/

namespace ShaderLowering

/-- What the system says of a failed access. -/
def FileFault.ofError (e : IO.Error) : FileFault :=
  match e with
  | .noFileOrDirectory _ code _ => ⟨"No such file or directory", code.toNat⟩
  | .noSuchThing _ code _ => ⟨"No such file or directory", code.toNat⟩
  | .permissionDenied _ code _ => ⟨"Permission denied", code.toNat⟩
  | .inappropriateType _ code _ =>
    ⟨if code = 20 then "Not a directory" else "Is a directory", code.toNat⟩
  | e => ⟨e.toString, 5⟩

/-- Runs an access and catches its failure. -/
def catchFault {α : Type} (act : IO α) : IO (Except FileFault α) := do
  match ← act.toBaseIO with
  | .ok a => return .ok a
  | .error e => return .error (.ofError e)

/-- Access to the files of the disk. -/
def diskAccess : FileAccess IO where
  read path := catchFault do return (← IO.FS.readBinFile path).data.toList
  write path bytes := catchFault (IO.FS.writeBinFile path ⟨bytes.toArray⟩)

end ShaderLowering

def main (args : List String) : IO UInt32 := do
  let outcome ← ShaderLowering.CommandLine.run ShaderLowering.diskAccess args
  IO.print outcome.stdout
  IO.eprint outcome.stderr
  return outcome.exitCode.toUInt32
