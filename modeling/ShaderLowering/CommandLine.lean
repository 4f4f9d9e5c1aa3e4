import ShaderLowering.CommandLine.Arguments
import ShaderLowering.CommandLine.Summary
import ShaderLowering.Compile

/-!
The command: it reads a container from a file, compiles the shader in it, writes the module to
another file, and prints a summary. Files are reached through a `FileAccess`, so the command runs
on a disk as well as on a directory that is a value.
-/

namespace ShaderLowering

/-- Why a file cannot be read or written, with the number that the system gives it. -/
structure FileFault where
  text : String
  code : Nat
deriving DecidableEq, Repr, Inhabited

def FileFault.message (f : FileFault) : String :=
  s!"{f.text} (os error {f.code})"

/-- How files are read and written. -/
structure FileAccess (m : Type → Type) where
  read : (path : String) → m (Except FileFault Bytes)
  write : (path : String) → Bytes → m (Except FileFault Unit)

namespace CommandLine

/-- What a run of the command leaves behind besides files. -/
structure Outcome where
  exitCode : UInt8
  stdout : String
  stderr : String
deriving DecidableEq, Repr, Inhabited

namespace Outcome

def success (stdout : String) : Outcome := ⟨0, stdout, ""⟩

def failure (text : String) : Outcome := ⟨1, "", s!"error: {text}\n"⟩

end Outcome

/-- A compile error and the error that it wraps, if any, from the outside to the inside. -/
def causes (e : CompileError) : List String :=
  e.message :: match e with
    | .container inner => [inner.message]
    | .program inner => [inner.message]
    | .malformed inner => [inner.message]
    | _ => []

/-- A failure at a file, with its causes behind it. -/
def failedTo (verb path : String) (causes : List String) : Outcome :=
  .failure (": ".intercalate (s!"failed to {verb} {path}" :: causes))

/-- Compiles the container in a file and writes the module. -/
def compileFile {m : Type → Type} [Monad m] (files : FileAccess m) (input output : String)
    (options : Options) : m Outcome := do
  match ← files.read input with
  | .error fault => return failedTo "read" input [fault.message]
  | .ok bytes =>
    match compileContainer bytes options with
    | .error e => return failedTo "compile" input (causes e)
    | .ok artifact =>
      match ← files.write output artifact.bytes with
      | .error fault => return failedTo "write" output [fault.message]
      | .ok () => return .success (summary artifact ++ s!"wrote {output}\n")

/-- Runs the command. -/
def run {m : Type → Type} [Monad m] (files : FileAccess m) (args : List String) : m Outcome := do
  match Request.ofArguments args with
  | .error e => return .failure e.message
  | .ok .help => return .success usage
  | .ok (.compile input output options) => compileFile files input output options

end CommandLine

end ShaderLowering
