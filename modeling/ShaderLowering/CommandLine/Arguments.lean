import ShaderLowering.Options
import ShaderLowering.Text.Quoted

/-!
Command-line arguments. `Request.ofArguments` reads them from left to right and stops at the first
that makes no sense; what it says then is `UsageError.message`.
-/

namespace ShaderLowering.CommandLine

/-- What the command prints about itself. -/
def usage : String :=
  "\n".intercalate
    ["dxbc_to_spirv: compile a DXBC (SM4/SM5) shader to SPIR-V",
     "",
     "USAGE:",
     "    cargo run -p aero-dxbc-spirv --bin dxbc_to_spirv -- <path.dxbc> [-o out.spv] [FLAGS]",
     "",
     "FLAGS:",
     "    -o, --output PATH       Output path (default: input with a .spv extension)",
     "    --base-vertex           Report SV_VertexID relative to the base vertex",
     "    --clamp-lod             Clamp ld/resinfo mip levels to the view's level count",
     "    --zero-init-tgsm        Zero thread-group shared memory at compute entry",
     "    --spirv-version X.Y     Target SPIR-V version (default 1.3)",
     "    --entry NAME            Entry point name (default main)",
     "    --strip-names           Omit OpName debug names",
     "",
     "Set RUST_LOG=aero_dxbc_spirv=trace for per-instruction logs.",
     ""]

/-- Why a text is not a number below 256. -/
inductive NumberFault
  | empty
  | invalidDigit
  | tooLarge
deriving DecidableEq, Repr, Inhabited

def NumberFault.message : NumberFault → String
  | empty => "cannot parse integer from empty string"
  | invalidDigit => "invalid digit found in string"
  | tooLarge => "number too large to fit in target type"

inductive UsageError
  | missingValue (option : String)
  | versionWithoutDot (text : String)
  | majorVersion (text : String) (fault : NumberFault)
  | minorVersion (text : String) (fault : NumberFault)
  | unsupportedVersion (major minor : Nat)
  | unknownOption (text : String)
  | secondInput (text : String)
  | noInput
deriving DecidableEq, Repr, Inhabited

def UsageError.message : UsageError → String
  | missingValue option => s!"{option} requires a value"
  | versionWithoutDot text => s!"invalid --spirv-version value {Quoted.text text}"
  | majorVersion text fault =>
    s!"invalid SPIR-V major version {Quoted.text text}: {fault.message}"
  | minorVersion text fault =>
    s!"invalid SPIR-V minor version {Quoted.text text}: {fault.message}"
  | unsupportedVersion major minor => s!"unsupported SPIR-V version {major}.{minor}"
  | unknownOption text => s!"unknown option {Quoted.text text}\n\n{usage}"
  | secondInput text => s!"unexpected positional argument {Quoted.text text}\n\n{usage}"
  | noInput => s!"missing DXBC input path\n\n{usage}"

/-- Reads decimal digits behind a number that has been read so far. -/
def readDigits : (soFar : Nat) → List Char → Except NumberFault Nat
  | soFar, [] => .ok soFar
  | soFar, c :: rest =>
    if ¬c.isDigit then .error .invalidDigit
    else
      let n := 10 * soFar + (c.toNat - '0'.toNat)
      if 256 ≤ n then .error .tooLarge else readDigits n rest

/-- Reads a number below 256; a plus sign may stand in front. -/
def readByte : List Char → Except NumberFault Nat
  | [] => .error .empty
  | ['+'] => .error .invalidDigit
  | '+' :: digits => readDigits 0 digits
  | digits => readDigits 0 digits

/-- Reads a version: two numbers with a dot between them. Versions 1.0 to 1.6 exist. -/
def readVersion (text : String) : Except UsageError SpirvVersion := do
  let major := text.toList.takeWhile (· ≠ '.')
  let some minor := (text.toList.dropWhile (· ≠ '.')).tail? | throw (.versionWithoutDot text)
  let majorNumber ← (readByte major).mapError (.majorVersion (String.ofList major))
  let minorNumber ← (readByte minor).mapError (.minorVersion (String.ofList minor))
  if majorNumber ≠ 1 ∨ 6 < minorNumber then
    throw (.unsupportedVersion majorNumber minorNumber)
  return ⟨.ofNat majorNumber, .ofNat minorNumber⟩

/-- What the command line asks for. -/
inductive Request
  | help
  | compile (input output : String) (options : Options)
deriving DecidableEq, Repr

/-- What an argument that is an option stands for. -/
inductive Switch
  | help
  /-- Changes an option and takes no value. -/
  | flag (set : Options → Options)
  | output
  | version
  | entryPoint

def Switch.ofText? : String → Option Switch
  | "-h" | "--help" => some help
  | "-o" | "--output" => some output
  | "--base-vertex" => some (flag ({ · with subtractBaseVertex := true }))
  | "--clamp-lod" => some (flag ({ · with clampLod := true }))
  | "--zero-init-tgsm" => some (flag ({ · with zeroGroupMemory := true }))
  | "--strip-names" => some (flag ({ · with stripNames := true }))
  | "--spirv-version" => some version
  | "--entry" => some entryPoint
  | _ => none

/-- A path without the slashes and dots at its end that do not name anything, from its last
character to its first. -/
def trimmedBackwards : List Char → List Char
  | '/' :: rest => trimmedBackwards rest
  | '.' :: '/' :: rest => trimmedBackwards ('/' :: rest)
  | path => path
termination_by path => path.length

/-- The name of a file without its extension. A dot at the very front does not begin one. -/
def stem (name : List Char) : List Char :=
  let front := (name.reverse.dropWhile (· ≠ '.')).tail.reverse
  if front.isEmpty then name else front

/-- Where the module of an input goes if nothing else is said: beside it, under another extension.
A path that names no file is left as it is. -/
def modulePath (input : String) : String :=
  let path := trimmedBackwards input.toList.reverse
  let name := (path.takeWhile (· ≠ '/')).reverse
  let directory := (path.dropWhile (· ≠ '/')).reverse
  if name.isEmpty ∨ name = ['.'] ∨ name = ['.', '.'] then input
  else String.ofList (directory ++ stem name) ++ ".spv"

/-- What has been read of the arguments. -/
structure Arguments where
  input? : Option String
  output? : Option String
  options : Options

namespace Arguments

def empty : Arguments := ⟨none, none, .default⟩

/-- What the arguments ask for when there are no more. -/
def request (a : Arguments) : Except UsageError Request :=
  match a.input? with
  | none => .error .noInput
  | some input => .ok (.compile input (a.output?.getD (modulePath input)) a.options)

/-- Takes the value of an option. -/
def take (a : Arguments) (switch : Switch) (value : String) : Except UsageError Arguments :=
  match switch with
  | .output => .ok { a with output? := some value }
  | .version => (readVersion value).map fun version =>
    { a with options := { a.options with version } }
  | .entryPoint => .ok { a with options := { a.options with entryPoint := value } }
  | .help | .flag _ => .ok a

/-- Takes an argument that is no option: the input, of which there is one. -/
def takePositional (a : Arguments) (text : String) : Except UsageError Arguments :=
  if text.startsWith "-" then .error (.unknownOption text)
  else if a.input?.isSome then .error (.secondInput text)
  else .ok { a with input? := some text }

/-- Reads arguments behind those that have been read. -/
def read : Arguments → List String → Except UsageError Request
  | a, [] => a.request
  | a, text :: rest =>
    match Switch.ofText? text with
    | some .help => .ok .help
    | some (.flag set) => read { a with options := set a.options } rest
    | some switch =>
      match rest with
      | [] => .error (.missingValue text)
      | value :: rest =>
        match a.take switch value with
        | .ok a => read a rest
        | .error e => .error e
    | none =>
      match a.takePositional text with
      | .ok a => read a rest
      | .error e => .error e

end Arguments

def Request.ofArguments (args : List String) : Except UsageError Request :=
  Arguments.read .empty args

end ShaderLowering.CommandLine
