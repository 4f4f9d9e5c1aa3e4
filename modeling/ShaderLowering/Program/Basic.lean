import ShaderLowering.Container.Basic

/-!
Programs: a version token, a length token, and the instruction tokens. The version token names the
stage and the shader model. `Program.ofTokens` checks the framing; a program may also be assembled
without that check, and then the length token is only ever used clipped to what is there.
-/

namespace ShaderLowering

inductive ShaderStage
  | vertex
  | pixel
  | geometry
  | hull
  | domain
  | compute
  /-- A program type outside the six stages. -/
  | unknown (programType : UInt32)
deriving DecidableEq, Repr, Inhabited

namespace ShaderStage

/-- Position in the order of the pipeline, which is the order of the binding ranges. -/
def index? : ShaderStage → Option Nat
  | vertex => some 0
  | hull => some 1
  | domain => some 2
  | geometry => some 3
  | pixel => some 4
  | compute => some 5
  | unknown _ => none

/-- The two letters in front of the names of a stage's functions. -/
def abbreviation : ShaderStage → String
  | vertex => "vs"
  | pixel => "ps"
  | geometry => "gs"
  | hull => "hs"
  | domain => "ds"
  | compute => "cs"
  | unknown _ => "unknown"

def name : ShaderStage → String
  | vertex => "vertex"
  | pixel => "pixel"
  | geometry => "geometry"
  | hull => "hull"
  | domain => "domain"
  | compute => "compute"
  | unknown programType => s!"unknown({programType})"

/-- The stage with a program type, the high half of the version token. -/
def ofProgramType (programType : UInt32) : ShaderStage :=
  match programType.toNat with
  | 0 => pixel
  | 1 => vertex
  | 2 => geometry
  | 3 => hull
  | 4 => domain
  | 5 => compute
  | _ => unknown programType

end ShaderStage

structure ShaderModel where
  major : UInt32
  minor : UInt32
deriving DecidableEq, Repr, Inhabited

/-- Splits a version token: minor version in bits 0 to 3, major version in bits 4 to 7, program
type in the high half. -/
def readVersionToken (token : UInt32) : ShaderStage × ShaderModel :=
  (.ofProgramType (token >>> 16), ⟨token >>> 4 &&& 0xf, token &&& 0xf⟩)

/-- Why no program could be framed. -/
inductive ProgramError
  | container (error : ContainerError)
  | noProgramChunk
  | misaligned (size : Nat)
  | tooShort (dwords : Nat)
  | declaredLength (declared available : Nat)
deriving Repr, Inhabited

namespace ProgramError

def message : ProgramError → String
  | container error => error.message
  | noProgramChunk => "container has neither a SHEX nor a SHDR chunk"
  | misaligned size => s!"program chunk is {size} bytes, not a whole number of dwords"
  | tooShort dwords =>
    s!"program is {dwords} dwords, too short for the version and length tokens"
  | declaredLength declared available =>
    s!"program declares {declared} dwords but the chunk holds {available}"

end ProgramError

structure Program where
  stage : ShaderStage
  model : ShaderModel
  /-- Version and length token included. -/
  tokens : List UInt32
deriving DecidableEq, Repr, Inhabited

namespace Program

/-- Takes tokens as a program without checking their number or the length token. -/
def assume (tokens : List UInt32) : Program :=
  let (stage, model) := readVersionToken (tokens.headD 0)
  { stage, model, tokens }

/-- Takes tokens as a program if the declared length lies between two and their number. -/
def ofTokens (tokens : List UInt32) : Except ProgramError Program :=
  match tokens with
  | _ :: declared :: _ =>
    if declared.toNat < 2 ∨ tokens.length < declared.toNat then
      .error (.declaredLength declared.toNat tokens.length)
    else .ok (assume tokens)
  | _ => .error (.tooShort tokens.length)

def ofBytes (bytes : Bytes) : Except ProgramError Program :=
  if bytes.length % 4 ≠ 0 then .error (.misaligned bytes.length)
  else ofTokens bytes.toWords

def ofContainer (c : Container) : Except ProgramError Program :=
  match c.programChunk? with
  | some chunk => ofBytes chunk.payload
  | none => .error .noProgramChunk

def ofContainerBytes (bytes : Bytes) : Except ProgramError Program :=
  match Container.parse bytes with
  | .ok c => ofContainer c
  | .error e => .error (.container e)

/-- Where the program ends: its declared length, as far as there are tokens. -/
def limit (p : Program) : Nat :=
  match p.tokens with
  | _ :: declared :: _ => min declared.toNat p.tokens.length
  | _ => 0

/-- The instruction tokens. -/
def body (p : Program) : List UInt32 :=
  (p.tokens.take p.limit).drop 2

end Program

end ShaderLowering
