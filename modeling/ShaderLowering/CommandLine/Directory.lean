import ShaderLowering.CommandLine

/-!
A directory as a value: files under names, in order of their creation, and no directories in it.
The command can be run on it instead of on a disk.
-/

namespace ShaderLowering

structure Directory where
  files : List (String × Bytes)
deriving DecidableEq, Repr, Inhabited

namespace FileFault

def notFound : FileFault := ⟨"No such file or directory", 2⟩
def notADirectory : FileFault := ⟨"Not a directory", 20⟩
def isADirectory : FileFault := ⟨"Is a directory", 21⟩

end FileFault

namespace Directory

def find? (d : Directory) (name : String) : Option Bytes :=
  d.files.lookup name

/-- Sets the contents of a file; a new one comes last. -/
def put (d : Directory) (name : String) (bytes : Bytes) : Directory :=
  if d.files.any (·.1 = name) then
    ⟨d.files.map fun (n, old) => (n, if n = name then bytes else old)⟩
  else ⟨d.files ++ [(name, bytes)]⟩

/-- What a path leads to. -/
inductive Target
  /-- The directory itself. -/
  | here
  | file (name : String)
  | fault (f : FileFault)
deriving DecidableEq, Repr

/-- Follows a path. Only the last name may be missing; behind the name of a file nothing may
follow, not even a slash. -/
def target (d : Directory) (path : String) : Target :=
  let steps := (path.splitOn "/").filter fun step => step ≠ "." && step ≠ ""
  if path = "" then .fault .notFound
  else if path.startsWith "/" then .fault .notFound
  else
    match steps with
    | [] => .here
    | [name] =>
      if path.endsWith "/" ∨ path.endsWith "/." then
        .fault (if (d.find? name).isSome then .notADirectory else .notFound)
      else .file name
    | name :: _ => .fault (if (d.find? name).isSome then .notADirectory else .notFound)

def read (d : Directory) (path : String) : Except FileFault Bytes :=
  match d.target path with
  | .here => .error .isADirectory
  | .file name =>
    match d.find? name with
    | some bytes => .ok bytes
    | none => .error .notFound
  | .fault f => .error f

def write (d : Directory) (path : String) (bytes : Bytes) : Except FileFault Directory :=
  match d.target path with
  | .here => .error .isADirectory
  | .file name => .ok (d.put name bytes)
  | .fault f => .error f

/-- Access to the files of a directory that is kept as state. -/
def access : FileAccess (StateM Directory) where
  read path := return (← get).read path
  write path bytes := do
    match (← get).write path bytes with
    | .ok d =>
      set d
      return .ok ()
    | .error f => return .error f

end Directory

end ShaderLowering
