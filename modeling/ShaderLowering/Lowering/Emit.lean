import ShaderLowering.Lowering.Emission

/-!
What a lowering step may do to the module: append instructions to the open block, open and end
blocks and functions, and add names, decorations and capabilities. Nothing else in the lowering
touches the builder.
-/

namespace ShaderLowering.Lower

open Spirv

/-- Takes a new id. -/
def fresh : Emission Id :=
  .fresh

/-- Appends an instruction without a result. -/
def emit (op : Op) (args : List Arg) : Emission Unit :=
  .push op none none args

/-- Appends an instruction that computes a value of type `type`, and gives the id of the value. -/
def emitValue (op : Op) (type : Id) (args : List Arg) : Emission Id := do
  let id ← fresh
  .push op (some type) (some id) args
  return id

/-- Ends the open block. -/
def terminate (op : ControlOp) (args : List Arg) : Lower Unit :=
  tryBuild (·.terminate (.control op args))

def branch (label : Id) : Lower Unit :=
  terminate .branch [.id label]

def branchConditional (condition ifTrue ifFalse : Id) : Lower Unit :=
  terminate .branchConditional [.id condition, .id ifTrue, .id ifFalse]

def ret : Lower Unit :=
  terminate .ret []

/-- Announces the block where the paths of a selection meet again. -/
def selectionMerge (label : Id) : Lower Unit :=
  tryBuild (·.push (.control .selectionMerge [.id label, .word 0]))

def loopMerge (breakLabel continueLabel : Id) : Lower Unit :=
  tryBuild (·.push (.control .loopMerge [.id breakLabel, .id continueLabel, .word 0]))

/-- Opens the block with a label taken before. -/
def beginBlock (label : Id) : Lower Unit :=
  tryBuild fun b => (b.beginBlock (some label)).map (·.2)

/-- Opens a block under a new label. -/
def beginFreshBlock : Lower Unit :=
  tryBuild fun b => (b.beginBlock none).map (·.2)

/-- Opens a function under a given id or a new one, and gives its id. -/
def beginFunction (returnType functionType : Id) (id? : Option Id) : Lower Id := do
  match (← get).builder.beginFunction returnType functionType id? with
  | .ok (id, builder) =>
    modify fun s => { s with builder }
    return id
  | .error e => throw (.builder e)

def endFunction : Lower Unit :=
  tryBuild Builder.endFunction

/-- Position of the open block in its function. -/
def openBlock? : Lower (Option Nat) :=
  return (← get).builder.block?

/-- Adds a debug name, unless names are stripped. -/
def name (id : Id) (text : String) : Emission Unit := do
  unless (← read).options.stripNames do
    .note fun s =>
      { s with builder.module.names :=
          s.builder.module.names.push (.plain .name [.id id, .text text]) }

def decorate (id : Id) (decoration : Decoration) (args : List Arg) : Emission Unit :=
  .annotate (.plain .decorate (.id id :: .word decoration.code :: args))

def decorateMember (id : Id) (member : UInt32) (decoration : Decoration) (args : List Arg) :
    Emission Unit :=
  .annotate (.plain .memberDecorate (.id id :: .word member :: .word decoration.code :: args))

/-- Declares a capability, once. -/
def requireCapability (c : Capability) : Emission Unit := do
  unless (← .state).capabilities.contains c do
    .note fun s =>
      { s with
        capabilities := c :: s.capabilities
        builder.module.capabilities :=
          s.builder.module.capabilities.push (.plain .capability [.word c.code]) }

/-- Declares an extension, once. -/
def requireExtension (text : String) : Emission Unit := do
  unless (← .state).extensions.contains text do
    .note fun s =>
      { s with
        extensions := text :: s.extensions
        builder.module.extensions :=
          s.builder.module.extensions.push (.plain .extension [.text text]) }

/-- Declares an extension that later versions include. -/
def requireExtensionBefore (major minor : UInt8) (text : String) : Emission Unit := do
  unless (← read).options.version.atLeast major minor do
    requireExtension text

end ShaderLowering.Lower
