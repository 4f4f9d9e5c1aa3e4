import ShaderLowering.Program.Basic

/-!
Descriptor bindings. All resources live in one descriptor set. Every stage owns a block of
`stageStride` bindings, and within a block each register class has a range of its own, so no two
registers of any stages share a binding.
-/

namespace ShaderLowering

/-- The register classes that are bound to descriptors. -/
inductive BindingClass
  | constantBuffer
  | sampler
  | shaderResource
  | unorderedAccess
  | uavCounter
deriving DecidableEq, Repr, Inhabited

namespace BindingClass

/-- How many registers of the class a stage has. -/
def maxSlots : BindingClass → Nat
  | constantBuffer | sampler => 16
  | shaderResource => 128
  | unorderedAccess | uavCounter => 64

/-- The first binding of the class within a stage's block. -/
def base : BindingClass → Nat
  | constantBuffer => 0
  | sampler => 16
  | shaderResource => 32
  | unorderedAccess => 160
  | uavCounter => 224

/-- What stands in front of the number in a register's name. -/
def registerLetter : BindingClass → String
  | constantBuffer => "cb"
  | sampler => "s"
  | shaderResource => "t"
  | unorderedAccess => "u"
  | uavCounter => "u#counter"

def name : BindingClass → String
  | constantBuffer => "ConstantBuffer"
  | sampler => "Sampler"
  | shaderResource => "ShaderResource"
  | unorderedAccess => "UnorderedAccess"
  | uavCounter => "UavCounter"

end BindingClass

/-- Bindings per stage. -/
def stageStride : Nat := 288

inductive BindingError
  | slotOutOfRange (slotClass : BindingClass) (slot : UInt32)
  | unsupportedStage (stage : ShaderStage)
deriving DecidableEq, Repr

/-- The binding of a register. -/
def bindingOf (stage : ShaderStage) (slotClass : BindingClass) (slot : UInt32) :
    Except BindingError Nat :=
  if slotClass.maxSlots ≤ slot.toNat then .error (.slotOutOfRange slotClass slot)
  else
    match stage.index? with
    | some index => .ok (index * stageStride + slotClass.base + slot.toNat)
    | none => .error (.unsupportedStage stage)

/-- What kind of descriptor a binding expects. -/
inductive ResourceKind
  | constantBuffer
  | sampler
  | sampledImage
  | uniformTexelBuffer
  | storageImage
  | storageTexelBuffer
  | storageBuffer
  | uavCounter
deriving DecidableEq, Repr, Inhabited

def ResourceKind.name : ResourceKind → String
  | constantBuffer => "ConstantBuffer"
  | sampler => "Sampler"
  | sampledImage => "SampledImage"
  | uniformTexelBuffer => "UniformTexelBuffer"
  | storageImage => "StorageImage"
  | storageTexelBuffer => "StorageTexelBuffer"
  | storageBuffer => "StorageBuffer"
  | uavCounter => "UavCounter"

inductive ViewDimension
  | none
  | buffer
  | texture1D
  | texture1DArray
  | texture2D
  | texture2DArray
  | texture2DMs
  | texture2DMsArray
  | texture3D
  | textureCube
  | textureCubeArray
deriving DecidableEq, Repr, Inhabited

def ViewDimension.name : ViewDimension → String
  | none => "None"
  | buffer => "Buffer"
  | texture1D => "Texture1D"
  | texture1DArray => "Texture1DArray"
  | texture2D => "Texture2D"
  | texture2DArray => "Texture2DArray"
  | texture2DMs => "Texture2DMs"
  | texture2DMsArray => "Texture2DMsArray"
  | texture3D => "Texture3D"
  | textureCube => "TextureCube"
  | textureCubeArray => "TextureCubeArray"

/-- A set of stages, one bit for each by its index. -/
structure StageMask where
  bits : UInt32
deriving DecidableEq, Repr, Inhabited

namespace StageMask

def ofStage (stage : ShaderStage) : StageMask :=
  ⟨match stage.index? with
    | some index => .ofNat (Nat.pow 2 index)
    | none => 0⟩

def union (a b : StageMask) : StageMask := ⟨a.bits ||| b.bits⟩

/-- The names of the stages, in the order of their indices. -/
def names : List String :=
  ["VERTEX", "HULL", "DOMAIN", "GEOMETRY", "PIXEL", "COMPUTE"]

/-- The names of the stages in the set, joined by a bar. -/
def text (m : StageMask) : String :=
  let members := (names.zipIdx.filter fun (_, i) => m.bits.toNat.testBit i).map (·.1)
  if members.isEmpty then "0x0" else String.intercalate " | " members

end StageMask

/-- A register with its descriptor. -/
structure ResourceSlot where
  slot : UInt32
  kind : ResourceKind
  dimension : ViewDimension
  /-- Bytes per structure of a structured buffer, else zero. -/
  stride : UInt32
  stages : StageMask
  binding : Nat
deriving DecidableEq, Repr, Inhabited

end ShaderLowering
