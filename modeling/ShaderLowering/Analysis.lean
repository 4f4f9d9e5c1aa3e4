import ShaderLowering.Program.Instruction
import ShaderLowering.Signature
import ShaderLowering.Binding
import ShaderLowering.Table

/-!
What has to be known of a whole program before its declarations are lowered: how each unordered
access view is used, and how many components carry clip and cull distances.
-/

namespace ShaderLowering

structure UavAccess where
  typedLoad : Bool
  atomic : Bool
deriving DecidableEq, Repr, Inhabited

def UavAccess.none : UavAccess := ⟨false, false⟩

structure ClipCullCounts where
  clip : Nat
  cull : Nat
deriving DecidableEq, Repr, Inhabited

def ClipCullCounts.ofSignature (s : Signature) : ClipCullCounts :=
  ⟨s.componentsOf .clipDistance, s.componentsOf .cullDistance⟩

structure Analysis where
  /-- Views without an entry are not accessed. -/
  uavs : Table UavAccess
  inputs : ClipCullCounts
  outputs : ClipCullCounts

instance : Inhabited Analysis := ⟨⟨.empty, ⟨0, 0⟩, ⟨0, 0⟩⟩⟩

namespace Analysis

def uav (a : Analysis) (slot : UInt32) : UavAccess :=
  (a.uavs.find? slot).getD .none

/-- The access that a class of instructions makes to its view. -/
def accessOf? : Opcode.Family → Option UavAccess
  | .typedUavLoad | .typedUavStore => some ⟨true, false⟩
  | .atomic | .atomicCounter => some ⟨false, true⟩
  | _ => Option.none

/-- The number of the first view among the operands, destinations first. -/
def uavSlot? (inst : Instruction) : Option UInt32 :=
  ((inst.dst ++ inst.src).find? (·.type = .uav)).bind (·.index? 0)

/-- Adds the access of one instruction. -/
def note (uavs : Table UavAccess) (inst : Instruction) : Table UavAccess :=
  match accessOf? inst.family, uavSlot? inst with
  | some access, some slot =>
    if slot.toNat < BindingClass.unorderedAccess.maxSlots then
      let old := (uavs.find? slot).getD .none
      uavs.insert slot ⟨old.typedLoad || access.typedLoad, old.atomic || access.atomic⟩
    else uavs
  | _, _ => uavs

def ofProgram (insts : List Instruction) (inputs outputs : Signature) : Analysis :=
  { uavs := insts.foldl note .empty
    inputs := .ofSignature inputs
    outputs := .ofSignature outputs }

end Analysis

end ShaderLowering
