import ShaderLowering.CommandLine.Directory
import ShaderLowering.Compile
import ShaderLowering.Digest.Blake3
import ShaderLowering.Digest.Fnv1a
import ShaderLowering.Main
import ShaderLowering.Proofs.Control.Divisions
import ShaderLowering.Proofs.Lowering.Growth
import ShaderLowering.Proofs.WellFormed.Compile
import ShaderLowering.Proofs.Control.Simulation
import ShaderLowering.Proofs.Binary.Framing
import ShaderLowering.Proofs.Program.Tiling
import ShaderLowering.Proofs.Program.RoundTrip
import ShaderLowering.Proofs.Lowering.Frame
import ShaderLowering.Proofs.Program.Heads
import ShaderLowering.Proofs.Interface.Declarations
import ShaderLowering.Proofs.Interface.Carriers
import ShaderLowering.Proofs.Interface.Adjacent
import ShaderLowering.Proofs.Lowering.Success
import ShaderLowering.Proofs.Control.Refinement
import ShaderLowering.Proofs.Control.Grammar
import ShaderLowering.Proofs.Control.Lowered
import ShaderLowering.Proofs.Control.Acceptance
import ShaderLowering.Proofs.Typing.Bounds
import ShaderLowering.Proofs.Typing.Texels
import ShaderLowering.Proofs.Typing.Layouts
import ShaderLowering.Proofs.Scope.Accounts
import ShaderLowering.Proofs.Scope.Descriptors
import ShaderLowering.Proofs.Scope.Listing
import ShaderLowering.Proofs.Container.RoundTrip
import ShaderLowering.Proofs.Container.SignatureRoundTrip
import ShaderLowering.Proofs.Interface.Redeclaration
import ShaderLowering.Proofs.Naming.Stripping
import ShaderLowering.Proofs.Interface.Vertices
import ShaderLowering.Proofs.Decoration.Uniqueness
import ShaderLowering.Proofs.Execution.Processor
import ShaderLowering.Proofs.Execution.Registers
import ShaderLowering.Proofs.Execution.Words
import ShaderLowering.Proofs.Execution.Arithmetic
import ShaderLowering.Proofs.Execution.Instructions
import ShaderLowering.Proofs.Execution.Order
import ShaderLowering.Proofs.Memory.Operands
import ShaderLowering.Proofs.Container.SignatureLookup
import ShaderLowering.Proofs.Scope.Agreement
import ShaderLowering.Proofs.Memory.GroupMemory
import ShaderLowering.Proofs.Control.Refusal
import ShaderLowering.Proofs.Memory.Stores
import ShaderLowering.Proofs.Memory.Accesses
import ShaderLowering.Proofs.Faults.Window
import ShaderLowering.Proofs.Scope.Interning
import ShaderLowering.Proofs.Control.Phases
import ShaderLowering.Proofs.Interface.Wiring
