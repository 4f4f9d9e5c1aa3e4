import ShaderLowering.Proofs.Conduct.Computing
import ShaderLowering.Proofs.Typing.Operands

/-!
Arithmetic reads and writes operands and computes in between, so it is safe.
-/

namespace ShaderLowering.Lower

variable {x : Shader} {v : VertexCounts} {m : Spirv.Module} {inst : Instruction}

@[grind ←]
theorem readSources_safe (runs : x.Runs v inst) (mask : WriteMask) :
    Safe x v m (readSources inst mask).run :=
  Yields.safe (.mapM fun _ mem =>
    readOperand_safe (.of_mem runs (List.mem_append_right _ mem)) mask)

@[grind ←]
theorem writePart_safe {op : Operand} (names : x.Names v op) (value : Value) (full : WriteMask) :
    Safe x v m (writePart op value full).run := by
  unfold writePart
  grind -linarith

@[grind ←]
theorem unsupported_safe {α : Type} (inst : Instruction) :
    Safe x v m (unsupported inst : Emission α).run :=
  .read_bind .fail

@[grind ←]
theorem lowerVector_safe (runs : x.Runs v inst) : Safe x v m (lowerVector inst).run := by
  refine .destination runs fun out names => .ite (.pure _) (.bind (readSources_safe runs _) ?_)
  intro sources
  split
  · have given (n : Nat) (f : Fault) : Routine CompileError.IsAny (fun _ => True)
        (orFault sources[n]? f) := .orFault_of (fun _ => trivial) .anything
    refine .bind (computeVector_routine (fun n _ => given n _) _).safe fun value => ?_
    grind -linarith
  · grind -linarith

@[grind ←]
theorem lowerDot_safe (runs : x.Runs v inst) (width : Nat) :
    Safe x v m (lowerDot inst width).run := by
  refine .destination runs fun out _ => .source runs fun a names => ?_
  refine .bind (readOperand_safe names _) fun a => .source runs fun b names => ?_
  refine .bind (readOperand_safe names _) fun b => ?_
  refine .bind (operate_routine rfl _ .anything).safe fun value => ?_
  grind -linarith

@[grind ←]
theorem lowerSinCos_safe (runs : x.Runs v inst) : Safe x v m (lowerSinCos inst).run := by
  refine .source runs fun input _ => .bind (.forIn (fun out _ => ?_) _ _) fun _ => .pure _
  grind -linarith

@[grind ←]
theorem lowerWideMultiply_safe (runs : x.Runs v inst) (isSigned : Bool) :
    Safe x v m (lowerWideMultiply inst isSigned).run := by
  refine .destination runs fun hi hi' => .destination runs fun lo lo' => .ite (.pure _) ?_
  refine .bind (readSources_safe runs _) fun sources => ?_
  split
  · refine .bind (bitcast_routine .anything _).safe fun a =>
      .bind (bitcast_routine .anything _).safe fun b => ?_
    grind -linarith
  · grind -linarith

@[grind ←]
theorem lowerDivide_safe (runs : x.Runs v inst) : Safe x v m (lowerDivide inst).run := by
  refine .destination runs fun quotient _ => .destination runs fun remainder _ => .ite (.pure _) ?_
  refine .bind (readSources_safe runs _) fun sources => ?_
  split
  · refine .bind (bitcast_routine .anything _).safe fun a =>
      .bind (bitcast_routine .anything _).safe fun b => ?_
    refine .bind (vectorType_safe _) fun _ => .bind (splat_routine _ _ _).safe fun zero =>
      .bind (splat_routine _ _ _).safe fun ones =>
      .bind (operate_routine rfl _ .anything).safe fun byZero =>
      .bind (.forIn_mem fun part mem _ => ?_) fun _ => .pure _
    obtain rfl | rfl : part = (quotient, .uDiv) ∨ part = (remainder, .uMod) := by simpa using mem
    · grind -linarith
    · grind -linarith
  · grind -linarith

@[grind ←]
theorem lowerCarry_safe (runs : x.Runs v inst) {op : Spirv.Op} (computes : op.isRoutine = true) :
    Safe x v m (lowerCarry inst op).run := by
  refine .destination runs fun result _ => .destination runs fun carry _ => .ite (.pure _) ?_
  refine .bind (readSources_safe runs _) fun sources => ?_
  split
  · refine .bind (bitcast_routine .anything _).safe fun a =>
      .bind (bitcast_routine .anything _).safe fun b => ?_
    grind -linarith
  · grind -linarith

@[grind ←]
theorem lowerSwap_safe (runs : x.Runs v inst) : Safe x v m (lowerSwap inst).run := by
  refine .destination runs fun first _ => .destination runs fun second _ => .ite (.pure _) ?_
  refine .bind (readSources_safe runs _) fun sources => ?_
  split
  · refine .bind (zeroTest_routine .anything _).safe fun condition => ?_
    grind -linarith
  · grind -linarith

@[grind ←]
theorem lowerArithmetic_safe (runs : x.Runs v inst) : Safe x v m (lowerArithmetic inst).run := by
  unfold lowerArithmetic
  grind -linarith

end ShaderLowering.Lower
