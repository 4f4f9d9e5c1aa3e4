import ShaderLowering.Proofs.Scope.Operands
import ShaderLowering.Proofs.Typing.Arithmetic

/-!
Arithmetic supplies what it computes from what its operands supply.
-/

namespace ShaderLowering

open Spirv (Id Arg Op Builder)

namespace Lower

variable {H : Limits} {T : Allowance} {env : Environment} {b : Builder} {inst : Instruction}
  {value : Value}

@[grind ←]
theorem readSources_supplies (inst : Instruction) (mask : WriteMask) :
    Supplies (.tables T) env b (readSources inst mask).run :=
  .mapM fun op _ _ => readOperand_supplies op mask

@[grind ←]
theorem writePart_supplies (op : Operand) (known : Known (.tables T) b value) (full : WriteMask) :
    Supplies (.tables T) env b (writePart op value full).run := by
  unfold writePart
  grind -linarith

@[grind ←]
theorem lowerVector_supplies (inst : Instruction) :
    Supplies (.tables T) env b (lowerVector inst).run := by
  refine .destination fun out => .ite (.pure trivial) ?_
  refine .bind (readSources_supplies inst _) fun sources c _ known => ?_
  have write (value : Value) (d : Builder) (known : Known (.tables T) d value) :
      Supplies (.tables T) env d
        (markPrecise inst value >>= fun _ => writeOperand out value inst.saturate).run :=
    .bind (markPrecise_supplies _ _) fun _ _ within _ =>
      writeOperand_supplies _ (known.mono within) _
  split
  · have source (n : Nat) (f : Fault) : Routine CompileError.IsAny (c.Available (.tables T))
        (orFault sources[n]? f) := .orFault_of (fun _ => trivial) (known.getElem? n)
    exact .bind (computeVector_routine (fun n _ => source n _) _).supplies
      fun value d _ => write value d
  · exact .bind (unsupported_supplies _) fun value d _ => write value d

@[grind ←]
theorem lowerDot_supplies (inst : Instruction) (width : Nat) :
    Supplies (.tables T) env b (lowerDot inst width).run := by
  refine .destination fun out => .source fun x => .bind (readOperand_supplies _ _) fun x c _ _ =>
    .source fun y => .bind (readOperand_supplies _ _) fun y d _ _ => .bind ?_ fun value e _ _ =>
    .bind (markPrecise_supplies _ _) fun _ f _ _ => ?_
  all_goals grind -linarith

@[grind ←]
theorem lowerSinCos_supplies (inst : Instruction) :
    Supplies (.tables T) env b (lowerSinCos inst).run := by
  refine .source fun input => .bind (.forIn fun part _ c _ => ?_) fun _ _ _ _ => .pure trivial
  obtain ⟨f, n⟩ := part
  refine Does.demand fun out _ => .ite (fun _ => .pure fun _ _ => trivial) fun _ => ?_
  refine .bind (readOperand_supplies input out.mask) fun value d _ known => ?_
  refine .bind (extended_routine f _ (Given.cons_iff.2 ⟨known, Given.nil_iff.2 trivial⟩)).supplies
    fun result e _ known => ?_
  refine .bind (markPrecise_supplies inst _) fun _ f within _ => ?_
  exact .bind (writeOperand_supplies out (known.mono within) _) fun _ _ _ _ =>
    .pure fun _ _ => trivial

@[grind ←]
theorem lowerWideMultiply_supplies (inst : Instruction) (isSigned : Bool) :
    Supplies (.tables T) env b (lowerWideMultiply inst isSigned).run := by
  refine .destination fun hi => .destination fun lo => .ite (.pure trivial) ?_
  refine .bind (readSources_supplies inst _) fun sources c _ known => ?_
  split
  · next x y =>
    refine .bind (bitcast_routine (by grind -linarith) _).supplies fun x d _ _ =>
      .bind (bitcast_routine ?_ _).supplies
      fun y e _ _ => .ite ?_ (.bind (operatePair_routine ?_ _ ?_ ?_).supplies fun wide g _ _ =>
      .bind (pairMember_routine _ ?_ _).supplies fun low h _ _ =>
      .bind (pairMember_routine _ ?_ _).supplies
      fun high i _ _ => ?_)
    all_goals grind -linarith
  · grind -linarith

@[grind ←]
theorem lowerDivide_supplies (inst : Instruction) :
    Supplies (.tables T) env b (lowerDivide inst).run := by
  refine .destination fun quotient => .destination fun remainder => .ite (.pure trivial) ?_
  refine .bind (readSources_supplies inst _) fun sources c _ known => ?_
  split
  · next x y =>
    refine .bind (bitcast_routine (by grind -linarith) _).supplies fun x d _ _ =>
      .bind (bitcast_routine ?_ _).supplies
      fun y e _ _ => .bind (vectorType_supplies _) fun _ f _ _ =>
      .bind (splat_routine _ _ _).supplies
      fun zero g _ _ => .bind (splat_routine _ _ _).supplies fun ones h _ _ =>
      .bind ?_ fun byZero i _ _ =>
      .bind (.forIn fun part mem j within => ?_) fun _ _ _ _ => .pure trivial
    · grind -linarith
    · grind -linarith
    · have divides : part.2.isRoutine = true := by
        obtain rfl | rfl : part = (quotient, .uDiv) ∨ part = (remainder, .uMod) := by
          simpa using mem
        · rfl
        · rfl
      obtain ⟨out, op⟩ := part
      refine .ite (fun _ => .pure fun _ _ => trivial) fun _ => ?_
      refine .bind (operate_routine divides _ (by grind -linarith)).supplies fun result k _ _ => ?_
      have selects : Spirv.Op.select.isRoutine = true := rfl
      refine .bind (operate_routine selects _ (by grind -linarith)).supplies
        fun chosen l _ known => ?_
      exact .bind (writePart_supplies out known _) fun _ _ _ _ => .pure fun _ _ => trivial
  · grind -linarith

@[grind ←]
theorem lowerCarry_supplies (inst : Instruction) {op : Op} (computes : op.isRoutine = true) :
    Supplies (.tables T) env b (lowerCarry inst op).run := by
  refine .destination fun result => .destination fun carry => .ite (.pure trivial) ?_
  refine .bind (readSources_supplies inst _) fun sources c _ known => ?_
  split
  · next x y =>
    refine .bind (bitcast_routine (by grind -linarith) _).supplies fun x d _ _ =>
      .bind (bitcast_routine ?_ _).supplies
      fun y e _ _ => .bind (operatePair_routine computes _ ?_ ?_).supplies fun wide g _ _ =>
      .bind (pairMember_routine _ ?_ _).supplies fun value h _ _ =>
      .bind (pairMember_routine _ ?_ _).supplies
      fun flag i _ _ => ?_
    all_goals grind -linarith
  · grind -linarith

@[grind ←]
theorem lowerSwap_supplies (inst : Instruction) :
    Supplies (.tables T) env b (lowerSwap inst).run := by
  refine .destination fun first => .destination fun second => .ite (.pure trivial) ?_
  refine .bind (readSources_supplies inst _) fun sources c _ known => ?_
  split
  · next condition x y =>
    obtain ⟨condition_, x_, y_⟩ : Known (.tables T) c condition ∧ Known (.tables T) c x ∧
      Known (.tables T) c y := by simpa using known
    refine .bind (zeroTest_routine condition_ _).supplies fun condition d _ _ =>
      .bind (bitcast_routine ?_ _).supplies fun y e _ _ =>
      .bind (operate_routine rfl _ ?_).supplies fun swapped g _ _ =>
      .bind (operate_routine rfl _ ?_).supplies fun kept h _ _ => ?_
    all_goals grind -linarith
  · grind -linarith

@[grind ←]
theorem lowerArithmetic_supplies (inst : Instruction) :
    Supplies (.tables T) env b (lowerArithmetic inst).run := by
  unfold lowerArithmetic
  grind -linarith

end Lower

end ShaderLowering
