import ShaderLowering.Proofs.Conduct.Resources

/-!
Arithmetic. Results are computed from as many sources as the formats of the opcodes name. What
computes values marks nothing; whether the result is marked is up to the instruction.
-/

namespace ShaderLowering.Lower

open Spirv

variable {ok : CompileError → Prop} {inst : Instruction} {op : Opcode}

/-- What is said where an instruction turns out not to have two sources. -/
theorem needsTwo_neat {α : Type} {sources : List Value} {f : Fault}
    (two : ∀ f : Fault, inst.src.length ≠ 2 → ok (.fault f))
    (count : sources.length = inst.src.length) (other : ∀ a b, sources = [a, b] → False) :
    Neat ok [] (failWith f : Emission α) := by
  refine .failWith_of (two f fun length => ?_)
  obtain ⟨a, b, is⟩ := List.length_eq_two.1 (count.trans length)
  exact other a b is

variable [Refusing ok]

@[grind ←]
theorem readSources_neat (inst : Instruction) (mask : WriteMask) :
    Neat ok [] (readSources inst mask) :=
  .mapM (fun _ => readOperand_neat _ _) _

@[grind ←]
theorem writePart_neat (op : Operand) (value : Value) (full : WriteMask) :
    Neat ok [] (writePart op value full) :=
  .ite (.pure ()) <| .bind (swizzle_routine .anything _).neat fun _ => writeOperand_neat _ _ _

/-- Reading all sources gives as many values as there are sources. -/
theorem readSources_bind {β : Type} {mask : WriteMask} {f : List Value → Emission β}
    (later : ∀ values, values.length = inst.src.length → Neat ok [] (f values)) :
    Neat ok [] (readSources inst mask >>= f) :=
  .bind_of (readSources_neat inst mask) fun values ⟨_, _, _, ran⟩ =>
    later values (Reports.length_mapM ran)

/-- The result of an instruction with one destination. -/
def vectorResult (inst : Instruction) (mask : WriteMask) : Emission Value := do
  let sources ← readSources inst mask
  match inst.op? with
  | some op =>
    computeVector inst op (fun n => orFault sources[n]? (.missingSource inst.name n)) mask.count
  | none => unsupported inst

theorem lowerVector_eq (inst : Instruction) : lowerVector inst = (do
    let out ← destination inst 0
    if out.isNull || out.mask.isEmpty then return
    let value ← vectorResult inst out.mask
    markPrecise inst value
    writeOperand out value inst.saturate) := by
  unfold lowerVector vectorResult
  congr 1
  funext out
  split
  · rfl
  · rw [bind_assoc]
    congr 1
    funext sources
    cases inst.op? <;> rfl

/-- An instruction with the operands of its opcode computes its result from them. -/
theorem vectorResult_neat (given : Provided ok inst) (mask : WriteMask) :
    Neat ok [] (vectorResult inst mask) := by
  refine readSources_bind fun sources count => ?_
  split
  · next op known =>
    refine (computeVector_routine (fun n below => .orFault_of (fun missing => ?_) .anything) _).neat
    refine given.lacking known (fun fits lacks => ?_) (List.getElem?_eq_none_iff.1 missing)
    rw [count, fits.length_src] at lacks
    exact absurd below (Nat.not_lt.2 lacks)
  · exact .unsupported _

/-- A pair of results is computed from two sources. -/
theorem lowerWideMultiply_neat (given : Equipped ok inst 2 2)
    (two : ∀ f : Fault, inst.src.length ≠ 2 → ok (.fault f)) (isSigned : Bool) :
    Neat ok [] (lowerWideMultiply inst isSigned) := by
  have widens : (if isSigned then Op.sMulExtended else Op.uMulExtended).isRoutine = true := by
    cases isSigned <;> rfl
  refine .bind (given.dst 0 (by decide)) fun hi => ?_
  refine .bind (given.dst 1 (by decide)) fun lo => .ite (.pure ()) ?_
  refine readSources_bind fun sources count => ?_
  split
  · refine .bind (bitcast_routine .anything _).neat fun a =>
      .bind (bitcast_routine .anything _).neat fun b => .ite ?_ ?_
    · exact .bind (operate_routine rfl _ .anything).neat fun _ => writePart_neat _ _ _
    · exact .bind (operatePair_routine widens _ .anything .anything).neat fun _ =>
        by grind -linarith
  · next other => exact needsTwo_neat two count other

theorem lowerDivide_neat (given : Equipped ok inst 2 2)
    (two : ∀ f : Fault, inst.src.length ≠ 2 → ok (.fault f)) : Neat ok [] (lowerDivide inst) := by
  refine .bind (given.dst 0 (by decide)) fun quotient => ?_
  refine .bind (given.dst 1 (by decide)) fun remainder => .ite (.pure ()) ?_
  refine readSources_bind fun sources count => ?_
  split
  · have divides : ∀ p ∈ [(quotient, Op.uDiv), (remainder, Op.uMod)], p.2.isRoutine = true :=
      List.forall_mem_cons.2 ⟨rfl, List.forall_mem_singleton.2 rfl⟩
    refine .bind (bitcast_routine .anything _).neat fun a =>
      .bind (bitcast_routine .anything _).neat fun b => ?_
    refine .bind (vectorType_neat _) fun type => .bind (splat_routine _ _ _).neat fun zero => ?_
    refine .bind (splat_routine _ _ _).neat fun ones =>
      .bind (operate_routine rfl _ .anything).neat fun byZero => ?_
    refine .bind (.forInMem fun p mem _ => .ite (.pure _) ?_) fun _ => .pure ()
    exact .bind (operate_routine (divides p mem) _ .anything).neat fun _ =>
      .bind (operate_routine rfl _ .anything).neat fun _ =>
      .bind (writePart_neat _ _ _) fun _ => .pure _
  · next other => exact needsTwo_neat two count other

theorem lowerCarry_neat (given : Equipped ok inst 2 2)
    (two : ∀ f : Fault, inst.src.length ≠ 2 → ok (.fault f)) {f : Op}
    (computes : f.isRoutine = true) : Neat ok [] (lowerCarry inst f) := by
  refine .bind (given.dst 0 (by decide)) fun result => ?_
  refine .bind (given.dst 1 (by decide)) fun carry => .ite (.pure ()) ?_
  refine readSources_bind fun sources count => ?_
  split
  · refine .bind (bitcast_routine .anything _).neat fun a =>
      .bind (bitcast_routine .anything _).neat fun b => ?_
    exact .bind (operatePair_routine computes _ .anything .anything).neat fun _ =>
      by grind -linarith
  · next other => exact needsTwo_neat two count other

theorem lowerSwap_neat (given : Equipped ok inst 2 0)
    (three : ∀ f : Fault, inst.src.length ≠ 3 → ok (.fault f)) : Neat ok [] (lowerSwap inst) := by
  refine .bind (given.dst 0 (by decide)) fun first => ?_
  refine .bind (given.dst 1 (by decide)) fun second => .ite (.pure ()) ?_
  refine readSources_bind fun sources count => ?_
  split
  · refine .bind (zeroTest_routine .anything _).neat fun condition =>
      .bind (bitcast_routine .anything _).neat fun b => ?_
    grind -linarith
  · next other =>
    refine .failWith_of (three _ fun len => ?_)
    obtain ⟨c, a, b, rfl⟩ := List.length_eq_three.1 (count.trans len)
    exact other c a b rfl

end ShaderLowering.Lower
