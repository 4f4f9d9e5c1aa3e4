import ShaderLowering.Proofs.Conduct.Routines

/-!
Reading bits as another scalar type gives a value that is no constant.
-/

namespace ShaderLowering.Lower

open Spirv (Id Arg Op)

variable {x : Shader} {v : VertexCounts} {m : Spirv.Module}

/-- The result of an instruction is no constant. -/
theorem operate_yields {op : Op} (free : op.isFree = true) (type : VectorType) (args : List Id) :
    Yields x v m (operate op type args).run fun value n => n.Computes value.id := by
  refine .bind (vectorType_safe type) fun typeId n _ _ => ?_
  refine .bind (emitValue_free free typeId _) fun id n _ computed => ?_
  exact .pure fun o grows => computed.2.mono grows

/-- A number read as another type is computed. -/
theorem bitcast_yields {value : Value} {scalar : ScalarType} (number : value.type.scalar ≠ .bool)
    (other : value.type.scalar ≠ scalar) :
    Yields x v m (bitcast value scalar).run fun value n => n.Computes value.id := by
  unfold bitcast recast
  rw [if_neg other, if_neg number]
  change Yields x v m (if value.type.scalar = scalar then pure value else operate .bitcast
    ⟨scalar, value.type.count⟩ [value.id] : Emission Value).run _
  rw [if_neg other]
  exact operate_yields rfl _ _

theorem recast_computed {value : Value} (computed : m.Computes value.id) (scalar : ScalarType) :
    Yields x v m (recast value scalar).run fun value n => n.Computes value.id :=
  .ite (fun _ => .pure fun _ grows => computed.mono grows) fun _ => operate_yields rfl _ _

/-- What is computed and read as another type is computed. -/
theorem bitcast_computed {value : Value} (computed : m.Computes value.id) (scalar : ScalarType) :
    Yields x v m (bitcast value scalar).run fun value n => n.Computes value.id := by
  refine .ite (fun _ => .pure fun _ grows => computed.mono grows) fun _ => ?_
  refine .choose (.ite (fun _ => ?_) fun _ => .pure fun _ grows => computed.mono grows)
    fun value n _ computed => recast_computed computed scalar
  refine .after (splat_routine _ _ _).safe fun ones n _ =>
    .after (splat_routine _ _ _).safe fun zero o _ => ?_
  exact operate_yields rfl _ _

@[grind ←]
theorem markPrecise_safe (inst : Instruction) (value : Value) :
    Safe x v m (markPrecise inst value).run := by
  unfold markPrecise
  grind

end ShaderLowering.Lower
