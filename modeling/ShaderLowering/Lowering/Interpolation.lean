import ShaderLowering.Lowering.Operand

/-!
Evaluating a pixel input anew at the centroid, at a sample or at an offset from the pixel's
centre.
-/

namespace ShaderLowering.Lower

open Spirv

/-- The bit pattern of 1/16, the unit of offsets in pixels. -/
def offsetUnit : UInt32 := 0x3d800000

/-- The location variable of an input register that can be interpolated. -/
def interpolatedInput (op : Operand) : Emission LocationVariable := do
  let reg ← orFault ((op.index? 0).filter fun _ => op.type = .input) .interpolationSource
  let location? := ((← .state).inputs.find? reg).bind (·.location?)
  let location ← orFault location? (.noInterpolatedVariable reg)
  if location.type.scalar ≠ .f32 then failWith (.notAFloatInput reg)
  return location

/-- The function that interpolates, and what it takes besides the variable. -/
def interpolator (inst : Instruction) : Emission (ExtOp × List Id) := do
  match inst.op? with
  | some .evalCentroid => return (.interpolateAtCentroid, [])
  | some .evalSampleIndex =>
    let sample ← readScalar (← source inst 1) .i32
    return (.interpolateAtSample, [sample])
  | _ =>
    let offset ← readVector (← source inst 1) 2 .i32
    let pair : VectorType := ⟨.f32, 2⟩
    let offset ← operate .convertSToF pair [offset.id]
    let unit ← splat .f32 offsetUnit 2
    let offset ← operate .fMul pair [offset.id, unit.id]
    return (.interpolateAtOffset, [offset.id])

def lowerInterpolation (inst : Instruction) : Emission Unit := do
  if (← read).stage ≠ .pixel then failWith (.outsideStage inst.name .pixel)
  let op ← destination inst 0
  let input ← source inst 0
  let location ← interpolatedInput input
  requireCapability .interpolationFunction
  let (function, args) ← interpolator inst
  let value ← extended function location.type (location.id :: args)
  let value ← padToFour value
  let value ← swizzle value (input.swizzle.picked op.mask)
  let value ← applyModifier value input.modifier
  writeOperand op value inst.saturate

end ShaderLowering.Lower
