import ShaderLowering.Lowering.Operand
import ShaderLowering.Proofs.Typing.Registers

/-!
What operands yield. An index of an operand is the number that stands in it or a word that was
computed, so the place an operand names can be checked against the program. Reading and writing
operands then is safe wherever the lowering has come to an instruction that names them.
-/

namespace ShaderLowering

open Spirv (Id Module StorageClass)

namespace Shader

/-- An id is that of index `d` of an operand. -/
def Given (m : Module) (op : Operand) (d : Nat) (id : Id) : Prop :=
  (∃ k, op.index? d = some k ∧ m.IsConstant id k) ∨ m.Computes id

theorem Given.mono {m n : Module} {op : Operand} {d : Nat} {id : Id} (h : Given m op d id)
    (grows : m.Grows n) : Given n op d id := by
  obtain ⟨k, is, constant⟩ | computed := h
  · exact .inl ⟨k, is, constant.mono grows⟩
  · exact .inr (computed.mono grows)

/-- An index of an operand steps into the array that it is meant for. -/
theorem Given.entry {x : Shader} {v w : VertexCounts} {m : Module} {op : Operand} {d : Nat}
    {id : Id}
    {length : UInt32} (h : Given m op d id) (names : x.Names v op)
    (sees : op.hasVertex = true → x.Sees w) (extent : length ∈ x.extents w op d) :
    x.Entry m length id := by
  obtain ⟨k, is, constant⟩ | computed := h
  · exact .operand op d k w constant names.uses sees is extent
  · exact .computed computed

/-- The steps for the indices of an operand compute them. -/
def Steps (x : Shader) (v : VertexCounts) (op : Operand) (steps : List (Emission Id)) : Prop :=
  ∀ d step, steps[d]? = some step → ∀ m, Yields x v m step.run fun id n => Given n op d id

end Shader

namespace Lower

variable {x : Shader} {v : VertexCounts} {m : Module} {op : Operand} {steps : List (Emission Id)}

/-- A control point output, wherever there is a path for its vertex. -/
theorem controlPointOutput_yields {reg : UInt32} {vertex : Id}
    (path : ∀ w, (x.env.stage = .hull → x.Sees w) → ∀ type, x.Path m
      ((Shape.vector type).arrayOf (Side.output.vertices x.env.stage w)) [vertex] type) :
    Yields x v m (controlPointOutput reg vertex).run fun p n => p.Leads n := by
  refine .state_bind fun s hs grows => .demand fun l found => ?_
  obtain ⟨r, hr, hl⟩ := Option.bind_eq_some_iff.1 found
  have known := (hs.tables.outputs.find? hr).2.location l hl
  obtain ⟨w, sees, vertices⟩ := known.vertices
  have places := known.houses.places
  rw [vertices] at places
  have some_ : 0 < l.type.count := by
    rw [known.type]
    decide
  have sees (hull : x.env.stage = .hull) : x.Sees w := sees (by simp [Side.isArrayed, hull])
  exact chain_yields some_ places ((path w sees l.type).mono grows)

theorem constantBufferPointer_yields {slot : UInt32} {element : Id}
    (entry : ∀ inst ∈ x.insts, ∀ size, inst.declaredBuffer? = some (slot, size) →
      x.Entry m (.ofNat size) element) :
    Yields x v m (constantBufferPointer slot element).run fun p n => p.Leads n := by
  refine .state_bind fun s hs grows => .demand fun b found => ?_
  obtain ⟨houses, inst, mem, declared⟩ := hs.tables.constantBuffers.find? found
  refine .bind (constantU32_yields 0) fun member n later first => ?_
  refine chain_yields (by decide) (houses.places.mono later) (.member first (.element ?_ (.here _)))
  exact (entry inst mem b.size declared).mono (grows.trans later)

/-- An index of an operand is computed by its step. -/
theorem runIndex_yields (given : x.Steps v op steps) (type : OperandType) (d : Nat) :
    Yields x v m (runIndex type steps d).run fun id n => Shader.Given n op d id := by
  unfold runIndex
  split
  · next step found => exact given d step found m
  · exact .fail

@[grind ←]
theorem immediateIndex_safe (op : Operand) (d : Nat) : Safe x v m (immediateIndex op d).run :=
  .orFault _ _

/-- A control point of a hull shader's output. -/
theorem controlPoint_path {w : VertexCounts} (hull : x.env.stage = .hull) (sees : x.Sees w)
    {vertex : Id} (entry : x.Entry m (.ofNat w.outputs) vertex) (type : VectorType) :
    x.Path m ((Shape.vector type).arrayOf (Side.output.vertices x.env.stage w)) [vertex] type := by
  rw [Side.vertices, if_pos hull, Shape.arrayOf, if_neg (sees.outputs hull)]
  exact .element entry (.here type)

theorem outputOperand_yields (is : op.type = .output) (names : x.Names v op)
    (given : x.Steps v op steps) :
    Yields x v m (outputOperand op steps).run fun p n => p.Leads n := by
  have entry (n : Module) (reg : Id) (known : Shader.Given n op 0 reg) : x.Entry n 32 reg :=
    known.entry (w := v) names (by simp [Operand.hasVertex, Operand.isInput, is])
      (by unfold Shader.extents; rw [is]; exact List.mem_singleton_self _)
  refine .read_bind (.ite (fun hull => .state_bind fun s hs _ => .ite (fun _ => ?_) fun _ => ?_)
    fun _ => ?_)
  · refine .after (immediateIndex_safe op 0) fun reg n _ => ?_
    refine .bind invocationId_yields fun vertex o _ computed => ?_
    exact controlPointOutput_yields fun w sees type =>
      controlPoint_path hull (sees hull) (.computed computed) type
  · exact .bind (runIndex_yields given _ 0) fun reg n _ known =>
      patchPointer_yields (.element (entry n reg known) (.here _))
  · exact .bind (runIndex_yields given _ 0) fun reg n _ known =>
      outputPointer_yields (.element (entry n reg known) (.here _))

/-- An input register, of a vertex or not, leads to a place if it fits the stage. -/
theorem input_path (is : op.isInput = true) (names : x.Names v op) {w : VertexCounts}
    (sees : x.Sees w) {vertex? : Option Id} {reg : Id}
    (vertices : vertex?.isSome = decide (2 ≤ op.indices.length))
    (given : ∀ d id, (vertex?.toList ++ [reg])[d]? = some id → Shader.Given m op d id) :
    x.Path m (Shader.registers (w.arrayed x.env.stage)) (vertex?.toList ++ [reg]) float4 := by
  have type : op.type = .input ∨ op.type = .inputControlPoint := by
    simpa [Operand.isInput] using is
  have entry (d : Nat) (id : Id) (found : (vertex?.toList ++ [reg])[d]? = some id) (n : UInt32)
      (extent : n ∈ x.extents w op d) : x.Entry m n id :=
    (given d id found).entry names (fun _ => sees) extent
  have misfit (other : vertex?.isSome ≠ x.env.stage.hasVertices) (shape : Shape) (id : Id)
      (rest : List Id) : x.Path m shape (id :: rest) float4 := by
    refine .misfit op names.uses ?_ shape id rest float4
    rw [vertices] at other
    rcases type with type | type <;> simpa [Operand.Fits, type] using other
  cases vertex? with
  | none =>
    cases hasVertices : x.env.stage.hasVertices with
    | false =>
      rw [VertexCounts.arrayed_eq_zero.2 hasVertices]
      refine .element (entry 0 reg rfl 32 ?_) (.here _)
      rw [(x.extents_of_isInput w is).1, if_neg (by rw [hasVertices]; decide)]
      exact List.mem_singleton_self _
    | true => exact misfit (by rw [hasVertices]; decide) _ _ _
  | some vertex =>
    cases hasVertices : x.env.stage.hasVertices with
    | false => exact misfit (by rw [hasVertices]; simp) _ _ _
    | true =>
      have some_ : w.arrayed x.env.stage ≠ 0 := fun none_ => by
        rw [VertexCounts.arrayed_eq_zero.1 none_] at hasVertices
        cases hasVertices
      rw [Shader.registers, Shape.arrayOf, if_neg some_]
      refine .element (entry 0 vertex rfl _ ?_) (.element (entry 1 reg rfl 32 ?_) (.here _))
      · rw [(x.extents_of_isInput w is).1, if_pos hasVertices]
        exact List.mem_singleton_self _
      · rw [(x.extents_of_isInput w is).2]
        exact List.mem_singleton_self _

theorem inputOperand_yields (is : op.isInput = true) (names : x.Names v op)
    (given : x.Steps v op steps) :
    Yields x v m (if 2 ≤ op.indices.length then do
        let vertex ← runIndex op.type steps 0
        let reg ← runIndex op.type steps 1
        inputPointer (some vertex) reg
      else do
        let reg ← runIndex op.type steps 0
        inputPointer none reg : Emission Pointer).run fun p n => p.Leads n := by
  have sees : x.Sees v := names.sees (by simp [Operand.hasVertex, is])
  refine .ite (fun two => ?_) fun one => ?_
  · refine .bind (runIndex_yields given _ 0) fun vertex n _ first => ?_
    refine .bind (runIndex_yields given _ 1) fun reg o grows second => ?_
    refine inputPointer_yields sees fun w seen => input_path is names seen (by simp [two]) ?_
    intro d id found
    match d with
    | 0 => cases found; exact first.mono grows
    | 1 => cases found; exact second
    | _ + 2 => cases found
  · refine .bind (runIndex_yields given _ 0) fun reg n _ first => ?_
    refine inputPointer_yields sees fun w seen => input_path is names seen (by simp [one]) ?_
    intro d id found
    match d with
    | 0 => cases found; exact first
    | _ + 1 => cases found

theorem indexableTemp_yields (given : x.Steps v op steps) :
    Yields x v m (do
      let reg ← immediateIndex op 0
      let array ← orFault ((← Emission.state).indexableTemps.find? reg) (.undeclared "x" reg)
      if let some element := op.index? 1 then
        if array.length ≤ element.toNat then
          failWith (.indexableTempElement reg element array.length)
      let element ← runIndex op.type steps 1
      chain float4 .priv array.variable_ [element] : Emission Pointer).run
        fun p n => p.Leads n := by
  refine .after (immediateIndex_safe op 0) fun reg n _ => ?_
  refine .state_bind fun s hs _ => .demand fun array found => ?_
  obtain ⟨small, houses⟩ := hs.tables.indexableTemps.find? found
  have inside (below : ∀ k, op.index? 1 = some k → k.toNat < array.length) :
      Yields x v s.builder.module (runIndex op.type steps 1 >>= fun element =>
        chain float4 .priv array.variable_ [element]).run fun p n => p.Leads n := by
    refine .bind (runIndex_yields given _ 1) fun element o later known => ?_
    refine chain_yields (by decide) (houses.places.mono later) (.element ?_ (.here _))
    obtain ⟨k, is, constant⟩ | computed := known
    · refine .below k constant ?_
      rw [UInt32.lt_iff_toNat_lt, UInt32.toNat_ofNat_of_lt' small]
      exact below k is
    · exact .computed computed
  dsimp only
  split
  · next element is =>
    refine .ite (fun _ => .failBind) fun enough => inside fun k same => ?_
    rw [is] at same
    cases same
    omega
  · next none_ =>
    exact inside fun k same => (none_ k same).elim

theorem constantBuffer_yields (is : op.type = .constantBuffer) (names : x.Names v op)
    (given : x.Steps v op steps) :
    Yields x v m (do
      let slot ← immediateIndex op 0
      let element ← runIndex op.type steps 1
      constantBufferPointer slot element : Emission Pointer).run fun p n => p.Leads n := by
  refine .demand fun slot first => ?_
  refine .bind (runIndex_yields given _ 1) fun element n _ known => ?_
  refine constantBufferPointer_yields fun inst mem size declared => ?_
  refine known.entry (w := v) names (by simp [Operand.hasVertex, Operand.isInput, is]) ?_
  unfold Shader.extents
  rw [is]
  exact List.mem_filterMap.2 ⟨inst, mem, by simp [declared, first]⟩

theorem immediateConstants_yields (is : op.type = .immediateConstantBuffer) (names : x.Names v op)
    (given : x.Steps v op steps) :
    Yields x v m (do
      let array ← orFault (← Emission.state).immediateConstants? .noImmediateConstants
      let element ← runIndex op.type steps 0
      chain (.four .u32) .priv array [element] : Emission Pointer).run fun p n => p.Leads n := by
  refine .state_bind fun s hs _ => .demand fun array found => ?_
  obtain ⟨length, houses, inst, mem, declared⟩ := hs.tables.immediates array found
  refine .bind (runIndex_yields given _ 0) fun element n grows known => ?_
  refine chain_yields (by decide) (houses.places.mono grows) (.element ?_ (.here _))
  refine known.entry (w := v) names (by simp [Operand.hasVertex, Operand.isInput, is]) ?_
  unfold Shader.extents
  rw [is]
  exact List.mem_filterMap.2 ⟨inst, mem, declared⟩

theorem outputControlPoint_yields (is : op.type = .outputControlPoint) (names : x.Names v op)
    (given : x.Steps v op steps) :
    Yields x v m (do
      let vertex ← runIndex op.type steps 0
      let reg ← immediateIndex op 1
      controlPointOutput reg vertex : Emission Pointer).run fun p n => p.Leads n := by
  refine .bind (runIndex_yields given _ 0) fun vertex n _ known => ?_
  refine .after (immediateIndex_safe op 1) fun reg o grows => ?_
  refine controlPointOutput_yields fun w sees type => ?_
  by_cases hull : x.env.stage = .hull
  · refine controlPoint_path hull (sees hull) ?_ type
    exact (known.mono grows).entry names (fun _ => sees hull)
      (by unfold Shader.extents; rw [is]; exact List.mem_singleton_self _)
  · exact .misfit op names.uses (by simp [Operand.Fits, is, hull]) _ _ _ _

theorem instanceId_yields :
    Yields x v m (do
      let phase ← orFault (← Emission.state).stage.currentPhase? .instanceIdOutsidePhase
      chain (.single .u32) .priv phase.instanceId [] : Emission Pointer).run
        fun p n => p.Leads n := by
  refine .state_bind fun s hs _ => .demand fun phase found => ?_
  obtain ⟨h, hull, mem⟩ := StageState.exists_phases found
  have houses := hs.tables.phases h hull phase mem
  exact chain_yields (by decide) houses.places (.here _)

theorem coverage_yields (storage : StorageClass) :
    Yields x v m (do
      let element ← constantU32 0
      builtinPointer .sampleMask storage none (some element) : Emission Pointer).run
        fun p n => p.Leads n := by
  refine .bind (constantU32_yields 0) fun element n _ first => ?_
  have one : isPerVertex x.env.stage .sampleMask storage = false := by simp [isPerVertex]
  refine builtinPointer_yields (by simp [one]) (by simp [one]) fun _ => ⟨element, rfl, ?_⟩
  exact .below 0 first (by change (0 : UInt32) < 1; decide)

/-- The place that an operand names. -/
theorem pointerWith_yields (names : x.Names v op) (given : x.Steps v op steps) :
    Yields x v m (pointerWith op steps).run fun p n => p.Leads n := by
  unfold pointerWith
  dsimp only
  split
  next is =>
    refine .after (immediateIndex_safe op 0) fun reg n _ => ?_
    refine .bind (temp_yields reg) fun id o _ places => ?_
    exact chain_yields (by decide) places (.here _)
  next => exact indexableTemp_yields given
  next is => exact inputOperand_yields (by simp [Operand.isInput, is]) names given
  next is => exact inputOperand_yields (by simp [Operand.isInput, is]) names given
  next is =>
    refine .bind (runIndex_yields given _ 0) fun reg n _ known => ?_
    refine patchPointer_yields (.element ?_ (.here _))
    exact known.entry (w := v) names (by simp [Operand.hasVertex, Operand.isInput, is])
      (by unfold Shader.extents; rw [is]; exact List.mem_singleton_self _)
  next is => exact outputControlPoint_yields is names given
  next is => exact outputOperand_yields is names given
  next is => exact constantBuffer_yields is names given
  next is => exact immediateConstants_yields is names given
  next => exact instanceId_yields
  next => exact instanceId_yields
  next => exact builtinPointer_single rfl .input none none
  next => exact builtinPointer_single rfl .input none none
  next => exact builtinPointer_single rfl .input none none
  next => exact builtinPointer_single rfl .input none none
  next => exact builtinPointer_single rfl .input none none
  next => exact builtinPointer_single rfl .input none none
  next => exact builtinPointer_single rfl .input none none
  next => exact builtinPointer_single rfl .input none none
  next => exact coverage_yields .input
  next => exact coverage_yields .output
  next => exact builtinPointer_single rfl .output none none
  next => exact builtinPointer_single rfl .output none none
  next => exact builtinPointer_single rfl .output none none
  next => exact .fail

theorem readWith_safe (names : x.Names v op) (given : x.Steps v op steps) (mask : WriteMask) :
    Safe x v m (readWith op steps mask).run := by
  have place : Safe x v m (pointerWith op steps).run := (pointerWith_yields names given).safe
  unfold readWith readLanes readPlace
  grind

/-- The steps for indices, one for each. -/
theorem getElem?_indexSteps {indices : List (Index Operand)} {d : Nat} {step : Emission Id}
    (found : (indexSteps indices)[d]? = some step) :
    ∃ index, indices[d]? = some index ∧
      step = indexFrom index.offset (index.relative.map (readOperand · .x)) := by
  induction indices generalizing d with
  | nil =>
    rw [indexSteps] at found
    cases found
  | cons index rest ih =>
    rw [indexSteps] at found
    cases d with
    | zero =>
      obtain ⟨offset, relative⟩ := index
      refine ⟨_, rfl, ?_⟩
      cases relative <;> · simpa [indexStep, relativeStep] using found.symm
    | succ d => exact ih found

/-- An index is a number, or computed from what is added to it. -/
theorem indexFrom_yields {d : Nat} {index : Index Operand} (is : op.indices[d]? = some index)
    (signed : ∀ r, index.relative = some r → r.data = .sint32)
    (safe : ∀ r, index.relative = some r → ∀ m, Safe x v m (readOperand r .x).run) :
    Yields x v m (indexFrom index.offset (index.relative.map (readOperand · .x))).run
      fun id n => Shader.Given n op d id := by
  cases relative : index.relative with
  | none =>
    refine (constant_yields .u32 (by decide) _).imp fun id n _ constant => ?_
    refine .inl ⟨index.offset, ?_, constant⟩
    rw [Operand.index?, is, Option.bind_some, Index.immediate?, relative]
  | some r =>
    have type : ∀ s value t, (readOperand r .x).run x.env s = (.ok value, t) →
        value.type.scalar = .i32 := by
      intro s value t ran
      have some_ : sourceLanes r .x ≠ [] := by
        intro none_
        have := length_sourceLanes r .x
        rw [none_] at this
        cases this
      rw [readOperand_type some_ ran, signed r relative]
      rfl
    refine Yields.bind ((safe r relative m).also type) fun value n _ known => ?_
    have number : value.type.scalar ≠ .bool := by rw [known.1]; decide
    have other : value.type.scalar ≠ .u32 := by rw [known.1]; decide
    refine .bind (bitcast_yields number other) fun word o _ computed => ?_
    refine .ite (fun _ => .pure fun _ grows => .inr (computed.mono grows)) fun _ => ?_
    refine .after (scalarType_safe .u32) fun type p _ => ?_
    refine .after (constant_safe .u32 _) fun offset q _ => ?_
    exact (emitValue_free rfl type _).imp fun id _ _ value => .inr value.2

theorem sizeOf_relative {op r : Operand} {index : Index Operand} (h : index ∈ op.indices)
    (added : index.relative = some r) : sizeOf r < sizeOf op := by
  have inner := List.sizeOf_lt_of_mem h
  obtain ⟨offset, relative⟩ := index
  subst added
  obtain ⟨type, data, components, selection, mask, swizzle, modifier, indices, imm⟩ := op
  simp only [Index.mk.sizeOf_spec, Option.some.sizeOf_spec, Operand.mk.sizeOf_spec] at inner ⊢
  omega

/-- The steps for the indices of an operand compute them; by induction on the operands in them. -/
theorem indexSteps_given (op : Operand) (names : x.Names v op) :
    x.Steps v op (indexSteps op.indices) := by
  intro d step found m
  obtain ⟨index, is, rfl⟩ := getElem?_indexSteps found
  have mem := List.mem_of_getElem? is
  refine indexFrom_yields is (fun r added => (names.relative mem added).2) fun r added m => ?_
  have smaller := sizeOf_relative mem added
  rw [readOperand_eq]
  exact readWith_safe (names.relative mem added).1
    (indexSteps_given r (names.relative mem added).1) .x
termination_by sizeOf op

theorem operandPointer_yields (names : x.Names v op) :
    Yields x v m (operandPointer op).run fun p n => p.Leads n :=
  pointerWith_yields names (indexSteps_given op names)

@[grind ←]
theorem readOperand_safe (names : x.Names v op) (mask : WriteMask) :
    Safe x v m (readOperand op mask).run := by
  rw [readOperand_eq]
  exact readWith_safe names (indexSteps_given op names) mask

@[grind ←]
theorem writeOperand_safe (names : x.Names v op) (value : Value) (isSaturated : Bool) :
    Safe x v m (writeOperand op value isSaturated).run := by
  have write (value : Value) : Safe x v m
      (operandPointer op >>= fun p => storeMasked p value op.mask).run :=
    Yields.bind (operandPointer_yields names)
      fun p _ _ leads => storeMasked_safe leads value op.mask
  unfold writeOperand
  exact .ite (.pure _)
    (.ite (.bind (saturate_routine .anything).safe write) (.bind (.pure value) write))

@[grind ←]
theorem readScalar_safe (names : x.Names v op) (scalar : ScalarType) :
    Safe x v m (readScalar op scalar).run := by
  unfold readScalar
  grind

@[grind ←]
theorem readVector_safe (names : x.Names v op) (count : Nat) (scalar : ScalarType) :
    Safe x v m (readVector op count scalar).run := by
  unfold readVector
  grind

end Lower

section

variable {α : Type} {x : Shader} {v : VertexCounts} {m : Module} {inst : Instruction}
  {f : Operand → Emission α}

theorem Yields.source {post : α → Module → Prop} (runs : x.Runs v inst) {n : Nat}
    (later : ∀ op, inst.src[n]? = some op → x.Names v op → Yields x v m (f op).run post) :
    Yields x v m (Lower.source inst n >>= f).run post := by
  refine .demand fun op found => later op found (.of_mem runs ?_)
  exact List.mem_append_right _ (List.mem_of_getElem? found)

theorem Yields.destination {post : α → Module → Prop} (runs : x.Runs v inst) {n : Nat}
    (later : ∀ op, inst.dst[n]? = some op → x.Names v op → Yields x v m (f op).run post) :
    Yields x v m (Lower.destination inst n >>= f).run post := by
  refine .demand fun op found => later op found (.of_mem runs ?_)
  exact List.mem_append_left _ (List.mem_of_getElem? found)

@[grind ←]
theorem Safe.source (runs : x.Runs v inst) {n : Nat}
    (later : ∀ op, x.Names v op → Safe x v m (f op).run) :
    Safe x v m (Lower.source inst n >>= f).run :=
  Yields.source runs fun op _ => later op

@[grind ←]
theorem Safe.destination (runs : x.Runs v inst) {n : Nat}
    (later : ∀ op, x.Names v op → Safe x v m (f op).run) :
    Safe x v m (Lower.destination inst n >>= f).run :=
  Yields.destination runs fun op _ => later op

end

end ShaderLowering
