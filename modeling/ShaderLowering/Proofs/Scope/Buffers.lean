import ShaderLowering.Lowering.Atomic
import ShaderLowering.Proofs.Scope.Resources
import ShaderLowering.Proofs.Typing.Buffers

/-!
Buffer access, atomics and counters refer to declared variables and to what operands supply.
-/

namespace ShaderLowering

open Spirv (Id Instr Arg Op Builder)

instance : Refers DwordArray := ⟨fun p a => p a.variable_, fun h => h _, fun _ => trivial⟩

instance : Refers Lower.AtomicTarget :=
  ⟨fun p a => p a.pointer, fun h => h _, fun _ => trivial⟩

instance : Refers Operand := ⟨fun _ _ => True, fun _ h => h, fun _ => trivial⟩

variable {H : Limits} {T : Allowance} {env : Environment} {b : Builder} {array : DwordArray}

@[simp, grind =]
theorem Known.dwordArray_iff : Known H b array ↔ b.Available H array.variable_ := Iff.rfl

@[simp, grind =]
theorem Known.atomicTarget_iff {a : Lower.AtomicTarget} :
    Known H b a ↔ b.Available H a.pointer := Iff.rfl

@[simp, grind =]
theorem Known.operand_iff {op : Operand} : Known H b op ↔ True := Iff.rfl

namespace Lower

@[grind ←]
theorem dwordArray_supplies (op : Operand) : Supplies H env b (dwordArray op).run := by
  unfold dwordArray
  split
  · refine .demand fun reg _ => .state_bind fun s ready _ => .demand fun memory found => ?_
    exact .pure (ready.kept.groupMemory.find? found).available
  · grind -linarith

theorem dwordPointer_supplies (known : Known H b array) {index : Id}
    (known' : b.Available H index) :
    Supplies H env b (dwordPointer array index).run := by
  refine .after (scalarType_establishes .u32) fun word c _ global =>
    .after (pointerType_establishes global _) fun pointer d _ typed => .ite ?_ ?_
  all_goals grind -linarith

@[grind ←]
theorem firstDword_supplies (stride : UInt32) (element? : Option Operand) (offset : Operand) :
    Supplies (.tables T) env b (firstDword stride element? offset).run := by
  refine .bind (readScalar_supplies _ _) fun offset c _ _ => ?_
  cases element? with
  | none => grind -linarith
  | some element =>
    refine .bind (readScalar_supplies _ _) fun element d _ _ => .bind ?_ fun bytes e _ _ => ?_
    all_goals grind -linarith

@[grind ←]
theorem bufferSources_supplies (inst : Instruction) (isStructured : Bool) :
    Supplies H env b (bufferSources inst isStructured).run := by
  unfold bufferSources source
  grind -linarith

theorem lowerBufferLoad_supplies (inst : Instruction) :
    Supplies (.tables T) env b (lowerBufferLoad inst).run := by
  refine .destination fun op => .bind (bufferSources_supplies _ _) fun sources c _ _ =>
    .bind (dwordArray_supplies _) fun array d _ array_ =>
    .bind (firstDword_supplies _ _ _) fun first e within first_ =>
    .bind (scalarType_supplies _) fun word f within' typed =>
    .bind (.mapM fun lane g later => ?_) fun parts g _ _ => ?_
  · refine .bind (dwordAfter_routine ((first_.mono within').mono later) lane).supplies
      fun index h within'' index_ => ?_
    refine .bind
      (dwordPointer_supplies ((((array_.mono within).mono within').mono later).mono within'')
      index_) fun pointer i last _ => ?_
    exact (loadFrom_routine (((typed.mono later).mono within'').mono last)
      (by grind -linarith)).supplies
  · grind -linarith

theorem lowerBufferStore_supplies (inst : Instruction) :
    Supplies (.tables T) env b (lowerBufferStore inst).run := by
  refine .destination fun op => .bind (bufferSources_supplies _ _) fun sources c _ _ =>
    .ite (.pure trivial) ?_
  refine .bind (dwordArray_supplies _) fun array d _ array_ =>
    .bind (firstDword_supplies _ _ _) fun first e within first_ =>
    .bind (readOperand_supplies _ _) fun value f within' value_ =>
    .bind (bitcast_routine value_ _).supplies fun value g within'' value_ =>
    .bind (.forIn fun part _ h later => ?_) fun _ _ _ _ => .pure trivial
  replace array_ := (((array_.mono within).mono within').mono within'').mono later
  replace first_ := ((first_.mono within').mono within'').mono later
  replace value_ := value_.mono later
  refine .bind (dwordAfter_routine first_ part.1).supplies fun index i within index_ =>
    .bind (dwordPointer_supplies (array_.mono within) index_) fun pointer j within' pointer_ =>
    .bind (extract_routine ((value_.mono within).mono within') part.2).supplies
    fun word k within'' word_ =>
    .bind (storeTo_routine (pointer_.mono within'') word_).supplies fun _ _ _ _ =>
    .pure fun _ _ => trivial

theorem lowerTypedLoad_supplies (inst : Instruction) :
    Supplies (.tables T) env b (lowerTypedLoad inst).run := by
  refine .destination fun op => .source fun resourceOp => .bind (typedImage_supplies _)
    fun view c _ _ => .source fun address => .bind (readVector_supplies _ _ _) fun coord d _ _ =>
    .bind (loadImage_supplies ?_ _) fun loaded e _ _ =>
    .bind (.bind (vectorType_supplies _) fun typeId f _ _ => .bind (emitValue_supplies rfl ?_ ?_)
      fun texel g _ known => .pure known) fun value f _ _ => ?_
  all_goals grind -linarith

theorem lowerTypedStore_supplies (inst : Instruction) :
    Supplies (.tables T) env b (lowerTypedStore inst).run := by
  refine .destination fun op => .bind (typedImage_supplies _) fun view c _ _ =>
    .source fun address => .bind (readVector_supplies _ _ _) fun coord d _ _ =>
    .source fun data => .bind (readOperand_supplies _ _) fun value e _ _ =>
    .bind (bitcast_routine ?_ _).supplies fun value f _ _ =>
    .bind (loadImage_supplies ?_ _) fun loaded g _ _ => ?_
  all_goals grind -linarith

theorem lowerBufferQuery_supplies (inst : Instruction) :
    Supplies (.tables T) env b (lowerBufferQuery inst).run := by
  refine .destination fun op => .source fun operand => .bind (resource_supplies _) fun r c _ _ =>
    .bind (scalarType_supplies _) fun word d _ _ => ?_
  have write (id : Id) (e : Builder) (known : Known (.tables T) e id) :
      Supplies (.tables T) env e (writeOperand op ⟨.single .u32, id⟩ false).run :=
    writeOperand_supplies op known false
  split
  · refine .bind (requireCapability_supplies _) fun _ e _ _ => .bind (loadImage_supplies ?_ _)
      fun loaded f _ _ => .bind (scalarType_supplies _) fun int g _ _ =>
      .bind (emitValue_supplies (by decide) ?_ ?_) fun size h _ _ =>
      .bind (emitValue_supplies (by decide) ?_ ?_) fun id i _ known => write id i known
    all_goals grind -linarith
  · refine .bind (emitValue_supplies (by decide) ?_ ?_) fun dwords e _ _ =>
      .bind (constantU32_supplies _) fun four f _ _ =>
      .bind (emitValue_supplies (by decide) ?_ ?_) fun bytes g _ known =>
      .ite (.bind (.pure known) fun id h _ known => write id h known)
      (.bind (constant_supplies _ _) fun stride h _ _ =>
      .bind (emitValue_supplies (by decide) ?_ ?_) fun id i _ known => write id i known)
    all_goals grind -linarith

theorem atomicDword_supplies (array : DwordArray) (address : Operand) :
    Supplies (.tables T) env b (atomicDword array address).run := by
  refine .ite (firstDword_supplies _ _ _) ?_
  refine .bind (readVector_supplies _ _ _) fun address c _ _ =>
    .bind (extract_routine ?_ _).supplies
    fun element d _ _ => .bind (extract_routine ?_ _).supplies fun offset e _ _ =>
    .bind (structureByte_routine _ ?_ ?_).supplies fun bytes f _ _ => ?_
  all_goals grind -linarith

theorem atomicTexel_supplies {r : Resource} (known : Known (.tables T) b r) (image : ImageType)
    (address : Operand) : Supplies (.tables T) env b (atomicTexel r image address).run := by
  refine .bind (readVector_supplies _ _ _) fun coord c _ _ =>
    .after (scalarType_establishes _) fun texel d _ global =>
    .after (pointerType_establishes global _) fun pointer e _ _ =>
    .bind (constantU32_supplies _) fun sample f _ _ => ?_
  grind -linarith

@[grind ←]
theorem typedView?_supplies (op : Operand) : Supplies H env b (typedView? op).run := by
  refine .ite (.bind (resource_supplies op) fun r c _ known => .pure ?_) (.pure (by simp))
  intro view is
  obtain ⟨image, _, rfl⟩ := Option.map_eq_some_iff.1 is
  exact ⟨known, trivial⟩

theorem atomicTarget_supplies (op address : Operand) :
    Supplies (.tables T) env b (atomicTarget op address).run := by
  refine .bind (typedView?_supplies op) fun view? c _ known => ?_
  split
  · next r image =>
    refine .bind (atomicTexel_supplies (by grind -linarith) image address)
      fun pointer d _ known => ?_
    exact .pure known
  · refine .bind (dwordArray_supplies op) fun array d _ array_ =>
      .bind (atomicDword_supplies array address) fun index e within index_ =>
      .bind (dwordPointer_supplies (array_.mono within) index_) fun pointer f _ known => .pure known

theorem lowerAtomic_supplies (inst : Instruction) :
    Supplies (.tables T) env b (lowerAtomic inst).run := by
  refine .ite (.destination fun out => .destination fun op => ?_) (.destination fun op => ?_)
  all_goals
    refine .after (q := fun _ _ => True) (.pure fun _ _ => trivial) fun operands c _ _ => ?_
    obtain ⟨out?, op⟩ := operands
    refine .source fun address => .bind (atomicTarget_supplies op address) fun target d _ target_ =>
      .bind (scalarType_supplies _) fun type e _ _ => .bind (constant_supplies _ _)
      fun scope f within _ => .bind (constant_supplies _ _) fun semantics g within' _ =>
      .source fun data => .bind (readScalar_supplies _ _) fun first h within'' _ => ?_
    have typed : h.Available (.tables T) type := by grind -linarith
    extract_lets store
    have write (id : Id) (i : Builder) (known : Known (.tables T) i id) :
        Supplies (.tables T) env i (store id).run := by
      dsimp only [store]
      split
      · exact writeOperand_supplies _ known _
      · exact .pure trivial
    refine .ite (.source fun operand => .bind (readScalar_supplies _ _) fun value i later _ =>
      .bind (emitValue_supplies (by decide) (typed.mono later) ?_) fun id j _ known =>
      write id j known) ?_
    · grind -linarith
    · split
      · next f is =>
        obtain ⟨_, _, is⟩ := Option.bind_eq_some_iff.1 is
        have computes := atomicOp?_isRoutine is
        refine .bind (emitValue_supplies (Op.isPlain_of_isRoutine computes) typed ?_)
          fun id i _ known => write id i known
        grind -linarith
      · exact .bind (unsupported_supplies _) fun id i _ known => write id i known

/-- What is done with a counter. -/
theorem countWith_supplies (inst : Instruction) (op : Operand) {counter : Id}
    (stands : b.Standing (.tables T) counter) : Supplies (.tables T) env b (do
      let word ← scalarType .u32
      let member ← constantU32 0
      let one ← constantU32 1
      let pointerTypeId ← pointerType word .storageBuffer
      let pointer ← emitValue .accessChain pointerTypeId [.id counter, .id member]
      let scope ← constant .u32 Spirv.Scope.device.code
      let semantics ← constant .u32 Spirv.MemorySemantics.relaxed.bits
      let args : List Arg := [.id pointer, .id scope, .id semantics, .id one]
      let id ←
        if inst.op? = some .immAtomicAlloc then emitValue .atomicIAdd word args
        else
          let before ← emitValue .atomicISub word args
          emitValue .iSub word [.id before, .id one]
      writeOperand op ⟨.single .u32, id⟩ false : Emission Unit).run := by
  refine .after (scalarType_establishes _) fun word d _ global =>
    .bind (constantU32_supplies _) fun member e within _ =>
    .bind (constantU32_supplies _) fun one f within' _ =>
    .after (pointerType_establishes ((global.mono within).mono within') _) fun type g within'' _ =>
    .bind (emitValue_supplies (by decide) ?_ ?_) fun pointer h later _ =>
    .bind (constant_supplies _ _) fun scope i later' _ => .bind (constant_supplies _ _)
    fun semantics j last _ => ?_
  · grind -linarith
  · grind -linarith
  · dsimp only
    have known : Known (.tables T) j
        ([.id pointer, .id scope, .id semantics, .id one] : List Arg) := by grind -linarith
    have typed : j.Available (.tables T) word :=
      ((((((global.mono within).mono within').mono within'').mono later).mono later').mono
        last).available
    have write (id : Id) (k : Builder) (known : Known (.tables T) k id) :
        Supplies (.tables T) env k (writeOperand op ⟨.single .u32, id⟩ false).run :=
      writeOperand_supplies op known false
    refine .ite (.bind (emitValue_supplies (by decide) typed known) fun id k _ known =>
      write id k known)
      (.bind (emitValue_supplies (by decide) typed known) fun before k _ _ =>
      .bind (emitValue_supplies (by decide) ?_ ?_) fun id l _ known => write id l known)
    all_goals grind -linarith

theorem lowerCounter_supplies (inst : Instruction)
    (may : ∀ slot, inst.src[0]?.bind (·.index? 0) = some slot → T.binds (.counter slot)) :
    Supplies (.tables T) env b (lowerCounter inst).run :=
  .destination fun op => .demand fun uav found => .demand fun slot is =>
    .after (uavCounter_does (may slot (by rw [found]; exact is))) fun _ _ _ stands =>
      countWith_supplies inst op stands

/-- The counter that is used is bound in the end. -/
theorem lowerCounter_counts {inst : Instruction} {s t : State} (ready : Ready (.tables T) s)
    (may : ∀ slot, inst.src[0]?.bind (·.index? 0) = some slot → T.binds (.counter slot))
    (ran : (lowerCounter inst).run env s = (.ok (), t)) (slot : UInt32)
    (is : inst.src[0]?.bind (·.index? 0) = some slot) :
    (t.bound .uavCounter slot).isSome = true := by
  obtain ⟨op, s₁, read_, ran₁⟩ := Emission.run_bind_eq_ok.1 ran
  obtain ⟨_, rfl⟩ := orFault_run_eq_ok.1 read_
  obtain ⟨uav, s₂, read_, ran₂⟩ := Emission.run_bind_eq_ok.1 ran₁
  obtain ⟨found, rfl⟩ := orFault_run_eq_ok.1 read_
  obtain ⟨slot', s₃, index_, ran₃⟩ := Emission.run_bind_eq_ok.1 ran₂
  obtain ⟨index, rfl⟩ := orFault_run_eq_ok.1 index_
  have same : slot' = slot := by
    rw [found] at is
    exact Option.some.inj (index.symm.trans is)
  subst same
  obtain ⟨counter, u, bound_, ran₄⟩ := Emission.run_bind_eq_ok.1 ran₃
  obtain ⟨acts, bound⟩ := uavCounter_runs (may slot' is) counter u ready bound_
  obtain ⟨acts', _⟩ := countWith_supplies inst op
    (standing_of_bound (acts.ready ready).kept bound) u () t (acts.ready ready) (.refl _) ran₄
  rw [Acts.bound acts' bound]
  rfl

/-- A barrier whose scopes and semantics are given by constants. -/
theorem barrier_supplies (events : H.events) {execution memory semantics : Id}
    (known : Known H b [Arg.id execution, .id memory, .id semantics]) :
    Supplies H env b (emit .controlBarrier [.id execution, .id memory, .id semantics]).run :=
  Does.push (.inr ⟨rfl, events⟩) known.ids

theorem lowerBarrier_supplies (inst : Instruction) :
    Supplies (.tables T) env b (lowerBarrier inst).run := by
  refine .bind (constant_supplies _ _) fun memory c _ memory_ => .bind (constant_supplies _ _)
    fun semantics d within semantics_ => .ite (.bind (constant_supplies _ _)
    fun execution e within' known => barrier_supplies trivial ?_) (.ite ?_ ?_)
  · grind -linarith
  · grind -linarith
  · exact .pure trivial

end Lower

end ShaderLowering
