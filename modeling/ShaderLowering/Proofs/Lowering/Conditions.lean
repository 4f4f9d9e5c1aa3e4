import ShaderLowering.Proofs.Lowering.Draft

/-!
What the code for a condition looks like. Its last instruction compares the tested word with the
constant zero, so the outcome of a test can be read off the block that branches on it.
-/

namespace ShaderLowering

open Spirv (Id Instr Node)

/-- Code that ends with a test of some word against the constant zero, under the id `id`. -/
def EndsWithTest (globals : Array Instr) (code : List Instr) (test : ZeroTest) (id : Id) : Prop :=
  ∃ before type constantType word constant,
    code = before ++
      [⟨.ordinary (Lower.comparison test), some type, some id, [.id word, .id constant]⟩] ∧
    ⟨.ordinary .constant, some constantType, some constant, [.word 0]⟩ ∈ globals.toList

/-- The open node of a draft ends with a test. -/
def Draft.Tests (d : Draft) (test : ZeroTest) (id : Id) : Prop :=
  ∃ n, d.open? = some n ∧ EndsWithTest d.globals n.body test id

/-- Ordinary steps only add globals. -/
theorem Adds.globals {s t : State} (h : Adds s t) :
    s.builder.module.globals.toList <+: t.builder.module.globals.toList := by
  cases h with
  | fresh | annotate | stage => exact List.prefix_rfl
  | declare key =>
    obtain ⟨id, _, _, same⟩ | ⟨_, new⟩ := s.builder.declare_eq key
    · simp only [same, List.prefix_rfl]
    · rw [new]
      exact Draft.prefix_push _ _
  | declareNew => exact Draft.prefix_push _ _
  | newVariable p storage initial? => exact s.builder.globals_variable p storage initial?
  | temp p => exact s.builder.globals_variable p .priv none
  | push _ _ _ _ _ placed =>
    obtain ⟨_, _, _, _, rfl⟩ := Spirv.Builder.push_eq_ok.1 placed
    exact List.prefix_rfl
  | note _ same => exact same.globals ▸ List.prefix_rfl

theorem Emits.globals {s t : State} (h : Emits s t) :
    s.builder.module.globals.toList <+: t.builder.module.globals.toList := by
  induction h with
  | refl => exact List.prefix_rfl
  | step _ last ih => exact ih.trans last.globals

namespace Lower

open Emission

variable {env : Environment} {s t : State}

/-- Requests for a type or constant give the id of a global that looks as requested. -/
theorem declare_mem {key : Spirv.Key} {id : Id}
    (h : (Emission.declare key).run env s = (.ok id, t)) :
    key.declaration id ∈ t.builder.module.globals.toList := by
  obtain ⟨rfl, rfl⟩ : (s.builder.declare key).1 = id ∧
      { s with builder := (s.builder.declare key).2 } = t := by
    cases h
    exact ⟨rfl, rfl⟩
  obtain ⟨id, _, mem, same⟩ | ⟨_, new⟩ := s.builder.declare_eq key
  · rw [same]
    exact mem
  · rw [new]
    exact s.builder.mem_declareNew key.op key.type? key.args

/-- A constant word is a global with its bits. -/
theorem constant_mem {bits : UInt32} {id : Id}
    (h : (constant .u32 bits).run env s = (.ok id, t)) :
    ∃ type, ⟨.ordinary .constant, some type, some id, [.word bits]⟩ ∈
      t.builder.module.globals.toList := by
  obtain ⟨type, u, _, h⟩ := run_bind_eq_ok.1 h
  exact ⟨type, declare_mem h⟩

/-- The last instruction of an operation. -/
theorem operate_push {op : Spirv.Op} {type : VectorType} {args : List Id} {v : Value}
    (h : (operate op type args).run env s = (.ok v, t)) :
    v.type = type ∧ ∃ u typeId b, Emits s u ∧
      u.builder.push ⟨.ordinary op, some typeId, some v.id, args.map .id⟩ = .ok b ∧
      t = { u with builder := b } := by
  obtain ⟨typeId, s₁, typed, h⟩ := run_bind_eq_ok.1 h
  obtain ⟨id, s₂, computed, h⟩ := run_bind_eq_ok.1 h
  obtain ⟨id', s₃, taken, h'⟩ := run_bind_eq_ok.1 computed
  obtain ⟨_, s₄, pushed, h''⟩ := run_bind_eq_ok.1 h'
  cases h
  cases h''
  obtain ⟨b, placed, rfl⟩ := run_push_eq_ok.1 pushed
  exact ⟨rfl, s₃, typeId, b, (emits_of_run typed).trans (emits_of_run taken), placed, rfl⟩

theorem operate_type {op : Spirv.Op} {type : VectorType} {args : List Id} {v : Value}
    (h : (operate op type args).run env s = (.ok v, t)) : v.type = type :=
  (operate_push h).1

theorem boolToMask_type {value v : Value} (h : (boolToMask value).run env s = (.ok v, t)) :
    v.type = ⟨.u32, value.type.count⟩ := by
  obtain ⟨_, _, _, h⟩ := run_bind_eq_ok.1 h
  obtain ⟨_, _, _, h⟩ := run_bind_eq_ok.1 h
  exact operate_type h

theorem recast_type {value v : Value} {scalar : ScalarType}
    (h : (recast value scalar).run env s = (.ok v, t)) :
    v.type = ⟨scalar, value.type.count⟩ := by
  unfold recast at h
  split at h
  · next same =>
    cases h
    rw [← same]
  · exact operate_type h

theorem bitcast_type {value v : Value} {scalar : ScalarType}
    (h : (bitcast value scalar).run env s = (.ok v, t)) :
    v.type = ⟨scalar, value.type.count⟩ := by
  unfold bitcast at h
  split at h
  · next same =>
    cases h
    rw [← same]
  · split at h
    · obtain ⟨mask, _, masked, h⟩ := run_bind_eq_ok.1 h
      rw [recast_type h, boolToMask_type masked]
    · exact recast_type h

theorem extract_type {value v : Value} {component : Nat}
    (h : (extract value component).run env s = (.ok v, t)) :
    v.type = .single value.type.scalar := by
  unfold extract at h
  split at h
  · next single =>
    cases h
    rw [VectorType.single, ← single]
  · obtain ⟨_, _, _, h⟩ := run_bind_eq_ok.1 h
    obtain ⟨_, _, _, h⟩ := run_bind_eq_ok.1 h
    cases h
    rfl

theorem extend_type {value v : Value} {count : Nat}
    (h : (extend value count).run env s = (.ok v, t)) :
    v.type = value.type ∧ (count ≤ 1 ∨ value.type.count = count) ∨
      v.type = ⟨value.type.scalar, count⟩ := by
  unfold extend at h
  split at h
  · next few =>
    cases h
    exact .inl ⟨rfl, few⟩
  · obtain ⟨_, _, _, h⟩ := run_bind_eq_ok.1 h
    exact .inr (operate_type h)

theorem padToFour_scalar {value v : Value}
    (h : (padToFour value).run env s = (.ok v, t)) : v.type.scalar = value.type.scalar := by
  unfold padToFour at h
  split at h
  · cases h
    rfl
  · obtain ⟨_, _, _, h⟩ := run_bind_eq_ok.1 h
    obtain ⟨_, _, _, h⟩ := run_bind_eq_ok.1 h
    rw [operate_type h]
    rfl

/-- Picking components keeps the scalar type and gives one component for each lane. -/
theorem pick_type {value v : Value} {lanes : List Nat} (some_ : lanes ≠ [])
    (h : (pick value lanes).run env s = (.ok v, t)) :
    v.type = ⟨value.type.scalar, lanes.length⟩ := by
  have positive : 1 ≤ lanes.length := List.length_pos_iff.2 some_
  unfold pick at h
  split at h
  · next same =>
    cases h
    rw [same, List.length_range]
  · split at h
    · next single =>
      obtain ⟨same, few⟩ | h := extend_type h
      · have : lanes.length = 1 := by omega
        rw [same, this, ← single]
      · exact h
    · split at h
      · exact extract_type h
      · obtain ⟨_, _, _, h⟩ := run_bind_eq_ok.1 h
        obtain ⟨_, _, _, h⟩ := run_bind_eq_ok.1 h
        cases h
        rfl

theorem swizzle_type {value v : Value} {lanes : List Nat} (some_ : lanes ≠ [])
    (h : (swizzle value lanes).run env s = (.ok v, t)) :
    v.type = ⟨value.type.scalar, lanes.length⟩ := by
  unfold swizzle at h
  rw [if_neg (by simpa using some_)] at h
  split at h
  · obtain ⟨padded, _, full, h⟩ := run_bind_eq_ok.1 h
    rw [pick_type some_ h, padToFour_scalar full]
  · exact pick_type some_ h

theorem constantValue_type {scalar : ScalarType} {bits : List UInt32} {v : Value}
    (h : (constantValue scalar bits).run env s = (.ok v, t)) : v.type = ⟨scalar, bits.length⟩ := by
  obtain ⟨_, _, _, h⟩ := run_bind_eq_ok.1 h
  cases h
  rfl

theorem extended_type {op : Spirv.ExtOp} {type : VectorType} {args : List Id} {v : Value}
    (h : (extended op type args).run env s = (.ok v, t)) : v.type = type := by
  obtain ⟨_, _, _, h⟩ := run_bind_eq_ok.1 h
  obtain ⟨_, _, _, h⟩ := run_bind_eq_ok.1 h
  obtain ⟨_, _, _, h⟩ := run_bind_eq_ok.1 h
  cases h
  rfl

theorem applyModifier_type {value v : Value} {modifier : Modifier}
    (h : (applyModifier value modifier).run env s = (.ok v, t)) : v.type = value.type := by
  obtain ⟨positive, _, first, h⟩ := run_bind_eq_ok.1 h
  have same : positive.type = value.type := by
    unfold applyAbs at first
    split at first
    · exact extended_type first
    · cases first
      rfl
  unfold applyNeg at h
  split at h
  · exact (operate_type h).trans same
  · cases h
    exact same

theorem readLanes_type {op : Operand} {steps : List (Emission Id)} {lanes : List Nat} {v : Value}
    (some_ : lanes ≠ []) (h : (readLanes op steps lanes).run env s = (.ok v, t)) :
    v.type = ⟨.ofData op.data, lanes.length⟩ := by
  unfold readLanes at h
  dsimp only at h
  split at h
  · rw [constantValue_type h, List.length_map]
  · cases h
  · obtain ⟨p, _, _, h⟩ := run_bind_eq_ok.1 h
    obtain ⟨loaded, _, _, h⟩ := run_bind_eq_ok.1 h
    obtain ⟨full, _, _, h⟩ := run_bind_eq_ok.1 h
    obtain ⟨picked, _, swizzled, h⟩ := run_bind_eq_ok.1 h
    rw [bitcast_type h, swizzle_type some_ swizzled]

theorem readOperand_eq (op : Operand) (mask : WriteMask) :
    readOperand op mask = readWith op (indexSteps op.indices) mask := by
  cases op
  simp only [readOperand]

theorem readOperand_type {op : Operand} {mask : WriteMask} {v : Value}
    (lanes : sourceLanes op mask ≠ [])
    (h : (readOperand op mask).run env s = (.ok v, t)) :
    v.type = ⟨.ofData op.data, (sourceLanes op mask).length⟩ := by
  rw [readOperand_eq] at h
  obtain ⟨value, _, read, h⟩ := run_bind_eq_ok.1 h
  rw [applyModifier_type h, readLanes_type lanes read]

theorem length_sourceLanes (op : Operand) (mask : WriteMask) :
    (sourceLanes op mask).length = mask.count := by
  unfold sourceLanes
  split
  · rfl
  · exact Swizzle.length_picked _ _
  · exact Swizzle.length_picked _ _

/-- The constant zero in a single component. -/
theorem splat_zero_mem {v : Value} (h : (splat .u32 0 1).run env s = (.ok v, t)) :
    ∃ type, ⟨.ordinary .constant, some type, some v.id, [.word 0]⟩ ∈
      t.builder.module.globals.toList := by
  obtain ⟨id, _, listed, h⟩ := run_bind_eq_ok.1 h
  cases h
  have single : ([0].mapM (constant .u32) : Emission (List Id)) =
      (constant .u32 0 >>= fun id => Pure.pure [id]) := rfl
  obtain ⟨parts, _, made, h⟩ := run_bind_eq_ok.1 listed
  obtain ⟨id, _, declared, made⟩ := run_bind_eq_ok.1 (single ▸ made)
  cases made
  cases h
  exact constant_mem declared

/-- A test of a single component comes last in the open node. -/
theorem zeroTest_tests {value v : Value} {test : ZeroTest} {d : Draft} (hd : d.Describes s)
    (single : value.type.count = 1) (h : (zeroTest value test).run env s = (.ok v, t)) :
    ∃ e, d.Writes e ∧ e.Describes t ∧ e.Tests test v.id := by
  obtain ⟨word, s₁, cast, h⟩ := run_bind_eq_ok.1 h
  obtain ⟨constant, s₂, blank, h⟩ := run_bind_eq_ok.1 h
  rw [bitcast_type cast, single] at blank
  obtain ⟨_, u, typeId, b, before, pushed, rfl⟩ := operate_push h
  obtain ⟨constantType, declared⟩ := splat_zero_mem blank
  have emitted : Emits s u := ((emits_of_run cast).trans (emits_of_run blank)).trans before
  obtain ⟨e, writes, described⟩ := emitted.describes hd
  cases ho : e.open? with
  | none =>
    rw [described.builder.push_none ho] at pushed
    cases pushed
  | some n =>
    let i : Instr := ⟨.ordinary (comparison test), some typeId, some v.id,
      [.id word.id, .id constant.id]⟩
    obtain ⟨c, placed, outlines⟩ := described.builder.push ho (g := (·.write [i]))
      (fun m => m.label_write [i]) (fun m => m.body_write [i])
    obtain rfl : b = c := Except.ok.inj (pushed.symm.trans placed)
    have ordinary : ∀ j ∈ [i], j.IsOrdinary := by
      intro j hj
      rw [List.mem_singleton.1 hj]
      exact ⟨_, rfl⟩
    refine ⟨{ e with open? := some (n.write [i]) }, writes.trans ?_,
      ⟨outlines, described.constructs, described.last?⟩, n.write [i], rfl, ?_⟩
    · have := Draft.Writes.of [i] e.next e.globals ordinary (Nat.le_refl _) List.prefix_rfl
      rwa [ho] at this
    · refine ⟨n.body, typeId, constantType, word.id, constant.id, n.body_write [i], ?_⟩
      rw [← described.builder.globals]
      exact before.globals.subset declared

/-- A condition tests one word, and the test comes last. -/
theorem condition_tests {inst : Instruction} {id : Id} {d : Draft} (hd : d.Describes s)
    (h : (condition inst).run env s = (.ok id, t)) :
    ∃ e, d.Writes e ∧ e.Describes t ∧ e.Tests inst.zeroTest id := by
  obtain ⟨op, s₁, found, h⟩ := run_bind_eq_ok.1 h
  obtain ⟨value, s₂, read, h⟩ := run_bind_eq_ok.1 h
  obtain ⟨bool, s₃, tested, h⟩ := run_bind_eq_ok.1 h
  cases h
  have single : value.type.count = 1 := by
    have length := length_sourceLanes op .x
    have : sourceLanes op .x ≠ [] := by
      intro none_
      rw [none_] at length
      cases length
    rw [readOperand_type this read, length]
    rfl
  obtain ⟨d₂, writes, described⟩ :=
    ((emits_of_run found).trans (emits_of_run read)).describes hd
  obtain ⟨e, more, described, tests⟩ := zeroTest_tests described single tested
  exact ⟨e, writes.trans more, described, tests⟩

end Lower

end ShaderLowering
