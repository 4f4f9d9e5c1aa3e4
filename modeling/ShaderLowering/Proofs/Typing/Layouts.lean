import ShaderLowering.Proofs.Typing.Lowered

/-!
Structs and the arrays in them have a memory layout, and variables of plain storage are made of
types without one. Only the array of a constant buffer can be both: types are found again by what
they are declared with, so a plain array of as many registers is the same type if it comes later.
-/

namespace ShaderLowering

open Spirv (Id Instr Arg Op Module StorageClass)

theorem Spirv.StorageClass.code_inj {a b : StorageClass} (h : a.code = b.code) : a = b := by
  revert h
  cases a <;> cases b <;> decide

namespace Spirv.Module

theorem IsVector.declared {m : Module} {v : VectorType} {id : Id} (is : m.IsVector v id) :
    ∃ op args, m.Declares op none args id ∧ op.isInterned = true := by
  unfold IsVector at is
  split at is
  · cases scalar : v.scalar <;> rw [scalar] at is <;> exact ⟨_, _, is, rfl⟩
  · obtain ⟨_, _, declared⟩ := is
    exact ⟨_, _, declared, rfl⟩

namespace Distinct

variable {m : Module} {id type : Id} {shape : Shape} {x : Shader}

/-- An id is declared in one way. -/
theorem declares_inj (distinct : m.Distinct) {op op' : Op} {args args' : List Arg}
    (h : m.Declares op none args id) (h' : m.Declares op' none args' id) :
    op = op' ∧ args = args' := by
  have same := Option.some.inj ((distinct.declared h).symm.trans (distinct.declared h'))
  cases same
  exact ⟨rfl, rfl⟩

theorem scalar_inj (distinct : m.Distinct) {scalar scalar' : ScalarType}
    (h : m.IsScalar scalar id) (h' : m.IsScalar scalar' id) : scalar = scalar' := by
  cases scalar <;> cases scalar' <;> first
    | rfl
    | exact absurd (distinct.declares_inj h h') (by decide)

/-- A declared vector has several components. -/
theorem vector_inj (distinct : m.Distinct) {v : VectorType} (is : m.IsVector v id)
    {component : Id} {count : UInt32}
    (declared : m.Declares .typeVector none [.id component, .word count] id) :
    m.IsScalar v.scalar component ∧ count = .ofNat v.count := by
  unfold IsVector at is
  split at is
  · cases scalar : v.scalar <;> rw [scalar] at is <;>
      exact absurd (distinct.declares_inj is declared).1 (by decide)
  · obtain ⟨component', scalar, declared'⟩ := is
    cases (distinct.declares_inj declared' declared).2
    exact ⟨scalar, rfl⟩

/-- A vector of four floats is of one shape. -/
theorem eq_float4 (distinct : m.Distinct) (is : m.Is shape id) (plain : shape.IsPlain x)
    (vector : m.IsVector float4 id) : shape = .vector float4 := by
  obtain ⟨component, float, declared⟩ := vector
  cases shape with
  | vector type =>
    obtain ⟨scalar, count⟩ := distinct.vector_inj is declared
    have short : type.count ≤ 4 := plain
    have four : type.count = 4 := by
      have := congrArg UInt32.toNat count
      rw [UInt32.toNat_ofNat_of_lt' (Nat.lt_of_le_of_lt short (by decide))] at this
      exact this.symm
    obtain ⟨scalar', count'⟩ := type
    cases distinct.scalar_inj scalar float
    cases four
    rfl
  | array length element =>
    obtain ⟨_, _, _, _, array⟩ := is
    exact absurd (distinct.declares_inj array declared).1 (by decide)
  | unsized | block | image => cases plain

/-- What occurs in a plain type is plain; by induction on the way to it. -/
theorem plain_contains (distinct : m.Distinct) (is : m.Is shape type) (plain : shape.IsPlain x)
    (contains : m.Contains type id) : ∃ shape : Shape, m.Is shape id ∧ shape.IsPlain x := by
  induction contains generalizing shape with
  | self => exact ⟨shape, is, plain⟩
  | part mem _ ih =>
    cases shape with
    | vector v =>
      by_cases several : v.count ≤ 1
      · rw [Is, IsVector, if_pos several] at is
        rw [(distinct.scalar_length? is).2] at mem
        cases mem
      · obtain ⟨e, scalar, parts, _⟩ := distinct.vector several is 0
        rw [parts] at mem
        have single : m.Is (.vector (.single v.scalar)) e := scalar
        have plain : (Shape.vector (.single v.scalar)).IsPlain x :=
          Shape.isPlain_vector x (Nat.le_of_ble_eq_true rfl)
        cases List.mem_singleton.1 mem
        exact ih single plain
    | array length element =>
      obtain ⟨_, e, is, parts, _⟩ := distinct.array is 0
      rw [parts] at mem
      cases List.mem_singleton.1 mem
      exact ih is plain.1
    | unsized | block | image => cases plain

/-- Plain types are no structs and no arrays of no fixed length. -/
theorem plain_op (is : m.Is shape type) (plain : shape.IsPlain x) :
    ∃ op args, m.Declares op none args type ∧ op ≠ .typeStruct ∧ op ≠ .typeRuntimeArray := by
  cases shape with
  | vector v =>
    obtain ⟨op, args, declared, interned⟩ := is.declared
    refine ⟨op, args, declared, ?_, ?_⟩ <;> rintro rfl <;> cases interned
  | array length element =>
    obtain ⟨_, _, _, _, declared⟩ := is
    exact ⟨_, _, declared, by decide, by decide⟩
  | unsized | block | image => cases plain

/-- What is laid out in a plain type is the array of a constant buffer, as long as a plain one. -/
theorem laid_plain (distinct : m.Distinct) (is : m.Is shape type) (plain : shape.IsPlain x)
    (laid : x.Laid m type) :
    ∃ n, m.Is (.array n (.vector float4)) type ∧ x.BufferLength n ∧ x.PlainLength n := by
  cases laid with
  | buffer n array declared =>
    refine ⟨n, array, declared, ?_⟩
    obtain ⟨e, count, vector, length, typed⟩ := array
    cases shape with
    | vector v =>
      obtain ⟨op, args, declared, interned⟩ := is.declared
      rw [(distinct.declares_inj declared typed).1] at interned
      cases interned
    | array length' element =>
      obtain ⟨e', count', is, length'', typed'⟩ := is
      cases (distinct.declares_inj typed typed').2
      have same := Option.some.inj
        ((distinct.constant? length).symm.trans (distinct.constant? length''))
      rw [same]
      exact plain.2 (distinct.eq_float4 is plain.1 vector)
    | unsized | block | image => cases plain
  | unsized args declared =>
    obtain ⟨op, args', plain, _, other⟩ := plain_op is plain
    exact absurd (distinct.declares_inj plain declared).1 other
  | struct args declared =>
    obtain ⟨op, args', plain, other, _⟩ := plain_op is plain
    exact absurd (distinct.declares_inj plain declared).1 other

end Distinct

end Spirv.Module

section Compilation

variable {program : Program} {entries : SignatureEntries} {options : Options}
  {artifact : Artifact} {insts : List Instruction}

/-- A type with a memory layout that occurs in a variable of plain storage is an array of registers:
the program declares both a constant buffer and a plain array of its length. -/
theorem compile_laidOut (h : compile program entries options = .ok artifact)
    (decoded : program.instructions = .ok insts) :
    ∃ l, lowerInstructions (program.environment insts entries options) insts = .ok l ∧
      artifact = l.artifact ∧
      ∀ i ∈ l.state.builder.module.definitions, i.op = .ordinary .var →
        ∀ (storage : StorageClass) (pointee type : Id), storage.isPlain = true →
          i.args.head? = some (.word storage.code) →
          i.resultType?.bind l.state.builder.module.pointer? = some (storage.code, pointee) →
          l.state.builder.module.Contains pointee type → l.state.builder.module.LaidOut type →
          ∃ n, l.state.builder.module.Is (.array n (.vector float4)) type ∧
            (program.shader decoded entries options).BufferLength n ∧
            (program.shader decoded entries options).PlainLength n := by
  obtain ⟨insts', l, decoded', lowered, rfl⟩ := compile_eq_ok.1 h
  obtain rfl : insts' = insts := Except.ok.inj (decoded'.symm.trans decoded)
  have known := (program.shader decoded entries options).invariant lowered
  have distinct := known.builder.distinct
  refine ⟨l, lowered, rfl, ?_⟩
  intro i hi var storage pointee type isPlain class_ points contains laid
  have accounts := known.explains.definitions i hi
  rw [Shader.Accounts, var] at accounts
  obtain ⟨storage', rest, args, plain⟩ := accounts
  rw [args, List.head?_cons, Option.some.injEq, Arg.word.injEq] at class_
  obtain rfl := StorageClass.code_inj class_
  obtain ⟨shape, id, typed, pointer, plain⟩ := plain isPlain
  obtain ⟨pointee', is, points'⟩ := distinct.pointer? pointer
  rw [typed, Option.bind_some, points'] at points
  obtain rfl := (Prod.mk.inj (Option.some.inj points)).2
  obtain ⟨shape, is, plain⟩ := distinct.plain_contains is plain contains
  obtain ⟨a, ha, lays⟩ := laid
  exact distinct.laid_plain is plain (known.explains.annotations a ha type lays)

/-- A pixel shader with a constant buffer of as many registers as it has inputs. -/
def equalLengths : Program :=
  .assume [0x50, 12, 0x04000059, 0x00208e46, 0, 32, 0x05000036, 0x001000f2, 0, 0x00101e46, 0,
    0x0100003e]

theorem compile_laidOut_equalLengths :
    ∃ artifact insts l, ∃ decoded : equalLengths.instructions = .ok insts,
      compile equalLengths ⟨[], [], []⟩ .default = .ok artifact ∧
      lowerInstructions (equalLengths.environment insts ⟨[], [], []⟩ .default) insts = .ok l ∧
      artifact = l.artifact ∧
      ∀ i ∈ l.state.builder.module.definitions, i.op = .ordinary .var →
        ∀ (storage : StorageClass) (pointee type : Id), storage.isPlain = true →
          i.args.head? = some (.word storage.code) →
          i.resultType?.bind l.state.builder.module.pointer? = some (storage.code, pointee) →
          l.state.builder.module.Contains pointee type → l.state.builder.module.LaidOut type →
          ∃ n, l.state.builder.module.Is (.array n (.vector float4)) type ∧
            (equalLengths.shader decoded ⟨[], [], []⟩ .default).BufferLength n ∧
            (equalLengths.shader decoded ⟨[], [], []⟩ .default).PlainLength n := by
  obtain ⟨artifact, insts, _, compiles, _, _, decoded, _⟩ :=
    exists_compile equalLengths ⟨[], [], []⟩ .default (fun _ _ _ => true) (by decide +kernel)
  obtain ⟨l, lowered, same, shared⟩ := compile_laidOut compiles decoded
  exact ⟨artifact, insts, l, decoded, compiles, lowered, same, shared⟩

/-- The register array is the array of the constant buffer, declared before it with a stride. -/
theorem exists_laidOut_plain :
    ∃ artifact insts l, compile equalLengths ⟨[], [], []⟩ .default = .ok artifact ∧
      lowerInstructions (equalLengths.environment insts ⟨[], [], []⟩ .default) insts = .ok l ∧
      artifact = l.artifact ∧
      ∃ i ∈ l.state.builder.module.definitions, i.op = .ordinary .var ∧
        i.args.head? = some (.word StorageClass.priv.code) ∧
        ∃ pointee type, i.resultType?.bind l.state.builder.module.pointer? =
            some (StorageClass.priv.code, pointee) ∧
          l.state.builder.module.Contains pointee type ∧ l.state.builder.module.LaidOut type := by
  obtain ⟨artifact, insts, l, compiles, lowered, same, _, shared⟩ :=
    exists_compile equalLengths ⟨[], [], []⟩ .default
      (fun _ _ l => decide (∃ i ∈ l.state.builder.module.definitions, i.op = .ordinary .var ∧
        i.args.head? = some (.word StorageClass.priv.code) ∧
        ∃ a ∈ l.state.builder.module.annotations.toList, a.laysOut?.isSome = true ∧
          i.resultType?.bind l.state.builder.module.pointer? =
            a.laysOut?.map fun type => (StorageClass.priv.code, type)))
      (by decide +kernel)
  obtain ⟨i, hi, var, class_, a, ha, lays, points⟩ := of_decide_eq_true shared
  obtain ⟨type, lays⟩ := Option.isSome_iff_exists.1 lays
  rw [lays] at points
  exact ⟨artifact, insts, l, compiles, lowered, same, i, hi, var, class_, type, type, points,
    .self type, a, ha, lays⟩

end Compilation

end ShaderLowering
