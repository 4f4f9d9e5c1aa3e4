import ShaderLowering.Compile
import ShaderLowering.Proofs.Interface.Declarations
import ShaderLowering.Proofs.Memory.Routes

/-!
How the components of interface registers travel. What the copies of an entry function take a
component from or put it to is either the location variable of its register or a built-in, as the
declarations of the register and the signature say. Two stages that follow one another in the
pipeline share a signature, so what the first writes can reach the second only if both send it the
same way.
-/

namespace ShaderLowering

open Spirv (BuiltIn)

/-- What the component of a register travels in, among things on their way. -/
def carriersOf (l : List Transit) (reg : UInt32) (c : Nat) : List Carrier :=
  (l.filter fun i => i.register = reg ∧ i.component = c).map (·.carrier)

/-- The elements of an array that the component of a register travels in, among distances on their
way. -/
def elementsOf (builtin : BuiltIn) (l : List (UInt32 × Nat × Nat)) (reg : UInt32) (c : Nat) :
    List Carrier :=
  (l.filter fun i => i.1 = reg ∧ i.2.1 = c).map fun i => .element builtin i.2.2

theorem mem_carriersOf {l : List Transit} {reg : UInt32} {c : Nat} {k : Carrier} :
    k ∈ carriersOf l reg c ↔ ∃ i ∈ l, i.register = reg ∧ i.component = c ∧ i.carrier = k := by
  simp only [carriersOf, List.mem_map, List.mem_filter, decide_eq_true_eq, and_assoc]

theorem mem_elementsOf {builtin : BuiltIn} {l : List (UInt32 × Nat × Nat)} {reg : UInt32} {c : Nat}
    {k : Carrier} : k ∈ elementsOf builtin l reg c ↔ ∃ i, (reg, c, i) ∈ l ∧
      k = .element builtin i := by
  simp only [elementsOf, List.mem_map, List.mem_filter, decide_eq_true_eq]
  constructor
  · rintro ⟨⟨_, _, i⟩, ⟨mem, rfl, rfl⟩, rfl⟩
    exact ⟨i, mem, rfl⟩
  · rintro ⟨i, mem, rfl⟩
    exact ⟨_, ⟨mem, rfl, rfl⟩, rfl⟩

namespace State

/-- What a component of an input register is copied from when inputs are taken in. -/
def sources (env : Environment) (s : State) (reg : UInt32) (c : Nat) : List Carrier :=
  carriersOf (s.intakes env) reg c ++
    (elementsOf .clipDistance ((Lower.distanceItems env s .clipDistance).map (·.1)) reg c ++
      elementsOf .cullDistance ((Lower.distanceItems env s .cullDistance).map (·.1)) reg c)

/-- What a component of an output register is copied to when outputs are put out. A hull shader has
no such copies: its control points are written where they go out. -/
def targets (env : Environment) (s : State) (reg : UInt32) (c : Nat) : List Carrier :=
  carriersOf (s.outlets env) reg c ++
    (elementsOf .clipDistance (Lower.outputItems env .clipDistance) reg c ++
      elementsOf .cullDistance (Lower.outputItems env .cullDistance) reg c)

end State

theorem Lower.exists_mem_verticesOf (count : Nat) : ∃ v, v ∈ verticesOf count := by
  unfold verticesOf
  split
  · exact ⟨none, List.mem_singleton_self _⟩
  · next some_ => exact ⟨some 0, List.mem_map_of_mem (List.mem_range.2 (Nat.pos_of_ne_zero some_))⟩

/-- Components of one register on their way, among those of all registers of a side. -/
theorem Table.exists_mem_flatMap {t : Table InterfaceRegister}
    {f : UInt32 → InterfaceRegister → List Transit}
    (own : ∀ reg r, ∀ i ∈ f reg r, i.register = reg) (none_ : ∀ reg, f reg .empty = [])
    (reg : UInt32) {P : Transit → Prop} :
    (∃ i ∈ t.entries.flatMap (fun e => f e.1 e.2), i.register = reg ∧ P i) ↔
      ∃ i ∈ f reg ((t.find? reg).getD .empty), P i := by
  constructor
  · rintro ⟨i, mem, register, is⟩
    obtain ⟨e, listed, mem⟩ := List.mem_flatMap.1 mem
    have found : t.find? e.1 = some e.2 := Table.mem_entries.1 listed
    obtain rfl : e.1 = reg := (own _ _ i mem).symm.trans register
    rw [found]
    exact ⟨i, mem, is⟩
  · rintro ⟨i, mem, is⟩
    cases found : t.find? reg with
    | none =>
      rw [found, Option.getD_none, none_] at mem
      cases mem
    | some r =>
      rw [found] at mem
      have listed : (reg, r) ∈ t.entries := Table.mem_entries.2 found
      exact ⟨i, List.mem_flatMap.2 ⟨(reg, r), listed, mem⟩, own _ _ i mem, is⟩

namespace SystemValue

/-- Numbers that a stage puts out from a single component. -/
def isNumber : SystemValue → Bool
  | renderTargetArrayIndex | viewportArrayIndex => true
  | _ => false

theorem isNumber_of_carrier? {stage : ShaderStage} {value : SystemValue} {k : Carrier}
    (through : value.carrier? stage .output = some k) :
    value.isNumber = true ↔ value ≠ .position := by
  cases value with
  | position | renderTargetArrayIndex | viewportArrayIndex => decide
  | _ => cases through

end SystemValue

namespace InterfaceRegister

variable {r : InterfaceRegister} {stage : ShaderStage} {count : Nat} {reg : UInt32} {c : Nat}
  {k : Carrier}

section Ways

variable {vertices : LocationVariable → List (Option Nat)} {all : List (Option Nat)}
  {components : WriteMask × SystemValue → List Nat} {carrier? : SystemValue → Option Carrier}

/-- A component goes through the location, or through the built-ins of its system values, for some
vertex. -/
theorem exists_mem_ways (some_ : ∀ l, ∃ v, v ∈ vertices l) (some' : ∃ v, v ∈ all) :
    (∃ i ∈ (r.location?.toList.flatMap fun l =>
        transits (vertices l) reg r.userMask.components (.location reg)) ++
      r.systemValues.flatMap fun p => (carrier? p.2).toList.flatMap fun k =>
        transits all reg (components p) k, i.component = c ∧ i.carrier = k) ↔
      ((r.location?.isSome && r.userMask.contains c) = true ∧ k = .location reg) ∨
        ∃ p ∈ r.systemValues, c ∈ components p ∧ carrier? p.2 = some k := by
  simp only [mem_ways, Bool.and_eq_true, Option.isSome_iff_exists]
  constructor
  · rintro ⟨i, ⟨_, ⟨l, is, _, covers, carrier⟩ | ⟨p, listed, _, has, is⟩⟩, rfl, rfl⟩
    · exact .inl ⟨⟨⟨l, is⟩, covers⟩, carrier⟩
    · exact .inr ⟨p, listed, has, is⟩
  · rintro (⟨⟨⟨l, is⟩, covers⟩, rfl⟩ | ⟨p, listed, has, is⟩)
    · obtain ⟨v, mem⟩ := some_ l
      exact ⟨⟨reg, v, c, .location reg⟩, ⟨rfl, .inl ⟨l, is, mem, covers, rfl⟩⟩, rfl, rfl⟩
    · obtain ⟨v, mem⟩ := some'
      exact ⟨⟨reg, v, c, k⟩, ⟨rfl, .inr ⟨p, listed, mem, has, is⟩⟩, rfl, rfl⟩

end Ways

theorem exists_mem_intakes :
    (∃ i ∈ r.intakes stage count reg, i.component = c ∧ i.carrier = k) ↔
      ((r.location?.isSome && r.userMask.contains c) = true ∧ k = .location reg) ∨
        ∃ p ∈ r.systemValues, p.1.contains c = true ∧ p.2.carrier? stage .input = some k := by
  refine (exists_mem_ways (fun _ => Lower.exists_mem_verticesOf _)
    (Lower.exists_mem_verticesOf _)).trans ?_
  simp only [WriteMask.mem_components]

/-- Numbers go out from a single component. -/
theorem exists_mem_outlets :
    (∃ i ∈ r.outlets stage reg, i.component = c ∧ i.carrier = k) ↔
      ((r.location?.isSome && r.userMask.contains c) = true ∧ k = .location reg) ∨
        ∃ p ∈ r.systemValues, (if p.2.isNumber then p.1.first?.getD 0 = c
          else p.1.contains c = true) ∧ p.2.carrier? stage .output = some k := by
  refine (exists_mem_ways (fun _ => ⟨none, List.mem_singleton_self _⟩)
    ⟨none, List.mem_singleton_self _⟩).trans ?_
  refine or_congr_right (exists_congr fun p => and_congr_right fun _ => ?_)
  refine and_congr_left fun through => ?_
  by_cases number : p.2.isNumber = true
  · rw [if_pos number, if_neg ((SystemValue.isNumber_of_carrier? through).1 number),
      List.mem_singleton, eq_comm]
  · rw [if_neg number, if_pos (not_not.1 (mt (SystemValue.isNumber_of_carrier? through).2 number)),
      WriteMask.mem_components]

end InterfaceRegister

namespace Signature

/-- A component is covered by an element with a system value. -/
def Tags (s : Signature) (reg : UInt32) (component : Nat) (value : SystemValue) : Prop :=
  ∃ e ∈ s.elements, e.register = reg ∧ e.mask.contains component = true ∧ e.systemValue = value

theorem elements_withInterpolation (s : Signature) (modes : List (UInt32 × Interpolation)) :
    ∃ f : SignatureElement → SignatureElement,
      (s.withInterpolation modes).elements = s.elements.map f ∧
        ∀ e, (f e).register = e.register ∧ (f e).mask = e.mask ∧
          (f e).systemValue = e.systemValue := by
  refine ⟨_, rfl, fun e => ?_⟩
  split <;> exact ⟨rfl, rfl, rfl⟩

/-- The interpolation of inputs has no say in how they travel. -/
theorem tags_withInterpolation {s : Signature} {modes : List (UInt32 × Interpolation)}
    {reg : UInt32} {component : Nat} {value : SystemValue} :
    (s.withInterpolation modes).Tags reg component value ↔ s.Tags reg component value := by
  obtain ⟨f, elements, same⟩ := s.elements_withInterpolation modes
  unfold Tags
  rw [elements]
  constructor
  · rintro ⟨_, member, register, covers, tagged⟩
    obtain ⟨e, he, rfl⟩ := List.mem_map.1 member
    obtain ⟨sameRegister, sameMask, sameValue⟩ := same e
    exact ⟨e, he, sameRegister ▸ register, sameMask ▸ covers, sameValue ▸ tagged⟩
  · rintro ⟨e, he, register, covers, tagged⟩
    obtain ⟨sameRegister, sameMask, sameValue⟩ := same e
    exact ⟨f e, List.mem_map_of_mem he, sameRegister ▸ register, sameMask ▸ covers,
      sameValue ▸ tagged⟩

theorem layoutOf_withInterpolation (s : Signature) (modes : List (UInt32 × Interpolation))
    (value : SystemValue) : (s.withInterpolation modes).layoutOf value = s.layoutOf value := by
  obtain ⟨f, elements, same⟩ := s.elements_withInterpolation modes
  simp only [layoutOf, elements, List.filter_map, List.map_map, Function.comp_def, same]

theorem counts_withInterpolation (s : Signature) (modes : List (UInt32 × Interpolation)) :
    ClipCullCounts.ofSignature (s.withInterpolation modes) = .ofSignature s := by
  simp only [ClipCullCounts.ofSignature, componentsOf, layoutOf_withInterpolation]

theorem mem_layoutOf {s : Signature} {value : SystemValue} {p : UInt32 × WriteMask} :
    p ∈ s.layoutOf value ↔
      ∃ e ∈ s.elements, e.systemValue = value ∧ (e.register, e.mask) = p := by
  simp only [layoutOf, List.mem_map, List.mem_filter, decide_eq_true_eq, and_assoc]

end Signature

/-- A component is the first that a declaration has of an element with a system value. -/
def Signature.Heads (s : Signature) (decls : List Declaration) (reg : UInt32) (component : Nat)
    (value : SystemValue) : Prop :=
  ∃ e ∈ s.elements, e.register = reg ∧ e.systemValue = value ∧ ∃ m, (Side.output, reg, m) ∈ decls ∧
    WriteMask.first? ⟨e.mask.bits &&& m.bits⟩ = some component

/-- What a signature says of a declared component on one side of a stage: it goes through the
built-ins of the system values that the stage routes, and through the location of its register if
there are none. A number goes out from the first component only. -/
inductive Signature.Sends (s : Signature) (stage : ShaderStage) (side : Side)
    (decls : List Declaration) (reg : UInt32) (component : Nat) : Carrier → Prop
  | location (user : ∀ value, s.Tags reg component value →
      routesToBuiltin stage side value = false) :
    Sends s stage side decls reg component (.location reg)
  | value {value : SystemValue} {k : Carrier} (tags : s.Tags reg component value)
    (routes : routesToBuiltin stage side value = true)
    (through : value.carrier? stage side = some k)
    (heads : side = .output → value.isNumber = true → s.Heads decls reg component value) :
    Sends s stage side decls reg component k
  | distance {value : SystemValue} {i : Nat} (isDistance : value.isClipCull = true)
    (routes : routesToBuiltin stage side value = true)
    (number : (reg, component, i) ∈ s.numbered value) :
    Sends s stage side decls reg component (.element (Lower.distance value (.ofSignature s)).1 i)

namespace Signature

variable {s : Signature} {modes : List (UInt32 × Interpolation)} {stage : ShaderStage}
  {decls : List Declaration} {reg : UInt32} {component : Nat} {k : Carrier}

/-- What goes out from a component covers it. -/
theorem Heads.tags {value : SystemValue} (h : s.Heads decls reg component value) :
    s.Tags reg component value := by
  obtain ⟨e, he, register, is, m, _, first⟩ := h
  have has := WriteMask.mem_components.1 (List.mem_of_mem_head? first)
  rw [show WriteMask.contains ⟨e.mask.bits &&& m.bits⟩ component =
    (e.mask.contains component && m.contains component) from WriteMask.contains_and _ _ _,
    Bool.and_eq_true] at has
  exact ⟨e, he, register, has.1, is⟩

theorem numbered_withInterpolation (value : SystemValue) :
    (s.withInterpolation modes).numbered value = s.numbered value := by
  simp only [numbered, tagged, layoutOf_withInterpolation]

/-- All components of a layout get numbers. -/
theorem exists_mem_numbered {value : SystemValue} :
    (∃ i, (reg, component, i) ∈ s.numbered value) ↔ s.Tags reg component value := by
  have mem : (reg, component) ∈ s.tagged value ↔ s.Tags reg component value := by
    simp only [tagged, List.mem_flatMap, List.mem_map, Prod.mk.injEq, mem_layoutOf]
    constructor
    · rintro ⟨p, ⟨e, he, tagged, rfl⟩, c, hc, rfl, rfl⟩
      exact ⟨e, he, rfl, WriteMask.mem_components.1 hc, tagged⟩
    · rintro ⟨e, he, rfl, hc, tagged⟩
      exact ⟨_, ⟨e, he, tagged, rfl⟩, component, WriteMask.mem_components.2 hc, rfl, rfl⟩
  rw [← mem]
  simp only [numbered, List.mem_map]
  constructor
  · rintro ⟨i, ⟨⟨reg', c⟩, j⟩, at_, same⟩
    cases same
    exact List.mem_of_getElem? (List.mem_zipIdx_iff_getElem?.1 at_)
  · intro member
    obtain ⟨i, inside, at_⟩ := List.getElem_of_mem member
    refine ⟨i, ((reg, component), i), ?_, rfl⟩
    rw [List.mem_zipIdx_iff_getElem?, List.getElem?_eq_getElem inside, at_]

theorem sends_withInterpolation :
    (s.withInterpolation modes).Sends stage .input decls reg component k ↔
      s.Sends stage .input decls reg component k := by
  constructor
  · rintro (user | ⟨tags, routes, through⟩ | ⟨isDistance, routes, number⟩)
    · exact .location fun value tags => user value (tags_withInterpolation.2 tags)
    · exact .value (tags_withInterpolation.1 tags) routes through nofun
    · rw [counts_withInterpolation]
      rw [numbered_withInterpolation] at number
      exact .distance isDistance routes number
  · rintro (user | ⟨tags, routes, through⟩ | ⟨isDistance, routes, number⟩)
    · exact .location fun value tags => user value (tags_withInterpolation.1 tags)
    · exact .value (tags_withInterpolation.2 tags) routes through nofun
    · rw [← s.counts_withInterpolation modes]
      rw [← numbered_withInterpolation] at number
      exact .distance isDistance routes number

end Signature

theorem InterfaceRegister.contains_builtinMask (r : InterfaceRegister) (c : Nat) :
    r.builtinMask.contains c = true ↔ ∃ p ∈ r.systemValues, p.1.contains c = true := by
  have folded (l : List (WriteMask × SystemValue)) (acc : WriteMask) :
      (l.foldl (fun acc p => acc ||| p.1) acc).contains c = true ↔
        acc.contains c = true ∨ ∃ p ∈ l, p.1.contains c = true := by
    induction l generalizing acc with
    | nil => simp
    | cons p rest ih =>
      simp only [List.foldl_cons, ih, WriteMask.contains_or, Bool.or_eq_true, List.mem_cons,
        exists_eq_or_imp, or_assoc]
  rw [builtinMask, folded, or_iff_right]
  simp [WriteMask.none, WriteMask.contains]

theorem InterfaceRegister.contains_userMask (r : InterfaceRegister) (c : Nat) :
    r.userMask.contains c = true ↔
      r.mask.contains c = true ∧ r.builtinMask.contains c = false := by
  rw [userMask, WriteMask.contains_and, WriteMask.contains_not]
  have low : r.mask.contains c = true → c < 4 := by
    intro h
    rw [WriteMask.contains, Bool.and_eq_true, decide_eq_true_eq] at h
    exact h.1
  constructor
  · intro h
    simp only [Bool.and_eq_true, Bool.not_eq_true', decide_eq_true_eq] at h
    exact ⟨h.1, h.2.2⟩
  · rintro ⟨declared, user⟩
    simp only [Bool.and_eq_true, Bool.not_eq_true', decide_eq_true_eq]
    exact ⟨declared, low declared, user⟩

/-- A mask has a first component unless it is empty. -/
theorem WriteMask.exists_first?_iff {mask : WriteMask} :
    (∃ c, mask.first? = some c) ↔ mask.isEmpty = false := by
  constructor
  · rintro ⟨c, is⟩
    rw [← Bool.not_eq_true, WriteMask.isEmpty_iff]
    intro none_
    have has := WriteMask.mem_components.1 (List.mem_of_mem_head? is)
    rw [none_ c] at has
    cases has
  · intro some_
    exact ⟨_, List.head?_eq_some_head (WriteMask.components_ne_nil (Bool.eq_false_iff.1 some_))⟩

namespace Sums

variable {env : Environment} {side : Side} {decls : List Declaration} {s : State} {reg : UInt32}
  {c : Nat} {m : WriteMask} {k : Carrier}

/-- The system values by which a declared component goes through built-ins. -/
theorem exists_value (sums : Sums env side decls s)
    (declared : (side, reg, m) ∈ decls) (covers : m.contains c = true) {value : SystemValue} :
    (∃ p ∈ (s.register side reg).systemValues, p.1.contains c = true ∧ p.2 = value) ↔
      (env.signature side).Tags reg c value ∧
        routesToBuiltin env.stage side value = true := by
  have overlap (e : SignatureElement) (m : WriteMask) :
      WriteMask.contains ⟨e.mask.bits &&& m.bits⟩ c = (e.mask.contains c && m.contains c) :=
    WriteMask.contains_and e.mask.bits m.bits c
  have full {mask : WriteMask} (has : mask.contains c = true) : mask.isEmpty = false := by
    rw [← Bool.not_eq_true, WriteMask.isEmpty_iff]
    intro none_
    rw [none_ c] at has
    cases has
  constructor
  · rintro ⟨p, at_, has, rfl⟩
    obtain ⟨m', _, routed⟩ := (sums.values reg p).1 at_
    obtain ⟨e, on, found⟩ := List.mem_filterMap.1 routed
    dsimp only at found
    split at found
    · next routes =>
      cases found
      rw [overlap, Bool.and_eq_true] at has
      rw [Bool.and_eq_true] at routes
      rw [Signature.elementsOn, List.mem_filter, decide_eq_true_eq] at on
      exact ⟨⟨e, on.1, on.2, has.1, rfl⟩, routes.2⟩
    · cases found
  · rintro ⟨⟨e, he, register, has, rfl⟩, routes⟩
    have both : WriteMask.contains ⟨e.mask.bits &&& m.bits⟩ c = true := by
      rw [overlap, has, covers]
      rfl
    refine ⟨(⟨e.mask.bits &&& m.bits⟩, e.systemValue), ?_, both, rfl⟩
    refine (sums.values reg _).2 ⟨m, declared, List.mem_filterMap.2 ⟨e, ?_, ?_⟩⟩
    · rw [Signature.elementsOn, List.mem_filter, decide_eq_true_eq]
      exact ⟨he, register⟩
    · dsimp only
      rw [full both, routes]
      rfl

/-- A declared component goes through the location variable if nothing sends it through a
built-in. -/
theorem located_iff (sums : Sums env side decls s)
    (declared : (side, reg, m) ∈ decls) (covers : m.contains c = true) :
    ((s.register side reg).location?.isSome &&
        (s.register side reg).userMask.contains c) = true ↔
      ∀ value, (env.signature side).Tags reg c value →
        routesToBuiltin env.stage side value = false := by
  have inMask := (sums.mask reg c).2 ⟨m, declared, covers⟩
  have user : (s.register side reg).userMask.contains c = true ↔
      ∀ value, (env.signature side).Tags reg c value →
        routesToBuiltin env.stage side value = false := by
    rw [InterfaceRegister.contains_userMask, ← Bool.not_eq_true,
      InterfaceRegister.contains_builtinMask]
    constructor
    · rintro ⟨_, noValue⟩ value tags
      rw [← Bool.not_eq_true]
      intro routes
      obtain ⟨p, at_, has, _⟩ := (sums.exists_value declared covers).2 ⟨tags, routes⟩
      exact noValue ⟨p, at_, has⟩
    · intro noValue
      refine ⟨inMask, ?_⟩
      rintro ⟨p, at_, has⟩
      obtain ⟨tags, routes⟩ := (sums.exists_value declared covers).1 ⟨p, at_, has, rfl⟩
      rw [noValue p.2 tags] at routes
      cases routes
  rw [Bool.and_eq_true, user, and_iff_right_iff_imp]
  intro noValue
  refine sums.located reg ?_
  rw [← Bool.not_eq_true, WriteMask.isEmpty_iff]
  intro none_
  have has := user.2 noValue
  rw [none_ c] at has
  cases has

/-- The system values of which a number goes out from a component. -/
theorem exists_head (sums : Sums env .output decls s) {value : SystemValue} :
    (∃ p ∈ (s.register .output reg).systemValues, p.1.first?.getD 0 = c ∧ p.2 = value) ↔
      env.outputs.Heads decls reg c value ∧ routesToBuiltin env.stage .output value = true := by
  constructor
  · rintro ⟨p, at_, first, rfl⟩
    obtain ⟨m, declared, routed⟩ := (sums.values reg p).1 at_
    obtain ⟨e, on, found⟩ := List.mem_filterMap.1 routed
    dsimp only at found
    split at found
    · next routes =>
      cases found
      obtain ⟨full, routes⟩ := Bool.and_eq_true_iff.1 routes
      rw [Signature.elementsOn, List.mem_filter, decide_eq_true_eq] at on
      refine ⟨⟨e, on.1, on.2, rfl, m, declared, ?_⟩, routes⟩
      obtain ⟨n, is⟩ := WriteMask.exists_first?_iff.2 (by simpa using full)
      rw [is, Option.getD_some] at first
      rw [is, first]
    · cases found
  · rintro ⟨⟨e, he, register, rfl, m, declared, first⟩, routes⟩
    have full := WriteMask.exists_first?_iff.1 ⟨c, first⟩
    refine ⟨(⟨e.mask.bits &&& m.bits⟩, e.systemValue), ?_, by rw [first]; rfl, rfl⟩
    refine (sums.values reg _).2 ⟨m, declared, List.mem_filterMap.2 ⟨e, ?_, ?_⟩⟩
    · rw [Signature.elementsOn, List.mem_filter, decide_eq_true_eq]
      exact ⟨he, register⟩
    · dsimp only
      rw [full, routes]
      rfl

/-- The distances of a component of an input register are copied from the elements that have its
numbers. -/
theorem mem_distance_sources (sums : Sums env .input decls s) (declared : (.input, reg, m) ∈ decls)
    {builtin : BuiltIn} {value : SystemValue} :
    k ∈ elementsOf builtin ((Lower.distanceItems env s value).map (·.1)) reg c ↔
      routesToBuiltin env.stage .input value = true ∧ ∃ i,
        (reg, c, i) ∈ env.inputs.numbered value ∧ k = .element builtin i := by
  have contains : s.inputs.contains reg = true := (sums.contains reg).2 ⟨m, declared⟩
  obtain ⟨v, vertex⟩ := Lower.exists_mem_verticesOf (s.vertexCount env)
  have items (i : Nat) : (reg, c, i) ∈ (Lower.distanceItems env s value).map (·.1) ↔
      routesToBuiltin env.stage .input value = true ∧ (reg, c, i) ∈ env.inputs.numbered value := by
    unfold Lower.distanceItems
    rw [List.mem_map]
    split
    · next routes =>
      rw [and_iff_right routes]
      constructor
      · rintro ⟨⟨_, v⟩, mem, rfl⟩
        obtain ⟨j, listed, mem⟩ := List.mem_flatMap.1 mem
        split at mem
        · obtain ⟨_, _, mem⟩ := List.mem_flatMap.1 mem
          cases List.mem_singleton.1 mem
          exact listed
        · cases mem
      · intro listed
        refine ⟨((reg, c, i), v), List.mem_flatMap.2 ⟨_, listed, ?_⟩, rfl⟩
        rw [if_pos contains]
        exact List.mem_flatMap.2 ⟨v, vertex, List.mem_singleton_self _⟩
    · next routes =>
      constructor
      · rintro ⟨_, mem, _⟩
        cases mem
      · rintro ⟨is, _⟩
        exact absurd is routes
  rw [mem_elementsOf]
  simp only [items]
  exact ⟨fun ⟨i, ⟨routes, mem⟩, is⟩ => ⟨routes, i, mem, is⟩,
    fun ⟨routes, i, mem, is⟩ => ⟨i, ⟨routes, mem⟩, is⟩⟩

theorem mem_distance_targets {builtin : BuiltIn} {value : SystemValue} :
    k ∈ elementsOf builtin (Lower.outputItems env value) reg c ↔
      routesToBuiltin env.stage .output value = true ∧ ∃ i,
        (reg, c, i) ∈ env.outputs.numbered value ∧ k = .element builtin i := by
  unfold Lower.outputItems
  rw [mem_elementsOf]
  split
  · next routes => rw [and_iff_right routes]
  · next routes =>
    constructor
    · rintro ⟨_, mem, _⟩
      cases mem
    · rintro ⟨is, _⟩
      exact absurd is routes

/-- A component travels in the elements of the array of either distance. -/
theorem exists_distance_iff {s : Signature} {stage : ShaderStage} :
    ((routesToBuiltin stage side .clipDistance = true ∧ ∃ i,
        (reg, c, i) ∈ s.numbered .clipDistance ∧ k = .element .clipDistance i) ∨
      routesToBuiltin stage side .cullDistance = true ∧ ∃ i,
        (reg, c, i) ∈ s.numbered .cullDistance ∧ k = .element .cullDistance i) ↔
      ∃ value, value.isClipCull = true ∧ routesToBuiltin stage side value = true ∧ ∃ i,
        (reg, c, i) ∈ s.numbered value ∧
          k = .element (Lower.distance value (.ofSignature s)).1 i := by
  constructor
  · rintro (is | is)
    · exact ⟨.clipDistance, rfl, is⟩
    · exact ⟨.cullDistance, rfl, is⟩
  · rintro ⟨value, isDistance, is⟩
    cases value with
    | clipDistance => exact .inl is
    | cullDistance => exact .inr is
    | _ => cases isDistance

theorem mem_carriersOf_intakes : k ∈ carriersOf (s.intakes env) reg c ↔
    ((s.register .input reg).location?.isSome &&
        (s.register .input reg).userMask.contains c) = true ∧ k = .location reg ∨
      ∃ p ∈ (s.register .input reg).systemValues, p.1.contains c = true ∧
        p.2.carrier? env.stage .input = some k := by
  have found := Table.exists_mem_flatMap (t := s.inputs)
    (f := fun reg r => r.intakes env.stage (s.vertexCount env) reg)
    (P := fun i => i.component = c ∧ i.carrier = k)
    (fun _ _ _ mem => InterfaceRegister.register_of_mem_intakes mem) (fun _ => rfl) reg
  exact mem_carriersOf.trans (found.trans InterfaceRegister.exists_mem_intakes)

theorem mem_carriersOf_outlets : k ∈ carriersOf (s.outlets env) reg c ↔
    ((s.register .output reg).location?.isSome &&
        (s.register .output reg).userMask.contains c) = true ∧ k = .location reg ∨
      ∃ p ∈ (s.register .output reg).systemValues, (if p.2.isNumber then p.1.first?.getD 0 = c
        else p.1.contains c = true) ∧ p.2.carrier? env.stage .output = some k := by
  have found := Table.exists_mem_flatMap (t := s.outputs)
    (f := fun reg r => r.outlets env.stage reg)
    (P := fun i => i.component = c ∧ i.carrier = k)
    (fun _ _ _ mem => InterfaceRegister.register_of_mem_outlets mem) (fun _ => rfl) reg
  exact mem_carriersOf.trans (found.trans InterfaceRegister.exists_mem_outlets)

/-- Declared components of inputs come in as the signature says. -/
theorem mem_sources (sums : Sums env .input decls s) (declared : (.input, reg, m) ∈ decls)
    (covers : m.contains c = true) :
    k ∈ s.sources env reg c ↔ env.inputs.Sends env.stage .input decls reg c k := by
  unfold State.sources
  rw [List.mem_append, List.mem_append, sums.mem_distance_sources declared,
    sums.mem_distance_sources declared, exists_distance_iff, mem_carriersOf_intakes]
  constructor
  · rintro ((⟨located, rfl⟩ | ⟨p, at_, has, through⟩) | ⟨value, isDistance, routes, i, number, rfl⟩)
    · exact .location ((sums.located_iff declared covers).1 located)
    · obtain ⟨tags, routes⟩ := (sums.exists_value declared covers).1 ⟨p, at_, has, rfl⟩
      exact .value tags routes through nofun
    · exact .distance isDistance routes number
  · rintro (user | ⟨tags, routes, through, _⟩ | ⟨isDistance, routes, number⟩)
    · exact .inl (.inl ⟨(sums.located_iff declared covers).2 user, rfl⟩)
    · obtain ⟨p, at_, has, rfl⟩ := (sums.exists_value declared covers).2 ⟨tags, routes⟩
      exact .inl (.inr ⟨p, at_, has, through⟩)
    · exact .inr ⟨_, isDistance, routes, _, number, rfl⟩

/-- Declared components of outputs go out as the signature says. -/
theorem mem_targets (sums : Sums env .output decls s) (declared : (.output, reg, m) ∈ decls)
    (covers : m.contains c = true) :
    k ∈ s.targets env reg c ↔ env.outputs.Sends env.stage .output decls reg c k := by
  unfold State.targets
  rw [List.mem_append, List.mem_append, mem_distance_targets, mem_distance_targets,
    exists_distance_iff, mem_carriersOf_outlets]
  constructor
  · rintro ((⟨located, rfl⟩ | ⟨p, at_, has, through⟩) | ⟨value, isDistance, routes, i, number, rfl⟩)
    · exact .location ((sums.located_iff declared covers).1 located)
    · split at has
      · next number =>
        obtain ⟨heads, routes⟩ := sums.exists_head.1 ⟨p, at_, has, rfl⟩
        exact .value heads.tags routes through fun _ _ => heads
      · next other =>
        obtain ⟨tags, routes⟩ := (sums.exists_value declared covers).1 ⟨p, at_, has, rfl⟩
        exact .value tags routes through fun _ number => absurd number other
    · exact .distance isDistance routes number
  · rintro (user | @⟨value, _, tags, routes, through, heads⟩ | ⟨isDistance, routes, number⟩)
    · exact .inl (.inl ⟨(sums.located_iff declared covers).2 user, rfl⟩)
    · by_cases number : value.isNumber = true
      · obtain ⟨p, at_, has, rfl⟩ := sums.exists_head.2 ⟨heads rfl number, routes⟩
        exact .inl (.inr ⟨p, at_, by rwa [if_pos number], through⟩)
      · obtain ⟨p, at_, has, rfl⟩ := (sums.exists_value declared covers).2 ⟨tags, routes⟩
        exact .inl (.inr ⟨p, at_, by rwa [if_neg number], through⟩)
    · exact .inr ⟨_, isDistance, routes, _, number, rfl⟩

end Sums

end ShaderLowering
