import ShaderLowering.Proofs.Scope.Steps
import Mathlib.Data.List.Nodup

/-!
Which ids a step decorates. Steps decorate what they make themselves, each thing at most once; what
was there before is decorated only where a step is told to. So no decoration is repeated as long as
each variable and each type is decorated where it is made.
-/

namespace ShaderLowering

open Spirv (Id Instr Arg Op Module Builder Decoration)

namespace Spirv

/-- What an annotation says of an id, or of a member of it, its arguments apart. -/
structure Annotation where
  target : Id
  member? : Option UInt32
  decoration : UInt32
deriving DecidableEq, Repr

/-- The number of a decoration is its own. -/
theorem Decoration.code_injective {d d' : Decoration} (same : d.code = d'.code) : d = d' := by
  cases d <;> cases d' <;> first | rfl | exact absurd same (by decide)

/-- The mark that a decoration leaves on an id. -/
def Decoration.on (d : Decoration) (id : Id) : Annotation :=
  ⟨id, none, d.code⟩

def Instr.mark? (a : Instr) : Option Annotation :=
  match a.op, a.args with
  | .ordinary .decorate, .id target :: .word decoration :: _ => some ⟨target, none, decoration⟩
  | .ordinary .memberDecorate, .id target :: .word member :: .word decoration :: _ =>
    some ⟨target, some member, decoration⟩
  | _, _ => none

/-- The marks of a module, in order. -/
def Module.marks (m : Module) : List Annotation :=
  m.annotations.toList.filterMap Instr.mark?

/-- The type of arrays of no fixed length. -/
@[grind =]
def Op.isUnsized : Op → Bool
  | typeRuntimeArray => true
  | _ => false

end Spirv

open Spirv ( Annotation)

/-- Results may be marked against contraction where they are computed. Every other mark is put on
where its target is made. -/
def Spirv.Annotation.isPrecise (k : Annotation) : Bool :=
  k.decoration = Decoration.noContraction.code

namespace State

/-- How often a mark stands in the module. -/
def tally (s : State) (k : Annotation) : Nat :=
  s.builder.module.marks.count k

/-- Only the block of dwords needs an array of no fixed length. -/
def Bare (s : State) : Prop :=
  s.storageBlock? = none → ∀ i ∈ s.builder.module.globals.toList, i.op ≠ .ordinary .typeRuntimeArray

end State

/-- How many marks of a kind a step may add: those it is told to put on old ids, and one on each id
that it takes. -/
def quota (old : List Annotation) (n n' : Nat) (k : Annotation) : Nat :=
  if k.target < n then old.count k else if k.target < n' ∧ k.isPrecise = false then 1 else 0

/-- What a step that is told to put the marks `old` on old ids does to a state. -/
structure State.Stamps (old : List Annotation) (s t : State) : Prop where
  nextId : s.builder.nextId ≤ t.builder.nextId
  globals : ∀ i ∈ s.builder.module.globals.toList, i ∈ t.builder.module.globals.toList
  tally : ∀ k, t.tally k ≤ s.tally k + quota old s.builder.nextId t.builder.nextId k

namespace State.Stamps

variable {s t u : State} {old old' : List Annotation}

theorem of_annotations (nextId : s.builder.nextId ≤ t.builder.nextId)
    (globals : ∀ i ∈ s.builder.module.globals.toList, i ∈ t.builder.module.globals.toList)
    (same : t.builder.module.annotations = s.builder.module.annotations) : s.Stamps [] t where
  nextId
  globals
  tally k := by
    have : t.tally k = s.tally k := by rw [State.tally, Module.marks, same]; rfl
    omega

theorem refl (s : State) : s.Stamps [] s :=
  .of_annotations (Nat.le_refl _) (fun _ h => h) rfl

/-- The marks of two steps that are told to put theirs on ids that are old to both. -/
theorem trans (first : s.Stamps old t) (second : t.Stamps old' u)
    (older : ∀ k ∈ old', k.target < s.builder.nextId) : s.Stamps (old ++ old') u where
  nextId := Nat.le_trans first.nextId second.nextId
  globals i hi := second.globals i (first.globals i hi)
  tally k := by
    have h₁ := first.tally k
    have h₂ := second.tally k
    have sn := first.nextId
    have tn := second.nextId
    have none_ : ¬k.target < s.builder.nextId → old'.count k = 0 := fun new =>
      List.count_eq_zero.2 fun mem => new (older k mem)
    unfold quota at h₁ h₂ ⊢
    rw [List.count_append]
    split_ifs at h₁ h₂ ⊢ <;> lia

theorem trans_nil (first : s.Stamps [] t) (second : t.Stamps [] u) : s.Stamps [] u :=
  first.trans second nofun

/-- Fewer marks than a step is told to put on. -/
theorem mono (h : s.Stamps old t) (fewer : old.Sublist old') : s.Stamps old' t where
  nextId := h.nextId
  globals := h.globals
  tally k := by
    have := h.tally k
    have := List.Sublist.count_le k fewer
    unfold quota at *
    split_ifs at * <;> lia

/-- What a step takes for itself and puts some marks on, another may mark as well, each mark
once. -/
theorem release {id : Id} {done : List Annotation} (first : s.Stamps [] t) (second : t.Stamps old u)
    (new : s.builder.nextId ≤ id) (taken : id < t.builder.nextId)
    (marked : ∀ k, k.target = id → t.tally k ≤ s.tally k + done.count k)
    (target : ∀ k ∈ old, k.target = id ∧ k.isPrecise = false) (once : (done ++ old).Nodup) :
    s.Stamps [] u where
  nextId := Nat.le_trans first.nextId second.nextId
  globals i hi := second.globals i (first.globals i hi)
  tally k := by
    have h₁ := first.tally k
    have h₂ := second.tally k
    have h₃ := marked k
    have sn := first.nextId
    have tn := second.nextId
    have few : (done ++ old).count k ≤ 1 := List.nodup_iff_count_le_one.1 once k
    have none_ : k ∉ old → old.count k = 0 := List.count_eq_zero.2
    have mem := target k
    rw [List.count_append] at few
    unfold quota at h₁ h₂ ⊢
    rw [List.count_nil] at *
    by_cases here : k ∈ old
    · obtain ⟨same, loose⟩ := mem here
      simp only [same, loose] at *
      split_ifs at h₁ h₂ ⊢ <;> lia
    · rw [none_ here] at h₂
      split_ifs at h₁ h₂ ⊢ <;> lia

/-- What a step takes for itself and leaves unmarked, another may mark. -/
theorem hand {id : Id} (first : s.Stamps [] t) (second : t.Stamps old u)
    (new : s.builder.nextId ≤ id) (taken : id < t.builder.nextId)
    (unmarked : ∀ k, k.target = id → t.tally k ≤ s.tally k)
    (target : ∀ k ∈ old, k.target = id ∧ k.isPrecise = false) (once : old.Nodup) :
    s.Stamps [] u :=
  have marked (k : Annotation) (same : k.target = id) : t.tally k ≤ s.tally k + [].count k :=
    unmarked k same
  first.release second new taken marked target once

end State.Stamps

/-- A step that puts at most the marks `old` on old ids. -/
def Decorates {α : Type} (old : List Annotation) (env : Environment)
    (run : Environment → State → Except CompileError α × State) : Prop :=
  ∀ s a t, s.Bare → (∀ k ∈ old, k.target < s.builder.nextId) → run env s = (.ok a, t) →
    t.Bare ∧ s.Stamps old t

/-- A step that takes an id, and marks it with nothing but the decorations `ds`. -/
def Takes {α : Type} (ds : List Decoration) (out : α → Id) (env : Environment)
    (run : Environment → State → Except CompileError α × State) : Prop :=
  ∀ s a t, s.Bare → run env s = (.ok a, t) → (t.Bare ∧ s.Stamps [] t) ∧
    s.builder.nextId ≤ out a ∧ out a < t.builder.nextId ∧
      ∀ k, k.target = out a → t.tally k ≤ s.tally k + (ds.map (·.on (out a))).count k

section Steps

variable {α β : Type} {env : Environment} {old old' : List Annotation}
  {run : Environment → State → Except CompileError α × State}
  {next : α → Environment → State → Except CompileError β × State}

namespace Decorates

/-- What comes after a run may rely on what the run gives. -/
theorem andThen (first : Decorates old env run)
    (later : ∀ a s t, run env s = (.ok a, t) → Decorates old' env (next a)) :
    Decorates (old ++ old') env fun env s =>
      Lower.andThen (run env s) fun a t => next a env t := by
  intro s b u bare older ran
  obtain ⟨a, t, ran, ran'⟩ := Lower.andThen_eq_ok.1 ran
  have older := List.forall_mem_append.1 older
  obtain ⟨bare', stamps⟩ := first s a t bare older.1 ran
  obtain ⟨bare'', stamps'⟩ := later a s t ran t b u bare'
    (fun k hk => Nat.lt_of_lt_of_le (older.2 k hk) stamps.nextId) ran'
  exact ⟨bare'', stamps.trans stamps' older.2⟩

theorem mono (h : Decorates old env run) (fewer : old.Sublist old') : Decorates old' env run :=
  fun s a t bare older ran =>
    (h s a t bare (fun k hk => older k (fewer.subset hk)) ran).imp_right (·.mono fewer)

/-- A step that leaves the annotations alone, takes no id back, and adds no array of no fixed
length. -/
theorem of_run (h : ∀ s a t, run env s = (.ok a, t) →
      (s.builder.nextId ≤ t.builder.nextId ∧
        t.builder.module.annotations = s.builder.module.annotations ∧
        t.storageBlock? = s.storageBlock?) ∧
      (∀ i ∈ s.builder.module.globals.toList, i ∈ t.builder.module.globals.toList) ∧
      ∀ i ∈ t.builder.module.globals.toList, i ∈ s.builder.module.globals.toList ∨
        i.op ≠ .ordinary .typeRuntimeArray) : Decorates [] env run := by
  intro s a t bare _ ran
  obtain ⟨⟨nextId, annotations, block⟩, globals, added⟩ := h s a t ran
  refine ⟨fun none_ i hi => ?_, .of_annotations nextId globals annotations⟩
  exact (added i hi).elim (bare (block.symm.trans none_) i) id

/-- A change of anything but globals, annotations and the block of dwords. -/
theorem of_change {g : State → State} (is : ∀ s a t, run env s = (.ok a, t) → t = g s)
    (nextId : ∀ s : State, (g s).builder.nextId = s.builder.nextId)
    (globals : ∀ s : State, (g s).builder.module.globals = s.builder.module.globals)
    (annotations : ∀ s : State, (g s).builder.module.annotations = s.builder.module.annotations)
    (block : ∀ s : State, (g s).storageBlock? = s.storageBlock?) : Decorates [] env run := by
  refine .of_run fun s a t ran => ?_
  obtain rfl := is s a t ran
  rw [globals]
  exact ⟨⟨Nat.le_of_eq (nextId s).symm, annotations s, block s⟩, fun _ h => h, fun _ => .inl⟩

/-- A step that changes nothing. -/
theorem of_same (same : ∀ s a t, run env s = (.ok a, t) → t = s) : Decorates [] env run :=
  .of_change (g := id) same (fun _ => rfl) (fun _ => rfl) (fun _ => rfl) fun _ => rfl

end Decorates

namespace Takes

variable {ds ds' : List Decoration} {out : α → Id} {out' : β → Id}

theorem decorates (h : Takes ds out env run) : Decorates [] env run :=
  fun s a t bare _ ran => (h s a t bare ran).1

theorem mono (h : Takes ds out env run) (fewer : ds.Sublist ds') : Takes ds' out env run := by
  intro s a t bare ran
  obtain ⟨stamps, new, taken, marked⟩ := h s a t bare ran
  refine ⟨stamps, new, taken, fun k same => Nat.le_trans (marked k same) ?_⟩
  exact Nat.add_le_add_left ((fewer.map _).count_le k) _

/-- Decorations are different marks. -/
theorem marks_nodup (once : ds.Nodup) (id : Id) : (ds.map (·.on id)).Nodup :=
  List.Nodup.map
    (fun _ _ same => Spirv.Decoration.code_injective (congrArg Annotation.decoration same)) once

theorem marks_target (loose : .noContraction ∉ ds) (id : Id) :
    ∀ k ∈ ds.map (·.on id), k.target = id ∧ k.isPrecise = false := by
  intro k hk
  obtain ⟨d, hd, rfl⟩ := List.mem_map.1 hk
  refine ⟨rfl, decide_eq_false fun same => loose ?_⟩
  rwa [← Spirv.Decoration.code_injective same]

/-- What is taken may be decorated, in each way once. -/
theorem andThen (first : Takes ds out env run) (once : (ds ++ ds').Nodup)
    (loose : .noContraction ∉ ds')
    (later : ∀ a, Decorates (ds'.map (·.on (out a))) env (next a)) :
    Decorates [] env fun env s => Lower.andThen (run env s) fun a t => next a env t := by
  intro s b u bare _ ran
  obtain ⟨a, t, ran, ran'⟩ := Lower.andThen_eq_ok.1 ran
  obtain ⟨⟨bare', stamps⟩, new, taken, marked⟩ := first s a t bare ran
  obtain ⟨bare'', stamps'⟩ := later a t b u bare'
    (fun k hk => (marks_target loose _ k hk).1 ▸ taken) ran'
  refine ⟨bare'', stamps.release stamps' new taken marked (marks_target loose _) ?_⟩
  rw [← List.map_append]
  exact marks_nodup once _

/-- What is taken, handed on by a step that decorates it. -/
theorem onward (first : Takes ds out env run) (once : (ds ++ ds').Nodup)
    (loose : .noContraction ∉ ds')
    (later : ∀ a, Decorates (ds'.map (·.on (out a))) env (next a))
    (same : ∀ a s b t, next a env s = (.ok b, t) → out' b = out a) :
    Takes (ds ++ ds') out' env fun env s =>
      Lower.andThen (run env s) fun a t => next a env t := by
  intro s b u bare ran
  refine ⟨first.andThen once loose later s b u bare nofun ran, ?_⟩
  obtain ⟨a, t, ran, ran'⟩ := Lower.andThen_eq_ok.1 ran
  obtain ⟨⟨bare', stamps⟩, new, taken, marked⟩ := first s a t bare ran
  obtain ⟨_, stamps'⟩ := later a t b u bare'
    (fun k hk => (marks_target loose _ k hk).1 ▸ taken) ran'
  rw [same a t b u ran']
  refine ⟨new, Nat.lt_of_lt_of_le taken stamps'.nextId, fun k is => ?_⟩
  have h₁ := marked k is
  have h₂ := stamps'.tally k
  rw [quota, if_pos (is ▸ taken)] at h₂
  rw [List.map_append, List.count_append]
  omega

/-- An id that is taken behind another step. -/
theorem after (first : Decorates [] env run) (later : ∀ a, Takes ds out' env (next a)) :
    Takes ds out' env fun env s => Lower.andThen (run env s) fun a t => next a env t := by
  intro s b u bare ran
  obtain ⟨a, t, ran, ran'⟩ := Lower.andThen_eq_ok.1 ran
  obtain ⟨bare', stamps⟩ := first s a t bare nofun ran
  obtain ⟨⟨bare'', stamps'⟩, new, taken, marked⟩ := later a t b u bare' ran'
  have nextId := stamps.nextId
  refine ⟨⟨bare'', stamps.trans_nil stamps'⟩, Nat.le_trans nextId new, taken, fun k same => ?_⟩
  have h₁ := stamps.tally k
  have h₂ := marked k same
  unfold quota at h₁
  rw [List.count_nil] at h₁
  split_ifs at h₁ <;> lia

end Takes

theorem marks_annotate (s : State) (i : Instr) :
    (s.builder.annotate i).module.marks = s.builder.module.marks ++ i.mark?.toList := by
  rw [Module.marks, Builder.annotate, Array.toList_push, List.filterMap_append]
  cases h : i.mark? <;> simp [Module.marks, h]

/-- An annotation puts one mark on its target. -/
theorem stamps_annotate (s : State) {i : Instr} {k : Annotation} (is : i.mark? = some k)
    (old : k.target < s.builder.nextId) :
    s.Stamps [k] { s with builder := s.builder.annotate i } := by
  refine ⟨Nat.le_refl _, fun _ h => h, fun j => ?_⟩
  rw [State.tally, marks_annotate, List.count_append, is, ← State.tally]
  change _ + [k].count j ≤ _
  unfold quota
  by_cases same : k = j
  · subst same
    exact Nat.add_le_add_left (Nat.le_of_eq (if_pos old).symm) _
  · rw [List.count_eq_zero.2 fun mem => same (List.mem_singleton.1 mem).symm]
    exact Nat.le_add_right _ _

theorem mem_addGlobal {b : Builder} {i j : Instr} :
    j ∈ (b.addGlobal i).module.globals.toList ↔ j ∈ b.module.globals.toList ∨ j = i := by
  rw [Builder.addGlobal, Array.toList_push, List.mem_append, List.mem_singleton]

theorem stamps_declareNew (s : State) (op : Op) (type? : Option Id) (args : List Arg) :
    s.Stamps [] { s with builder := (s.builder.declareNew op type? args).2 } :=
  .of_annotations (Nat.le_succ _) (fun _ hi => mem_addGlobal.2 (.inl hi)) rfl

theorem mem_globals_variable {b : Builder} {pointer : Id} {storage : Spirv.StorageClass}
    {initial? : Option Id} {i : Instr}
    (h : i ∈ (b.variable_ pointer storage initial?).2.module.globals.toList) :
    i ∈ b.module.globals.toList ∨ i.op = .ordinary .var := by
  unfold Builder.variable_ at h
  dsimp only at h
  split at h
  · next placed =>
    obtain ⟨_, _, _, _, rfl⟩ := Builder.push_eq_ok.1 placed
    exact .inl h
  · exact (mem_addGlobal.1 h).imp_right fun same => by rw [same]

namespace Decorates

theorem annotate {i : Instr} {k : Annotation} (is : i.mark? = some k) :
    Decorates [k] env (Emission.annotate i).run := by
  intro s a t bare older ran
  cases ran
  exact ⟨bare, stamps_annotate s is (older k List.mem_cons_self)⟩

theorem fresh : Decorates [] env Emission.fresh.run := by
  refine .of_run fun s a t ran => ?_
  cases ran
  exact ⟨⟨Nat.le_succ _, rfl, rfl⟩, fun _ h => h, fun _ => .inl⟩

theorem push (op : Op) (type? result? : Option Id) (args : List Arg) :
    Decorates [] env (Emission.push op type? result? args).run := by
  refine .of_run fun s a t ran => ?_
  obtain ⟨c, placed, rfl⟩ := Emission.run_push_eq_ok.1 ran
  obtain ⟨_, _, _, _, rfl⟩ := Builder.push_eq_ok.1 placed
  exact ⟨⟨Nat.le_refl _, rfl, rfl⟩, fun _ h => h, fun _ => .inl⟩

end Decorates

namespace Takes

/-- An id that is left unmarked. -/
theorem of_unmarked {out : α → Id} (h : ∀ s a t, s.Bare → run env s = (.ok a, t) →
      (t.Bare ∧ s.Stamps [] t) ∧ s.builder.nextId ≤ out a ∧ out a < t.builder.nextId ∧
        ∀ k, k.target = out a → t.tally k ≤ s.tally k) : Takes [] out env run :=
  fun s a t bare ran => h s a t bare ran

theorem declareNew {op : Op} (other : op.isUnsized = false) (type? : Option Id)
    (args : List Arg) : Takes [] id env (Emission.declareNew op type? args).run := by
  refine .of_unmarked fun s id t bare ran => ?_
  cases ran
  refine ⟨⟨fun none_ i hi => ?_, stamps_declareNew s op type? args⟩, Nat.le_refl _,
    Nat.lt_succ_self _, fun _ _ => Nat.le_refl _⟩
  rcases mem_addGlobal.1 hi with old | rfl
  · exact bare none_ i old
  · rintro ⟨⟩
    cases other

theorem newVariable (pointer : Id) (storage : Spirv.StorageClass) (initial? : Option Id) :
    Takes [] id env (Emission.newVariable pointer storage initial?).run := by
  refine .of_unmarked fun s id t bare ran => ?_
  obtain ⟨taken, rfl⟩ := Prod.mk.inj
    (show (Except.ok (s.builder.variable_ pointer storage initial?).1,
      { s with builder := (s.builder.variable_ pointer storage initial?).2 }) = _ from ran)
  have taken := Except.ok.inj taken
  rw [s.builder.fst_variable] at taken
  subst taken
  have annotations := s.builder.annotations_variable pointer storage initial?
  have nextId := s.builder.nextId_variable pointer storage initial?
  have globals := (s.builder.globals_variable pointer storage initial?).subset
  have below : s.builder.nextId < (s.builder.variable_ pointer storage initial?).2.nextId :=
    nextId ▸ Nat.lt_succ_self _
  refine ⟨⟨fun none_ i hi => ?_, .of_annotations (Nat.le_of_lt below) globals annotations⟩,
    Nat.le_refl _, below, fun k _ => ?_⟩
  · rcases mem_globals_variable hi with old | op
    · exact bare none_ i old
    · rw [op]
      exact nofun
  · rw [State.tally, Module.marks, annotations]
    exact Nat.le_refl _

end Takes

namespace Decorates

theorem declare {key : Spirv.Key} (other : key.op.isUnsized = false) :
    Decorates [] env (Emission.declare key).run := by
  intro s id t bare older ran
  have ran : (Except.ok (s.builder.declare key).1,
      { s with builder := (s.builder.declare key).2 }) = (Except.ok id, t) := ran
  obtain ⟨found, _, _, same⟩ | ⟨_, new⟩ := s.builder.declare_eq key
  · rw [same] at ran
    cases ran
    exact ⟨bare, .of_annotations (Nat.le_refl _) (fun _ hi => hi) rfl⟩
  · rw [new] at ran
    cases ran
    have taken : Takes [] (fun i => i) env (Emission.declareNew key.op key.type? key.args).run :=
      .declareNew other key.type? key.args
    have ⟨bare', stamps⟩ := taken.decorates s _ _ bare older rfl
    exact ⟨bare', ⟨stamps.nextId, stamps.globals, stamps.tally⟩⟩

theorem newTemp (pointer : Id) : Decorates [] env (Emission.newTemp pointer).run := by
  intro s id t bare older ran
  cases ran
  have taken : Takes [] (fun i => i) env (Emission.newVariable pointer .priv none).run :=
    .newVariable _ _ _
  obtain ⟨bare', stamps⟩ := taken.decorates s _ _ bare older rfl
  exact ⟨bare', stamps.nextId, stamps.globals, stamps.tally⟩

end Decorates

end Steps

end ShaderLowering
