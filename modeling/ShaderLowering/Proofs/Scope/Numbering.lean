import ShaderLowering.Proofs.Scope.Moves

/-!
Ids are given out once. What a module defines and what is set aside for labels and functions to
come are different ids, all below the next one. Each move takes at most one new id, so this holds
along every run.
-/

namespace ShaderLowering

open Spirv (Id Instr Arg Op Module Builder Exit Merge StorageClass)

namespace Spirv

def Block.defined (b : Block) : List Id :=
  b.label :: b.body.toList.filterMap (·.result?)

def Function.defined (f : Function) : List Id :=
  f.definition.result?.toList ++ f.blocks.toList.flatMap Block.defined

/-- The ids that imports, globals and functions define, labels included. -/
def Module.defined (m : Module) : List Id :=
  m.imports.toList.filterMap (·.result?) ++ m.globals.toList.filterMap (·.result?) ++
    m.functions.toList.flatMap Function.defined

/-- Nothing else in a module has a result, as a rule. -/
def Module.Announces (m : Module) : Prop :=
  ∀ i ∈ m.preamble, i.result? = none

namespace Module

variable {m : Module} {id : Id}

theorem filterMap_block (b : Block) : b.instructions.filterMap (·.result?) = b.defined :=
  rfl

theorem filterMap_function (f : Function) :
    f.instructions.filterMap (·.result?) = f.defined := by
  have blocks (l : List Block) :
      (l.flatMap Block.instructions).filterMap (·.result?) = l.flatMap Block.defined := by
    induction l with
    | nil => rfl
    | cons b rest ih =>
      rw [List.flatMap_cons, List.filterMap_append, ih, filterMap_block, List.flatMap_cons]
  rw [Function.instructions, List.filterMap_append, List.filterMap_cons, blocks, Function.defined]
  cases f.definition.result? <;> simp [Instr.plain]

/-- The results of all instructions, in the order of the binary. -/
theorem Announces.filterMap_instructions (h : m.Announces) :
    m.instructions.filterMap (·.result?) = m.defined := by
  have none_ {l : List Instr} (within : ∀ i ∈ l, i ∈ m.preamble) :
      l.filterMap (·.result?) = [] :=
    List.filterMap_eq_nil_iff.2 fun i hi => h i (within i hi)
  have functions (l : List Function) :
      (l.flatMap Function.instructions).filterMap (·.result?) = l.flatMap Function.defined := by
    induction l with
    | nil => rfl
    | cons f rest ih =>
      rw [List.flatMap_cons, List.filterMap_append, ih, filterMap_function, List.flatMap_cons]
  have part {a : Array Instr} (within : ∀ i ∈ a, i ∈ m.preamble) :
      a.toList.filterMap (·.result?) = [] :=
    none_ fun i hi => within i (Array.mem_toList_iff.1 hi)
  simp only [instructions, defined, List.filterMap_append, functions]
  rw [part (a := m.capabilities), part (a := m.extensions), part (a := m.memoryModel),
    part (a := m.entryPoints), part (a := m.executionModes), part (a := m.names),
    part (a := m.annotations)]
  · simp
  all_goals
    intro i hi
    rw [mem_preamble]
    simp only [hi, true_or, or_true]

end Module

/-- What a change of one element adds to what all of them give. -/
theorem perm_flatMap_modify {α β : Type} {g : α → List β} {h : α → α} {more : List β} {a : α}
    (adds : (g (h a)).Perm (more ++ g a)) :
    ∀ {l : List α} {n : Nat}, l[n]? = some a → ((l.modify n h).flatMap g).Perm (more ++ l.flatMap g)
  | b :: rest, 0, there => by
    cases there
    rw [List.modify_zero_cons, List.flatMap_cons, List.flatMap_cons, ← List.append_assoc]
    exact adds.append_right _
  | b :: rest, n + 1, there => by
    rw [List.modify_succ_cons, List.flatMap_cons, List.flatMap_cons]
    refine ((perm_flatMap_modify adds (l := rest) (n := n) there).append_left (g b)).trans ?_
    rw [← List.append_assoc, ← List.append_assoc]
    exact List.perm_append_comm.append_right _

namespace Builder

variable {b c : Builder} {i : Instr} {id label : Id} {f k : Nat}

theorem defined_addGlobal (b : Builder) (i : Instr) :
    (b.addGlobal i).module.defined.Perm (i.result?.toList ++ b.module.defined) := by
  have globals : (b.addGlobal i).module.globals.toList.filterMap (·.result?) =
      b.module.globals.toList.filterMap (·.result?) ++ i.result?.toList := by
    rw [addGlobal, Array.toList_push, List.filterMap_append]
    congr 1
  unfold Module.defined
  rw [globals, ← List.append_assoc]
  refine List.Perm.append_right _ ?_ |>.trans (.of_eq (List.append_assoc _ _ _))
  exact List.perm_append_comm

theorem defined_modify {g : Function → Function} {more : List Id} {e : Function}
    (there : b.module.functions[f]? = some e) (adds : (g e).defined.Perm (more ++ e.defined)) :
    { b.module with functions := b.module.functions.modify f g }.defined.Perm
      (more ++ b.module.defined) := by
  unfold Module.defined
  rw [Array.toList_modify]
  refine ((perm_flatMap_modify adds (by rwa [Array.getElem?_toList])).append_left _).trans ?_
  rw [← List.append_assoc, ← List.append_assoc]
  exact List.perm_append_comm.append_right _

theorem defined_pushTo {block : Block} (there : b.module.block? f k = some block) :
    (b.pushTo f k i).module.defined.Perm (i.result?.toList ++ b.module.defined) := by
  obtain ⟨e, he, hk⟩ := Option.bind_eq_some_iff.1 there
  refine defined_modify he ?_
  have inside : (Block.defined { block with body := block.body.push i }).Perm
      (i.result?.toList ++ block.defined) := by
    unfold Block.defined
    rw [Array.toList_push, List.filterMap_append]
    cases h : i.result? with
    | none => simp [h]
    | some id => simpa [h] using (List.perm_append_comm).cons _ |>.trans (.swap _ _ _)
  unfold Function.defined
  rw [Array.toList_modify]
  refine ((perm_flatMap_modify inside (by rwa [Array.getElem?_toList])).append_left _).trans ?_
  rw [← List.append_assoc, ← List.append_assoc]
  exact List.perm_append_comm.append_right _

theorem defined_enter (there : f < b.module.functions.size) :
    (b.enter f label).module.defined.Perm (label :: b.module.defined) := by
  refine @defined_modify _ _ _ [label] _ (Array.getElem?_eq_getElem there) ?_
  unfold Function.defined
  rw [Array.toList_push, List.flatMap_append]
  have last : [Block.start label].flatMap Block.defined = [label] := rfl
  rw [last, ← List.append_assoc]
  exact List.perm_append_comm

theorem defined_addFunction (b : Builder) (i : Instr) :
    (b.addFunction i).module.defined.Perm (i.result?.toList ++ b.module.defined) := by
  unfold Module.defined addFunction
  rw [Array.toList_push, List.flatMap_append, ← List.append_assoc]
  have last : [(⟨i, #[]⟩ : Function)].flatMap Function.defined = i.result?.toList := by
    simp [Function.defined]
  rw [last]
  exact List.perm_append_comm

/-- One builder defines what another does, and its next id at most. -/
structure Takes (b c : Builder) : Prop where
  defined : c.module.defined.Perm b.module.defined ∧ b.nextId ≤ c.nextId ∨
    c.module.defined.Perm (b.nextId :: b.module.defined) ∧ b.nextId < c.nextId
  preamble : ∀ i ∈ c.module.preamble, i ∈ b.module.preamble ∨ i.result? = none

namespace Takes

theorem none (defined : c.module.defined.Perm b.module.defined) (nextId : b.nextId ≤ c.nextId)
    (preamble : c.module.preamble = b.module.preamble) : b.Takes c :=
  ⟨.inl ⟨defined, nextId⟩, fun _ hi => .inl (preamble ▸ hi)⟩

theorem next (defined : c.module.defined.Perm (b.nextId :: b.module.defined))
    (nextId : b.nextId < c.nextId) (preamble : c.module.preamble = b.module.preamble) : b.Takes c :=
  ⟨.inr ⟨defined, nextId⟩, fun _ hi => .inl (preamble ▸ hi)⟩

end Takes

variable {d : Builder}

theorem Like.takes (h : b.Like c) : b.Takes c := by
  refine ⟨.inl ⟨.of_eq ?_, Nat.le_of_eq h.nextId.symm⟩, h.preamble⟩
  rw [Module.defined, Module.defined, h.imports, h.globals, h.functions]

/-- Names and annotations make no difference. -/
theorem Takes.like (h : b.Takes c) (like : c.Like d) : b.Takes d := by
  have same : d.module.defined = c.module.defined := by
    rw [Module.defined, Module.defined, like.imports, like.globals, like.functions]
  refine ⟨?_, fun i hi => (like.preamble i hi).elim (h.preamble i) .inr⟩
  rw [same, like.nextId]
  exact h.defined

theorem takes_declare (b : Builder) (key : Key) : b.Takes (b.declare key).2 := by
  obtain ⟨_, _, _, same⟩ | ⟨_, new⟩ := b.declare_eq key
  · rw [same]
    exact .none (.refl _) (Nat.le_refl _) rfl
  · rw [new]
    exact .next (b.fresh.2.defined_addGlobal _) (Nat.lt_succ_self _) rfl

namespace Sound

variable (sound : b.Sound)
include sound

theorem takes_push {op : Op} {type? : Option Id} {args : List Arg}
    (placed : b.fresh.2.push ⟨.ordinary op, type?, some b.nextId, args⟩ = .ok c) : b.Takes c := by
  obtain ⟨f, k, hf, hk, rfl⟩ := push_eq_ok.1 placed
  obtain ⟨block, there⟩ := sound.fresh.opened_block hf hk
  exact .next (defined_pushTo (b := b.fresh.2) there) (Nat.lt_succ_self _) rfl

theorem takes_emit (placed : b.push i = .ok c) (result : i.result? = Option.none) :
    b.Takes c := by
  obtain ⟨f, k, hf, hk, rfl⟩ := push_eq_ok.1 placed
  obtain ⟨block, there⟩ := sound.opened_block hf hk
  refine .none ((defined_pushTo there).trans ?_) (Nat.le_refl _) rfl
  rw [result]
  exact .refl _

theorem takes_variable (pointer : Id) (storage : StorageClass) (initial? : Option Id) :
    b.Takes (b.variable_ pointer storage initial?).2 := by
  unfold Builder.variable_
  dsimp only [Builder.fresh]
  split
  · next c placed => exact sound.takes_push placed
  · exact .next (b.fresh.2.defined_addGlobal _) (Nat.lt_succ_self _) rfl

end Sound

end Builder

end Spirv

variable {H : Limits} {env : Environment} {s t : State} {x y : Configuration}

theorem Creates.takes {id : Id} {storage : StorageClass} {marks : List Instr}
    (h : Creates H s t id storage marks) (sound : s.builder.Sound) : s.builder.Takes t.builder := by
  obtain ⟨pointer, initial?, _, like⟩ := h.built
  exact (sound.takes_variable pointer storage initial?).like like

theorem Act.takes (h : Act H env s t) (sound : s.builder.Sound) : s.builder.Takes t.builder := by
  cases h with
  | declare => exact s.builder.takes_declare _
  | declareNew => exact .next (s.builder.fresh.2.defined_addGlobal _) (Nat.lt_succ_self _) rfl
  | compute _ placed => exact sound.takes_push placed
  | emit _ placed => exact sound.takes_emit placed rfl
  | create creates | builtin _ creates | locate _ _ creates => exact creates.takes sound
  | annotate plain => exact (s.builder.like_annotate plain.result?).takes
  | note like => exact like.takes
  | bind _ binds =>
    obtain ⟨_, _, _, _, _, creates, _⟩ := binds.made
    exact creates.takes sound

/-- No id has been given out twice. -/
structure Configuration.Numbered (x : Configuration) : Prop where
  distinct : (x.state.builder.module.defined ++ x.reserved).Nodup
  below : ∀ id ∈ x.state.builder.module.defined ++ x.reserved, id < x.state.builder.nextId
  announces : x.state.builder.module.Announces

namespace Configuration.Numbered

theorem nodup_of_subperm {l m : List Id} (h : m.Nodup) (among : l.Subperm m) : l.Nodup := by
  obtain ⟨k, same, fewer⟩ := among
  exact same.nodup_iff.1 (h.sublist fewer)

/-- The next id may have been taken. -/
theorem step (h : x.Numbered)
    (ids : (y.state.builder.module.defined ++ y.reserved).Subperm
        (x.state.builder.module.defined ++ x.reserved) ∧
        x.state.builder.nextId ≤ y.state.builder.nextId ∨
      (y.state.builder.module.defined ++ y.reserved).Subperm
        (x.state.builder.nextId :: (x.state.builder.module.defined ++ x.reserved)) ∧
        x.state.builder.nextId < y.state.builder.nextId)
    (preamble : ∀ i ∈ y.state.builder.module.preamble,
      i ∈ x.state.builder.module.preamble ∨ i.result? = none) : y.Numbered := by
  have announces : y.state.builder.module.Announces := fun i hi =>
    (preamble i hi).elim (h.announces i) id
  rcases ids with ⟨among, later⟩ | ⟨among, later⟩
  · exact ⟨nodup_of_subperm h.distinct among, fun id hid =>
      Nat.lt_of_lt_of_le (h.below id (among.subset hid)) later, announces⟩
  · have new : x.state.builder.nextId ∉ x.state.builder.module.defined ++ x.reserved :=
      fun old => Nat.lt_irrefl _ (h.below _ old)
    refine ⟨nodup_of_subperm (List.nodup_cons.2 ⟨new, h.distinct⟩) among,
      fun id hid => ?_, announces⟩
    rcases List.mem_cons.1 (among.subset hid) with rfl | old
    · exact later
    · exact Nat.lt_trans (h.below id old) later

theorem takes (h : x.Numbered) (takes : x.state.builder.Takes y.state.builder)
    (reserved : y.reserved = x.reserved) : y.Numbered := by
  refine h.step ?_ takes.preamble
  rw [reserved]
  exact takes.defined.imp (.imp_left fun same => (same.append_right _).subperm)
    (.imp_left fun same => (same.append_right _).subperm)

theorem move (h : x.Numbered) (move : Move H env x y) (sound : x.state.builder.Sound) :
    y.Numbered := by
  cases move with
  | act act => exact h.takes (act.takes sound) rfl
  | reserve =>
    exact h.step (.inr ⟨List.perm_middle.subperm, Nat.lt_succ_self _⟩) fun _ => .inl
  | forget fewer =>
    exact h.step (.inl ⟨(List.subperm_append_left _).2 fewer, Nat.le_refl _⟩) fun _ => .inl
  | @exit _ _ e _ ended =>
    obtain ⟨d, placed, rfl⟩ := Spirv.Builder.terminate_eq_ok.1 ended
    have takes := sound.takes_emit placed (by cases e <;> rfl)
    exact h.takes ⟨takes.defined, takes.preamble⟩ rfl
  | @merge _ _ m _ placed => exact h.takes (sound.takes_emit placed (by cases m <;> rfl)) rfl
  | @place _ r label f inside =>
    refine h.step (.inl ⟨?_, Nat.le_refl _⟩) fun _ => .inl
    exact (((Spirv.Builder.defined_enter (sound.function f inside)).append_right r).trans
      List.perm_middle.symm).subperm
  | leave => exact h.takes ⟨.inl ⟨.refl _, Nat.le_refl _⟩, fun _ => .inl⟩ rfl
  | reopen opened =>
    refine h.takes ?_ rfl
    rw [Spirv.Builder.reopenBlock_eq_ok opened]
    exact ⟨.inl ⟨.refl _, Nat.le_refl _⟩, fun _ => .inl⟩
  | @openFunction _ r =>
    refine h.step (.inl ⟨?_, Nat.le_refl _⟩) fun _ => .inl
    refine ((Spirv.Builder.defined_addFunction _ _).append_right r).subperm.trans ?_
    exact List.perm_middle.symm.subperm
  | closeFunction => exact h.takes ⟨.inl ⟨.refl _, Nat.le_refl _⟩, fun _ => .inl⟩ rfl
  | note builder =>
    refine h.takes ?_ rfl
    rw [builder]
    exact ⟨.inl ⟨.refl _, Nat.le_refl _⟩, fun _ => .inl⟩

/-- What stands is old. -/
theorem stands (h : x.Numbered) {id : Id} (stands : x.state.builder.module.Stands id) :
    id < x.state.builder.nextId := by
  refine h.below id (List.mem_append_left _ ?_)
  simp only [Spirv.Module.defined, List.mem_append, List.mem_filterMap, List.mem_flatMap]
  rcases stands with is | is | ⟨f, e, he, result⟩ | ⟨f, k, j, i, ⟨b, hb, hi⟩, _, result⟩
  · exact .inl (.inr is)
  · exact .inl (.inl is)
  · refine .inr ⟨e, Array.mem_toList_iff.2 (Array.mem_of_getElem? he), ?_⟩
    exact List.mem_append_left _ (Option.mem_toList.2 result)
  · obtain ⟨e, he, hk⟩ := Option.bind_eq_some_iff.1 hb
    refine .inr ⟨e, Array.mem_toList_iff.2 (Array.mem_of_getElem? he), ?_⟩
    refine List.mem_append_right _ (List.mem_flatMap.2
      ⟨b, Array.mem_toList_iff.2 (Array.mem_of_getElem? hk), List.mem_cons_of_mem _ ?_⟩)
    exact List.mem_filterMap.2 ⟨i, Array.mem_toList_iff.2 (Array.mem_of_getElem? hi), result⟩

end Configuration.Numbered

end ShaderLowering
