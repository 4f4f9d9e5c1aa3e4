import ShaderLowering.Proofs.Scope.Course
import ShaderLowering.Proofs.Typing.Lowered
import ShaderLowering.Proofs.WellFormed.Compile

/-!
Definitions and uses. What an instruction refers to has been defined in front of it, at each step of
the lowering; ids are given out once, and labels are placed in the end. So the module that comes out
keeps the discipline of single assignment, except for variables: one that is declared while a block
is open is put into that block, and other blocks refer to it all the same.
-/

namespace ShaderLowering

open Spirv (Id Instr Arg Op Module Builder Exit Merge StorageClass)

namespace Spirv.Module

variable {m n : Module} {f k j : Nat} {i : Instr} {id : Id}

/-- What instruction `j` of a block may refer to: what stands, what has been computed in front of
it, and, if it is a switch, a value of a block that leads to its own. -/
def Sees (m : Module) (f k j : Nat) (i : Instr) (id : Id) : Prop :=
  m.Stands id ∨ m.Before f k j id ∨ i.op = .control .switch ∧ m.Handed f k id

theorem Sees.extend (h : m.Sees f k j i id) (more : m.Extends n) : n.Sees f k j i id :=
  h.imp more.stands (.imp more.before (.imp_right more.handed))

/-- What globals, functions and instructions in blocks refer to has been defined in front of them,
labels apart. -/
structure Explained (m : Module) : Prop where
  globals : ∀ (j : Nat) i, m.globals[j]? = some i → ∀ id ∈ i.uses,
    ∃ i' ∈ m.globals.toList.take j, i'.result? = some id
  signatures : ∀ (f : Nat) (e : Function), m.functions[f]? = some e →
    ∀ id ∈ e.definition.uses, m.IsGlobal id
  blocks : ∀ f k j i, m.At f k j i → ∀ id ∈ i.uses, id ∈ i.labels ∨ id ∈ i.reads ∧ m.Sees f k j i id

/-- What is new has to be explained. -/
theorem Explained.step (h : m.Explained) (more : m.Extends n)
    (globals : ∀ (j : Nat) i, n.globals[j]? = some i → m.globals[j]? = some i ∨
      ∀ id ∈ i.uses, ∃ i' ∈ n.globals.toList.take j, i'.result? = some id)
    (signatures : ∀ (f : Nat) (e : Function), n.functions[f]? = some e →
      (∃ e', m.functions[f]? = some e' ∧ e'.definition = e.definition) ∨
        ∀ id ∈ e.definition.uses, n.IsGlobal id)
    (blocks : ∀ f k j i, n.At f k j i → m.At f k j i ∨
      ∀ id ∈ i.uses, id ∈ i.labels ∨ id ∈ i.reads ∧ n.Sees f k j i id) : n.Explained := by
  refine ⟨fun j i hi id hid => ?_, fun f e he id hid => ?_, fun f k j i hi id hid => ?_⟩
  · rcases globals j i hi with old | new
    · obtain ⟨i', earlier, result⟩ := h.globals j i old id hid
      obtain ⟨added, same⟩ := more.globals
      rw [← same, List.take_append]
      exact ⟨i', List.mem_append_left _ earlier, result⟩
    · exact new id hid
  · rcases signatures f e he with ⟨e', he', same⟩ | new
    · exact more.isGlobal (h.signatures f e' he' id (same ▸ hid))
    · exact new id hid
  · rcases blocks f k j i hi with old | new
    · exact (h.blocks f k j i old id hid).imp_right (.imp_right (·.extend more))
    · exact new id hid

/-- The same globals, functions and blocks. -/
theorem Explained.of_eq (h : m.Explained) (globals : n.globals = m.globals)
    (imports : n.imports = m.imports) (functions : n.functions = m.functions) : n.Explained := by
  refine h.step (.of_globals (globals ▸ List.prefix_rfl) imports functions)
    (fun j i hi => .inl (globals ▸ hi)) (fun f e he => .inl ⟨e, functions ▸ he, rfl⟩)
    fun f k j i hi => .inl ?_
  rwa [At, block?, functions] at hi

end Spirv.Module

namespace Spirv.Builder

variable {b c d : Builder} {i : Instr} {id label : Id} {f k : Nat}

theorem explained_addGlobal (h : b.module.Explained) (known : ∀ id ∈ i.uses, b.module.IsGlobal id) :
    (b.addGlobal i).module.Explained := by
  refine h.step (b.extends_addGlobal i) (fun j i' hi => ?_) (fun f e he => .inl ⟨e, he, rfl⟩)
    fun f k j i' hi => .inl hi
  rw [addGlobal, Array.getElem?_push] at hi
  split at hi
  · next last =>
    cases hi
    subst last
    refine .inr fun id hid => ?_
    rw [addGlobal, Array.toList_push, ← Array.length_toList, List.take_left]
    exact known id hid
  · exact .inl hi

theorem explained_declare {key : Key} (h : b.module.Explained)
    (known : ∀ id ∈ key.type?.toList ++ key.args.filterMap Arg.id?, b.module.IsGlobal id) :
    (b.declare key).2.module.Explained := by
  obtain ⟨_, _, _, same⟩ | ⟨_, new⟩ := b.declare_eq key
  · rw [same]
    exact h
  · rw [new]
    exact explained_addGlobal (b := b.fresh.2) h known

theorem Like.explained (like : b.Like c) (h : b.module.Explained) : c.module.Explained :=
  h.of_eq like.globals like.imports like.functions

theorem explained_enter (h : b.module.Explained) (there : f < b.module.functions.size) :
    (b.enter f label).module.Explained := by
  refine h.step (extends_enter there) (fun j i hi => .inl hi) (fun f' e he => .inl ?_)
    fun f' k j i ⟨block, hb, hi⟩ => .inl ?_
  · unfold enter at he
    rw [Array.getElem?_modify] at he
    split at he
    · obtain ⟨e', he', rfl⟩ := Option.map_eq_some_iff.1 he
      exact ⟨e', he', rfl⟩
    · exact ⟨e, he, rfl⟩
  · rcases (block?_enter there).1 hb with old | ⟨_, _, rfl⟩
    · exact ⟨block, old, hi⟩
    · cases hi

theorem explained_addFunction (h : b.module.Explained)
    (known : ∀ id ∈ i.uses, b.module.IsGlobal id) :
    (b.addFunction i).module.Explained := by
  have places {f : Nat} {e : Function} (he : (b.addFunction i).module.functions[f]? = some e) :
      b.module.functions[f]? = some e ∨ e = ⟨i, #[]⟩ := by
    change (b.module.functions.push _)[f]? = _ at he
    rw [Array.getElem?_push] at he
    split at he
    · cases he
      exact .inr rfl
    · exact .inl he
  refine h.step (b.extends_addFunction i) (fun j i' hi => .inl hi) (fun f e he => ?_)
    fun f k j i' ⟨block, hb, hi⟩ => .inl ?_
  · rcases places he with old | rfl
    · exact .inl ⟨e, old, rfl⟩
    · exact .inr known
  · obtain ⟨e, he, hk⟩ := Option.bind_eq_some_iff.1 hb
    rcases places he with old | rfl
    · exact ⟨block, Option.bind_eq_some_iff.2 ⟨e, old, hk⟩, hi⟩
    · cases hk

namespace Sound

variable (sound : b.Sound) (h : b.module.Explained)
include sound h

/-- An instruction is appended that refers to what is there. -/
theorem explained_push (placed : b.push i = .ok c)
    (known : ∀ id ∈ i.uses, id ∈ i.labels ∨ id ∈ i.reads ∧ b.Sees i id) : c.module.Explained := by
  have more := (within_push placed).extends_
  obtain ⟨f, k, hf, hk, rfl⟩ := push_eq_ok.1 placed
  obtain ⟨block, hb⟩ := sound.opened_block hf hk
  refine h.step more (fun j i' hi => .inl hi) (fun f' e he => .inl ?_) fun f' k' j i' hi => ?_
  · unfold pushTo at he
    rw [Array.getElem?_modify] at he
    split at he
    · obtain ⟨e', he', rfl⟩ := Option.map_eq_some_iff.1 he
      exact ⟨e', he', rfl⟩
    · exact ⟨e, he, rfl⟩
  rcases (at_pushTo hb).1 hi with old | ⟨rfl, rfl, rfl, rfl⟩
  · exact .inl old
  refine .inr fun id hid => (known id hid).imp_right (.imp_right fun sees => ?_)
  refine Module.Sees.extend ?_ more
  rcases sees with stands | ⟨f'', k'', j, hf', hk', l, _, i, at_, result⟩ |
    ⟨op, f'', k'', hf', hk', handed⟩
  · exact .inl stands
  · cases hf.symm.trans hf'
    cases hk.symm.trans hk'
    obtain ⟨block', hb', hi⟩ := at_
    cases hb.symm.trans hb'
    exact .inr (.inl ⟨l, (Array.getElem?_eq_some_iff.1 hi).1, i, ⟨block, hb, hi⟩, result⟩)
  · cases hf.symm.trans hf'
    cases hk.symm.trans hk'
    exact .inr (.inr ⟨op, handed⟩)

/-- An ordinary instruction. -/
theorem explained_emit {op : Op} {type? result? : Option Id} {args : List Arg}
    (placed : b.push ⟨.ordinary op, type?, result?, args⟩ = .ok c)
    (known : ∀ id ∈ type?.toList ++ args.filterMap Arg.id?, b.module.Stands id ∨ b.Computes id) :
    c.module.Explained :=
  sound.explained_push h placed fun id hid => .inr ⟨hid, (known id hid).imp_right .inl⟩

theorem explained_variable {pointer : Id} {storage : StorageClass} {initial? : Option Id}
    (known : ∀ id ∈ pointer :: initial?.toList, b.module.IsGlobal id) :
    (b.variable_ pointer storage initial?).2.module.Explained := by
  have uses : ∀ id ∈ (some pointer).toList ++
      (.word storage.code :: initial?.toList.map Arg.id).filterMap Arg.id?,
        b.module.IsGlobal id := by
    intro id hid
    refine known id ?_
    cases initial? <;> simpa [Arg.id?, eq_comm] using hid
  unfold Builder.variable_
  dsimp only [Builder.fresh]
  split
  · next c placed =>
    exact sound.fresh.explained_emit (b := b.fresh.2) h placed fun id hid =>
      .inl (.inl (uses id hid))
  · exact explained_addGlobal (b := b.fresh.2) h uses

end Sound

end Spirv.Builder

variable {H : Limits} {env : Environment} {binds : Descriptor → Prop} {s t : State}
  {x y : Configuration}

theorem Creates.explained {id : Id} {storage : StorageClass} {marks : List Instr}
    (h : Creates H s t id storage marks) (sound : s.builder.Sound)
    (explained : s.builder.module.Explained) : t.builder.module.Explained := by
  obtain ⟨pointer, initial?, known, like⟩ := h.built
  exact like.explained (sound.explained_variable explained fun id hid => (known id hid).2)

theorem Act.explained (h : Act H env s t) (sound : s.builder.Sound)
    (explained : s.builder.module.Explained) : t.builder.module.Explained := by
  cases h with
  | declare known => exact Spirv.Builder.explained_declare explained fun id hid => (known id hid).2
  | declareNew _ _ known =>
    exact Spirv.Builder.explained_addGlobal (b := s.builder.fresh.2) explained
      fun id hid => (known id hid).2
  | compute _ placed known =>
    exact sound.fresh.explained_emit explained placed fun id hid => (known id hid).2
  | emit _ placed known =>
    exact sound.explained_emit explained placed fun id hid => (known id hid).2
  | create creates | builtin _ creates | locate _ _ creates =>
    exact creates.explained sound explained
  | annotate plain => exact (s.builder.like_annotate plain.result?).explained explained
  | note like => exact like.explained explained
  | bind _ binds =>
    obtain ⟨_, _, _, _, _, creates, _⟩ := binds.made
    exact creates.explained sound explained

theorem Move.explained (h : Move H env x y) (sound : x.state.builder.Sound)
    (explained : x.state.builder.module.Explained) : y.state.builder.module.Explained := by
  cases h with
  | act act => exact act.explained sound explained
  | reserve | forget | leave | closeFunction => exact explained
  | @exit _ _ e _ ended known =>
    obtain ⟨d, placed, rfl⟩ := Spirv.Builder.terminate_eq_ok.1 ended
    suffices d.module.Explained from this
    refine sound.explained_push explained placed fun id hid => ?_
    rw [e.uses_instr] at hid
    exact (List.mem_append.1 hid).symm.imp_right fun reads => ⟨reads, known id reads⟩
  | @merge _ _ m _ placed =>
    refine sound.explained_push explained placed fun id hid => .inl ?_
    cases m <;> exact hid
  | place inside => exact Spirv.Builder.explained_enter explained (sound.function _ inside)
  | reopen opened =>
    rw [Spirv.Builder.reopenBlock_eq_ok opened]
    exact explained
  | openFunction _ returns typed =>
    refine Spirv.Builder.explained_addFunction explained fun id hid => ?_
    rcases List.mem_cons.1 hid with rfl | hid
    · exact returns
    · cases List.mem_singleton.1 hid
      exact typed
  | note builder =>
    rw [builder]
    exact explained

theorem Path.explained (path : Path binds env x y) (explained : x.state.builder.module.Explained) :
    y.state.builder.module.Explained := by
  induction path with
  | refl => exact explained
  | tail _ last ih =>
    cases last with
    | move _ ready move => exact move.explained ready.sound ih
    | restage => exact ih

namespace Spirv.Module

variable {m : Module} {f k j : Nat} {i : Instr} {id : Id}

/-- An id is that of a block. -/
def IsLabel (m : Module) (id : Id) : Prop :=
  ∃ f k, m.LabelAt f k id

/-- Every id is defined once, below the bound; globals and functions refer to globals in front of
them; and what an instruction in a block refers to is of use in all functions, or a label, or has
been computed in front of it in its block. The selector of a switch may come from a block that
leads to the one of the switch. Some ids may be exempt from what is asked of blocks. -/
structure Disciplined (m : Module) (bound : Id) (exempt : Id → Prop) : Prop where
  once : (m.instructions.filterMap (·.result?)).Nodup
  below : ∀ i ∈ m.instructions, ∀ id, i.result? = some id → id < bound
  globals : ∀ (j : Nat) i, m.globals[j]? = some i → ∀ id ∈ i.uses,
    ∃ i' ∈ m.globals.toList.take j, i'.result? = some id
  signatures : ∀ (f : Nat) (e : Function), m.functions[f]? = some e →
    ∀ id ∈ e.definition.uses, m.IsGlobal id
  blocks : ∀ f k j i, m.At f k j i → ∀ id ∈ i.uses, ¬exempt id →
    m.IsGlobal id ∨ m.IsImport id ∨ m.IsFunction id ∨ m.IsLabel id ∨ m.Before f k j id ∨
      i.op = .control .switch ∧ i.args.head? = some (.id id) ∧ m.Handed f k id

/-- What a switch refers to apart from labels is its selector. -/
theorem head?_of_reads (switch : i.op = .control .switch) (reads : id ∈ i.reads) :
    i.args.head? = some (.id id) := by
  unfold Instr.reads at reads
  rw [switch] at reads
  obtain ⟨a, mem, is⟩ := List.mem_filterMap.1 reads
  rw [List.take_one, Option.mem_toList] at mem
  cases a <;> cases is
  exact mem

/-- A label that is named in a well-formed function is that of a block. -/
theorem isLabel_of_wellFormed (wellFormed : ∀ f ∈ m.functions, f.WellFormed)
    (at_ : m.At f k j i) (named : id ∈ i.labels) : m.IsLabel id := by
  obtain ⟨b, hb, hi⟩ := at_
  obtain ⟨e, he, hk⟩ := Option.bind_eq_some_iff.1 hb
  have placed := (wellFormed e (Array.mem_of_getElem? he)).placed b (Array.mem_of_getElem? hk) i
    (Array.mem_of_getElem? hi) id named
  have among : id ∈ e.labels := List.count_pos_iff.1 (by omega)
  obtain ⟨b', mem, rfl⟩ := List.mem_map.1 among
  obtain ⟨k', hk', is⟩ := Array.getElem_of_mem (Array.mem_toList_iff.1 mem)
  exact ⟨f, k', b', Option.bind_eq_some_iff.2 ⟨e, he, Array.getElem?_eq_some_iff.2 ⟨hk', is⟩⟩, rfl⟩

theorem Explained.disciplined {bound : Id} {r : List Id} (explained : m.Explained)
    (distinct : (m.defined ++ r).Nodup) (below : ∀ id ∈ m.defined ++ r, id < bound)
    (announces : m.Announces) (wellFormed : ∀ f ∈ m.functions, f.WellFormed) :
    m.Disciplined bound m.IsVariable where
  once := by
    rw [announces.filterMap_instructions]
    exact (List.nodup_append.1 distinct).1
  below i hi id result := by
    refine below id (List.mem_append_left _ ?_)
    rw [← announces.filterMap_instructions]
    exact List.mem_filterMap.2 ⟨i, hi, result⟩
  globals := explained.globals
  signatures := explained.signatures
  blocks f k j i at_ id uses free := by
    rcases explained.blocks f k j i at_ id uses with named | ⟨reads, stands | before | ⟨op, handed⟩⟩
    · exact .inr (.inr (.inr (.inl (isLabel_of_wellFormed wellFormed at_ named))))
    · rcases stands with global | import_ | function | variable_
      · exact .inl global
      · exact .inr (.inl import_)
      · exact .inr (.inr (.inl function))
      · exact absurd variable_ free
    · exact .inr (.inr (.inr (.inr (.inl before))))
    · exact .inr (.inr (.inr (.inr (.inr ⟨op, head?_of_reads op reads, handed⟩))))

end Spirv.Module

theorem Course.numbered {version : SpirvVersion} {stage : StageState} {insts : List Instruction}
    (course : Course env version stage insts x) : x.Numbered := by
  induction course with
  | begin path => exact path.numbered State.numbered_opened
  | step _ path _ ih => exact path.numbered ih

theorem State.explained_opened (version : SpirvVersion) (stage : StageState) :
    (State.opened version stage).builder.module.Explained where
  globals _ _ h := nomatch h
  signatures _ _ h := nomatch h
  blocks _ _ _ _ h := by
    obtain ⟨_, hb, _⟩ := h
    cases hb

theorem Course.explained {version : SpirvVersion} {stage : StageState} {insts : List Instruction}
    (course : Course env version stage insts x) : x.state.builder.module.Explained := by
  induction course with
  | begin path => exact path.explained (State.explained_opened version stage)
  | step _ path _ ih => exact path.explained ih

namespace State.Announced

variable (h : s.Announced env t)
include h

theorem explained (explained : s.builder.module.Explained) : t.builder.module.Explained := by
  obtain ⟨_, _, rfl⟩ := h
  exact explained.of_eq rfl rfl rfl

theorem nextId : t.builder.nextId = s.builder.nextId := by
  obtain ⟨_, _, rfl⟩ := h
  rfl

theorem defined : t.builder.module.defined = s.builder.module.defined := by
  obtain ⟨_, _, rfl⟩ := h
  rfl

theorem announces (announces : s.builder.module.Announces) : t.builder.module.Announces := by
  obtain ⟨modes, quiet, rfl⟩ := h
  intro i hi
  have before := announces i
  have among : i ∈ s.builder.module.executionModes ++ modes ↔
      i ∈ s.builder.module.executionModes ∨ i ∈ modes := by
    rw [← Array.mem_toList_iff, Array.toList_appendList, List.mem_append, Array.mem_toList_iff]
  rw [Spirv.Module.mem_preamble] at hi before
  dsimp only at hi
  rw [Array.mem_push, among] at hi
  rcases hi with hi | hi | hi | (hi | rfl) | (hi | hi) | hi | hi
  case inr.inr.inr.inl.inr => rfl
  case inr.inr.inr.inr.inl.inr => exact quiet i hi
  all_goals exact before (by simp only [hi, true_or, or_true])

end State.Announced

/-- The module of a lowered shader keeps the discipline, but for variables in blocks. -/
theorem lowerInstructions_disciplined {insts : List Instruction} {l : Lowering}
    (lowered : lowerInstructions env insts = .ok l) :
    l.state.builder.module.Disciplined l.state.builder.nextId
      l.state.builder.module.IsVariable := by
  obtain ⟨_, stage, x, y, _, course, path, announced⟩ := lowerInstructions_course lowered
  have numbered := path.numbered course.numbered
  have explained := announced.explained (path.explained course.explained)
  refine explained.disciplined (r := y.reserved) ?_ ?_ (announced.announces numbered.announces)
    (lowerInstructions_sealed lowered).wellFormed
  · rw [announced.defined]
    exact numbered.distinct
  · rw [announced.defined, announced.nextId]
    exact numbered.below

namespace Spirv.Module

variable {m : Module} {f k j : Nat} {id : Id}

/-- Instruction `j` of a block refers to what is defined neither in front of it in the block nor
outside of all blocks. -/
def strays (m : Module) (f k j : Nat) (id : Id) : Bool :=
  (m.block? f k).any fun b => (b.body[j]?).any fun i =>
    i.uses.contains id && i.op != .control .switch &&
      !(m.globals.toList.filterMap (·.result?)).contains id &&
      !(m.imports.toList.filterMap (·.result?)).contains id &&
      !(m.functions.toList.filterMap (·.definition.result?)).contains id &&
      !(m.functions.toList.flatMap Function.labels).contains id &&
      !((b.body.toList.take j).filterMap (·.result?)).contains id

theorem mem_of_isFunction (is : m.IsFunction id) :
    id ∈ m.functions.toList.filterMap (·.definition.result?) := by
  obtain ⟨f, e, he, result⟩ := is
  exact List.mem_filterMap.2 ⟨e, Array.mem_toList_iff.2 (Array.mem_of_getElem? he), result⟩

theorem mem_of_isLabel (is : m.IsLabel id) : id ∈ m.functions.toList.flatMap Function.labels := by
  obtain ⟨f, k, b, hb, rfl⟩ := is
  obtain ⟨e, he, hk⟩ := Option.bind_eq_some_iff.1 hb
  refine List.mem_flatMap.2 ⟨e, Array.mem_toList_iff.2 (Array.mem_of_getElem? he), ?_⟩
  exact List.mem_map_of_mem (Array.mem_toList_iff.2 (Array.mem_of_getElem? hk))

theorem mem_of_before {b : Block} (hb : m.block? f k = some b) (is : m.Before f k j id) :
    id ∈ (b.body.toList.take j).filterMap (·.result?) := by
  obtain ⟨l, earlier, i, ⟨b', hb', hi⟩, result⟩ := is
  cases hb.symm.trans hb'
  refine List.mem_filterMap.2 ⟨i, List.mem_of_getElem? (i := l) ?_, result⟩
  rw [List.getElem?_take_of_lt earlier, Array.getElem?_toList, hi]

theorem not_disciplined_of_strays {bound : Id} (strays : m.strays f k j id = true) :
    ¬m.Disciplined bound fun _ => False := by
  intro disciplined
  unfold Module.strays at strays
  cases hb : m.block? f k with
  | none =>
    rw [hb] at strays
    cases strays
  | some b =>
    rw [hb, Option.any_some] at strays
    cases hi : b.body[j]? with
    | none =>
      rw [hi] at strays
      cases strays
    | some i =>
      rw [hi, Option.any_some] at strays
      simp only [Bool.and_eq_true, List.contains_iff_mem, Bool.not_eq_true', Bool.eq_false_iff,
        ne_eq, bne_iff_ne] at strays
      obtain ⟨⟨⟨⟨⟨⟨uses, op⟩, global⟩, import_⟩, function⟩, label⟩, before⟩ := strays
      rcases disciplined.blocks f k j i ⟨b, hb, hi⟩ id uses not_false with is | is | is | is |
        is | ⟨is, _⟩
      · exact global (List.mem_filterMap.2 is)
      · exact import_ (List.mem_filterMap.2 is)
      · exact function (mem_of_isFunction is)
      · exact label (mem_of_isLabel is)
      · exact before (mem_of_before hb is)
      · exact op is

end Spirv.Module

section Compilation

variable {program : Program} {entries : SignatureEntries} {options : Options}
  {artifact : Artifact}

/-- A compiled program is a module that keeps the discipline of single assignment, but for variables
that are declared in blocks. -/
theorem compile_disciplined (h : compile program entries options = .ok artifact) :
    ∃ insts l, program.instructions = .ok insts ∧
      lowerInstructions (program.environment insts entries options) insts = .ok l ∧
      artifact = l.artifact ∧
      artifact.code = l.state.builder.module.words l.state.builder.nextId ∧
      l.state.builder.module.Disciplined l.state.builder.nextId
        l.state.builder.module.IsVariable := by
  obtain ⟨insts, l, decoded, lowered, rfl⟩ := compile_eq_ok.1 h
  exact ⟨insts, l, decoded, lowered, rfl, rfl, lowerInstructions_disciplined lowered⟩

/-- A pixel shader that declares an input and does nothing. -/
def idleInput : Program :=
  .assume [0x50, 6, 0x03000062, 0x00101012, 0, 0x0100003e]

theorem compile_disciplined_idleInput :
    ∃ artifact insts l, compile idleInput ⟨[], [], []⟩ .default = .ok artifact ∧
      idleInput.instructions = .ok insts ∧
      lowerInstructions (idleInput.environment insts ⟨[], [], []⟩ .default) insts = .ok l ∧
      artifact = l.artifact ∧
      artifact.code = l.state.builder.module.words l.state.builder.nextId ∧
      l.state.builder.module.Disciplined l.state.builder.nextId
        l.state.builder.module.IsVariable := by
  obtain ⟨artifact, _, _, compiles, _⟩ :=
    exists_compile idleInput ⟨[], [], []⟩ .default (fun _ _ _ => true) (by decide +kernel)
  obtain ⟨insts, l, found⟩ := compile_disciplined compiles
  exact ⟨artifact, insts, l, compiles, found⟩

/-- The variable of the input is declared in the block of the body, and the entry function loads
from it. -/
theorem exists_not_disciplined :
    ∃ artifact insts l, compile idleInput ⟨[], [], []⟩ .default = .ok artifact ∧
      lowerInstructions (idleInput.environment insts ⟨[], [], []⟩ .default) insts = .ok l ∧
      artifact = l.artifact ∧
      ¬l.state.builder.module.Disciplined l.state.builder.nextId fun _ => False := by
  obtain ⟨artifact, insts, l, compiles, lowered, same, _, strays⟩ :=
    exists_compile idleInput ⟨[], [], []⟩ .default
      (fun _ _ l => l.state.builder.module.strays 1 0 0 10) (by decide +kernel)
  exact ⟨artifact, insts, l, compiles, lowered, same,
    Spirv.Module.not_disciplined_of_strays strays⟩

end Compilation

end ShaderLowering
