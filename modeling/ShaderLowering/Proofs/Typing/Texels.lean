import ShaderLowering.Proofs.Typing.Lowered

/-!
How the image of a writable view is declared follows from the accesses that the analysis has noted,
and the accesses are lowered elsewhere. The two agree if the analysis sees every access: it goes by
the family of an instruction, and takes the first view among the operands for the one accessed.
-/

namespace ShaderLowering

open Spirv (Id Instr Arg Op Module StorageClass)

/-- One access includes another. -/
structure UavAccess.Covers (a b : UavAccess) : Prop where
  typedLoad : b.typedLoad = true → a.typedLoad = true
  atomic : b.atomic = true → a.atomic = true

theorem UavAccess.Covers.trans {a b c : UavAccess} (first : a.Covers b) (second : b.Covers c) :
    a.Covers c :=
  ⟨fun h => first.typedLoad (second.typedLoad h), fun h => first.atomic (second.atomic h)⟩

namespace Analysis

variable {uavs : Table UavAccess} {inst : Instruction} {insts : List Instruction}
  {access : UavAccess} {slot : UInt32}

/-- The access to a view that is noted in a table. -/
def noted (uavs : Table UavAccess) (slot : UInt32) : UavAccess :=
  (uavs.find? slot).getD .none

/-- What is noted stays. -/
theorem note_covers : (noted (note uavs inst) slot).Covers (noted uavs slot) := by
  unfold note
  split
  · dsimp only
    split
    · unfold noted
      rw [Table.find?_insert]
      split
      · next same =>
        rw [same]
        exact ⟨fun h => Bool.or_eq_true_iff.2 (.inl h), fun h => Bool.or_eq_true_iff.2 (.inl h)⟩
      · exact ⟨id, id⟩
    · exact ⟨id, id⟩
  · exact ⟨id, id⟩

theorem foldl_note_covers : (noted (insts.foldl note uavs) slot).Covers (noted uavs slot) := by
  induction insts generalizing uavs with
  | nil => exact ⟨id, id⟩
  | cons inst rest ih => exact ih.trans note_covers

/-- An access by a family and a view that the analysis sees is noted. -/
theorem note_covers_access (accesses : accessOf? inst.family = some access)
    (first : uavSlot? inst = some slot)
    (bound : slot.toNat < BindingClass.unorderedAccess.maxSlots) :
    (noted (note uavs inst) slot).Covers access := by
  unfold note noted
  rw [accesses, first]
  simp only [if_pos bound, Table.find?_insert, if_true, Option.getD_some]
  exact ⟨fun h => Bool.or_eq_true_iff.2 (.inr h), fun h => Bool.or_eq_true_iff.2 (.inr h)⟩

theorem noted_of_mem (mem : inst ∈ insts) (accesses : accessOf? inst.family = some access)
    (first : uavSlot? inst = some slot)
    (bound : slot.toNat < BindingClass.unorderedAccess.maxSlots) :
    (noted (insts.foldl note uavs) slot).Covers access := by
  obtain ⟨before, after, rfl⟩ := List.append_of_mem mem
  rw [List.foldl_append, List.foldl_cons]
  exact foldl_note_covers.trans (note_covers_access accesses first bound)

end Analysis

/-- Whether the analysis sees the view that an instruction accesses texels of. -/
def Instruction.isSeen (inst : Instruction) : Bool :=
  inst.view?.all fun op => op.type ≠ .uav ||
    (Analysis.accessOf? inst.family).isSome && Analysis.uavSlot? inst = op.index? 0

namespace Spirv.Module.Distinct

variable {m : Module} {type : Id} {image : ImageType}

theorem image? (distinct : m.Distinct) (is : m.Is (.image image) type) :
    ∃ component, m.IsScalar image.sampled component ∧ m.image? type =
      some (component, if image.isStorage then 2 else 1, image.format.code) := by
  obtain ⟨component, scalar, d⟩ := is
  refine ⟨component, scalar, ?_⟩
  rw [Module.image?, distinct.declared d]
  rfl

theorem hasAtomicTexels (distinct : m.Distinct) (is : m.Is (.image image) type)
    (atomic : image.format = .r32ui ∧ image.sampled = .u32 ∨
      image.format = .r32i ∧ image.sampled = .i32) : m.hasAtomicTexels type = true := by
  obtain ⟨component, scalar, image?⟩ := distinct.image? is
  have isWord {sign : UInt32} (d : m.Declares .typeInt none [.word 32, .word sign] component) :
      m.isWord component sign = true := by
    rw [Module.isWord, distinct.declared d]
    exact decide_eq_true rfl
  rw [Module.hasAtomicTexels, image?, Option.any_some]
  obtain ⟨format, sampled⟩ | ⟨format, sampled⟩ := atomic <;> rw [sampled] at scalar <;>
    simp [format, isWord scalar]

/-- A storage image of no known format. -/
theorem of_lacksFormat (distinct : m.Distinct) {i : Instr} {loaded : Id} {rest : List Arg}
    (args : i.args = .id loaded :: rest) (typed : m.HasType loaded type)
    (is : m.Is (.image image) type) (lacks : m.lacksFormat i = true) :
    image.isStorage = true ∧ image.format = .unknown := by
  obtain ⟨component, _, image?⟩ := distinct.image? is
  rw [Module.lacksFormat, args] at lacks
  simp only [distinct.type? typed, Option.bind_some, image?, Option.any_some, Bool.and_eq_true,
    decide_eq_true_eq] at lacks
  refine ⟨?_, ?_⟩
  · cases sampled : image.isStorage with
    | true => rfl
    | false => simp [sampled] at lacks
  · cases format : image.format with
    | unknown => rfl
    | r32i | r32ui => simp [format, Spirv.ImageFormat.code] at lacks

end Spirv.Module.Distinct

namespace Shader

variable {x : Shader} {m : Module} {i : Instr} {image : ImageType}
  {families : List Opcode.Family}

/-- A seen access is one that the image of its view is declared for. -/
theorem Views.covers (views : x.Views m families image)
    (seen : ∀ inst ∈ x.insts, inst.isSeen = true)
    (analysis : x.env.analysis.uavs = x.insts.foldl Analysis.note .empty) :
    ∃ slot family access, family ∈ families ∧ Analysis.accessOf? family = some access ∧
      x.StorageImage m slot image ∧ (x.env.analysis.uav slot).Covers access := by
  obtain ⟨inst, mem, family, op, slot, view, uav, index, storage⟩ := views
  have sees := seen inst mem
  rw [Instruction.isSeen, view, Option.all_some, uav] at sees
  simp only [ne_eq, not_true_eq_false, decide_false, Bool.false_or, Bool.and_eq_true,
    Option.isSome_iff_exists, decide_eq_true_eq] at sees
  obtain ⟨⟨access, accesses⟩, first⟩ := sees
  refine ⟨slot, inst.family, access, family, accesses, storage, ?_⟩
  rw [Analysis.uav, analysis]
  exact Analysis.noted_of_mem mem accesses (first.trans index) storage.bound

theorem Texel.fits (seen : ∀ inst ∈ x.insts, inst.isSeen = true)
    (analysis : x.env.analysis.uavs = x.insts.foldl Analysis.note .empty)
    (distinct : m.Distinct) (texel : x.Texel m i) : m.texelFits i = true := by
  obtain ⟨variable_, rest, image, args, places, views⟩ := texel
  obtain ⟨slot, family, access, among, accesses, storage, covers⟩ := views.covers seen analysis
  obtain ⟨type, is, place⟩ := distinct.place? places
  rw [List.mem_singleton.1 among] at accesses
  cases accesses
  rw [Module.texelFits, args]
  simp only [place, Option.any_some]
  exact distinct.hasAtomicTexels is (storage.atomic (covers.atomic rfl))

/-- A format is unknown where no atomic access is noted. -/
theorem StorageImage.not_atomic {slot : UInt32} (storage : x.StorageImage m slot image)
    (unknown : image.format = .unknown) : (x.env.analysis.uav slot).atomic = false := by
  refine Bool.eq_false_iff.2 fun atomic => ?_
  have := storage.atomic atomic
  rw [unknown] at this
  simp at this

theorem ImageAccess.writes (distinct : m.Distinct) (access : x.ImageAccess m families i)
    (lacks : m.lacksFormat i = true) : m.HasCapability .storageImageWriteWithoutFormat := by
  obtain ⟨loaded, rest, type, image, args, typed, is, views⟩ := access
  obtain ⟨storage, unknown⟩ := distinct.of_lacksFormat args typed is lacks
  obtain ⟨inst, _, _, op, slot, _, _, _, image⟩ := views storage
  exact image.writes (image.not_atomic unknown)

theorem ImageAccess.reads (seen : ∀ inst ∈ x.insts, inst.isSeen = true)
    (analysis : x.env.analysis.uavs = x.insts.foldl Analysis.note .empty) (distinct : m.Distinct)
    (access : x.ImageAccess m [.textureFetch, .typedUavLoad] i) (lacks : m.lacksFormat i = true) :
    m.HasCapability .storageImageReadWithoutFormat := by
  obtain ⟨loaded, rest, type, image, args, typed, is, views⟩ := access
  obtain ⟨storage, unknown⟩ := distinct.of_lacksFormat args typed is lacks
  obtain ⟨slot, family, access, among, accesses, image, covers⟩ :=
    (views storage).covers seen analysis
  refine image.reads (image.not_atomic unknown) (covers.typedLoad ?_)
  obtain rfl | rfl : family = .textureFetch ∨ family = .typedUavLoad := by simpa using among
  · cases accesses
  · cases accesses
    rfl

end Shader

section Compilation

variable {program : Program} {entries : SignatureEntries} {options : Options}
  {artifact : Artifact} {insts : List Instruction}

/-- In a compiled program each write to a storage image of no known format has the capability for
it. If the analysis sees all accesses to views, so has each read, and each texel pointer leads into
an image of single integers in a format of their own type. -/
theorem compile_texels (h : compile program entries options = .ok artifact)
    (decoded : program.instructions = .ok insts) :
    ∃ l, lowerInstructions (program.environment insts entries options) insts = .ok l ∧
      artifact = l.artifact ∧
      (∀ i ∈ l.state.builder.module.definitions, i.op = .ordinary .imageWrite →
        l.state.builder.module.lacksFormat i = true →
          l.state.builder.module.HasCapability .storageImageWriteWithoutFormat) ∧
      ((∀ inst ∈ insts, inst.isSeen = true) →
        (∀ i ∈ l.state.builder.module.definitions, i.op = .ordinary .imageTexelPointer →
          l.state.builder.module.texelFits i = true) ∧
        ∀ i ∈ l.state.builder.module.definitions, i.op = .ordinary .imageRead →
          l.state.builder.module.lacksFormat i = true →
            l.state.builder.module.HasCapability .storageImageReadWithoutFormat) := by
  obtain ⟨insts', l, decoded', lowered, rfl⟩ := compile_eq_ok.1 h
  obtain rfl : insts' = insts := Except.ok.inj (decoded'.symm.trans decoded)
  have known := (program.shader decoded entries options).invariant lowered
  have distinct := known.builder.distinct
  refine ⟨l, lowered, rfl, fun i hi writes => ?_, fun seen => ⟨fun i hi points => ?_,
    fun i hi reads => ?_⟩⟩
  all_goals have accounts := known.explains.definitions i hi
  · rw [Shader.Accounts, writes] at accounts
    exact accounts.writes distinct
  · rw [Shader.Accounts, points] at accounts
    exact accounts.fits seen rfl distinct
  · rw [Shader.Accounts, reads] at accounts
    exact accounts.reads seen rfl distinct

/-- A pixel shader that loads from and stores to a view of floats, and adds to one of integers. -/
def viewAccesses : Program :=
  .assume [0x50, 34, 0x0400189c, 0x0011e002, 0, 0x5555, 0x0400189c, 0x0011e002, 1, 0x4444,
    0x02000068, 1, 0x070000a3, 0x001000f2, 0, 0x00100e46, 0, 0x0011ee46, 0, 0x070000a4, 0x0011e0f2,
    0, 0x00100e46, 0, 0x00100e46, 0, 0x070000ad, 0x0011e0f2, 1, 0x00100e46, 0, 0x0010000a, 0,
    0x0100003e]

theorem compile_texels_viewAccesses :
    ∃ artifact insts l, compile viewAccesses ⟨[], [], []⟩ .default = .ok artifact ∧
      lowerInstructions (viewAccesses.environment insts ⟨[], [], []⟩ .default) insts = .ok l ∧
      artifact = l.artifact ∧
      (∀ i ∈ l.state.builder.module.definitions, i.op = .ordinary .imageTexelPointer →
        l.state.builder.module.texelFits i = true) ∧
      (∀ i ∈ l.state.builder.module.definitions, i.op = .ordinary .imageRead →
        l.state.builder.module.lacksFormat i = true →
          l.state.builder.module.HasCapability .storageImageReadWithoutFormat) := by
  obtain ⟨artifact, insts, _, compiles, _, _, decoded, seen⟩ :=
    exists_compile viewAccesses ⟨[], [], []⟩ .default (fun insts _ _ => insts.all (·.isSeen))
      (by decide +kernel)
  obtain ⟨l, lowered, same, _, sound⟩ := compile_texels compiles decoded
  exact ⟨artifact, insts, l, compiles, lowered, same, sound (List.all_eq_true.1 seen)⟩

/-- A pixel shader that fetches from a writable view. -/
def viewFetch : Program :=
  .assume [0x50, 14, 0x0400189c, 0x0011e002, 0, 0x5555, 0x0700002d, 0x001000f2, 0, 0x00100e46, 0,
    0x0011ee46, 0, 0x0100003e]

/-- The analysis does not take a fetch for a load, and the capability for it is not declared. -/
theorem exists_not_capability :
    ∃ artifact insts l, compile viewFetch ⟨[], [], []⟩ .default = .ok artifact ∧
      lowerInstructions (viewFetch.environment insts ⟨[], [], []⟩ .default) insts = .ok l ∧
      artifact = l.artifact ∧
      (∃ i ∈ l.state.builder.module.definitions, i.op = .ordinary .imageRead ∧
        l.state.builder.module.lacksFormat i = true) ∧
      ¬ l.state.builder.module.HasCapability .storageImageReadWithoutFormat := by
  obtain ⟨artifact, insts, l, compiles, lowered, same, _, lacks⟩ :=
    exists_compile viewFetch ⟨[], [], []⟩ .default
      (fun _ _ l => decide ((∃ i ∈ l.state.builder.module.definitions,
          i.op = .ordinary .imageRead ∧ l.state.builder.module.lacksFormat i = true) ∧
        ¬ l.state.builder.module.HasCapability .storageImageReadWithoutFormat))
      (by decide +kernel)
  exact ⟨artifact, insts, l, compiles, lowered, same, of_decide_eq_true lacks⟩

end Compilation

end ShaderLowering
