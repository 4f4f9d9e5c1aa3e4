import ShaderLowering.Proofs.WellFormed.Bodies

/-!
Framing. The first word of an instruction says how many words it has, in sixteen bits. A stream of
instructions is cut back into its instructions by these counts just if every one of them fits; where
one does not, the walk goes astray at that instruction. Nothing in the lowering keeps instructions
short, so this is all that can be said of a compiled module.
-/

namespace ShaderLowering

namespace Spirv

/-- One more than the greatest word count that an instruction can state. -/
def countLimit : Nat := 0x10000

theorem OpCode.code_lt (op : OpCode) : op.code.toNat < 0x10000 := by
  cases op with
  | ordinary op => cases op <;> decide
  | control op => cases op <;> decide

namespace Instr

/-- Whether the word count of an instruction fits into its first word. -/
def Fits (i : Instr) : Prop := i.words.length < countLimit

instance (i : Instr) : Decidable i.Fits := inferInstanceAs (Decidable (_ < _))

/-- The first word of an instruction. -/
def firstWord (i : Instr) : UInt32 :=
  UInt32.ofNat (i.operandWords.length + 1) <<< 16 ||| i.op.code

theorem words_eq (i : Instr) : i.words = i.firstWord :: i.operandWords := rfl

theorem length_words (i : Instr) : i.words.length = i.operandWords.length + 1 := rfl

/-- The high half of the first word is the word count without its own high half. -/
theorem count_firstWord (i : Instr) :
    (i.firstWord >>> 16).toNat = i.words.length % countLimit := by
  have low : i.op.code.toNat / 2 ^ 16 = 0 := Nat.div_eq_of_lt i.op.code_lt
  have sixteen : (16 : UInt32).toNat % 32 = 16 := rfl
  rw [firstWord, UInt32.toNat_shiftRight, UInt32.toNat_or, UInt32.toNat_shiftLeft,
    UInt32.toNat_ofNat', sixteen, Nat.shiftRight_or_distrib, Nat.shiftRight_eq_div_pow,
    Nat.shiftRight_eq_div_pow, low, Nat.or_zero, Nat.shiftLeft_eq, length_words, countLimit]
  omega

end Instr

/-- The walk takes an instruction that fits as a whole. -/
theorem frames_cons {i : Instr} (fits : i.Fits) (rest : List UInt32) :
    frames (i.words ++ rest) = (frames rest).map (i.words :: ·) := by
  have count : (i.firstWord >>> 16).toNat = i.operandWords.length + 1 :=
    i.count_firstWord.trans (Nat.mod_eq_of_lt fits)
  rw [i.words_eq, List.cons_append, frames, count]
  have inside : ¬(i.operandWords.length + 1 = 0 ∨
      (i.operandWords ++ rest).length + 1 < i.operandWords.length + 1) := by
    rw [List.length_append]
    omega
  rw [if_neg inside, Nat.add_sub_cancel, List.drop_left, List.take_left]

/-- Whatever the walk takes first is shorter than an instruction that does not fit. -/
theorem length_frames_cons {i : Instr} {rest frame : List UInt32} {more : List (List UInt32)}
    (walked : frames (i.words ++ rest) = some (frame :: more)) : frame.length < countLimit := by
  rw [i.words_eq, List.cons_append, frames] at walked
  have count : (i.firstWord >>> 16).toNat < countLimit :=
    i.count_firstWord ▸ Nat.mod_lt _ (by decide)
  generalize (i.firstWord >>> 16).toNat = n at walked count
  split at walked
  · cases walked
  · next inside =>
    obtain ⟨frames', _, same⟩ := Option.map_eq_some_iff.1 walked
    obtain ⟨rfl, rfl⟩ := List.cons.inj same
    rw [List.length_cons, List.length_take]
    omega

/-- Walking the words of instructions by their counts gives the instructions back, each as a whole
and in order, just if every one of them fits. -/
theorem frames_flatMap_words_iff {insts : List Instr} :
    frames (insts.flatMap Instr.words) = some (insts.map Instr.words) ↔ ∀ i ∈ insts, i.Fits := by
  induction insts with
  | nil => simp [frames]
  | cons i rest ih =>
    rw [List.flatMap_cons, List.map_cons, List.forall_mem_cons]
    constructor
    · intro walked
      have fits : i.Fits := length_frames_cons walked
      rw [frames_cons fits] at walked
      obtain ⟨_, restWalked, same⟩ := Option.map_eq_some_iff.1 walked
      obtain ⟨_, rfl⟩ := List.cons.inj same
      exact ⟨fits, ih.1 restWalked⟩
    · rintro ⟨fits, restFits⟩
      rw [frames_cons fits, ih.2 restFits]
      rfl

theorem Module.length_header (m : Module) (bound : Id) : (m.header bound).length = 5 := rfl

theorem Builder.drop_words (b : Builder) :
    b.words.drop 5 = b.module.instructions.flatMap Instr.words :=
  List.drop_left' (b.module.length_header b.nextId)

end Spirv

open Spirv (frames Instr)

/-- What a successful compilation yields is the module of a lowering. Behind the header it is cut
back into just the instructions of that module, in order, exactly when the word count of every one
of them fits into its first word. -/
theorem compile_frames_iff {program : Program} {entries : SignatureEntries} {options : Options}
    {artifact : Artifact} (h : compile program entries options = .ok artifact) :
    ∃ insts l, program.instructions = .ok insts ∧
      lowerInstructions (program.environment insts entries options) insts = .ok l ∧
      artifact = l.artifact ∧
      (frames (artifact.code.drop 5) =
          some (l.state.builder.module.instructions.map Instr.words) ↔
        ∀ i ∈ l.state.builder.module.instructions, i.Fits) := by
  obtain ⟨insts, l, decoded, lowered, rfl⟩ := compile_eq_ok.1 h
  refine ⟨insts, l, decoded, lowered, rfl, ?_⟩
  have behind : l.artifact.code.drop 5 = l.state.builder.module.instructions.flatMap Instr.words :=
    l.state.builder.drop_words
  rw [behind]
  exact Spirv.frames_flatMap_words_iff

/-- A pixel shader that only returns. -/
def returnOnly : Program := .assume [0x50, 3, 0x0100003e]

theorem compile_frames_iff_returnOnly :
    ∃ artifact, compile returnOnly ⟨[], [], []⟩ .default = .ok artifact ∧
      ∃ insts l, returnOnly.instructions = .ok insts ∧
        lowerInstructions (returnOnly.environment insts ⟨[], [], []⟩ .default) insts = .ok l ∧
        artifact = l.artifact ∧
        (frames (artifact.code.drop 5) =
            some (l.state.builder.module.instructions.map Instr.words) ↔
          ∀ i ∈ l.state.builder.module.instructions, i.Fits) := by
  have succeeds : (compile returnOnly ⟨[], [], []⟩ .default).isOk = true := by decide +kernel
  cases h : compile returnOnly ⟨[], [], []⟩ .default with
  | error e =>
    rw [h] at succeeds
    cases succeeds
  | ok artifact => exact ⟨artifact, rfl, compile_frames_iff h⟩

namespace Bytes

theorem length_toWords (bytes : Bytes) : bytes.toWords.length = bytes.length / 4 := by
  fun_induction toWords bytes with
  | case1 a b c d rest ih =>
    simp only [List.length_cons, ih]
    omega
  | case2 bytes short =>
    have few : bytes.length < 4 := by
      match bytes, short with
      | [], _ | [_], _ | [_, _], _ | [_, _, _], _ => exact of_decide_eq_true rfl
      | a :: b :: c :: d :: rest, short => exact absurd rfl (short a b c d rest)
    exact (Nat.div_eq_of_lt few).symm

end Bytes

/-- A text takes one word for every four bytes, and always one in which it ends. -/
theorem Spirv.Arg.length_textWords (s : String) :
    (textWords s).length = s.utf8ByteSize / 4 + 1 := by
  have bytes : s.toUTF8.data.toList.length = s.utf8ByteSize := rfl
  unfold textWords
  dsimp only
  rw [Bytes.length_toWords, List.length_append, List.length_replicate, bytes]
  omega

namespace Lower

variable {env : Environment} {s t : State}

/-- Whether a module declares an entry point under the name that the options give it. -/
def DeclaresEntryPoint (env : Environment) (m : Spirv.Module) : Prop :=
  ∃ entry, ∃ interface : List Spirv.Id,
    Instr.plain .entryPoint (.word env.stage.executionModel.code :: .id entry ::
      .text env.options.entryPoint :: interface.map .id) ∈ m.entryPoints

theorem announceEntryPoint_declares (run : announceEntryPoint.run env s = (.ok (), t)) :
    DeclaresEntryPoint env t.builder.module := by
  unfold announceEntryPoint at run
  obtain ⟨_, s₁, _, run⟩ := Emission.run_bind_eq_ok.1 run
  obtain ⟨modes, s₂, _, run⟩ := Emission.run_bind_eq_ok.1 run
  unfold declareEntryPoint at run
  obtain ⟨_, s₃, asked, run⟩ := Emission.run_bind_eq_ok.1 run
  cases asked
  obtain ⟨u, s₄, _, run⟩ := Emission.run_bind_eq_ok.1 run
  obtain ⟨interface, s₅, _, run⟩ := Emission.run_bind_eq_ok.1 run
  cases run
  exact ⟨u.entryPoint, interface, Array.mem_push_self⟩

theorem finish_declares (run : result finish env s = (.ok (), t)) :
    DeclaresEntryPoint env t.builder.module := by
  have announced {contents : Lower Unit} {u : State}
      (run : result (do entryFunction contents; announceEntryPoint) env u = (.ok (), t)) :
      DeclaresEntryPoint env t.builder.module := by
    obtain ⟨_, v, _, run⟩ := result_bind_eq_ok.1 run
    exact announceEntryPoint_declares run
  unfold finish at run
  rw [result_get_bind] at run
  obtain ⟨_, run⟩ := result_check.1 run
  obtain ⟨_, u, _, run⟩ := result_bind_eq_ok.1 run
  unfold lowerEntryPoint at run
  rw [result_get_bind] at run
  split at run
  · exact announced run
  · rw [result_get_bind] at run
    obtain ⟨_, v, _, run⟩ := result_bind_eq_ok.1 run
    exact announced run

end Lower

namespace Lowering

theorem environment_steps {l m : Lowering} {insts : List Instruction} (h : l.steps insts = .ok m) :
    m.environment = l.environment := by
  induction insts generalizing l with
  | nil =>
    cases h
    rfl
  | cons inst rest ih =>
    obtain ⟨k, stepped, more⟩ := steps_cons.1 h
    exact (ih more).trans (step_eq_ok.1 stepped).2

end Lowering

theorem lowerInstructions_declares {env : Environment} {insts : List Instruction} {l : Lowering}
    (h : lowerInstructions env insts = .ok l) :
    Lower.DeclaresEntryPoint env l.state.builder.module := by
  obtain ⟨first, last, started, stepped, closed⟩ := lowerInstructions_eq_ok.1 h
  obtain ⟨_, _, _, started⟩ := Lowering.start_eq_ok.1 started
  obtain ⟨finished, _⟩ := Lowering.run_eq_ok.1 (Lowering.close_eq_ok.1 closed)
  have same : last.environment = env := (Lowering.environment_steps stepped).trans started
  rw [same] at finished
  exact Lower.finish_declares finished

theorem Spirv.Module.mem_instructions_of_entryPoint {m : Spirv.Module} {i : Instr}
    (h : i ∈ m.entryPoints) : i ∈ m.instructions := by
  simp [Spirv.Module.instructions, h]

/-- A name for the entry point that is too long by itself: under it no program is lowered to a
stream of words that can be cut back into its instructions. -/
theorem not_frames_of_long_name {env : Environment} {insts : List Instruction} {l : Lowering}
    (lowered : lowerInstructions env insts = .ok l)
    (long : 4 * (Spirv.countLimit - 4) ≤ env.options.entryPoint.utf8ByteSize) :
    frames (l.artifact.code.drop 5) ≠
      some (l.state.builder.module.instructions.map Instr.words) := by
  obtain ⟨entry, interface, declared⟩ := lowerInstructions_declares lowered
  have behind : l.artifact.code.drop 5 = l.state.builder.module.instructions.flatMap Instr.words :=
    l.state.builder.drop_words
  rw [behind, Ne, Spirv.frames_flatMap_words_iff]
  intro fits
  have short := fits _ (Spirv.Module.mem_instructions_of_entryPoint declared)
  simp only [Instr.Fits, Instr.length_words, Instr.operandWords, Instr.plain, Option.toList_none,
    List.append_nil, List.map_nil, List.nil_append, List.flatMap_cons, List.length_append,
    Spirv.Arg.words, List.length_singleton, Spirv.Arg.length_textWords,
    Spirv.countLimit] at short long
  omega

theorem utf8ByteSize_pushn (s : String) (c : Char) (n : Nat) :
    (s.pushn c n).utf8ByteSize = s.utf8ByteSize + n * c.utf8Size := by
  rw [String.pushn_eq_repeat_push]
  induction n with
  | zero => simp [Nat.repeat]
  | succ n ih =>
    rw [Nat.repeat, String.utf8ByteSize_push, ih, Nat.succ_mul, Nat.add_assoc]

def longNameOptions : Options :=
  { Options.default with entryPoint := "".pushn 'm' (4 * (Spirv.countLimit - 4)) }

theorem le_longName :
    4 * (Spirv.countLimit - 4) ≤ longNameOptions.entryPoint.utf8ByteSize := by
  unfold longNameOptions
  rw [utf8ByteSize_pushn]
  exact Nat.le_trans (Nat.le_mul_of_pos_right _ Nat.one_pos) (Nat.le_add_left _ _)

/-- There is such a name, and a program is compiled under it all the same. -/
theorem exists_not_frames :
    ∃ insts l, returnOnly.instructions = .ok insts ∧
      compile returnOnly ⟨[], [], []⟩ longNameOptions = .ok l.artifact ∧
      lowerInstructions (returnOnly.environment insts ⟨[], [], []⟩ longNameOptions) insts = .ok l ∧
      frames (l.artifact.code.drop 5) ≠
        some (l.state.builder.module.instructions.map Instr.words) := by
  have succeeds : (compile returnOnly ⟨[], [], []⟩ longNameOptions).isOk = true := by
    decide +kernel
  cases h : compile returnOnly ⟨[], [], []⟩ longNameOptions with
  | error e =>
    rw [h] at succeeds
    cases succeeds
  | ok artifact =>
    obtain ⟨insts, l, decoded, lowered, rfl⟩ := compile_eq_ok.1 h
    exact ⟨insts, l, decoded, rfl, lowered, not_frames_of_long_name lowered le_longName⟩

end ShaderLowering
