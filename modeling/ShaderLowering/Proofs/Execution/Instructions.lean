import ShaderLowering.Lowering.Instruction
import ShaderLowering.Proofs.Execution.Arithmetic
import ShaderLowering.Proofs.Typing.Lowered

/-!
Integer instructions at run time. An instruction reads all of its sources before it writes any of
its destinations, and writes its destinations one after the other; each gets, in the components of
its mask, the words that the instruction set computes from the old registers.
-/

namespace ShaderLowering

open Spirv (Id Instr Arg Op ExtOp Module Processor Device Datum)

namespace Instruction

variable (d : Device) (inst : Instruction) (words : List UInt32 → List UInt32)

/-- What an instruction computes for component `c` of destination `n`, if it computes `words` from
its sources. -/
def result (R : Registers) (n c : Nat) : UInt32 :=
  (words (inst.src.map (·.word d R c))).getD n 0

/-- The registers behind an instruction that computes everything from the registers before it. -/
def effect (R : Registers) : Registers :=
  inst.dst.zipIdx.foldl (fun after out => out.1.assign (inst.result d words R out.2) after) R

end Instruction

/-- Destinations that are written one after the other. -/
def Wrote : List (Operand × (Nat → UInt32)) → (Id → Words4) → (Id → Words4) → List Instr → State →
    Prop
  | [], before, after, code, _ => after = before ∧ LoadsFrom (fun _ => False) code
  | (op, g) :: rest, before, after, code, t => ∃ memory first others, code = first ++ others ∧
    op.Written g before memory first t ∧ Wrote rest memory after others t

namespace Wrote

variable {outs : List (Operand × (Nat → UInt32))} {before after : Id → Words4}
  {code : List Instr} {t u : State} {R : Registers}

/-- The writes change the variables of temporaries as they change the registers. -/
theorem shows_ (h : Wrote outs before after code t) (nodup : t.temps.toList.Nodup)
    (targets : ∀ out ∈ outs, out.1.IsTarget) (shown : t.Shows before R) :
    t.Shows after (outs.foldl (fun R out => out.1.assign out.2 R) R) := by
  induction outs generalizing before code R with
  | nil =>
    obtain ⟨rfl, _⟩ := h
    exact shown
  | cons out rest ih =>
    obtain ⟨memory, first, others, _, written, h⟩ := h
    exact ih h (fun out mem => targets out (List.mem_cons_of_mem _ mem))
      (written.shows_ nodup (targets out List.mem_cons_self) shown)

theorem elsewhere (h : Wrote outs before after code t) {id : Id} (other : id ∉ t.temps.toList) :
    after id = before id := by
  induction outs generalizing before code with
  | nil => rw [h.1]
  | cons out rest ih =>
    obtain ⟨memory, first, others, _, written, h⟩ := h
    rw [ih h, written.elsewhere other]

/-- All that is loaded while destinations are written is what their masks leave alone. -/
theorem loads (h : Wrote outs before after code t) :
    LoadsFrom (fun id => ∃ out ∈ outs, t.temps[out.1.register]? = some id) code := by
  induction outs generalizing before code with
  | nil => exact h.2.mono fun _ => False.elim
  | cons out rest ih =>
    obtain ⟨memory, first, others, rfl, written, h⟩ := h
    refine .append ?_ ((ih h).mono fun id ⟨out, mem, at_⟩ => ⟨out, List.mem_cons_of_mem _ mem, at_⟩)
    exact written.loads.mono fun id at_ => ⟨out, List.mem_cons_self, at_⟩

end Wrote

/-- Code that first only reads, loading some operands, and then writes; or no code at all. -/
def InPhases (ops : List Operand) (t : State) (W : List Instr → Prop) (code : List Instr) : Prop :=
  ∃ reads writes, code = reads ++ writes ∧ StoresNothing reads ∧
    (code = [] ∨ Fetched t ops (loads reads)) ∧ W writes

theorem InPhases.mono {ops : List Operand} {t : State} {W W' : List Instr → Prop}
    {code : List Instr} (h : InPhases ops t W code) (weaker : ∀ writes, W writes → W' writes) :
    InPhases ops t W' code := by
  obtain ⟨reads, writes, split, stores, fetched, h⟩ := h
  exact ⟨reads, writes, split, stores, fetched, weaker writes h⟩

theorem InPhases.later {ops : List Operand} {t u : State} {W : List Instr → Prop}
    {code : List Instr} (h : InPhases ops t W code) (more : t.temps.toList <+: u.temps.toList) :
    InPhases ops u W code := by
  obtain ⟨reads, writes, split, stores, fetched, h⟩ := h
  exact ⟨reads, writes, split, stores, fetched.imp id (·.later more), h⟩

/-- A step with such code. -/
def Phased {α : Type} (d : Device) (env : Environment) (e : Emission α) (s : State) (μ : Processor)
    (ops : List Operand) (W : State → List Instr → Processor → Prop) : Prop :=
  Executes d env e s μ fun _ t code ν => InPhases ops t (W t · ν) code

namespace Phased

variable {α β : Type} {d : Device} {env : Environment} {s : State} {μ : Processor}
  {e : Emission α} {f : α → Emission β} {ops : List Operand}
  {W : State → List Instr → Processor → Prop} {Q : α → State → Processor → Prop}

theorem of_writes (h : Executes d env e s μ fun _ t code ν => W t code ν) :
    Phased d env e s μ [] W :=
  h.mono fun _ _ code _ _ _ h => ⟨[], code, rfl, List.forall_mem_nil _, .inr .nil, h⟩

/-- Nothing is to be done. -/
theorem idle {a : α} (h : s.Receptive → W s [] μ) : Phased d env (pure a) s μ ops W :=
  .pure fun ready => ⟨[], [], rfl, List.forall_mem_nil _, .inl rfl, h ready⟩

/-- Operands are loaded before all else. -/
theorem fetchBind (first : Fetches d env e s μ fun a t ids ν => Fetched t ops ids ∧ Q a t ν)
    (later : ∀ a t ν, s.Later μ t ν → Q a t ν → Phased d env (f a) t ν [] W) :
    Phased d env (e >>= f) s μ ops W := by
  refine Executes.bind first fun a t code ν follows runs h => ?_
  obtain ⟨⟨memory, stores⟩, fetched, q⟩ := h
  refine (later a t ν ⟨follows.after runs, memory⟩ q).mono fun b u more κ follows' _ h' => ?_
  obtain ⟨reads, writes, rfl, stores', idle, h'⟩ := h'
  have none_ : loads reads = [] := by
    rcases idle with none_ | none_
    · rw [(List.append_eq_nil_iff.1 none_).1]
      rfl
    · exact List.forall₂_nil_left_iff.1 none_
  refine ⟨code ++ reads, writes, (List.append_assoc _ _ _).symm, stores.append stores', .inr ?_, h'⟩
  rw [loads_append, none_, List.append_nil]
  exact fetched.later follows'.temps

theorem readBind (first : Reads d (fun _ => False) env e s μ Q)
    (later : ∀ a t ν, s.Later μ t ν → Q a t ν → Phased d env (f a) t ν [] W) :
    Phased d env (e >>= f) s μ [] W := by
  refine fetchBind ((Fetches.of_reads first).mono fun a t ids ν _ h => ?_) later
  obtain ⟨rfl, q⟩ := h
  exact ⟨.nil, q⟩

theorem pure_bind {a : α} (h : Phased d env (f a) s μ ops W) :
    Phased d env (Pure.pure a >>= f) s μ ops W :=
  h

theorem ite {p : Prop} [Decidable p] {yes no : Emission α}
    (hyes : p → Phased d env yes s μ ops W) (hno : ¬p → Phased d env no s μ ops W) :
    Phased d env (if p then yes else no) s μ ops W := by
  split
  · next h => exact hyes h
  · next h => exact hno h

end Phased

/-- What the code of an instruction does once it has read its sources. -/
def Instruction.Acts (d : Device) (inst : Instruction) (words : List UInt32 → List UInt32)
    (before : Id → Words4) (t : State) (writes : List Instr) (ν : Processor) : Prop :=
  ∀ R, t.Shows before R →
    Wrote (inst.dst.zipIdx.map fun out => (out.1, inst.result d words R out.2)) before ν.memory
      writes t

/-- The registers behind an instruction are those that it leaves in the variables. -/
theorem Instruction.Acts.shows_ {d : Device} {inst : Instruction}
    {words : List UInt32 → List UInt32} {before : Id → Words4} {t : State} {writes : List Instr}
    {ν : Processor} {R : Registers}
    (h : inst.Acts d words before t writes ν) (ready : t.Receptive)
    (targets : ∀ out ∈ inst.dst, out.IsTarget) (shown : t.Shows before R) :
    t.Shows ν.memory (inst.effect d words R) := by
  have after := (h R shown).shows_ ready.nodup (fun out mem => ?_) shown
  · rwa [List.foldl_map] at after
  · obtain ⟨numbered, mem', rfl⟩ := List.mem_map.1 mem
    exact targets _ (List.fst_mem_of_mem_zipIdx mem')

namespace Lower

variable {d : Device} {L : Id → Prop} {env : Environment} {s : State} {μ : Processor}
  {inst : Instruction} {op : Opcode} {cs : List Nat}

theorem destination_eq {n : Nat} (out : Operand) (h : inst.dst[n]? = some out) :
    destination inst n = pure out := by
  unfold destination
  rw [h]
  rfl

/-- The sources of an integer instruction are read as integers. -/
theorem integer_sources (integer : op ∈ Opcode.integers) {data : DataType}
    (mem : data ∈ op.sources) :
    ScalarType.ofData data ≠ .bool ∧ ScalarType.ofData data ≠ .f32 := by
  have all : ∀ op ∈ Opcode.integers, ∀ data ∈ op.sources,
      ScalarType.ofData data ≠ .bool ∧ ScalarType.ofData data ≠ .f32 := by decide
  exact all op integer data mem

/-- The sources of an integer instruction, with what they supply. -/
theorem sources_fetches (fits : inst.Fits op) (integer : op ∈ Opcode.integers)
    (sources : ∀ op ∈ inst.src, op.IsSource) {mask : WriteMask} (some_ : mask.components ≠ []) :
    Fetches d env (readSources inst mask) s μ fun vs t ids ν => Fetched t inst.src ids ∧
      ∃ gs, List.Forall₂ (fun v g => t.Integers ν v mask.components g) vs gs ∧
        gs.length = inst.src.length ∧ ∀ R, t.Shows μ.memory R → gs = inst.src.map (·.word d R) := by
  refine (readSources_fetches sources some_).mono fun vs t ids ν _ found => ?_
  obtain ⟨fetched, supplied⟩ := found
  refine ⟨fetched, ?_⟩
  have whole : ∀ op ∈ inst.src, ScalarType.ofData op.data ≠ .bool ∧
      ScalarType.ofData op.data ≠ .f32 := fun op mem =>
    integer_sources integer (fits.src ▸ List.mem_map_of_mem mem)
  clear fetched
  generalize inst.src = ops at supplied whole
  clear fits sources
  induction supplied with
  | nil => exact ⟨[], .nil, rfl, fun _ _ => rfl⟩
  | cons first _ ih =>
    obtain ⟨gs, held, size, shows_⟩ := ih fun op mem => whole op (List.mem_cons_of_mem _ mem)
    obtain ⟨boolean, float⟩ := whole _ List.mem_cons_self
    obtain ⟨g, carries, is⟩ := first
    refine ⟨g :: gs, .cons ⟨_, boolean, float, carries⟩ held, congrArg (· + 1) size, ?_⟩
    intro R shown
    rw [List.map_cons, ← shows_ R shown]
    congr 1
    funext c
    exact is R shown c

/-- The words that an instruction computes from what its sources supply. -/
theorem result_eq {words : List UInt32 → List UInt32} {gs : List (Nat → UInt32)} {R : Registers}
    (same : gs = inst.src.map (·.word d R)) :
    (fun n c => (words (gs.map (· c))).getD n 0) = inst.result d words R := by
  subst same
  funext n c
  rw [Instruction.result, List.map_map]
  rfl

/-- An instruction with one destination. -/
theorem lowerVector_phased (fits : inst.Fits op) (integer : op ∈ Opcode.integers)
    (single : op.destinations.length = 1) (targets : ∀ out ∈ inst.dst, out.IsTarget)
    (sources : ∀ op ∈ inst.src, op.IsSource) :
    Phased d env (lowerVector inst) s μ inst.src (inst.Acts d op.words μ.memory) := by
  obtain ⟨out, dst⟩ : ∃ out, inst.dst = [out] := by
    rw [← fits.dst, List.length_map] at single
    exact List.length_eq_one_iff.1 single
  have target : out.IsTarget := targets out (dst ▸ List.mem_singleton_self out)
  unfold lowerVector
  rw [destination_eq out (by rw [dst]; rfl)]
  refine .pure_bind (.ite (fun skipped => ?_) fun taken => ?_)
  · refine .idle fun _ R _ => ?_
    rw [dst]
    exact ⟨μ.memory, [], [], rfl, .skipped skipped, rfl, List.forall_mem_nil _⟩
  have some_ : ¬out.mask.isEmpty = true := fun empty => taken (by rw [empty, Bool.or_true])
  have some_ := WriteMask.components_ne_nil some_
  refine .fetchBind (sources_fetches fits integer sources some_) fun vs s₁ μ₁ l₁ read => ?_
  obtain ⟨gs, held, size, is⟩ := read
  have arity : gs.length = op.sources.length := by rw [size, ← fits.src, List.length_map]
  let g (n c : Nat) : UInt32 := (op.words (gs.map (· c))).getD n 0
  have computes : ∀ c ∈ out.mask.components, op.words? (gs.map (· c)) = some [g 0 c] := by
    intro c _
    obtain ⟨words, computed, size⟩ : ∃ out, op.words? (gs.map (· c)) = some out ∧
        out.length = op.destinations.length :=
      Opcode.exists_words integer (by rw [List.length_map, arity])
    obtain ⟨w, rfl⟩ := List.length_eq_one_iff.1 (size.trans single)
    simp only [g, Opcode.words, computed]
    rfl
  rw [fits.op?]
  refine .readBind (computeVector_reads integer single some_ out.mask.count_le arity
    (fun n v at_ => by rw [at_]; rfl) held computes) fun v s₂ μ₂ l₂ computed => ?_
  refine .readBind (markPrecise_reads inst v) fun _ s₃ μ₃ l₃ _ => ?_
  obtain ⟨scalar, boolean, float, carries⟩ := computed.later l₃
  have writes : Executes d env (writeOperand out v inst.saturate) s₃ μ₃ fun _ t code ν =>
      out.Written (fun c => saturated d scalar inst.saturate (g 0 c)) μ₃.memory ν.memory code t :=
    writeOperand_does target boolean inst.saturate fun _ => carries
  refine .of_writes (writes.mono fun _ t code ν follows _ written R shown => ?_)
  have plain : (fun c => saturated d scalar inst.saturate (g 0 c)) = g 0 := by
    funext c
    simp [saturated, float]
  rw [plain, l₃.memory, l₂.memory, l₁.memory] at written
  rw [dst, ← result_eq (is R (shown.earlier ((l₂.temps.trans l₃.temps).trans follows.temps)))]
  exact ⟨ν.memory, code, [], (List.append_nil _).symm, written, rfl, List.forall_mem_nil _⟩

section Pairs

variable {first second : Operand} {full : WriteMask} {scalar : ScalarType} {v w : Value}
  {g g' : Nat → UInt32}

theorem components_left {a b : WriteMask} {c : Nat} (mem : c ∈ a.components) :
    c ∈ (a ||| b).components := by
  rw [WriteMask.mem_components] at mem ⊢
  rw [WriteMask.contains_or, mem, Bool.true_or]

theorem components_right {a b : WriteMask} {c : Nat} (mem : c ∈ b.components) :
    c ∈ (a ||| b).components := by
  rw [WriteMask.mem_components] at mem ⊢
  rw [WriteMask.contains_or, mem, Bool.or_true]

/-- Nothing is written where neither mask has a component. -/
theorem wrote_nothing (empty : (first.mask ||| second.mask).isEmpty = true)
    (memory : Id → Words4) (t : State) :
    Wrote [(first, g), (second, g')] memory memory [] t := by
  have none_ := (WriteMask.isEmpty_iff _).1 empty
  have left : first.mask.isEmpty = true := (WriteMask.isEmpty_iff _).2 fun c =>
    Bool.eq_false_iff.2 fun mem => by
      have := none_ c
      rw [WriteMask.contains_or, mem] at this
      cases this
  have right : second.mask.isEmpty = true := (WriteMask.isEmpty_iff _).2 fun c =>
    Bool.eq_false_iff.2 fun mem => by
      have := none_ c
      rw [WriteMask.contains_or, mem, Bool.or_true] at this
      cases this
  exact ⟨memory, [], [], rfl, .skipped (by rw [left, Bool.or_true]),
    memory, [], [], rfl, .skipped (by rw [right, Bool.or_true]), rfl, List.forall_mem_nil _⟩

/-- Both parts of two values that were computed before anything is written. -/
theorem writeParts_does (number : scalar ≠ .bool) (target : first.IsTarget)
    (target' : second.IsTarget)
    (h : s.Carries μ v scalar (first.mask ||| second.mask).components g)
    (h' : s.Carries μ w scalar (first.mask ||| second.mask).components g') :
    Executes d env (do
        writePart first v (first.mask ||| second.mask)
        writePart second w (first.mask ||| second.mask)) s μ fun _ t code ν =>
      Wrote [(first, g), (second, g')] μ.memory ν.memory code t := by
  refine Executes.bind (writePart_does target number (fun _ => components_left) h)
    fun _ t code ν follows runs written => ?_
  refine (writePart_does target' number (fun _ => components_right)
    (h'.after (follows.after runs))).mono fun _ u more κ follows' _ written' => ?_
  exact ⟨ν.memory, code, more, rfl, written.later follows'.temps,
    κ.memory, more, [], (List.append_nil _).symm, written', rfl, List.forall_mem_nil _⟩

/-- The two sources of an instruction with two destinations. -/
theorem twoSources_fetches (fits : inst.Fits op) (integer : op ∈ Opcode.integers)
    (two : op.sources.length = 2) (sources : ∀ op ∈ inst.src, op.IsSource)
    (some_ : full.components ≠ []) :
    Fetches d env (readSources inst full) s μ fun vs t ids ν => Fetched t inst.src ids ∧
      ∃ a b ga gb, vs = [a, b] ∧ t.Integers ν a full.components ga ∧
        t.Integers ν b full.components gb ∧ ∀ R, t.Shows μ.memory R →
          (fun n c => (op.words [ga c, gb c]).getD n 0) = inst.result d op.words R := by
  refine (sources_fetches fits integer sources some_).mono fun vs t ids ν _ read => ?_
  obtain ⟨fetched, gs, held, size, is⟩ := read
  rw [← fits.src, List.length_map] at two
  obtain ⟨a, b, ga, gb, rfl, rfl, ha, hb⟩ := forall₂_two held (size.trans two)
  exact ⟨fetched, a, b, ga, gb, rfl, ha, hb, fun R shown => result_eq (is R shown)⟩

/-- The instruction whose two results are written in turn. -/
theorem acts_of_wrote {words : List UInt32 → List UInt32} {g : Nat → Nat → UInt32}
    {before : Id → Words4} {t u : State} {writes : List Instr} {ν : Processor}
    (dst : inst.dst = [first, second])
    (is : ∀ R, t.Shows before R → g = inst.result d words R)
    (more : t.temps.toList <+: u.temps.toList)
    (wrote : Wrote [(first, g 0), (second, g 1)] before ν.memory writes u) :
    inst.Acts d words before u writes ν := by
  intro R shown
  obtain rfl := is R (shown.earlier more)
  rw [dst]
  exact wrote

theorem lowWord_signed (a b : UInt32) :
    Spirv.lowWord (Spirv.signed a * Spirv.signed b) = a * b := by
  apply UInt32.toBitVec_inj.1
  rw [Spirv.lowWord, Spirv.signed, Spirv.signed, BitVec.ofInt_mul, BitVec.ofInt_toInt,
    BitVec.ofInt_toInt]
  rfl

theorem lowWord_unsigned (a b : UInt32) : Spirv.lowWord (a.toNat * b.toNat) = a * b := by
  apply UInt32.toBitVec_inj.1
  rw [Spirv.lowWord, ← Int.natCast_mul, BitVec.ofInt_natCast, BitVec.ofNat_mul]
  simp

/-- The two destinations of an instruction. -/
theorem twoTargets (fits : inst.Fits op) (two : op.destinations.length = 2)
    (targets : ∀ out ∈ inst.dst, out.IsTarget) :
    ∃ first second, inst.dst = [first, second] ∧ first.IsTarget ∧ second.IsTarget ∧
      destination inst 0 = pure first ∧ destination inst 1 = pure second := by
  rw [← fits.dst, List.length_map] at two
  obtain ⟨first, second, dst⟩ := List.length_eq_two.1 two
  exact ⟨first, second, dst, targets first (by simp [dst]), targets second (by simp [dst]),
    destination_eq first (by rw [dst]; rfl), destination_eq second (by rw [dst]; rfl)⟩

/-- High and low word of a product. -/
theorem lowerWideMultiply_phased (isSigned : Bool) (is : op = if isSigned then .imul else .umul)
    (fits : inst.Fits op) (targets : ∀ out ∈ inst.dst, out.IsTarget)
    (sources : ∀ op ∈ inst.src, op.IsSource) :
    Phased d env (lowerWideMultiply inst isSigned) s μ inst.src
      (inst.Acts d op.words μ.memory) := by
  have integer : op ∈ Opcode.integers := by cases isSigned <;> cases is <;> decide
  have two : op.sources.length = 2 := by cases isSigned <;> cases is <;> rfl
  obtain ⟨hi, lo, dst, target, target', first, second⟩ := twoTargets fits
    (by cases isSigned <;> cases is <;> rfl) targets
  unfold lowerWideMultiply
  rw [first, second]
  refine .pure_bind (.pure_bind (.ite (fun empty => ?_) fun taken => ?_))
  · refine .idle fun _ R _ => ?_
    rw [dst]
    exact wrote_nothing empty _ _
  refine .fetchBind (twoSources_fetches fits integer two sources
    (WriteMask.components_ne_nil taken))
    fun vs s₁ μ₁ l₁ read => ?_
  obtain ⟨a, b, ga, gb, rfl, ha, hb, is'⟩ := read
  let scalar : ScalarType := if isSigned then .i32 else .u32
  have number : scalar ≠ .bool := by cases isSigned <;> nofun
  let g (n c : Nat) : UInt32 := (op.words [ga c, gb c]).getD n 0
  have low : ∀ c, g 1 c = ga c * gb c := by
    intro c
    cases isSigned <;> cases is
    · exact lowWord_unsigned _ _
    · exact lowWord_signed _ _
  refine .readBind (integers_reads ha scalar) fun a s₂ μ₂ l₂ ha => ?_
  refine .readBind (integers_reads (hb.later l₂) scalar) fun b s₃ μ₃ l₃ hb => ?_
  have ha := ha.later l₃
  have memory := (l₃.memory.trans l₂.memory).trans l₁.memory
  refine .ite (fun skipped => ?_) fun taken => ?_
  · refine .readBind (operate_number (g := fun c => ga c * gb c) rfl
      (.cons ha.knows (.cons hb.knows .nil)) nofun fun _ _ => rfl)
        fun product s₄ μ₄ l₄ product_ => ?_
    have product_ : s₄.Carries μ₄ product scalar _ (g 1) := product_.congr fun c _ => (low c).symm
    refine .of_writes ((writePart_does target' number (fun _ => components_right) product_).mono
      fun _ t code ν follows _ written => ?_)
    rw [l₄.memory, memory] at written
    refine acts_of_wrote dst is' (((l₂.temps.trans l₃.temps).trans l₄.temps).trans follows.temps) ?_
    exact ⟨μ.memory, [], code, rfl, .skipped skipped,
      ν.memory, code, [], (List.append_nil _).symm, written, rfl, List.forall_mem_nil _⟩
  · have pairs : Op.isPair (if isSigned then .sMulExtended else .uMulExtended) = true := by
      cases isSigned <;> rfl
    refine .readBind (operatePair_reads (p := fun c => (g 1 c, g 0 c)) pairs ha hb fun c _ => ?_)
      fun wide s₄ μ₄ l₄ wide_ => ?_
    · cases isSigned <;> cases is <;> rfl
    refine .readBind (pairMember_reads scalar wide_ (.inl ⟨rfl, rfl⟩))
      fun lowPart s₅ μ₅ l₅ low_ => ?_
    refine .readBind (pairMember_reads scalar (l₅.knows wide_) (.inr ⟨rfl, rfl⟩))
      fun highPart s₆ μ₆ l₆ high_ => ?_
    refine .of_writes ((writeParts_does number target target' high_ (low_.later l₆)).mono
      fun _ t code ν follows _ wrote => ?_)
    rw [l₆.memory, l₅.memory, l₄.memory, memory] at wrote
    have temps := (l₂.temps.trans l₃.temps).trans ((l₄.temps.trans l₅.temps).trans l₆.temps)
    exact acts_of_wrote dst is' (temps.trans follows.temps) wrote

/-- Sum with carry, or difference with borrow. -/
theorem lowerCarry_phased {f : Op}
    (is : op = .uaddc ∧ f = .iAddCarry ∨ op = .usubb ∧ f = .iSubBorrow) (fits : inst.Fits op)
    (targets : ∀ out ∈ inst.dst, out.IsTarget) (sources : ∀ op ∈ inst.src, op.IsSource) :
    Phased d env (lowerCarry inst f) s μ inst.src (inst.Acts d op.words μ.memory) := by
  have integer : op ∈ Opcode.integers := by rcases is with ⟨rfl, _⟩ | ⟨rfl, _⟩ <;> decide
  have two : op.sources.length = 2 := by rcases is with ⟨rfl, _⟩ | ⟨rfl, _⟩ <;> rfl
  obtain ⟨value, flag, dst, target, target', first, second⟩ := twoTargets fits
    (by rcases is with ⟨rfl, _⟩ | ⟨rfl, _⟩ <;> rfl) targets
  unfold lowerCarry
  rw [first, second]
  refine .pure_bind (.pure_bind (.ite (fun empty => ?_) fun taken => ?_))
  · refine .idle fun _ R _ => ?_
    rw [dst]
    exact wrote_nothing empty _ _
  refine .fetchBind (twoSources_fetches fits integer two sources
    (WriteMask.components_ne_nil taken))
    fun vs s₁ μ₁ l₁ read => ?_
  obtain ⟨a, b, ga, gb, rfl, ha, hb, is'⟩ := read
  let g (n c : Nat) : UInt32 := (op.words [ga c, gb c]).getD n 0
  have pairs : f.isPair = true := by rcases is with ⟨_, rfl⟩ | ⟨_, rfl⟩ <;> rfl
  refine .readBind (integers_reads ha .u32) fun a s₂ μ₂ l₂ ha => ?_
  refine .readBind (integers_reads (hb.later l₂) .u32) fun b s₃ μ₃ l₃ hb => ?_
  refine .readBind (operatePair_reads (p := fun c => (g 0 c, g 1 c)) pairs (ha.later l₃) hb
    fun c _ => ?_) fun wide s₄ μ₄ l₄ wide_ => ?_
  · rcases is with ⟨rfl, rfl⟩ | ⟨rfl, rfl⟩ <;> rfl
  refine .readBind (pairMember_reads .u32 wide_ (.inl ⟨rfl, rfl⟩))
    fun valuePart s₅ μ₅ l₅ value_ => ?_
  refine .readBind (pairMember_reads .u32 (l₅.knows wide_) (.inr ⟨rfl, rfl⟩))
    fun flagPart s₆ μ₆ l₆ flag_ => ?_
  refine .of_writes ((writeParts_does (by decide) target target' (value_.later l₆) flag_).mono
    fun _ t code ν follows _ wrote => ?_)
  rw [l₆.memory, l₅.memory, l₄.memory, l₃.memory, l₂.memory, l₁.memory] at wrote
  have temps := (l₂.temps.trans l₃.temps).trans ((l₄.temps.trans l₅.temps).trans l₆.temps)
  exact acts_of_wrote dst is' (temps.trans follows.temps) wrote

/-- One of quotient and remainder, all ones where the divisor is zero. -/
theorem dividePart_does {out : Operand} {f : Op} {full : WriteMask} {a b ones byZero : Value}
    {ga gb h : Nat → UInt32} (target : out.IsTarget)
    (inside : ∀ c ∈ out.mask.components, c ∈ full.components) (is : f.isNumber = true)
    (each : ∀ c ∈ full.components, f.number? d [ga c, gb c] = some (h c))
    (ha : s.Carries μ a .u32 full.components ga) (hb : s.Carries μ b .u32 full.components gb)
    (ho : s.Carries μ ones .u32 full.components fun _ => 0xffffffff)
    (hz : s.Decides μ byZero full.components fun c => gb c = 0)
    (zero : ∀ c, (if gb c = 0 then 0xffffffff else h c) = g c) :
    Executes d env (if (out.isNull || out.mask.isEmpty) = true then
        pure (ForInStep.yield ()) else do
        let result ← operate f ⟨.u32, full.count⟩ [a.id, b.id]
        let chosen ← operate .select ⟨.u32, full.count⟩ [byZero.id, ones.id, result.id]
        writePart out chosen full
        pure (ForInStep.yield ())) s μ fun round t code ν =>
      round = .yield () ∧ out.Written g μ.memory ν.memory code t := by
  by_cases skipped : (out.isNull || out.mask.isEmpty) = true
  · rw [if_pos skipped]
    exact .pure fun _ => ⟨rfl, .skipped skipped⟩
  rw [if_neg skipped]
  refine Executes.bind (operate_number (L := fun _ => False) is (.cons ha.knows
    (.cons hb.knows .nil))
    nofun each) fun result s₁ code₁ μ₁ f₁ r₁ h₁ => ?_
  obtain ⟨⟨memory₁, _, loads₁⟩, result_⟩ := h₁
  have l₁ : s.Later μ s₁ μ₁ := ⟨f₁.after r₁, memory₁⟩
  refine Executes.bind (select_reads (L := fun _ => False) .u32 (hz.later l₁)
    (l₁.knows ho.knows) result_.knows) fun chosen s₂ code₂ μ₂ f₂ r₂ h₂ => ?_
  obtain ⟨⟨memory₂, _, loads₂⟩, chosen_⟩ := h₂
  have chosen_ := chosen_.congr fun c _ => by simpa using zero c
  refine Executes.bind (writePart_does target (by decide) inside chosen_)
    fun _ t code ν follows runs written => .pure fun _ => ⟨rfl, ?_⟩
  rw [List.append_nil]
  rw [memory₂, memory₁] at written
  exact (written.prepend loads₂).prepend loads₁

/-- Quotient and remainder. -/
theorem lowerDivide_phased (fits : inst.Fits .udiv)
    (targets : ∀ out ∈ inst.dst, out.IsTarget) (sources : ∀ op ∈ inst.src, op.IsSource) :
    Phased d env (lowerDivide inst) s μ inst.src (inst.Acts d Opcode.udiv.words μ.memory) := by
  obtain ⟨quotient, remainder, dst, target, target', first, second⟩ := twoTargets fits rfl targets
  unfold lowerDivide
  rw [first, second]
  refine .pure_bind (.pure_bind (.ite (fun empty => ?_) fun taken => ?_))
  · refine .idle fun _ R _ => ?_
    rw [dst]
    exact wrote_nothing empty _ _
  have some_ := WriteMask.components_ne_nil taken
  refine .fetchBind (twoSources_fetches fits (by decide) rfl sources some_)
    fun vs s₁ μ₁ l₁ read => ?_
  obtain ⟨a, b, ga, gb, rfl, ha, hb, is'⟩ := read
  let g (n c : Nat) : UInt32 := (Opcode.udiv.words [ga c, gb c]).getD n 0
  refine .readBind (integers_reads ha .u32) fun a s₂ μ₂ l₂ ha => ?_
  refine .readBind (integers_reads (hb.later l₂) .u32) fun b s₃ μ₃ l₃ hb => ?_
  refine .readBind (vectorType_reads _) fun _ s₄ μ₄ l₄ _ => ?_
  refine .readBind (splat_reads (by decide) some_ 0) fun zero s₅ μ₅ l₅ zero_ => ?_
  refine .readBind (splat_reads (by decide) some_ 0xffffffff) fun ones s₆ μ₆ l₆ ones_ => ?_
  have ha := (ha.later l₃).later ((l₄.trans l₅).trans l₆)
  have hb := hb.later ((l₄.trans l₅).trans l₆)
  refine .readBind (operate_test (p := fun c => gb c = 0) rfl
    (.cons hb.knows (.cons (zero_.later l₆).knows .nil)) nofun fun _ _ => rfl)
    fun byZero s₇ μ₇ l₇ byZero_ => ?_
  have ha := ha.later l₇
  have hb := hb.later l₇
  have ones_ := ones_.later l₇
  have temps := (((l₂.temps.trans l₃.temps).trans (l₄.temps.trans l₅.temps)).trans l₆.temps).trans
    l₇.temps
  have memory : μ₇.memory = μ.memory := by
    rw [l₇.memory, l₆.memory, l₅.memory, l₄.memory, l₃.memory, l₂.memory, l₁.memory]
  refine .of_writes (Executes.bind (Q := fun _ t code ν =>
    Wrote [(quotient, g 0), (remainder, g 1)] μ₇.memory ν.memory code t) ?_
      fun _ t code ν follows _ wrote => .pure fun _ => ?_)
  · rw [List.forIn_cons]
    refine Executes.bind (dividePart_does (g := g 0) target (fun _ => components_left) rfl
      (fun _ _ => rfl) ha hb ones_ byZero_ fun c => ?_) fun round s₈ code₈ μ₈ f₈ r₈ h₈ => ?_
    · by_cases zero : gb c = 0 <;> simp [g, Opcode.words, Opcode.words?, zero]
    obtain ⟨rfl, written⟩ := h₈
    have l₈ := f₈.after r₈
    dsimp only
    rw [List.forIn_cons]
    refine Executes.bind (dividePart_does (g := g 1) target' (fun _ => components_right) rfl
      (fun _ _ => rfl) (ha.after l₈) (hb.after l₈) (ones_.after l₈) (byZero_.after l₈)
      fun c => ?_) fun round t code ν f₉ _ h₉ => ?_
    · by_cases zero : gb c = 0 <;> simp [g, Opcode.words, Opcode.words?, zero]
    obtain ⟨rfl, written'⟩ := h₉
    dsimp only
    rw [List.forIn_nil]
    exact .pure fun _ => ⟨μ₈.memory, code₈, _, rfl, written.later f₉.temps, ν.memory, code, [],
      rfl, written', rfl, List.forall_mem_nil _⟩
  · rw [List.append_nil]
    rw [memory] at wrote
    exact acts_of_wrote dst is' (temps.trans follows.temps) wrote

end Pairs

/-- Every integer instruction does what the instruction set says. -/
theorem lowerArithmetic_phased (fits : inst.Fits op) (integer : op ∈ Opcode.integers)
    (targets : ∀ out ∈ inst.dst, out.IsTarget) (sources : ∀ op ∈ inst.src, op.IsSource) :
    Phased d env (lowerArithmetic inst) s μ inst.src (inst.Acts d op.words μ.memory) := by
  have vector (single : op.destinations.length = 1) :
      Phased d env (lowerVector inst) s μ inst.src (inst.Acts d op.words μ.memory) :=
    lowerVector_phased fits integer single targets sources
  unfold lowerArithmetic
  rw [fits.op?]
  cases op
  case imul => exact lowerWideMultiply_phased true rfl fits targets sources
  case umul => exact lowerWideMultiply_phased false rfl fits targets sources
  case udiv => exact lowerDivide_phased fits targets sources
  case uaddc => exact lowerCarry_phased (.inl ⟨rfl, rfl⟩) fits targets sources
  case usubb => exact lowerCarry_phased (.inr ⟨rfl, rfl⟩) fits targets sources
  all_goals first
    | exact vector rfl
    | exact absurd integer (by decide)

/-- The families of the instructions that `lowerArithmetic` lowers. -/
def arithmeticFamilies : List Opcode.Family :=
  [.vectorAlu, .vectorCmp, .vectorCmov, .vectorShift, .vectorImul, .vectorIdiv, .vectorSinCos,
    .bitExtract, .bitInsert]

/-- Arithmetic instructions stand inside of functions. -/
theorem result_arithmetic (family : inst.family ∈ arithmeticFamilies)
    (inFunction : s.inFunction = true) {t : State}
    (ran : (lowerArithmetic inst).run env s = (.ok (), t)) :
    result (lowerInstruction inst) env s =
      (.ok (), { t with lastOpcode? := some inst.opcode }) := by
  have lowered : result (lowerByFamily inst) env s = (.ok (), t) := by
    simp only [arithmeticFamilies, List.mem_cons, List.not_mem_nil, or_false] at family
    unfold lowerByFamily lowerExecutable lowerOperation
    rcases family with h | h | h | h | h | h | h | h | h <;> rw [h] <;>
      exact (result_inFunction (m := liftM (lowerArithmetic inst))).2 ⟨inFunction, ran⟩
  unfold lowerInstruction
  rw [result_bind, lowered]
  rfl

end Lower

namespace Lowering

variable {p : Program} {entries : SignatureEntries} {options : Options}
  {insts done rest : List Instruction} {inst : Instruction} {op : Opcode} {first l : Lowering}

/-- Where an open block is reached, temporaries have variables of their own. -/
theorem ready (decoded : p.instructions = .ok insts) (all : insts = done ++ rest)
    (started : start (p.environment insts entries options) = .ok first)
    (ran : first.steps done = .ok l) (place : l.state.HasPlace) : l.state.Receptive := by
  let x : Shader := p.shader decoded entries options
  have behind : done <+: x.insts := ⟨rest, all.symm⟩
  have reached := invariant_upTo behind started ran
  exact ⟨reached.builder, place, reached.tables.ownTemps, reached.tables.housedTemps⟩

/-- What an arithmetic instruction does in an open block. Its code is the same whatever the
processor holds. -/
theorem step_executes {Q : Device → Processor → State → List Instr → Processor → Prop}
    (ready : l.state.Receptive) (inFunction : l.state.inFunction = true)
    (family : inst.family ∈ Lower.arithmeticFamilies)
    (does : ∀ d μ, Executes d l.environment (Lower.lowerArithmetic inst) l.state μ fun _ => Q d μ) :
    ∃ t code, l.step inst = (.ok (), { l with
        state := { t with lastOpcode? := some inst.opcode } }) ∧
      t.builder.openCode = l.state.builder.openCode ++ code ∧ t.Receptive ∧
      ∀ d μ, ∃ ν, d.Runs t.builder.module code μ ν ∧ Q d μ t code ν := by
  let anyDevice : Device := ⟨fun _ _ => 0, fun _ _ => 0, fun _ _ => 0⟩
  obtain ⟨_, t, code, _, lowered, follows, _⟩ :=
    does anyDevice ⟨fun _ => none, fun _ => .zero⟩ ready
  refine ⟨t, code, step_eq_ok.2 ⟨Lower.result_arithmetic family inFunction lowered, rfl⟩,
    follows.appends, follows.ready, fun d μ => ?_⟩
  obtain ⟨_, t', code', ν, lowered', follows', runs, q⟩ := does d μ ready
  obtain rfl : t = t' := congrArg Prod.snd (lowered.symm.trans lowered')
  obtain rfl : code = code' :=
    List.append_cancel_left (follows.appends.symm.trans follows'.appends)
  exact ⟨ν, runs, q⟩

/-- Lowering an integer instruction of a program into an open block succeeds. Wherever the module
ends up, the code that is added runs through, and leaves the registers as the instruction set says:
each destination in its turn has the words that are computed from the old registers, in the
components of its mask, and nothing else is changed. -/
theorem step_integer (decoded : p.instructions = .ok insts) (all : insts = done ++ inst :: rest)
    (started : start (p.environment insts entries options) = .ok first)
    (ran : first.steps done = .ok l) (place : l.state.HasPlace)
    (inFunction : l.state.inFunction = true) (known : inst.op? = some op)
    (integer : op ∈ Opcode.integers) (targets : ∀ out ∈ inst.dst, out.IsTarget)
    (sources : ∀ source ∈ inst.src, source.IsSource) :
    ∃ n code, l.step inst = (.ok (), n) ∧
      n.state.builder.openCode = l.state.builder.openCode ++ code ∧
      n.state.builder.module.Distinct ∧
      ∀ m : Module, n.state.builder.module.Grows m → m.Distinct →
        ∀ (d : Device) (μ : Processor) (R : Registers), n.state.Shows μ.memory R →
          ∃ ν, d.run m code μ = some ν ∧ n.state.Shows ν.memory (inst.effect d op.words R) ∧
            ∀ id ∉ n.state.temps.toList, ν.memory id = μ.memory id := by
  have fits := p.fits decoded (all ▸ List.mem_append_right _ List.mem_cons_self) known
  have family : inst.family ∈ Lower.arithmeticFamilies := by
    have families : ∀ op ∈ Opcode.integers, op.family ∈ Lower.arithmeticFamilies := by decide
    exact fits.family ▸ families op integer
  obtain ⟨t, code, stepped, appends, after, does⟩ :=
    step_executes (ready decoded all started ran place) inFunction family
      fun _ _ => Lower.lowerArithmetic_phased fits integer targets sources
  refine ⟨_, code, stepped, appends, after.sound.distinct, ?_⟩
  intro m grows distinct d μ R shown
  obtain ⟨ν, runs, reads, writes, _, _, _, acts⟩ := does d μ
  exact ⟨ν, runs m grows distinct, acts.shows_ after targets shown,
    fun id other => (acts R shown).elsewhere other⟩

/-- The first instruction of a program, with those behind it and what they are lowered from. -/
def firstStep? (p : Program) : Option (Instruction × List Instruction × Lowering) :=
  match p.instructions with
  | .ok (inst :: rest) =>
    (start (p.environment (inst :: rest) ⟨[], [], []⟩ .default)).toOption.map fun l =>
      (inst, rest, l)
  | _ => none

/-- What is evaluated of the first instruction holds of it. -/
theorem exists_firstStep (p : Program) {P : Instruction → Lowering → Prop}
    [∀ inst l, Decidable (P inst l)]
    (evaluates : (firstStep? p).any (fun x => decide (P x.1 x.2.2)) = true) :
    ∃ inst rest l, p.instructions = .ok (inst :: rest) ∧
      start (p.environment (inst :: rest) ⟨[], [], []⟩ .default) = .ok l ∧ P inst l := by
  obtain ⟨⟨inst, rest, l⟩, found, holds⟩ := (Option.any_eq_true _ _).1 evaluates
  unfold firstStep? at found
  split at found
  · next first later decoded =>
    obtain ⟨m, started, same⟩ := Option.map_eq_some_iff.1 found
    cases same
    cases is : start (p.environment (inst :: rest) ⟨[], [], []⟩ .default) with
    | error e =>
      rw [is] at started
      cases started
    | ok k =>
      rw [is] at started
      cases started
      exact ⟨inst, rest, l, decoded, is, of_decide_eq_true holds⟩
  · cases found

/-- `udiv r0.xy, r1.xz, r0.xyzw, -r1.y`, whose destinations are its sources. -/
def aliasedQuotient : Program :=
  .assume [0x50, 13, 0x0a00004e, 0x00100032, 0, 0x00100052, 1, 0x00100e46, 0, 0x8010001a, 0x41, 1,
    0x0100003e]

theorem step_integer_aliasedQuotient :
    ∃ insts inst rest first n code, aliasedQuotient.instructions = .ok insts ∧
      insts = [] ++ inst :: rest ∧
      start (aliasedQuotient.environment insts ⟨[], [], []⟩ .default) = .ok first ∧
      inst.op? = some .udiv ∧ first.step inst = (.ok (), n) ∧
      n.state.builder.openCode = first.state.builder.openCode ++ code ∧
      n.state.builder.module.Distinct ∧
      ∀ m : Module, n.state.builder.module.Grows m → m.Distinct →
        ∀ (d : Device) (μ : Processor) (R : Registers), n.state.Shows μ.memory R →
          ∃ ν, d.run m code μ = some ν ∧ n.state.Shows ν.memory
            (inst.effect d Opcode.udiv.words R) ∧
            ∀ id ∉ n.state.temps.toList, ν.memory id = μ.memory id := by
  obtain ⟨inst, rest, l, decoded, started, function, block, inFunction, known, targets, sources⟩ :=
    exists_firstStep aliasedQuotient (P := fun inst l => l.state.builder.function?.isSome = true ∧
      l.state.builder.block?.isSome = true ∧ l.state.inFunction = true ∧
      inst.op? = some .udiv ∧ (∀ out ∈ inst.dst, out.IsTarget) ∧
      ∀ source ∈ inst.src, source.IsSource) (by decide +kernel)
  have all : inst :: rest = [] ++ inst :: rest := rfl
  obtain ⟨n, code, lowered⟩ := step_integer decoded all started rfl ⟨function, block⟩
    inFunction known (by decide) targets sources
  exact ⟨_, inst, rest, l, n, code, decoded, rfl, started, known, lowered⟩

end Lowering

end ShaderLowering
