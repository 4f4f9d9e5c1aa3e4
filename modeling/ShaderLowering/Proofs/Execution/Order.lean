import ShaderLowering.Proofs.Execution.Instructions

/-!
Instructions with two destinations at run time. All but one load their sources once and write
afterwards, so what they write are functions of the registers before them, whatever their operands
have in common. Sine and cosine are each loaded and written in turn: the cosine is that of what the
source holds once the sine is written.
-/

namespace ShaderLowering

open Spirv (Id Instr Arg Op ExtOp Module Processor Device Datum)

namespace Opcode

/-- The instructions with two destinations. -/
def twofold : List Opcode :=
  [.sinCos, .imul, .umul, .udiv, .uaddc, .usubb, .swapc]

/-- The two words that such an instruction computes. -/
def pair (d : Device) (isSaturated : Bool) (op : Opcode) (ws : List UInt32) : List UInt32 :=
  match op, ws with
  | sinCos, [a] =>
    [d.extended .sin [a], d.extended .cos [a]].map (Lower.saturated d .f32 isSaturated)
  | swapc, [c, a, b] => if c ≠ 0 then [b, a] else [a, b]
  | op, ws => op.words ws

theorem pair_integer {op : Opcode} (integer : op ∈ integers) (d : Device) (isSaturated : Bool) :
    op.pair d isSaturated = op.words := by
  funext ws
  cases op <;> first | rfl | exact absurd integer (by decide)

/-- Sine and cosine and the exchange apart, these are integer instructions. -/
theorem integer_of_twofold {op : Opcode} (is : op ∈ twofold) (wave : op ≠ .sinCos)
    (exchange : op ≠ .swapc) : op ∈ integers := by
  simp only [twofold, List.mem_cons, List.not_mem_nil, or_false] at is
  rcases is with rfl | rfl | rfl | rfl | rfl | rfl | rfl
  · exact absurd rfl wave
  · decide
  · decide
  · decide
  · decide
  · decide
  · exact absurd rfl exchange

end Opcode

namespace Instruction

variable (d : Device) (inst : Instruction) (words : List UInt32 → List UInt32)

/-- The registers behind an instruction that computes for each destination from the registers as
they are when it comes to that destination. -/
def effectInTurn (R : Registers) : Registers :=
  inst.dst.zipIdx.foldl (fun after out => out.1.assign (inst.result d words after out.2) after) R

/-- Nothing is written to one of the destinations. -/
def TakesOne : Prop :=
  ∃ out ∈ inst.dst, (out.isNull || out.mask.isEmpty) = true

/-- What is written to the first destination is not read for the second. -/
def Apart : Prop :=
  ∀ first second source, inst.dst = [first, second] → source ∈ inst.src →
    first.type = .temp → second.type = .temp → source.type = .temp →
    source.register = first.register →
    ∀ c ∈ second.mask.components, first.mask.contains (source.lane c) = false

/-- The code of an instruction loads the temporaries among its sources, each once and in their
order, before it stores anything; what it loads later are the destinations that it changes. -/
def ReadsFirst (t : State) (code : List Instr) : Prop :=
  InPhases inst.src t (LoadsFrom fun id => ∃ out ∈ inst.dst, t.temps[out.register]? = some id) code

/-- What is read for a destination is not changed by a write to other registers or components. -/
theorem word_assign {source out : Operand} {c : Nat} {g : Nat → UInt32} {R : Registers}
    (low : c < 4) (readable : source.IsSource)
    (apart : out.type = .temp → source.type = .temp → source.register = out.register →
      out.mask.contains (source.lane c) = false) :
    source.word d (out.assign g R) c = source.word d R c := by
  unfold Operand.word Operand.assign
  by_cases written : out.type = .temp
  · rw [if_pos written]
    dsimp only
    rcases readable with register | immediate
    · have other : source.type ≠ .imm32 := by rw [register.1]; nofun
      rw [if_neg other, if_neg other]
      by_cases same : source.register = out.register
      · rw [same, Function.update_self,
          WriteMask.get_merge (source.lane_lt low) (apart written register.1 same)]
      · rw [Function.update_of_ne same]
    · rw [if_pos immediate, if_pos immediate]
  · rw [if_neg written]

/-- Operands that are apart are as good as all read at once. -/
theorem effectInTurn_eq {first second : Operand} (dst : inst.dst = [first, second])
    (sources : ∀ op ∈ inst.src, op.IsSource) (apart : inst.Apart) (R : Registers) :
    inst.effectInTurn d words R = inst.effect d words R := by
  unfold effectInTurn effect
  rw [dst]
  change second.assign (inst.result d words (first.assign (inst.result d words R 0) R) 1) _ =
    second.assign (inst.result d words R 1) _
  refine Operand.assign_congr (fun written c mem => ?_) _
  have reads : inst.src.map (·.word d (first.assign (inst.result d words R 0) R) c) =
      inst.src.map (·.word d R c) := List.map_congr_left fun source hs =>
    word_assign d (WriteMask.lt_of_mem_components mem) (sources source hs)
      fun typed temp named => apart first second source dst hs typed written temp named c mem
  rw [result, reads, result]

end Instruction

namespace Lower

variable {d : Device} {env : Environment} {s : State} {μ : Processor} {inst : Instruction}

theorem source_eq {n : Nat} (input : Operand) (h : inst.src[n]? = some input) :
    source inst n = pure input := by
  unfold source
  rw [h]
  rfl

/-- An exchange. -/
theorem lowerSwap_phased (fits : inst.Fits .swapc) (targets : ∀ out ∈ inst.dst, out.IsTarget)
    (sources : ∀ op ∈ inst.src, op.IsSource) :
    Phased d env (lowerSwap inst) s μ inst.src
      (inst.Acts d (Opcode.swapc.pair d inst.saturate) μ.memory) := by
  obtain ⟨out, out', dst, target, target', first, second⟩ := twoTargets fits rfl targets
  unfold lowerSwap
  rw [first, second]
  refine .pure_bind (.pure_bind (.ite (fun empty => ?_) fun taken => ?_))
  · refine .idle fun _ R _ => ?_
    rw [dst]
    exact wrote_nothing empty _ _
  have some_ := WriteMask.components_ne_nil taken
  refine .fetchBind (readSources_fetches sources some_) fun vs s₁ μ₁ l₁ supplied => ?_
  obtain ⟨test, yes, no, src, htest, hyes, hno⟩ : ∃ test yes no, inst.src = [test, yes, no] ∧
      test.data = .uint32 ∧ yes.data = .float32 ∧ no.data = .float32 := by
    have types : inst.src.map (·.data) = [.uint32, .float32, .float32] := fits.src
    obtain ⟨test, yes, no, src⟩ := List.length_eq_three.1
      (by simpa using congrArg List.length types)
    rw [src] at types
    simp only [List.map_cons, List.map_nil, List.cons.injEq, and_true] at types
    exact ⟨test, yes, no, src, types⟩
  rw [src] at supplied
  obtain _ | ⟨⟨gc, hc, isc⟩, _ | ⟨⟨ga, ha, isa⟩, _ | ⟨⟨gb, hb, isb⟩, _ | _⟩⟩⟩ := supplied
  rw [htest] at hc
  rw [hyes] at ha
  rw [hno] at hb
  dsimp only
  refine .readBind (zeroTest_reads (by decide) some_ hc) fun c s₂ μ₂ l₂ hc => ?_
  have ha := ha.later l₂
  rw [ha.type]
  refine .readBind (bitcast_reads (by decide) (hb.later l₂) .f32) fun b s₃ μ₃ l₃ hb => ?_
  have ha := ha.later l₃
  have hc := hc.later l₃
  refine .readBind (select_reads .f32 hc hb.knows ha.knows) fun swapped s₄ μ₄ l₄ swapped_ => ?_
  refine .readBind (select_reads .f32 (hc.later l₄) (ha.later l₄).knows (hb.later l₄).knows)
    fun kept s₅ μ₅ l₅ kept_ => ?_
  let g (n i : Nat) : UInt32 := (Opcode.swapc.pair d inst.saturate [gc i, ga i, gb i]).getD n 0
  have swapped_ : s₅.Carries μ₅ swapped .f32 (out.mask ||| out'.mask).components (g 0) := by
    refine (swapped_.later l₅).congr fun i _ => ?_
    by_cases zero : gc i = 0 <;> simp [g, Opcode.pair, zero]
  have kept_ : s₅.Carries μ₅ kept .f32 (out.mask ||| out'.mask).components (g 1) := by
    refine kept_.congr fun i _ => ?_
    by_cases zero : gc i = 0 <;> simp [g, Opcode.pair, zero]
  refine .of_writes ((writeParts_does (by decide) target target' swapped_ kept_).mono
    fun _ t code ν follows _ wrote => ?_)
  rw [l₅.memory, l₄.memory, l₃.memory, l₂.memory, l₁.memory] at wrote
  have temps := (l₂.temps.trans l₃.temps).trans (l₄.temps.trans l₅.temps)
  refine acts_of_wrote dst (fun R shown => ?_) (temps.trans follows.temps) wrote
  have same : [gc, ga, gb] = inst.src.map (·.word d R) := by
    rw [src, funext (isc R shown), funext (isa R shown), funext (isb R shown)]
    rfl
  exact result_eq same

/-- One of sine and cosine, loaded and written at once. -/
theorem wave_does {f : ExtOp} {input out : Operand} (is : f = .sin ∨ f = .cos)
    (float : input.data = .float32) (readable : input.IsSource) (target : out.IsTarget) :
    Executes d env (if (out.isNull || out.mask.isEmpty) = true then
        pure (ForInStep.yield ()) else do
        let value ← readOperand input out.mask
        let result ← extended f value.type [value.id]
        markPrecise inst result
        writeOperand out result inst.saturate
        pure (ForInStep.yield ())) s μ fun round t code ν => round = .yield () ∧
      ((out.isNull || out.mask.isEmpty) = true → code = []) ∧
      InPhases [input] t (fun writes => ∀ R, t.Shows μ.memory R → out.Written (fun c =>
        saturated d .f32 inst.saturate (d.extended f [input.word d R c])) μ.memory ν.memory
          writes t) code := by
  by_cases skipped : (out.isNull || out.mask.isEmpty) = true
  · rw [if_pos skipped]
    exact .pure fun _ =>
      ⟨rfl, fun _ => rfl, [], [], rfl, List.forall_mem_nil _, .inl rfl, fun R _ =>
      .skipped skipped⟩
  rw [if_neg skipped]
  have some_ : out.mask.components ≠ [] := WriteMask.components_ne_nil fun empty =>
    skipped (by rw [empty, Bool.or_true])
  have known : f ∈ ExtOp.known := by rcases is with rfl | rfl <;> decide
  have each (g : Nat → UInt32) (c : Nat) : f.number? d [g c] = some (d.extended f [g c]) := by
    rcases is with rfl | rfl <;> rfl
  let W (t : State) (writes : List Instr) (ν : Processor) : Prop :=
    ∀ R, t.Shows μ.memory R → out.Written (fun c =>
      saturated d .f32 inst.saturate (d.extended f [input.word d R c])) μ.memory ν.memory writes t
  have turn : Phased d env (do
      let value ← readOperand input out.mask
      let result ← extended f value.type [value.id]
      markPrecise inst result
      writeOperand out result inst.saturate) s μ [input] W := by
    refine .fetchBind (readOperand_fetches readable some_) fun value s₁ μ₁ l₁ supplied => ?_
    obtain ⟨g, carries, shows_⟩ := supplied
    rw [float] at carries
    rw [carries.type]
    refine .readBind (extended_reads known (.cons carries.knows .nil) nofun fun c _ => each g c)
      fun result s₂ μ₂ l₂ carries => ?_
    refine .readBind (markPrecise_reads inst result) fun _ s₃ μ₃ l₃ _ => ?_
    refine .of_writes ((writeOperand_does target (by decide) inst.saturate fun _ =>
      carries.later l₃).mono fun _ t code ν follows _ written R shown => ?_)
    have temps := (l₂.temps.trans l₃.temps).trans follows.temps
    rw [l₃.memory, l₂.memory, l₁.memory, funext (shows_ R (shown.earlier temps))] at written
    exact written
  have step : Executes d env ((do
      let value ← readOperand input out.mask
      let result ← extended f value.type [value.id]
      markPrecise inst result
      writeOperand out result inst.saturate) >>= fun _ => pure (ForInStep.yield ())) s μ
        fun round t code ν => round = .yield () ∧
          ((out.isNull || out.mask.isEmpty) = true → code = []) ∧
            InPhases [input] t (W t · ν) code :=
    Executes.bind turn fun _ t code ν _ _ h => .pure fun _ => ⟨rfl, fun empty =>
      absurd empty skipped, (List.append_nil code).symm ▸ h⟩
  simpa only [bind_assoc] using step

/-- Sine and cosine. -/
theorem lowerSinCos_does (fits : inst.Fits .sinCos) (targets : ∀ out ∈ inst.dst, out.IsTarget)
    (sources : ∀ op ∈ inst.src, op.IsSource) :
    Executes d env (lowerSinCos inst) s μ fun _ t code ν =>
      (inst.TakesOne → inst.ReadsFirst t code) ∧ ∀ R, t.Shows μ.memory R →
        t.Shows ν.memory (inst.effectInTurn d (Opcode.sinCos.pair d inst.saturate) R) ∧
          ∀ id ∉ t.temps.toList, ν.memory id = μ.memory id := by
  obtain ⟨first, second, dst, target, target', sine, cosine⟩ := twoTargets fits rfl targets
  obtain ⟨input, src, float⟩ : ∃ input, inst.src = [input] ∧ input.data = .float32 := by
    have types : inst.src.map (·.data) = [.float32] := fits.src
    obtain ⟨input, src⟩ := List.length_eq_one_iff.1 (by simpa using congrArg List.length types)
    rw [src] at types
    exact ⟨input, src, List.head_eq_of_cons_eq types⟩
  have readable : input.IsSource := sources input (by rw [src]; exact List.mem_singleton_self _)
  unfold lowerSinCos
  simp only [source_eq input (by rw [src]; rfl : inst.src[0]? = some input), sine, cosine,
    List.forIn_cons, List.forIn_nil, pure_bind, bind_assoc]
  refine Executes.bind (wave_does (f := .sin) (.inl rfl) float readable target)
    fun round s₁ code₁ μ₁ f₁ r₁ h₁ => ?_
  obtain ⟨rfl, none₁, phases₁⟩ := h₁
  dsimp only
  rw [bind_assoc]
  refine Executes.bind (wave_does (f := .cos) (.inr rfl) float readable target')
    fun round t code₂ ν f₂ r₂ h₂ => ?_
  obtain ⟨rfl, none₂, phases₂⟩ := h₂
  refine .pure fun ready => ⟨fun one => ?_, fun R shown => ?_⟩
  -- Where one destination takes nothing, all of the code is that of the other one.
  · rw [List.append_nil]
    obtain ⟨out, mem, empty⟩ := one
    rw [dst] at mem
    unfold Instruction.ReadsFirst
    rw [src, dst]
    rcases List.mem_pair.1 mem with rfl | rfl
    · rw [none₁ empty]
      obtain ⟨R, shown⟩ := t.exists_shows μ₁.memory
      exact phases₂.mono fun _ written => (written R shown).loads.mono fun _ at_ =>
        ⟨second, by simp, at_⟩
    · rw [none₂ empty, List.append_nil]
      obtain ⟨R, shown⟩ := s₁.exists_shows μ.memory
      exact (phases₁.later f₂.temps).mono fun _ written =>
        ((written R shown).later f₂.temps).loads.mono
        fun _ at_ => ⟨first, by simp, at_⟩
  · obtain ⟨_, _, _, _, _, written₁⟩ := phases₁
    obtain ⟨_, _, _, _, _, written₂⟩ := phases₂
    have written₁ := (written₁ R (shown.earlier f₂.temps)).later f₂.temps
    have between := written₁.shows_ ready.nodup target shown
    have written₂ := written₂ _ between
    refine ⟨?_, fun id other => ?_⟩
    · have behind := written₂.shows_ ready.nodup target' between
      unfold Instruction.effectInTurn Instruction.result
      rw [dst, src]
      exact behind
    · rw [written₂.elsewhere other, written₁.elsewhere other]

/-- Instructions with two destinations. -/
theorem lowerArithmetic_twofold {op : Opcode} (fits : inst.Fits op) (is : op ∈ Opcode.twofold)
    (targets : ∀ out ∈ inst.dst, out.IsTarget) (sources : ∀ op ∈ inst.src, op.IsSource)
    (wave : op ≠ .sinCos) :
    Phased d env (lowerArithmetic inst) s μ inst.src
      (inst.Acts d (op.pair d inst.saturate) μ.memory) := by
  by_cases exchange : op = .swapc
  · subst exchange
    unfold lowerArithmetic
    rw [fits.op?]
    exact lowerSwap_phased fits targets sources
  · have integer := Opcode.integer_of_twofold is wave exchange
    rw [Opcode.pair_integer integer]
    exact lowerArithmetic_phased fits integer targets sources

end Lower

namespace Lowering

variable {p : Program} {entries : SignatureEntries} {options : Options}
  {insts done rest : List Instruction} {inst : Instruction} {op : Opcode} {first l : Lowering}

/-- Lowering an instruction with two destinations into an open block succeeds. Sine and cosine for
two destinations apart, the code that is added loads the sources before it stores anything. Wherever
the module ends up, the code runs through, and leaves in both destinations what the instruction
computes from the registers before it, in the components of their masks; for sine and cosine that
holds where the cosine does not read what the sine is written to. -/
theorem step_twofold (decoded : p.instructions = .ok insts) (all : insts = done ++ inst :: rest)
    (started : start (p.environment insts entries options) = .ok first)
    (ran : first.steps done = .ok l) (place : l.state.HasPlace)
    (inFunction : l.state.inFunction = true) (known : inst.op? = some op)
    (twofold : op ∈ Opcode.twofold) (targets : ∀ out ∈ inst.dst, out.IsTarget)
    (sources : ∀ source ∈ inst.src, source.IsSource) :
    ∃ n code, l.step inst = (.ok (), n) ∧
      n.state.builder.openCode = l.state.builder.openCode ++ code ∧
      n.state.builder.module.Distinct ∧
      ((op = .sinCos → inst.TakesOne) → inst.ReadsFirst n.state code) ∧
      ∀ m : Module, n.state.builder.module.Grows m → m.Distinct →
        ∀ (d : Device) (μ : Processor) (R : Registers), n.state.Shows μ.memory R →
          ∃ ν, d.run m code μ = some ν ∧
            ((op = .sinCos → inst.Apart) →
              n.state.Shows ν.memory (inst.effect d (op.pair d inst.saturate) R)) ∧
            (op = .sinCos →
              n.state.Shows ν.memory (inst.effectInTurn d (op.pair d inst.saturate) R)) ∧
            ∀ id ∉ n.state.temps.toList, ν.memory id = μ.memory id := by
  have fits := p.fits decoded (all ▸ List.mem_append_right _ List.mem_cons_self) known
  have family : inst.family ∈ Lower.arithmeticFamilies := by
    have families : ∀ op ∈ Opcode.twofold, op.family ∈ Lower.arithmeticFamilies := by decide
    exact fits.family ▸ families op twofold
  have does (d : Device) (μ : Processor) : Executes d l.environment (Lower.lowerArithmetic inst)
      l.state μ fun _ t code ν => ((op = .sinCos → inst.TakesOne) → inst.ReadsFirst t code) ∧
        ∀ R, t.Shows μ.memory R →
          ((op = .sinCos → inst.Apart) →
            t.Shows ν.memory (inst.effect d (op.pair d inst.saturate) R)) ∧
          (op = .sinCos → t.Shows ν.memory (inst.effectInTurn d (op.pair d inst.saturate) R)) ∧
          ∀ id ∉ t.temps.toList, ν.memory id = μ.memory id := by
    by_cases wave : op = .sinCos
    · subst wave
      unfold Lower.lowerArithmetic
      rw [fits.op?]
      obtain ⟨_, _, dst, _⟩ := Lower.twoTargets fits rfl targets
      refine (Lower.lowerSinCos_does fits targets sources).mono fun _ t code ν _ _ h => ?_
      refine ⟨fun one => h.1 (one rfl), fun R shown => ⟨fun apart => ?_, fun _ => (h.2 R shown).1,
        (h.2 R shown).2⟩⟩
      rw [← Instruction.effectInTurn_eq d inst _ dst sources (apart rfl)]
      exact (h.2 R shown).1
    · refine Executes.mono (Lower.lowerArithmetic_twofold fits twofold targets sources wave)
        fun _ t code ν follows _ h => ⟨fun _ => h.mono fun writes acts => ?_, fun R shown => ?_⟩
      · obtain ⟨R, shown⟩ := t.exists_shows μ.memory
        refine (acts R shown).loads.mono fun id ⟨out, mem, at_⟩ => ?_
        obtain ⟨numbered, inside, rfl⟩ := List.mem_map.1 mem
        exact ⟨_, List.fst_mem_of_mem_zipIdx inside, at_⟩
      · obtain ⟨_, _, _, _, _, acts⟩ := h
        exact ⟨fun _ => acts.shows_ follows.ready targets shown, fun is => absurd is wave,
          fun id other => (acts R shown).elsewhere other⟩
  obtain ⟨t, code, stepped, appends, after, does⟩ :=
    step_executes (ready decoded all started ran place) inFunction family does
  let anyDevice : Device := ⟨fun _ _ => 0, fun _ _ => 0, fun _ _ => 0⟩
  obtain ⟨_, _, readsFirst, _⟩ := does anyDevice ⟨fun _ => none, fun _ => .zero⟩
  refine ⟨_, code, stepped, appends, after.sound.distinct, readsFirst, ?_⟩
  intro m grows distinct d μ R shown
  obtain ⟨ν, runs, _, acts⟩ := does d μ
  exact ⟨ν, runs m grows distinct, acts R shown⟩

/-- `swapc r0.xy, r1.xy, r1.x, r0.xyzw, r1.xyzw`, whose destinations are its sources. -/
def aliasedExchange : Program :=
  .assume [0x50, 14, 0x0b00008e, 0x00100032, 0, 0x00100032, 1, 0x0010000a, 1, 0x00100e46, 0,
    0x00100e46, 1, 0x0100003e]

theorem step_twofold_aliasedExchange :
    ∃ insts inst rest first n code, aliasedExchange.instructions = .ok insts ∧
      insts = [] ++ inst :: rest ∧
      start (aliasedExchange.environment insts ⟨[], [], []⟩ .default) = .ok first ∧
      inst.op? = some .swapc ∧ first.step inst = (.ok (), n) ∧
      n.state.builder.openCode = first.state.builder.openCode ++ code ∧
      n.state.builder.module.Distinct ∧ inst.ReadsFirst n.state code ∧
      ∀ m : Module, n.state.builder.module.Grows m → m.Distinct →
        ∀ (d : Device) (μ : Processor) (R : Registers), n.state.Shows μ.memory R →
          ∃ ν, d.run m code μ = some ν ∧
            n.state.Shows ν.memory (inst.effect d (Opcode.swapc.pair d inst.saturate) R) := by
  obtain ⟨inst, rest, l, decoded, started, function, block, inFunction, known, targets, sources⟩ :=
    exists_firstStep aliasedExchange (P := fun inst l => l.state.builder.function?.isSome = true ∧
      l.state.builder.block?.isSome = true ∧ l.state.inFunction = true ∧
      inst.op? = some .swapc ∧ (∀ out ∈ inst.dst, out.IsTarget) ∧
      ∀ source ∈ inst.src, source.IsSource) (by decide +kernel)
  have all : inst :: rest = [] ++ inst :: rest := rfl
  have other : Opcode.swapc ≠ .sinCos := by decide
  obtain ⟨n, code, stepped, appends, distinct, readsFirst, runs⟩ := step_twofold decoded all
    started rfl ⟨function, block⟩ inFunction known (by decide) targets sources
  refine ⟨_, inst, rest, l, n, code, decoded, rfl, started, known, stepped, appends, distinct,
    readsFirst fun wave => absurd wave other, fun m grows distinct d μ R shown => ?_⟩
  obtain ⟨ν, ran, shows_, _⟩ := runs m grows distinct d μ R shown
  exact ⟨ν, ran, shows_ fun wave => absurd wave other⟩

/-- `sincos r0.x, r1.x, r0.x`, whose sine is written to what the cosine is computed of. -/
def aliasedWaves : Program :=
  .assume [0x50, 10, 0x0700004d, 0x00100012, 0, 0x00100012, 1, 0x0010000a, 0, 0x0100003e]

/-- A device whose sines are one and whose cosines are their arguments. -/
def plainWaves : Device where
  undefined _ _ := 0
  float _ _ := 0
  extended f ws := if f = .sin then 1 else ws.headD 0

theorem exists_not_effect :
    ∃ insts inst rest first n code ν, aliasedWaves.instructions = .ok insts ∧
      insts = inst :: rest ∧
      start (aliasedWaves.environment insts ⟨[], [], []⟩ .default) = .ok first ∧
      inst.op? = some .sinCos ∧ (∀ out ∈ inst.dst, out.IsTarget) ∧
      (∀ source ∈ inst.src, source.IsSource) ∧ first.step inst = (.ok (), n) ∧
      n.state.builder.openCode = first.state.builder.openCode ++ code ∧
      (∃ earlier store later, code = earlier ++ store :: later ∧ store.op = .ordinary .store ∧
        ∃ source ∈ inst.src, ∃ id ∈ loads later, n.state.temps[source.register]? = some id) ∧
      n.state.Shows (fun _ => .zero) (fun _ => .zero) ∧
      plainWaves.run n.state.builder.module code ⟨fun _ => none, fun _ => .zero⟩ = some ν ∧
      ¬n.state.Shows ν.memory
        (inst.effect plainWaves (Opcode.sinCos.pair plainWaves inst.saturate) fun _ => .zero) := by
  let added (inst : Instruction) (l : Lowering) : List Instr :=
    (l.step inst).2.state.builder.openCode.drop l.state.builder.openCode.length
  obtain ⟨inst, rest, l, decoded, started, stepped, known, targets, sources, appends, store, first,
      stores, loaded, ν, ran, id, at_, differs⟩ :=
    exists_firstStep aliasedWaves (P := fun inst l => (l.step inst).1.isOk = true ∧
      inst.op? = some .sinCos ∧ (∀ out ∈ inst.dst, out.IsTarget) ∧
      (∀ source ∈ inst.src, source.IsSource) ∧
      (l.step inst).2.state.builder.openCode = l.state.builder.openCode ++ added inst l ∧
      ∃ store ∈ (added inst l)[5]?, store.op = .ordinary .store ∧
        (∃ source ∈ inst.src, ∃ id ∈ loads ((added inst l).drop 6),
          (l.step inst).2.state.temps[source.register]? = some id) ∧
        ∃ ν ∈ plainWaves.run (l.step inst).2.state.builder.module (added inst l)
            ⟨fun _ => none, fun _ => .zero⟩,
          ∃ id ∈ (l.step inst).2.state.temps[1]?, ν.memory id ≠
            inst.effect plainWaves (Opcode.sinCos.pair plainWaves inst.saturate)
              (fun _ => .zero) 1) (by decide +kernel)
  have parts : added inst l = (added inst l).take 5 ++ store :: (added inst l).drop 6 := by
    obtain ⟨inside, rfl⟩ := List.getElem?_eq_some_iff.1 first
    rw [← List.drop_eq_getElem_cons inside, List.take_append_drop]
  have ok : (l.step inst).1 = .ok () := by
    cases is : (l.step inst).1 with
    | error e =>
      rw [is] at stepped
      cases stepped
    | ok _ => rfl
  exact ⟨_, inst, rest, l, (l.step inst).2, added inst l, ν, decoded, rfl, started, known, targets,
    sources, Prod.ext ok rfl, appends, ⟨_, store, _, parts, stores, loaded⟩, fun _ _ _ => rfl, ran,
    fun shown => differs (shown 1 id at_)⟩

end Lowering

end ShaderLowering
