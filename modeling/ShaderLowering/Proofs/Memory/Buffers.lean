import ShaderLowering.Proofs.Memory.Dwords

/-!
Accesses of raw and structured memory. Whatever the instruction, the number of a structure and an
offset lead to the same dword: a load reads the dwords from there on that the swizzle of its
resource picks, a store writes those that its mask has, and an atomic works on the first of them. So
a load brings back what a store has left.
-/

namespace ShaderLowering

open Spirv (Id Instr Arg Op Module StorageClass Device Invocation World Address Memory Event)

namespace Spirv

/-- Code that was added takes an invocation to another state. -/
def World.Spans (w : World) (s t : State) (μ ν : Invocation) : Prop :=
  ∃ code, t.builder.openCode = s.builder.openCode ++ code ∧ w.Runs t.builder.module code μ ν

end Spirv

/-- A destination operand takes words into the components of its mask, unless it takes nothing. -/
def Operand.Receives (d : Device) (env : Environment) (t : State) (out : Operand)
    (μ ν : Invocation) (g : Nat → UInt32) : Prop :=
  if out.isNull || out.mask.isEmpty then μ.Unmoved ν
  else ∃ type q, t.place? env μ.memory out
      (fun dim => (Operand.indexWords d env t μ.memory out.indices)[dim]?.join) = some (type, q) ∧
    ((∀ c ∈ out.mask.components, c < type.count) → μ.Stored ν q type.count out.mask g)

namespace Instruction

variable (inst : Instruction)

def isStructured : Bool :=
  inst.op? = some .ldStructured || inst.op? = some .storeStructured

/-- The operand that names the memory of a buffer instruction. -/
def memory? : Option Operand :=
  match inst.family with
  | .bufferLoad => if inst.isStructured then inst.src[2]? else inst.src[1]?
  | .bufferStore => inst.dst[0]?
  | .atomic => if inst.dst.length = 2 then inst.dst[1]? else inst.dst[0]?
  | _ => none

/-- Raw loads and stores are for raw memory, structured ones for structured. Atomics are for
both. -/
def Suits (array : DwordArray) : Prop :=
  inst.family = .atomic ∨ (inst.isStructured = true ↔ array.stride ≠ 0)

instance (array : DwordArray) : Decidable (inst.Suits array) :=
  inferInstanceAs (Decidable (_ ∨ _))

/-- The number of a structure and the offset of a byte, by the words that operands supply. Raw
memory is one structure. Atomics have both numbers in one operand. -/
def position? (array : DwordArray) (word? : Operand → Nat → Option UInt32) :
    Option (UInt32 × UInt32) := do
  let first ← inst.src[0]?
  if array.stride = 0 then return (0, ← word? first 0)
  else if inst.family = .atomic then return (← word? first 0, ← word? first 1)
  else return (← word? first 0, ← word? (← inst.src[1]?) 0)

/-- The source operand with the value that a store writes. -/
def stored? : Option Operand :=
  if inst.isStructured then inst.src[2]? else inst.src[1]?

/-- What an atomic makes of a word, by the words that operands supply. -/
def exchanged? (word? : Operand → Nat → Option UInt32) (old : UInt32) : Option UInt32 := do
  let first ← word? (← inst.src[1]?) 0
  if inst.op? = some .atomicCmpStore ∨ inst.op? = some .immAtomicCmpExch then
    let value ← word? (← inst.src[2]?) 0
    return if old = first then value else old
  else (← inst.op?.bind Lower.atomicOp?).exchange? old [first]

end Instruction

namespace DwordArray

variable (array : DwordArray) (n : UInt32)

/-- For each component of a mask the dword that lies as far behind the first gets a word, and all
else stays as it is. -/
structure Fills (μ ν : Invocation) (mask : WriteMask) (g : Nat → UInt32) : Prop where
  written : ∀ c ∈ mask.components, ν.memory (array.place (n + .ofNat c)) = g c
  others : ∀ a, (∀ c ∈ mask.components, a ≠ array.place (n + .ofNat c)) → ν.memory a = μ.memory a
  events : ν.events = μ.events ++
    mask.components.map fun c => .store (array.place (n + .ofNat c)) [g c]

variable (d : Device) (env : Environment) (t : State) (inst : Instruction) (μ ν : Invocation)

/-- The destination gets the dwords that the swizzle of the resource picks. -/
def Loads : Prop :=
  ∃ out source, inst.dst[0]? = some out ∧ inst.memory? = some source ∧
    out.Receives d env t μ ν fun c => μ.memory (array.place (n + .ofNat (source.swizzle.lane c)))

/-- The dwords of the mask get the words that the value has for its components. -/
def Stores : Prop :=
  ∃ out value g, inst.dst[0]? = some out ∧ inst.stored? = some value ∧
    (∀ c ∈ out.mask.components, value.word? d env t μ.memory c = some (g c)) ∧
      array.Fills n μ ν out.mask g

/-- The first dword is exchanged at once, and the destination, if there is one, gets the word from
before. -/
def Exchanges : Prop :=
  ∃ new κ, inst.exchanged? (fun op c => op.word? d env t μ.memory c) (μ.memory (array.place n)) =
      some new ∧
    κ.memory = Function.update μ.memory (array.place n) new ∧
    κ.events = μ.events ++ [.exchange (array.place n) new] ∧
    if inst.dst.length = 2 then
      ∃ out, inst.dst[0]? = some out ∧
        out.Receives d env t κ ν fun _ => μ.memory (array.place n)
    else κ.Unmoved ν

/-- What a buffer instruction does. -/
def Serves : Prop :=
  match inst.family with
  | .bufferLoad => array.Loads n d env t inst μ ν
  | .bufferStore => array.Stores n d env t inst μ ν
  | .atomic => array.Exchanges n d env t inst μ ν
  | _ => True

end DwordArray

namespace Instruction

variable {inst : Instruction}

/-- Only loads and stores are structured. -/
theorem isStructured_of_load (classified : inst.HasFamily) (family : inst.family = .bufferLoad) :
    inst.isStructured = decide (inst.op? = some .ldStructured) := by
  have other : inst.op? ≠ some .storeStructured := by
    intro is
    cases family.symm.trans (classified.family_eq is)
  rw [isStructured, decide_eq_false other, Bool.or_false]

theorem isStructured_of_store (classified : inst.HasFamily) (family : inst.family = .bufferStore) :
    inst.isStructured = decide (inst.op? = some .storeStructured) := by
  have other : inst.op? ≠ some .ldStructured := by
    intro is
    cases family.symm.trans (classified.family_eq is)
  rw [isStructured, decide_eq_false other, Bool.false_or]

end Instruction

theorem State.Holds.since {env : Environment} {s t : State} {μ ν : Invocation} {v : Value}
    {ws : List UInt32} (h : s.Holds μ.processor v ws) (since : State.Since env s μ t ν) :
    t.Holds ν.processor v ws := by
  refine ⟨h.1, ?_⟩
  have known := h.2
  split at known
  · next truth =>
    obtain ⟨truths, known, is⟩ := known
    rw [if_pos truth]
    exact ⟨truths, since.knows known, is⟩
  · next number =>
    rw [if_neg number]
    exact since.knows known

theorem Operand.Receives.congr {d : Device} {env : Environment} {t : State} {out : Operand}
    {μ ν : Invocation} {g g' : Nat → UInt32} (h : out.Receives d env t μ ν g)
    (same : ∀ c ∈ out.mask.components, g c = g' c) : out.Receives d env t μ ν g' := by
  unfold Operand.Receives at h ⊢
  split at h
  · next none_ =>
    rw [if_pos none_]
    exact h
  · next taken =>
    rw [if_neg taken]
    obtain ⟨type, q, place, stored⟩ := h
    exact ⟨type, q, place, fun within_ =>
      ⟨(stored within_).memory.trans (Spirv.Memory.assign_congr same), (stored within_).events⟩⟩

/-- What happened before without a trace is of no matter. -/
theorem Operand.Receives.after {d : Device} {env : Environment} {t : State} {out : Operand}
    {μ ν κ : Invocation} {g : Nat → UInt32} (h : out.Receives d env t ν κ g)
    (unmoved : μ.Unmoved ν) : out.Receives d env t μ κ g := by
  unfold Operand.Receives at h ⊢
  split at h
  · next none_ =>
    rw [if_pos none_]
    exact unmoved.trans h
  · next taken =>
    rw [if_neg taken]
    rw [unmoved.memory] at h
    obtain ⟨type, q, place, stored⟩ := h
    exact ⟨type, q, place, fun within_ => (stored within_).after unmoved⟩

namespace Lower

theorem compose_steady {env : Environment} (scalar : ScalarType) (parts : List Id) :
    IsSteady env (compose scalar parts) := by
  unfold compose
  split
  · exact .pure _
  · exact operate_steady rfl _ _

variable {w : World} {env : Environment} {s : State} {μ : Invocation}

/-- What a destination receives, from a value of one component or one for each of its mask. -/
theorem writeOperand_performs {out : Operand} {v : Value} {ws : List UInt32} {g : Nat → UInt32}
    (wide : v.type.count = 1 ∨ out.mask.count ≤ v.type.count) (holds : s.Holds μ.processor v ws)
    (words : ∀ c ∈ out.mask.components, v.wordFor out.mask ws c = g c) :
    Performs w env (writeOperand out v false) s μ fun _ t ν =>
      ∀ u, t.Maintains u → out.Receives w.device env u μ ν g := by
  unfold writeOperand
  refine .ite (fun none_ => .pure fun _ u _ => ?_) fun taken => .pure_bind ?_
  · rw [Operand.Receives, if_pos none_]
    exact .refl μ
  have some_ : out.mask.components ≠ [] :=
    WriteMask.components_ne_nil fun none_ => taken (Bool.or_eq_true_iff.2 (.inr none_))
  refine Looks.andThen (pointerWith_names (indexSteps_indexed out))
    fun p t ν since unmoved named => ?_
  obtain ⟨q, leads, number, filled, few, place⟩ := named
  refine (storeMasked_reaches leads number filled few some_ wide (holds.since since)).mono
    fun _ t' κ since' stored u later => ?_
  rw [Operand.Receives, if_neg taken]
  refine ⟨p.type, q, place u (since'.maintains.trans later), fun within_ => ?_⟩
  have whole := (stored within_).after unmoved
  exact ⟨whole.memory.trans (Spirv.Memory.assign_congr words), whole.events⟩

/-- The sources of a load or store: where it starts, and what stands behind that. -/
inductive Sources (inst : Instruction) : Bool → Option Operand × Operand × Operand → Prop
  | raw {offset last : Operand} (first : inst.src[0]? = some offset)
      (second : inst.src[1]? = some last) : Sources inst false (none, offset, last)
  | structured {element offset last : Operand} (first : inst.src[0]? = some element)
      (second : inst.src[1]? = some offset) (third : inst.src[2]? = some last) :
      Sources inst true (some element, offset, last)

theorem Sources.last {inst : Instruction} {isStructured : Bool}
    {sources : Option Operand × Operand × Operand} (h : Sources inst isStructured sources) :
    (if isStructured then inst.src[2]? else inst.src[1]?) = some sources.2.2 := by
  cases h with
  | raw _ second => exact second
  | structured _ _ third => exact third

theorem bufferSources_bind {β : Type} {inst : Instruction} {isStructured : Bool}
    {f : Option Operand × Operand × Operand → Emission β} {R : β → State → Invocation → Prop}
    (h : ∀ sources, Sources inst isStructured sources → Performs w env (f sources) s μ R) :
    Performs w env (bufferSources inst isStructured >>= f) s μ R := by
  unfold bufferSources
  split
  · next structured =>
    subst structured
    simp only [bind_assoc, pure_bind]
    exact .orFault_bind fun element first => .orFault_bind fun offset second =>
      .orFault_bind fun last third => h _ (.structured first second third)
  · next raw =>
    obtain rfl := Bool.eq_false_of_not_eq_true raw
    simp only [bind_assoc, pure_bind]
    exact .orFault_bind fun offset first => .orFault_bind fun last second =>
      h _ (.raw first second)

/-- Loads and stores start at the dword of the position that they are given. -/
theorem firstDword_looks {inst : Instruction} {array : DwordArray} {isStructured : Bool}
    {element? : Option Operand} {offset last : Operand}
    (sources : Sources inst isStructured (element?, offset, last))
    (plain : inst.family ≠ .atomic) (suits : isStructured = true ↔ array.stride ≠ 0) :
    Looks w env (firstDword array.stride element? offset) s μ fun id t ν =>
      ∃ e b, t.Knows ν.processor id (.words [array.dword e b]) ∧ ∀ u, t.Maintains u →
        inst.position? array (fun op c => op.word? w.device env u μ.memory c) = some (e, b) := by
  cases sources with
  | raw first second =>
    have raw : array.stride = 0 := by
      by_contra structured
      exact Bool.false_ne_true (suits.2 structured)
    refine (firstDword_raw_looks offset).mono fun id t ν _ _ h => ?_
    obtain ⟨b, dword, words⟩ := h
    rw [← array.dword_raw (e := 0) raw] at dword
    refine ⟨0, b, dword, fun u later => ?_⟩
    simp only [Instruction.position?, first, Option.bind_eq_bind, Option.bind_some, if_pos raw,
      words u later]
    rfl
  | structured first second third =>
    have structured := suits.1 rfl
    refine (firstDword_structured_looks array.stride _ offset).mono fun id t ν _ _ h => ?_
    obtain ⟨e, b, dword, words⟩ := h
    rw [← array.dword_structured structured] at dword
    refine ⟨e, b, dword, fun u later => ?_⟩
    obtain ⟨elements, offsets⟩ := words u later
    simp only [Instruction.position?, first, second, Option.bind_eq_bind, Option.bind_some,
      if_neg structured, if_neg plain, elements, offsets]
    rfl

/-- The memory once each of some numbers has its word at its place, one after the other. -/
def fill (memory : Memory) (place : Nat → Address) (g : Nat → UInt32) (cs : List Nat) : Memory :=
  cs.foldl (fun memory c => Function.update memory (place c) (g c)) memory

theorem fill_other {memory : Memory} {place : Nat → Address} {g : Nat → UInt32} {cs : List Nat}
    {a : Address} (other : ∀ c ∈ cs, a ≠ place c) : fill memory place g cs a = memory a := by
  induction cs generalizing memory with
  | nil => rfl
  | cons c rest ih =>
    rw [fill, List.foldl_cons]
    exact (ih fun c' mem => other c' (List.mem_cons_of_mem _ mem)).trans
      (Function.update_of_ne (other c List.mem_cons_self) _ _)

theorem fill_at {memory : Memory} {place : Nat → Address} {g : Nat → UInt32} {cs : List Nat}
    (own : ∀ c ∈ cs, ∀ c' ∈ cs, place c = place c' → c = c') {c : Nat} (mem : c ∈ cs) :
    fill memory place g cs (place c) = g c := by
  induction cs generalizing memory with
  | nil => cases mem
  | cons c' rest ih =>
    rw [fill, List.foldl_cons]
    by_cases later : c ∈ rest
    · exact ih (fun a ha b hb => own a (List.mem_cons_of_mem _ ha) b (List.mem_cons_of_mem _ hb))
        later
    · obtain rfl : c = c' := (List.mem_cons.1 mem).resolve_right later
      refine (fill_other fun a ha same => ?_).trans (Function.update_self _ _ _)
      exact later (own c mem a (List.mem_cons_of_mem _ ha) same ▸ ha)

theorem storeDwords_performs {array : DwordArray} {first : Id} {n : UInt32} {v : Value}
    {mask : WriteMask} {g : Nat → UInt32}
    (start : s.Leads μ array.variable_ ⟨array.variable_, []⟩)
    (dword : s.Knows μ.processor first (.words [n]))
    (carries : s.Carries μ.processor v .u32 mask.components g) :
    Performs w env (forIn mask.components.zipIdx PUnit.unit fun x _ => do
      let index ← dwordAfter first x.1
      let pointer ← dwordPointer array index
      let part ← extract v x.2
      storeTo pointer part.id
      return ForInStep.yield PUnit.unit) s μ fun _ _ ν => array.Fills n μ ν mask g := by
  let place (c : Nat) : Address := array.place (n + .ofNat c)
  refine Performs.mono (Performs.forIn (I := fun before _ _ ν =>
    ν.memory = fill μ.memory place g (before.map Prod.fst) ∧
      ν.events = μ.events ++ (before.map Prod.fst).map fun c => .store (place c) [g c]) ?_ ?_) ?_
  · intro before x after _ all t ν since done
    have mem : x ∈ mask.components.zipIdx := all ▸ List.mem_append_right _ List.mem_cons_self
    obtain ⟨c, i⟩ := x
    have here : mask.components[i]? = some c := List.mem_zipIdx_iff_getElem?.1 mem
    obtain ⟨inside, same⟩ := List.getElem?_eq_some_iff.1 here
    have few : i < UInt32.size :=
      Nat.lt_trans (Nat.lt_of_lt_of_le inside mask.count_le) (by decide)
    refine Looks.andThen (dwordAfter_looks (since.knows dword))
      fun index t₁ ν₁ since₁ unmoved₁ number => ?_
    refine Looks.andThen (dwordPointer_looks (since₁.leads (since.leads start)) number)
      fun pointer t₂ ν₂ since₂ unmoved₂ leads => ?_
    have carries : t₂.Carries ν₂.processor v .u32 mask.components g :=
      ⟨carries.type, since₂.knows (since₁.knows (since.knows carries.knows))⟩
    refine Looks.andThen (.of_reads (extract_steady v i) (extract_reads carries inside few))
      fun part t₃ ν₃ since₃ unmoved₃ part_ => ?_
    have known := part_.knows
    rw [same] at known
    refine .bind (storeTo_performs (since₃.leads leads) known) fun _ t₄ ν₄ _ is => .pure fun _ => ?_
    have still := (unmoved₁.trans unmoved₂).trans unmoved₃
    refine ⟨⟨⟩, rfl, ?_, ?_⟩
    · rw [is, List.map_append, fill, List.foldl_append]
      change Function.update ν₃.memory (place c) (g c) =
        Function.update (fill _ _ _ _) (place c) (g c)
      rw [still.memory, done.1]
    · rw [is, List.map_append, List.map_append, ← List.append_assoc, ← done.2, ← still.events]
      rfl
  · exact ⟨rfl, (List.append_nil _).symm⟩
  · intro _ t ν _ done
    rw [List.zipIdx_map_fst] at done
    refine ⟨fun c mem => ?_, fun a other => ?_, done.2⟩
    · rw [done.1]
      exact fill_at (fun a ha b hb same => DwordArray.place_component_inj
        (WriteMask.lt_of_mem_components ha) (WriteMask.lt_of_mem_components hb) same) mem
    · rw [done.1]
      exact fill_other other

/-- The destination of the word from before, and what is worked on. -/
def atomicDestinations (inst : Instruction) : Emission (Option Operand × Operand) := do
  if inst.dst.length = 2 then
    let out ← destination inst 0
    let op ← destination inst 1
    return (some out, op)
  else
    let op ← destination inst 0
    return (none, op)

/-- The word from before. -/
def atomicWord (inst : Instruction) (target : AtomicTarget) : Emission Id := do
  let type ← scalarType target.scalar
  let scope ← constant .u32 target.scope.code
  let semantics ← constant .u32 Spirv.MemorySemantics.relaxed.bits
  let operand ← source inst 1
  let first ← readScalar operand target.scalar
  if inst.op? = some .atomicCmpStore ∨ inst.op? = some .immAtomicCmpExch then
    let operand ← source inst 2
    let value ← readScalar operand target.scalar
    emitValue .atomicCompareExchange type
      [.id target.pointer, .id scope, .id semantics, .id semantics, .id value, .id first]
  else
    match inst.op?.bind atomicOp? with
    | some op => emitValue op type [.id target.pointer, .id scope, .id semantics, .id first]
    | none => unsupported inst

def atomicResult (out? : Option Operand) (scalar : ScalarType) (id : Id) : Emission Unit :=
  match out? with
  | some out => writeOperand out ⟨.single scalar, id⟩ false
  | none => pure ()

theorem lowerAtomic_eq (inst : Instruction) : lowerAtomic inst =
    atomicDestinations inst >>= fun x => source inst 0 >>= fun address =>
      atomicTarget x.2 address >>= fun target => atomicWord inst target >>= fun id =>
        atomicResult x.1 target.scalar id := by
  unfold lowerAtomic atomicDestinations atomicWord
  by_cases two : inst.dst.length = 2 <;>
  by_cases compares : inst.op? = some .atomicCmpStore ∨ inst.op? = some .immAtomicCmpExch <;>
  cases inst.op?.bind atomicOp? <;>
  simp only [if_pos, if_neg, not_false_eq_true, two, compares, bind_assoc, pure_bind, atomicResult]

/-- An atomic operation on a place. -/
theorem exchange_performs {op : Op} {type p : Id} {args : List Arg} {values : List Id} {q : Address}
    {ws : List UInt32} {new : UInt32} (atomic : op.isAtomic = true)
    (taken : op.atomicArgs? args = some (p, values.map .id)) (leads : s.Leads μ p q)
    (known : List.Forall₂ (fun id w => s.Knows μ.processor id (.words [w])) values ws)
    (exchanged : op.exchange? (μ.memory q) ws = some new) :
    Performs w env (emitValue op type args) s μ fun id t ν =>
      t.Knows ν.processor id (.words [μ.memory q]) ∧
        ν.memory = Function.update μ.memory q new ∧
          ν.events = μ.events ++ [.exchange q new] := by
  let ν : Invocation :=
    { μ with
      values := Function.update μ.values s.builder.nextId (some (.words [μ.memory q]))
      memory := Function.update μ.memory q new
      events := μ.events ++ [.exchange q new] }
  have acts : ∀ n, s.builder.module.Grows n → n.Distinct →
      w.act? n μ ⟨.ordinary op, some type, some s.builder.nextId, args⟩ = some ν := by
    intro n grows distinct
    have unfolded : w.act? n μ ⟨.ordinary op, some type, some s.builder.nextId, args⟩ =
        World.exchange? n μ op s.builder.nextId args := by
      cases op <;> first | rfl | cases atomic
    have words : (values.map Arg.id).mapM (Device.words? n μ.processor) = some (ws.map ([·])) := by
      clear taken exchanged
      induction known with
      | nil => rfl
      | cons first _ ih =>
        rw [List.map_cons, List.mapM_cons, first.words? grows distinct, ih]
        rfl
    have flat : (ws.map ([·])).flatten = ws := by
      rw [← List.flatMap_def]
      exact List.map_eq_flatMap.symm.trans (List.map_id ws)
    rw [unfolded, World.exchange?, taken]
    simp only [Option.bind_eq_bind, Option.bind_some, leads.2 n grows distinct, words, flat,
      exchanged]
    rfl
  refine (Performs.emitValue acts).mono fun id t κ since h => ?_
  obtain ⟨rfl, rfl, mem⟩ := h
  refine ⟨⟨since.settled.sound.below _ mem _ rfl, fun n grows distinct => ?_⟩, rfl, rfl⟩
  rw [n.datum?_computed distinct (grows.definitions mem)
    (by cases op <;> first | rfl | cases atomic)]
  exact Function.update_self _ _ _

/-- The operations of atomics with one value. -/
theorem atomicOp?_fits {code : Opcode} {op : Op} (is : atomicOp? code = some op) :
    op.isAtomic = true ∧ (∀ p scope semantics value,
      op.atomicArgs? [.id p, scope, semantics, value] = some (p, [value])) ∧
        ∀ old a, (op.exchange? old [a]).isSome = true := by
  unfold atomicOp? at is
  split at is <;> first
    | cases is
      exact ⟨rfl, fun _ _ _ _ => rfl, fun _ _ => rfl⟩
    | cases is

theorem typedView_run {op : Operand} {array : DwordArray} (is : s.dwordArray? op = some array) :
    (typedView? op).run env s = (.ok none, s) := by
  unfold State.dwordArray? at is
  unfold typedView?
  split at is
  · next type =>
    rw [type]
    rfl
  · next type =>
    rw [type]
    rfl
  · next type =>
    obtain ⟨slot, index, is⟩ := Option.bind_eq_some_iff.1 is
    obtain ⟨r, found, is⟩ := Option.bind_eq_some_iff.1 is
    rw [if_pos type, run_idle_bind (resource_run index (.inr ⟨type, found⟩))]
    split at is
    · cases is
    · next untyped =>
      rw [Option.not_isSome_iff_eq_none.1 untyped]
      rfl
  · cases is

section Access

variable {inst : Instruction} {array : DwordArray} {op : Operand}

/-- An access starts at the dword of its position, and does there what its kind does. -/
def Served (d : Device) (env : Environment) (inst : Instruction) (array : DwordArray) (t : State)
    (μ ν : Invocation) : Prop :=
  ∃ e b, ∀ u, t.Maintains u →
    inst.position? array (fun op c => op.word? d env u μ.memory c) = some (e, b) ∧
      array.Serves (array.dword e b) d env u inst μ ν

theorem lowerBufferLoad_performs (classified : inst.HasFamily) (family : inst.family = .bufferLoad)
    (memory : inst.memory? = some op) (names : s.dwordArray? op = some array)
    (suits : inst.Suits array) :
    Performs w env (lowerBufferLoad inst) s μ fun _ t ν =>
      Served w.device env inst array t μ ν := by
  have plain : inst.family ≠ .atomic := by
    rw [family]
    decide
  have structured := Instruction.isStructured_of_load classified family
  refine .of_settled fun settled => ?_
  have start := dwordArray_leads (μ := μ) settled names
  unfold lowerBufferLoad
  refine .orFault_bind fun out target => bufferSources_bind fun sources is => ?_
  obtain ⟨element?, offset, last⟩ := sources
  have same : last = op := by
    unfold Instruction.memory? at memory
    rw [family] at memory
    dsimp only at memory
    rw [structured] at memory
    exact Option.some.inj (is.last.symm.trans memory)
  subst same
  refine .idle_bind (dwordArray_run names) ?_
  refine Looks.andThen (firstDword_looks is plain (structured ▸ suits.resolve_left plain))
    fun first t ν since unmoved h => ?_
  obtain ⟨e, b, dword, position⟩ := h
  refine Looks.andThen (.of_reads (scalarType_steady .u32) (scalarType_types .u32))
    fun word t₁ ν₁ since₁ unmoved₁ isWord => ?_
  have isWord : t₁.builder.module.IsVector (.single .u32) word := isWord
  refine Looks.andThen (.mapM (P := fun lane id t ν => t.Knows ν.processor id
      (.words [μ.memory (array.place (array.dword e b + .ofNat lane))]))
    (fun since known => since.knows known) fun lane _ t ν since' unmoved' => ?_)
    fun parts t₂ ν₂ since₂ unmoved₂ known => ?_
  · have before := (since.trans since₁).trans since'
    have still := (unmoved.trans unmoved₁).trans unmoved'
    have number := since'.knows (since₁.knows dword)
    refine (readDword_looks (before.leads start) number (isWord.mono since'.grows)).mono
      fun id u κ _ _ known => ?_
    rwa [still.memory] at known
  have before := (since.trans since₁).trans since₂
  have still := (unmoved.trans unmoved₁).trans unmoved₂
  let g (c : Nat) : UInt32 :=
    μ.memory (array.place (array.dword e b + .ofNat (last.swizzle.lane c)))
  have served {u : State} {κ : Invocation} (later : t₂.Maintains u)
      (received : ∀ v, u.Maintains v → out.Receives w.device env v μ κ g) :
      Served w.device env inst array u μ κ := by
    refine ⟨e, b, fun v later' => ⟨?_, ?_⟩⟩
    · exact position v (((since₁.trans since₂).maintains.trans later).trans later')
    · unfold DwordArray.Serves
      rw [family]
      exact ⟨out, last, target, memory, received v later'⟩
  rw [Swizzle.picked, List.forall₂_map_left_iff] at known
  refine .ite (fun none_ => .pure fun _ => served (.refl t₂) fun v _ => ?_) fun some_ => ?_
  · rw [List.isEmpty_iff.1 none_, List.forall₂_nil_right_iff] at known
    rw [Operand.Receives, if_pos]
    · exact still
    · by_contra taken
      exact WriteMask.components_ne_nil (fun none_ =>
        taken (Bool.or_eq_true_iff.2 (.inr none_))) known
  · refine Looks.andThen (.of_reads (compose_steady _ _) (compose_reads known))
      fun v t₃ ν₃ since₃ unmoved₃ carries => ?_
    have type : v.type.count = out.mask.count := congrArg VectorType.count carries.type
    refine (writeOperand_performs (.inr (Nat.le_of_eq type.symm)) (carries.holds (by decide))
      fun c mem => Value.wordFor_map type g mem).mono fun _ u κ since₄ received => ?_
    exact served (since₃.trans since₄).maintains fun v later =>
      (received v later).after (still.trans unmoved₃)

theorem lowerBufferStore_performs (classified : inst.HasFamily)
    (family : inst.family = .bufferStore) (memory : inst.memory? = some op)
    (some_ : ¬op.mask.isEmpty = true) (names : s.dwordArray? op = some array)
    (suits : inst.Suits array) :
    Performs w env (lowerBufferStore inst) s μ fun _ t ν =>
      Served w.device env inst array t μ ν := by
  have plain : inst.family ≠ .atomic := by
    rw [family]
    decide
  have structured := Instruction.isStructured_of_store classified family
  have out : inst.dst[0]? = some op := by
    unfold Instruction.memory? at memory
    rw [family] at memory
    exact memory
  refine .of_settled fun settled => ?_
  have start := dwordArray_leads (μ := μ) settled names
  unfold lowerBufferStore
  refine .orFault_bind fun out' target => ?_
  obtain rfl : op = out' := Option.some.inj (out.symm.trans target)
  refine bufferSources_bind fun sources is => ?_
  obtain ⟨element?, offset, value⟩ := sources
  have stored : inst.stored? = some value := by
    rw [Instruction.stored?, structured]
    exact is.last
  dsimp only
  rw [if_neg some_]
  refine .idle_bind (dwordArray_run names) ?_
  refine Looks.andThen (firstDword_looks is plain (structured ▸ suits.resolve_left plain))
    fun first t ν since unmoved h => ?_
  obtain ⟨e, b, dword, position⟩ := h
  refine Looks.andThen (readOperand_delivers value op.mask t ν rfl)
    fun v t₁ ν₁ since₁ unmoved₁ h => ?_
  obtain ⟨g, words, carries⟩ := h
  have number : ScalarType.ofData value.data ≠ .bool := by cases value.data <;> decide
  refine Looks.andThen (.of_reads (bitcast_steady v .u32)
    (bitcast_reads number (carries (WriteMask.components_ne_nil some_)) .u32))
    fun v t₂ ν₂ since₂ unmoved₂ carries => ?_
  have before := since₁.trans since₂
  have still := (unmoved.trans unmoved₁).trans unmoved₂
  refine .bind
    (storeDwords_performs (before.leads (since.leads start)) (before.knows dword) carries)
    fun _ u κ since₃ fills => .pure fun _ => ⟨e, b, fun u' later => ?_⟩
  have later₁ := (since₂.trans since₃).maintains.trans later
  refine ⟨position u' (since₁.maintains.trans later₁), ?_⟩
  unfold DwordArray.Serves
  rw [family]
  refine ⟨op, value, g, out, stored, fun c _ => ?_, fills.written, ?_, ?_⟩
  · rw [← unmoved.memory]
    exact words u' later₁ c
  · rw [← still.memory]
    exact fills.others
  · rw [← still.events]
    exact fills.events

/-- An atomic works on the dword of its position. -/
theorem atomicTarget_looks {address : Operand} (family : inst.family = .atomic)
    (first : inst.src[0]? = some address) (names : s.dwordArray? op = some array) :
    Looks w env (atomicTarget op address) s μ fun target t ν => target.scalar = .u32 ∧
      ∃ e b, t.Leads ν target.pointer (array.place (array.dword e b)) ∧ ∀ u, t.Maintains u →
        inst.position? array (fun op c => op.word? w.device env u μ.memory c) = some (e, b) := by
  refine Performs.of_settled fun settled => ?_
  have start := dwordArray_leads (μ := μ) settled names
  refine Performs.idle_bind (typedView_run names) (Performs.idle_bind (dwordArray_run names) ?_)
  refine Looks.bind (atomicDword_looks array address) fun index t ν since unmoved h => ?_
  obtain ⟨e, b, dword, words⟩ := h
  refine .bind (dwordPointer_looks (since.leads start) dword) fun pointer u κ since' _ leads =>
    .pure fun _ => ⟨rfl, e, b, leads, fun u' later => ?_⟩
  have given := words u' (since'.maintains.trans later)
  by_cases raw : array.stride = 0
  · rw [if_pos raw] at given
    simp only [Instruction.position?, first, Option.bind_eq_bind, Option.bind_some, if_pos raw,
      given.1, given.2]
    rfl
  · rw [if_neg raw] at given
    simp only [Instruction.position?, first, Option.bind_eq_bind, Option.bind_some, if_neg raw,
      if_pos family, given.1, given.2]
    rfl

/-- The word at the place is exchanged, and the one from before is known. -/
theorem atomicWord_performs {target : AtomicTarget} {q : Address} (scalar : target.scalar = .u32)
    (leads : s.Leads μ target.pointer q) :
    Performs w env (atomicWord inst target) s μ fun id t ν => ∃ new,
      t.Knows ν.processor id (.words [μ.memory q]) ∧
        ν.memory = Function.update μ.memory q new ∧ ν.events = μ.events ++ [.exchange q new] ∧
          ∀ u, t.Maintains u → inst.exchanged? (fun op c => op.word? w.device env u μ.memory c)
            (μ.memory q) = some new := by
  unfold atomicWord
  rw [scalar]
  refine Looks.andThen (.of_reads (scalarType_steady .u32) (scalarType_reads .u32))
    fun type t₁ ν₁ since₁ unmoved₁ _ => ?_
  refine Looks.andThen (constant_looks _) fun scope t₂ ν₂ since₂ unmoved₂ _ => ?_
  refine Looks.andThen (constant_looks _) fun semantics t₃ ν₃ since₃ unmoved₃ _ => ?_
  refine .orFault_bind fun operand second => ?_
  refine Looks.andThen (readScalar_looks operand) fun first t₄ ν₄ since₄ unmoved₄ h => ?_
  obtain ⟨a, known, words⟩ := h
  have since := ((since₁.trans since₂).trans since₃).trans since₄
  have before := (unmoved₁.trans unmoved₂).trans unmoved₃
  have still := before.trans unmoved₄
  rw [before.memory] at words
  have result {op : Op} {args : List Arg} (values : List Id) {ws : List UInt32} {new : UInt32}
      {t : State} {ν : Invocation} (since' : State.Since env t₄ ν₄ t ν) (unmoved : ν₄.Unmoved ν)
      (atomic : op.isAtomic = true)
      (taken : op.atomicArgs? args = some (target.pointer, values.map .id))
      (known : List.Forall₂ (fun id w => t.Knows ν.processor id (.words [w])) values ws)
      (exchanged : op.exchange? (μ.memory q) ws = some new)
      (is : ∀ u, t.Maintains u → inst.exchanged? (fun op c => op.word? w.device env u μ.memory c)
        (μ.memory q) = some new) :
      Performs w env (emitValue op type args) t ν fun id t ν => ∃ new,
        t.Knows ν.processor id (.words [μ.memory q]) ∧
          ν.memory = Function.update μ.memory q new ∧ ν.events = μ.events ++ [.exchange q new] ∧
            ∀ u, t.Maintains u → inst.exchanged?
              (fun op c => op.word? w.device env u μ.memory c) (μ.memory q) = some new := by
    have all := still.trans unmoved
    rw [← all.memory] at exchanged
    refine (exchange_performs atomic taken (since'.leads (since.leads leads)) known exchanged).mono
      fun id u κ later h => ?_
    obtain ⟨old, memory, events⟩ := h
    rw [all.memory] at old memory
    rw [all.events] at events
    exact ⟨new, old, memory, events, fun u' later' => is u' (later.maintains.trans later')⟩
  refine .ite (fun compares => ?_) fun plain => ?_
  · refine .orFault_bind fun operand' third => ?_
    refine Looks.andThen (readScalar_looks operand') fun value t₅ ν₅ since₅ unmoved₅ h => ?_
    obtain ⟨b, known', words'⟩ := h
    rw [still.memory] at words'
    refine result [value, first] since₅ unmoved₅ rfl rfl
      (.cons known' (.cons (since₅.knows known) .nil)) rfl fun u later => ?_
    simp only [Instruction.exchanged?, second, third, Option.bind_eq_bind, Option.bind_some,
      words u (since₅.maintains.trans later), words' u later, if_pos compares]
    rfl
  · split
    · next op is =>
      obtain ⟨code, _, known_⟩ := Option.bind_eq_some_iff.1 is
      obtain ⟨atomic, taken, exchanges⟩ := atomicOp?_fits known_
      obtain ⟨new, exchanged⟩ := Option.isSome_iff_exists.1 (exchanges (μ.memory q) a)
      refine .of_settled fun settled => ?_
      refine result [first] (.refl settled) (.refl ν₄) atomic (taken _ _ _ _)
        (.cons known .nil) exchanged fun u later => ?_
      simp only [Instruction.exchanged?, second, Option.bind_eq_bind, Option.bind_some,
        words u later, if_neg plain, is]
      exact exchanged
    · intro settled id t ran
      cases ran

theorem lowerAtomic_performs (family : inst.family = .atomic) (memory : inst.memory? = some op)
    (names : s.dwordArray? op = some array) :
    Performs w env (lowerAtomic inst) s μ fun _ t ν =>
      Served w.device env inst array t μ ν := by
  unfold Instruction.memory? at memory
  rw [family] at memory
  dsimp only at memory
  rw [lowerAtomic_eq]
  have rest (out? : Option Operand) (result : ∀ {v : State} {κ ν : Invocation} {old : UInt32},
      (out?.elim (κ.Unmoved ν) fun out => out.Receives w.device env v κ ν fun _ => old) →
        if inst.dst.length = 2 then ∃ out, inst.dst[0]? = some out ∧
          out.Receives w.device env v κ ν fun _ => old else κ.Unmoved ν) :
      Performs w env (source inst 0 >>= fun address => atomicTarget op address >>= fun target =>
        atomicWord inst target >>= fun id => atomicResult out? target.scalar id) s μ fun _ t ν =>
          Served w.device env inst array t μ ν := by
    refine .orFault_bind fun address first => ?_
    refine Looks.andThen (atomicTarget_looks family first names) fun target t ν since unmoved h =>
      ?_
    obtain ⟨scalar, e, b, leads, position⟩ := h
    refine .bind (atomicWord_performs scalar leads) fun id u κ since' h => ?_
    obtain ⟨new, old, memory, events, exchanged⟩ := h
    rw [unmoved.memory] at old memory exchanged
    rw [unmoved.events] at events
    have served {v : State} {ξ : Invocation} (later : u.Maintains v)
        (received : ∀ v', v.Maintains v' → out?.elim (κ.Unmoved ξ) fun out =>
          out.Receives w.device env v' κ ξ fun _ => μ.memory (array.place (array.dword e b))) :
        Served w.device env inst array v μ ξ := by
      refine ⟨e, b, fun v' later' => ⟨?_, ?_⟩⟩
      · exact position v' ((since'.maintains.trans later).trans later')
      · unfold DwordArray.Serves
        rw [family]
        exact ⟨new, κ, exchanged v' (later.trans later'), memory, events,
          result (received v' later')⟩
    rw [scalar]
    cases out? with
    | none => exact .pure fun _ => served (.refl u) fun _ _ => .refl κ
    | some out =>
      have carries : u.Carries κ.processor ⟨.single .u32, id⟩ .u32 [0]
          fun _ => μ.memory (array.place (array.dword e b)) := ⟨rfl, old⟩
      exact (writeOperand_performs (.inl rfl) (carries.holds (by decide)) fun c _ => rfl).mono
        fun _ v ξ since'' received => served since''.maintains received
  unfold atomicDestinations
  split
  · next two =>
    rw [if_pos two] at memory
    simp only [bind_assoc, pure_bind]
    refine .orFault_bind fun out target => .orFault_bind fun op' target' => ?_
    obtain rfl : op = op' := Option.some.inj (memory.symm.trans target')
    refine rest (some out) fun received => ?_
    rw [if_pos two]
    exact ⟨out, target, received⟩
  · next one =>
    rw [if_neg one] at memory
    simp only [bind_assoc, pure_bind]
    refine .orFault_bind fun op' target => ?_
    obtain rfl : op = op' := Option.some.inj (memory.symm.trans target)
    refine rest none fun received => ?_
    rw [if_neg one]
    exact received

end Access

end Lower

end ShaderLowering
