import ShaderLowering.Proofs.Lowering.Success
import ShaderLowering.Proofs.Memory.Operands

/-!
What stores leave in memory. A packed value is written to those components of a place that a mask
has; the others keep what they hold, even where the code has to write the vector as a whole.
-/

namespace ShaderLowering

open Spirv (Id Instr Arg Op Module StorageClass Invocation World Address Memory Event)

namespace Spirv

namespace Address

variable {p : Address} {count c c' : Nat}

theorem part_inj (h : p.part c = p.part c') : c = c' := by
  have paths := congrArg Address.path h
  exact List.singleton_inj.1 (List.append_cancel_left paths)

theorem component_single (h : count ≤ 1) : p.component count c = p :=
  if_pos h

theorem component_several (h : 1 < count) : p.component count c = p.part c :=
  if_neg (Nat.not_le.2 h)

end Address

namespace Memory

/-- What is the only one of its kind is found. -/
theorem find?_only {α : Type} {l : List α} {p : α → Bool} {a : α} (mem : a ∈ l) (is : p a = true)
    (only : ∀ b ∈ l, p b = true → b = a) : l.find? p = some a := by
  cases found : l.find? p with
  | none => exact absurd is (List.find?_eq_none.1 found a mem)
  | some b => rw [only b (List.mem_of_find?_eq_some found) (List.find?_some found)]

variable {memory : Memory} {p q : Address}

section Assign

variable {place : Nat → Address} {cs : List Nat} {count : Nat} {mask : WriteMask}
  {g : Nat → UInt32}

/-- The memory once each of some numbers has its word at its place. The first of them counts where
several have one place. -/
def put (memory : Memory) (place : Nat → Address) (cs : List Nat) (g : Nat → UInt32) : Memory :=
  fun q => (cs.find? fun c => q = place c).elim (memory q) g

theorem put_at {c : Nat} (mem : c ∈ cs) (own : ∀ c' ∈ cs, place c = place c' → c' = c) :
    memory.put place cs g (place c) = g c := by
  rw [put, find?_only mem (decide_eq_true rfl) fun c' hc is => own c' hc (of_decide_eq_true is)]
  rfl

theorem put_other (other : ∀ c ∈ cs, q ≠ place c) : memory.put place cs g q = memory q := by
  rw [put, List.find?_eq_none.2 fun c hc is => other c hc (of_decide_eq_true is)]
  rfl

/-- The memory once words are written to those components of a vector that a mask has. A single word
takes the first. -/
def assign (memory : Memory) (p : Address) (count : Nat) (mask : WriteMask) (g : Nat → UInt32) :
    Memory :=
  memory.put (p.component count) mask.components g

theorem assign_part (several : 1 < count) {c : Nat} (mem : c ∈ mask.components) :
    memory.assign p count mask g (p.part c) = g c := by
  rw [← Address.component_several several]
  refine put_at mem fun c' _ same => ?_
  rw [Address.component_several several, Address.component_several several] at same
  exact (Address.part_inj same).symm

theorem assign_at (within_ : ∀ c ∈ mask.components, c < count) {c : Nat}
    (mem : c ∈ mask.components) : memory.assign p count mask g (p.component count c) = g c := by
  refine put_at mem fun c' mem' same => ?_
  by_cases single : count ≤ 1
  · have := within_ c mem
    have := within_ c' mem'
    omega
  · rw [Address.component_several (Nat.lt_of_not_le single),
      Address.component_several (Nat.lt_of_not_le single)] at same
    exact (Address.part_inj same).symm

theorem assign_other (other : ∀ c ∈ mask.components, q ≠ p.component count c) :
    memory.assign p count mask g q = memory q :=
  put_other other

theorem assign_congr {g' : Nat → UInt32} (same : ∀ c ∈ mask.components, g c = g' c) :
    memory.assign p count mask g = memory.assign p count mask g' := by
  funext q
  unfold assign put
  cases found : mask.components.find? fun c => q = p.component count c with
  | none => rfl
  | some c => exact same c (List.mem_of_find?_eq_some found)

/-- A single word takes the first component. -/
theorem assign_single (single : count ≤ 1) {c : Nat} (first : mask.components.head? = some c) :
    memory.assign p count mask g = Function.update memory p (g c) := by
  obtain ⟨rest, all⟩ := List.head?_eq_some_iff.1 first
  funext q
  by_cases here : q = p
  · rw [assign, put, all, List.find?_cons_of_pos, here, Function.update_self]
    · rfl
    · rw [Address.component_single single]
      exact decide_eq_true here
  · rw [Function.update_of_ne here]
    refine assign_other fun c _ => ?_
    rw [Address.component_single single]
    exact here

theorem assign_only (several : 1 < count) {c : Nat} (only : mask.components = [c]) :
    memory.assign p count mask g = Function.update memory (p.part c) (g c) := by
  have mem : c ∈ mask.components := only ▸ List.mem_singleton_self c
  funext q
  by_cases here : q = p.part c
  · rw [here, Function.update_self, assign_part several mem]
  · rw [Function.update_of_ne here]
    refine assign_other fun c' hc => ?_
    rw [only, List.mem_singleton] at hc
    rw [hc, Address.component_several several]
    exact here

end Assign

section Write

variable {ws : List UInt32}

theorem write_several (several : 1 < ws.length) : memory.write p ws = fun q =>
    ((List.range ws.length).find? fun i => q = p.part i).elim (memory q) fun i => ws.getD i 0 := by
  unfold write
  split
  · exact absurd several (Nat.lt_irrefl 1)
  · rfl

theorem write_part (several : 1 < ws.length) {i : Nat} (inside : i < ws.length) :
    memory.write p ws (p.part i) = ws[i] := by
  rw [write_several several]
  dsimp only
  rw [find?_only (List.mem_range.2 inside) (decide_eq_true rfl) fun j _ is =>
    (Address.part_inj (of_decide_eq_true is)).symm]
  exact (List.getElem_eq_getD 0).symm

theorem write_other (several : 1 < ws.length) (other : ∀ i < ws.length, q ≠ p.part i) :
    memory.write p ws q = memory q := by
  rw [write_several several]
  dsimp only
  rw [List.find?_eq_none.2 fun i hi is => other i (List.mem_range.1 hi) (of_decide_eq_true is)]
  rfl

/-- A vector in which the components of a mask are new and the others are not. -/
theorem write_merged {count : Nat} {mask : WriteMask} {g : Nat → UInt32} (several : 1 < count)
    (within_ : ∀ c ∈ mask.components, c < count) :
    memory.write p ((List.range count).map fun c =>
        if mask.contains c then g c else memory (p.part c)) = memory.assign p count mask g := by
  have size : ((List.range count).map fun c =>
      if mask.contains c then g c else memory (p.part c)).length = count := by
    rw [List.length_map, List.length_range]
  funext q
  by_cases part : ∃ c < count, q = p.part c
  · obtain ⟨c, low, rfl⟩ := part
    rw [write_part (by rwa [size]) (by rwa [size]), List.getElem_map, List.getElem_range]
    split
    · next mem => rw [assign_part several (WriteMask.mem_components.2 mem)]
    · next out =>
      refine (assign_other fun c' hc same => out ?_).symm
      rw [Address.component_several several] at same
      rw [Address.part_inj same]
      exact WriteMask.mem_components.1 hc
  · rw [write_other (by rwa [size]), assign_other]
    · intro c hc same
      rw [Address.component_several several] at same
      exact part ⟨c, within_ c hc, same⟩
    · intro c low same
      exact part ⟨c, by rwa [size] at low, same⟩

end Write

end Memory

/-- A packed value was stored at a place, and that is all that happened. -/
structure Invocation.Stored (μ ν : Invocation) (p : Address) (count : Nat) (mask : WriteMask)
    (g : Nat → UInt32) : Prop where
  memory : ν.memory = μ.memory.assign p count mask g
  events : ∃ q ws, q.variable_ = p.variable_ ∧ ν.events = μ.events ++ [.store q ws]

/-- What happened before without a trace is of no matter. -/
theorem Invocation.Stored.after {μ ν κ : Invocation} {p : Address} {count : Nat} {mask : WriteMask}
    {g : Nat → UInt32} (h : ν.Stored κ p count mask g) (unmoved : μ.Unmoved ν) :
    μ.Stored κ p count mask g :=
  ⟨unmoved.memory ▸ h.memory, unmoved.events ▸ h.events⟩

/-- Words were written to a place as they are, and that is all that happened. -/
structure Invocation.Wrote (μ ν : Invocation) (q : Address) (ws : List UInt32) : Prop where
  memory : ν.memory = μ.memory.write q ws
  events : ν.events = μ.events ++ [.store q ws]

theorem Invocation.Wrote.after {μ ν κ : Invocation} {q : Address} {ws : List UInt32}
    (h : ν.Wrote κ q ws) (unmoved : μ.Unmoved ν) : μ.Wrote κ q ws :=
  ⟨unmoved.memory ▸ h.memory, unmoved.events ▸ h.events⟩

end Spirv

namespace Lower

variable {w : World} {env : Environment} {s : State} {μ : Invocation}

theorem storeTo_performs {pointer value : Id} {q : Address} {ws : List UInt32}
    (leads : s.Leads μ pointer q) (known : s.Knows μ.processor value (.words ws)) :
    Performs w env (storeTo pointer value) s μ fun _ _ ν =>
      ν = { μ with
        memory := μ.memory.write q ws
        events := μ.events ++ [.store q ws] } := by
  refine .emit fun n grows distinct => ?_
  have unfolded : w.act? n μ ⟨.ordinary .store, none, none, [.id pointer, .id value]⟩ =
      (μ.address? n pointer).bind fun address =>
        (Spirv.Device.words? n μ.processor (.id value)).bind fun ws => some { μ with
          memory := μ.memory.write address ws
          events := μ.events ++ [.store address ws] } := rfl
  rw [unfolded, leads.2 n grows distinct, Option.bind_some, known.words? grows distinct]
  rfl

end Lower

namespace State

variable {s t : State} {μ ν : Spirv.Processor} {v : Value} {ws : List UInt32}

/-- The words that a value is stored as, one for each component. Truth values are stored as words of
all ones or all zeros. -/
def Holds (s : State) (μ : Spirv.Processor) (v : Value) (ws : List UInt32) : Prop :=
  ws.length = v.type.count ∧
    if v.type.scalar = .bool then
      ∃ truths : List Bool, s.Knows μ v.id (.truths truths) ∧
        ws = truths.map fun truth => if truth then 0xffffffff else 0
    else s.Knows μ v.id (.words ws)

/-- Values of numbers are stored as the words that they carry. -/
theorem Carries.holds {scalar : ScalarType}
    {cs : List Nat} {g : Nat → UInt32} (h : s.Carries μ v scalar cs g) (number : scalar ≠ .bool) :
    s.Holds μ v (cs.map g) := by
  refine ⟨?_, ?_⟩
  · rw [List.length_map, h.type]
  · rw [if_neg (by rw [h.type]; exact number)]
    exact h.knows

end State

namespace Value

/-- The word that a value supplies to a component of a mask: its only one, or the one in the place
that the component has within the mask. -/
def wordFor (v : Value) (mask : WriteMask) (ws : List UInt32) (c : Nat) : UInt32 :=
  ws.getD (if v.type.count = 1 then 0 else mask.rank c) 0

end Value

namespace WriteMask

variable {mask : WriteMask} {c : Nat}

theorem rank_lt (mem : c ∈ mask.components) : mask.rank c < mask.count :=
  (List.getElem?_eq_some_iff.1 (mask.components_rank (mem_components.1 mem))).1

theorem rank_of_head? (first : mask.components.head? = some c) : mask.rank c = 0 := by
  have mem : c ∈ mask.components := List.mem_of_mem_head? first
  obtain ⟨_, there⟩ := List.getElem?_eq_some_iff.1 (mask.components_rank (mem_components.1 mem))
  obtain ⟨_, here⟩ := List.getElem?_eq_some_iff.1 (List.head?_eq_getElem? ▸ first)
  exact (List.nodup_range.filter _).getElem_inj_iff.1 (there.trans here.symm)

theorem rank_firstN {n : Nat} (few : n ≤ 4) (low : c < n) : (firstN n).rank c = c := by
  match n, few, c, low with
  | 1, _, 0, _ | 2, _, 0, _ | 2, _, 1, _ | 3, _, 0, _ | 3, _, 1, _ | 3, _, 2, _ | 4, _, 0, _
  | 4, _, 1, _ | 4, _, 2, _ | 4, _, 3, _ => decide

/-- Components of the mask come from the front of a list that may be longer than the mask. -/
theorem map_mergeLanes_front (mask : WriteMask) (count : Nat) (old : Nat → UInt32)
    (new : List UInt32) :
    (Lower.mergeLanes count mask).map (((List.range count).map old ++ new).getD · 0) =
      (List.range count).map fun c =>
        if mask.contains c then new.getD (mask.rank c) 0 else old c := by
  have size : ((List.range count).map old).length = count := by
    rw [List.length_map, List.length_range]
  rw [Lower.mergeLanes, List.map_map]
  refine List.map_congr_left fun c hc => ?_
  dsimp only [Function.comp_apply]
  split
  · rw [List.getD_eq_getElem?_getD, List.getElem?_append_right (by omega), size,
      Nat.add_sub_cancel_left, List.getD_eq_getElem?_getD]
  · have low := List.mem_range.1 hc
    rw [List.getD_eq_getElem?_getD, List.getElem?_append_left (by omega), List.getElem?_map,
      List.getElem?_range low]
    rfl

end WriteMask

/-- A value with a component for each of a mask supplies them in order. -/
theorem Value.wordFor_map {v : Value} {mask : WriteMask} (size : v.type.count = mask.count)
    (g : Nat → UInt32) {c : Nat} (mem : c ∈ mask.components) :
    v.wordFor mask (mask.components.map g) c = g c := by
  have low := WriteMask.rank_lt mem
  have index : (if v.type.count = 1 then 0 else mask.rank c) = mask.rank c := by
    split
    · omega
    · rfl
  have here := mask.components_rank (WriteMask.mem_components.1 mem)
  rw [wordFor, index, List.getD_eq_getElem?_getD, List.getElem?_map, here]
  rfl

namespace Lower

section Supplies

variable {d : Spirv.Device} {L : Id → Prop} {env : Environment} {s : State} {μ : Spirv.Processor}
  {v : Value} {ws : List UInt32} {mask : WriteMask}

/-- A list by its places. -/
theorem map_range_getD {α : Type} (l : List α) (other : α) :
    (List.range l.length).map (l.getD · other) = l := by
  refine List.ext_getElem (by simp) fun i hi low => ?_
  rw [List.getElem_map, List.getElem_range, List.getElem_eq_getD]

/-- Whatever its type, a value is stored as the words that its bits read as. -/
theorem bitcast_holds (h : s.Holds μ v ws) (some_ : ws ≠ []) {scalar : ScalarType}
    (number : scalar ≠ .bool) : Reads d L env (bitcast v scalar) s μ fun u t ν =>
      t.Carries ν u scalar (List.range ws.length) (ws.getD · 0) := by
  obtain ⟨size, known⟩ := h
  by_cases truth : v.type.scalar = .bool
  · rw [if_pos truth] at known
    obtain ⟨truths, known, rfl⟩ := known
    rw [List.length_map] at size ⊢
    have decides : s.Decides μ v (List.range truths.length) (truths.getD · false) := by
      refine ⟨?_, ?_⟩
      · rw [List.length_range, size, ← truth]
      · rwa [map_range_getD]
    unfold bitcast
    rw [truth, if_neg (Ne.symm number), if_pos rfl]
    have any : List.range truths.length ≠ [] := by
      rw [Ne, List.range_eq_nil, List.length_eq_zero_iff]
      rintro rfl
      exact some_ rfl
    refine .bind (boolToMask_reads decides any) fun u t ν _ carries => ?_
    refine (recast_reads carries scalar).mono fun u t ν _ carries => carries.congr fun c hc => ?_
    have low := List.mem_range.1 hc
    simp [low]
  · rw [if_neg truth] at known
    refine bitcast_reads truth ⟨?_, ?_⟩ scalar
    · rw [List.length_range, size]
    · rwa [map_range_getD]

/-- A scalar is repeated where a mask has several components. -/
theorem extend_holds {scalar : ScalarType} {n : Nat} {h : Nat → UInt32}
    (carries : s.Carries μ v scalar (List.range n) h) (wide : n = 1 ∨ mask.count ≤ n)
    (some_ : mask.components ≠ []) :
    Reads d L env (if v.type.count < mask.count then extend v mask.count else pure v) s μ
      fun u t ν => ∃ m g, mask.count ≤ m ∧ t.Carries ν u scalar (List.range m) g ∧
        ∀ c ∈ mask.components, g (mask.rank c) = h (if n = 1 then 0 else mask.rank c) := by
  have count : v.type.count = n := by
    rw [carries.type]
    exact List.length_range
  rw [count]
  refine .ite (fun narrow => ?_) fun enough => .pure fun _ => ?_
  · obtain rfl : n = 1 := wide.resolve_right (Nat.not_le_of_lt narrow)
    refine (extend_reads (c := 0) carries (List.length_pos_iff.2 some_)).mono
      fun u t ν _ carries => ⟨mask.count, fun _ => h 0, Nat.le_refl _, ⟨?_, ?_⟩, fun c _ => ?_⟩
    · rw [carries.type, List.length_replicate, List.length_range]
      rfl
    · have known := carries.knows
      rw [List.map_replicate] at known
      rwa [List.map_const', List.length_range]
    · rw [if_pos rfl]
  · refine ⟨n, h, Nat.le_of_not_lt enough, carries, fun c mem => ?_⟩
    split
    · next one =>
      have := WriteMask.rank_lt mem
      exact congrArg h (by omega)
    · rfl

end Supplies

section Supplied

variable {w : World} {env : Environment} {s : State} {μ : Invocation} {p : Pointer} {u : Value}
  {mask : WriteMask} {q : Address} {m : Nat} {g : Nat → UInt32}

variable (carries : s.Carries μ.processor u p.type.scalar (List.range m) g)
  (enough : mask.count ≤ m) (some_ : mask.components ≠ [])
include carries

/-- A vector that takes the place of another is stored as it is. -/
theorem storeWhole_writes (leads : s.Leads μ p.id q) :
    Performs w env (storeTo p.id u.id) s μ fun _ _ ν => μ.Wrote ν q ((List.range m).map g) :=
  (storeTo_performs leads carries.knows).mono fun _ _ _ _ is =>
    ⟨congrArg Invocation.memory is, congrArg Invocation.events is⟩

theorem storeWhole_performs (leads : s.Leads μ p.id q) (several : 1 < p.type.count)
    (few : p.type.count ≤ 4)
    (full : mask = .firstN p.type.count ∧ u.type.count = p.type.count) :
    Performs w env (storeTo p.id u.id) s μ fun _ _ ν =>
      μ.Stored ν q p.type.count mask fun c => g (mask.rank c) := by
  obtain ⟨same, whole⟩ := full
  rw [carries.type, List.length_range] at whole
  obtain rfl : m = p.type.count := whole
  have all : mask.components = List.range p.type.count :=
    same ▸ WriteMask.components_firstN few
  refine (storeWhole_writes carries leads).mono fun _ _ ξ _ wrote =>
    ⟨?_, q, _, rfl, wrote.events⟩
  rw [← Spirv.Memory.write_merged several fun c mem => List.mem_range.1 (all ▸ mem)]
  refine wrote.memory.trans ?_
  refine congrArg (μ.memory.write q) (List.map_congr_left fun c hc => ?_)
  rw [if_pos (WriteMask.mem_components.1 (all ▸ hc)), same,
    WriteMask.rank_firstN few (List.mem_range.1 hc)]

include enough

/-- Other masks are merged into what the place holds. -/
theorem storeMerged_performs (leads : s.Leads μ p.id q) (number : p.type.scalar ≠ .bool)
    (several : 1 < p.type.count) (few : p.type.count ≤ 4) :
    Performs w env (load p >>= fun current => vectorType p.type >>= fun type =>
        emitValue .vectorShuffle type (.id current.id :: .id u.id ::
          (mergeLanes p.type.count mask).map fun lane => .word (.ofNat lane)) >>= fun merged =>
          storeTo p.id merged) s μ fun _ _ ν => (∀ c ∈ mask.components, c < p.type.count) →
      μ.Stored ν q p.type.count mask fun c => g (mask.rank c) := by
  have short : p.type.count < UInt32.size := Nat.lt_of_le_of_lt few (by decide)
  refine Looks.andThen (load_looks leads number (Nat.lt_trans Nat.one_pos several) short)
    fun current t ν since unmoved loaded => ?_
  refine Looks.andThen (.of_reads (vectorType_steady p.type) (vectorType_reads p.type))
    fun type t' ν' since' unmoved' _ => ?_
  refine Looks.andThen (.of_reads (.emitValue rfl _ _) (shuffle_reads (since'.knows loaded.knows)
    (since'.knows (since.knows carries.knows)) (fun i hi => ?_) (fun i hi => ?_)))
    fun merged t'' ν'' since'' unmoved'' merged_ => ?_
  · rw [List.length_append, List.length_map, List.length_map, List.length_range, List.length_range]
    exact Nat.lt_of_lt_of_le (WriteMask.mergeLanes_lt hi) (Nat.add_le_add_left enough _)
  · have low := WriteMask.mergeLanes_lt hi
    have := mask.count_le
    simp only [UInt32.size]
    omega
  · have merged_ : t''.Knows ν''.processor merged (.words ((List.range p.type.count).map fun c =>
        if mask.contains c then g (mask.rank c) else μ.memory (q.part c))) := by
      rw [WriteMask.map_mergeLanes_front] at merged_
      refine Eq.mp (congrArg (t''.Knows ν''.processor merged <| .words ·)
        (List.map_congr_left fun c _ => ?_)) merged_
      rw [Address.component_several several]
      split
      · next mem =>
        have inside :=
          Nat.lt_of_lt_of_le (WriteMask.rank_lt (WriteMask.mem_components.2 mem)) enough
        simp [inside]
      · rfl
    refine (storeTo_performs (since''.leads (since'.leads (since.leads leads))) merged_).mono
      fun _ _ ξ _ is within_ => ?_
    have still := (unmoved.trans unmoved').trans unmoved''
    refine .after ⟨?_, q, _, rfl, congrArg Invocation.events is⟩ still
    rw [← Spirv.Memory.write_merged several within_, still.memory]
    exact (congrArg Invocation.memory is).trans (by rw [still.memory])

include some_

/-- The first word of a value that covers a mask. -/
theorem first_looks : Looks w env (extract u 0) s μ fun v t ν =>
    t.Knows ν.processor v.id (.words [g 0]) := by
  have filled : 0 < (List.range m).length := by
    rw [List.length_range]
    exact Nat.lt_of_lt_of_le (List.length_pos_iff.2 some_) enough
  refine (Looks.of_reads (extract_steady u 0) (extract_reads carries filled (by decide))).mono
    fun v t ν _ _ part => ?_
  have known := part.knows
  rwa [List.map_singleton, List.getElem_range] at known

theorem storeScalar_writes (leads : s.Leads μ p.id q) :
    Performs w env (extract u 0 >>= fun part => storeTo p.id part.id) s μ fun _ _ ν =>
      μ.Wrote ν q [g 0] := by
  refine Looks.andThen (first_looks carries enough some_) fun part t ν since unmoved known => ?_
  refine (storeTo_performs (since.leads leads) known).mono fun _ _ ξ _ is => ?_
  exact .after ⟨congrArg Invocation.memory is, congrArg Invocation.events is⟩ unmoved

/-- A scalar takes the first component of a mask. -/
theorem storeScalar_performs (leads : s.Leads μ p.id q) (single : p.type.count = 1) :
    Performs w env (extract u 0 >>= fun part => storeTo p.id part.id) s μ fun _ _ ν =>
      μ.Stored ν q p.type.count mask fun c => g (mask.rank c) := by
  obtain ⟨c, head⟩ : ∃ c, mask.components.head? = some c := ⟨_, List.head?_eq_some_head some_⟩
  refine (storeScalar_writes carries enough some_ leads).mono fun _ _ ξ _ wrote => ?_
  refine ⟨?_, q, _, rfl, wrote.events⟩
  rw [Spirv.Memory.assign_single (Nat.le_of_eq single) head, WriteMask.rank_of_head? head]
  exact wrote.memory

/-- A single component is stored through a pointer to it. -/
theorem storeComponent_writes (leads : s.Leads μ p.id q) {c : Nat} (only : mask.components = [c]) :
    Performs w env (constantU32 (mask.first?.getD 0) >>= fun index => extract u 0 >>= fun part =>
        chain (.single p.type.scalar) p.storage p.id [index] >>= fun target =>
          storeTo target.id part.id) s μ fun _ _ ν => μ.Wrote ν (q.part c) [g 0] := by
  have head : mask.components.head? = some c := by
    rw [only]
    rfl
  have low := WriteMask.lt_of_mem_components (List.mem_of_mem_head? head)
  rw [WriteMask.first?, head, Option.getD_some]
  refine Looks.andThen (constant_looks (.ofNat c)) fun index t ν since unmoved index_ => ?_
  refine Looks.andThen (first_looks
    ⟨carries.type, since.knows carries.knows⟩ enough some_)
    fun part t' ν' since' unmoved' known => ?_
  refine Looks.andThen (chain_looks (since'.leads (since.leads leads))
    (.cons (since'.knows index_) .nil)) fun target t'' ν'' since'' unmoved'' target_ => ?_
  refine (storeTo_performs target_.2 (since''.knows known)).mono fun _ _ ξ _ is => ?_
  have path : q.inside ([UInt32.ofNat c].map UInt32.toNat) = q.part c := by
    rw [List.map_singleton, UInt32.toNat_ofNat_of_lt' (Nat.lt_trans low (by decide))]
    rfl
  rw [path] at is
  exact .after ⟨congrArg Invocation.memory is, congrArg Invocation.events is⟩
    ((unmoved.trans unmoved').trans unmoved'')

theorem storeComponent_performs (leads : s.Leads μ p.id q) (several : 1 < p.type.count)
    (one : mask.count = 1) :
    Performs w env (constantU32 (mask.first?.getD 0) >>= fun index => extract u 0 >>= fun part =>
        chain (.single p.type.scalar) p.storage p.id [index] >>= fun target =>
          storeTo target.id part.id) s μ fun _ _ ν =>
      μ.Stored ν q p.type.count mask fun c => g (mask.rank c) := by
  obtain ⟨c, only⟩ : ∃ c, mask.components = [c] := List.length_eq_one_iff.1 one
  have head : mask.components.head? = some c := by
    rw [only]
    rfl
  refine (storeComponent_writes carries enough some_ leads only).mono fun _ _ ξ _ wrote => ?_
  refine ⟨?_, q.part c, _, rfl, wrote.events⟩
  rw [Spirv.Memory.assign_only several only, WriteMask.rank_of_head? head]
  exact wrote.memory

end Supplied

section StoreMasked

variable {w : World} {env : Environment} {s : State} {μ : Invocation} {p : Pointer} {v : Value}
  {mask : WriteMask} {q : Address} {ws : List UInt32}

/-- A store under a mask, by the way that the code takes. It gets through even where the place lacks
components of the mask. -/
theorem storeMasked_reaches (leads : s.Leads μ p.id q) (number : p.type.scalar ≠ .bool)
    (inside : 0 < p.type.count) (few : p.type.count ≤ 4) (some_ : mask.components ≠ [])
    (wide : v.type.count = 1 ∨ mask.count ≤ v.type.count) (holds : s.Holds μ.processor v ws) :
    Performs w env (storeMasked p v mask) s μ fun _ _ ν =>
      (∀ c ∈ mask.components, c < p.type.count) →
        μ.Stored ν q p.type.count mask (v.wordFor mask ws) := by
  have taken : ¬mask.isEmpty = true := fun none_ => some_ <|
    List.filter_eq_nil_iff.2 fun c _ => Bool.eq_false_iff.1 ((mask.isEmpty_iff).1 none_ c)
  have positive : 0 < mask.count := List.length_pos_iff.2 some_
  have size : ws.length = v.type.count := holds.1
  have any : ws ≠ [] := by
    rintro rfl
    rw [List.length_nil] at size
    omega
  unfold storeMasked
  rw [if_neg taken]
  refine Looks.andThen (.of_reads (bitcast_steady v p.type.scalar)
    (bitcast_holds holds any number)) fun u t ν since unmoved carries => ?_
  refine Performs.mono (Q := fun _ _ κ => (∀ c ∈ mask.components, c < p.type.count) →
    ν.Stored κ q p.type.count mask (v.wordFor mask ws)) ?_
    fun _ _ _ _ stored within_ => (stored within_).after unmoved
  refine Looks.eitherThen (.of_reads (.ite (extend_steady _ _) (.pure _))
    (extend_holds carries (size.symm ▸ wide) some_)) fun u t' ν' since' unmoved' extended => ?_
  obtain ⟨m, g, enough, carries, words⟩ := extended
  have leads := since'.leads (since.leads leads)
  have same : ν'.memory.assign q p.type.count mask (fun c => g (mask.rank c)) =
      ν'.memory.assign q p.type.count mask (v.wordFor mask ws) :=
    Spirv.Memory.assign_congr fun c mem => (words c mem).trans (size ▸ rfl)
  refine Performs.mono (Q := fun _ _ κ => (∀ c ∈ mask.components, c < p.type.count) →
    ν'.Stored κ q p.type.count mask fun c => g (mask.rank c)) ?_ fun _ _ _ _ stored within_ =>
      .after ⟨(stored within_).memory.trans same, (stored within_).events⟩ unmoved'
  have always {e : Emission Unit} (h : Performs w env e t' ν' fun _ _ κ =>
      ν'.Stored κ q p.type.count mask fun c => g (mask.rank c)) :
      Performs w env e t' ν' fun _ _ κ => (∀ c ∈ mask.components, c < p.type.count) →
        ν'.Stored κ q p.type.count mask fun c => g (mask.rank c) :=
    h.mono fun _ _ _ _ stored _ => stored
  refine .ite (fun single => always (storeScalar_performs carries enough some_ leads single))
    fun other => ?_
  have several : 1 < p.type.count := by omega
  refine .ite (fun one => always (storeComponent_performs carries enough some_ leads several one))
    fun _ => ?_
  exact .ite (fun full => always (storeWhole_performs carries leads several few full)) fun _ =>
    storeMerged_performs carries enough leads number several few

/-- A store under a mask of components that the place has. -/
theorem storeMasked_performs (leads : s.Leads μ p.id q) (number : p.type.scalar ≠ .bool)
    (few : p.type.count ≤ 4) (within_ : ∀ c ∈ mask.components, c < p.type.count)
    (some_ : mask.components ≠ []) (wide : v.type.count = 1 ∨ mask.count ≤ v.type.count)
    (holds : s.Holds μ.processor v ws) :
    Performs w env (storeMasked p v mask) s μ fun _ _ ν =>
      μ.Stored ν q p.type.count mask (v.wordFor mask ws) :=
  (storeMasked_reaches leads number (Nat.zero_lt_of_lt (within_ _ (List.head_mem some_))) few some_
    wide holds).mono fun _ _ _ _ stored => stored within_

/-- A store of a single component. -/
theorem storeMasked_single (leads : s.Leads μ p.id q) (number : p.type.scalar ≠ .bool) {c : Nat}
    (only : mask.components = [c]) (inside : c < p.type.count) (some_ : 0 < v.type.count)
    (holds : s.Holds μ.processor v ws) :
    Performs w env (storeMasked p v mask) s μ fun _ _ ν =>
      μ.Wrote ν (q.component p.type.count c) [ws.getD 0 0] := by
  have one : mask.count = 1 := congrArg List.length only
  have any : mask.components ≠ [] := only ▸ List.cons_ne_nil _ _
  have taken : ¬mask.isEmpty = true := fun none_ => any <|
    List.filter_eq_nil_iff.2 fun c _ => Bool.eq_false_iff.1 ((mask.isEmpty_iff).1 none_ c)
  have size : ws.length = v.type.count := holds.1
  have words : ws ≠ [] := by
    rintro rfl
    exact Nat.ne_of_lt some_ size
  unfold storeMasked
  rw [if_neg taken]
  refine Looks.andThen (.of_reads (bitcast_steady v p.type.scalar)
    (bitcast_holds holds words number)) fun u t ν since unmoved carries => ?_
  have wide : ¬u.type.count < mask.count := by
    rw [carries.type, one]
    have := List.length_range (n := ws.length)
    dsimp only
    omega
  have enough : mask.count ≤ ws.length := by omega
  rw [if_neg wide]
  refine Performs.mono (Q := fun _ _ κ => ν.Wrote κ (q.component p.type.count c) [ws.getD 0 0]) ?_
    fun _ _ _ _ wrote => wrote.after unmoved
  refine .ite (fun single => ?_) fun other => ?_
  · rw [Address.component_single (Nat.le_of_eq single)]
    exact storeScalar_writes carries enough any (since.leads leads)
  · rw [if_pos one, Address.component_several (by omega)]
    exact storeComponent_writes carries enough any (since.leads leads) only

/-- A store of a whole vector. -/
theorem storeMasked_whole (leads : s.Leads μ p.id q) (number : p.type.scalar ≠ .bool)
    (several : 1 < p.type.count) (few : p.type.count ≤ 4) (full : mask = .firstN p.type.count)
    (whole : v.type.count = p.type.count) (holds : s.Holds μ.processor v ws) :
    Performs w env (storeMasked p v mask) s μ fun _ _ ν => μ.Wrote ν q ws := by
  have count : mask.count = p.type.count := by
    rw [full, WriteMask.count, WriteMask.components_firstN few, List.length_range]
  have taken : ¬mask.isEmpty = true := fun none_ => by
    have empty : mask.components = [] :=
      List.filter_eq_nil_iff.2 fun c _ => Bool.eq_false_iff.1 ((mask.isEmpty_iff).1 none_ c)
    rw [WriteMask.count, empty, List.length_nil] at count
    omega
  have size : ws.length = v.type.count := holds.1
  have words : ws ≠ [] := by
    rintro rfl
    rw [List.length_nil] at size
    omega
  unfold storeMasked
  rw [if_neg taken]
  refine Looks.andThen (.of_reads (bitcast_steady v p.type.scalar)
    (bitcast_holds holds words number)) fun u t ν since unmoved carries => ?_
  have same : u.type.count = p.type.count := by
    rw [carries.type, ← whole, ← size]
    exact List.length_range
  rw [if_neg (by omega)]
  refine .pure_bind ?_
  dsimp only
  rw [if_neg (by omega), if_neg (by omega), if_pos ⟨full, same⟩]
  refine (storeWhole_writes carries (since.leads leads)).mono fun _ _ ξ _ wrote => ?_
  rw [map_range_getD] at wrote
  exact wrote.after unmoved

/-- Code was added that writes the words of a value to the components of a mask, and changes nothing
else in memory. -/
def Replacing (w : World) (p : Pointer) (v : Value) (mask : WriteMask)
    (s t : State) (μ : Invocation) (q : Address) (ws : List UInt32) : Prop :=
  ∃ code ν, t.builder.openCode = s.builder.openCode ++ code ∧
    w.Runs t.builder.module code μ ν ∧
      (∀ c ∈ mask.components,
        ν.memory (q.component p.type.count c) = v.wordFor mask ws c) ∧
        ∀ a, (∀ c ∈ mask.components, a ≠ q.component p.type.count c) → ν.memory a = μ.memory a

/-- A store under a mask replaces the components of the mask, whichever way the code takes: from a
value of any type, a scalar or one that has a component for each of the mask. -/
theorem storeMasked_replaces (settled : s.Settled env) (number : p.type.scalar ≠ .bool)
    (few : p.type.count ≤ 4) (within_ : ∀ c ∈ mask.components, c < p.type.count)
    (some_ : mask.components ≠ []) (wide : v.type.count = 1 ∨ mask.count ≤ v.type.count) :
    ∃ t, (storeMasked p v mask).run env s = (.ok (), t) ∧
      ∀ w μ q ws, s.Leads μ p.id q → s.Holds μ.processor v ws →
        Replacing w p v mask s t μ q ws := by
  obtain ⟨_, t, ran, _⟩ := storeMasked_succeeds p v mask env s fun _ => settled.place
  refine ⟨t, ran, fun w μ q ws leads holds => ?_⟩
  obtain ⟨code, ν, follows, runs, _, _, stored⟩ :=
    storeMasked_performs (w := w) leads number few within_ some_ wide holds settled _ t ran
  refine ⟨code, ν, follows.appends, runs, fun c mem => ?_, fun a other => ?_⟩
  · rw [stored.memory]
    exact Spirv.Memory.assign_at within_ mem
  · rw [stored.memory]
    exact Spirv.Memory.assign_other other

/-- `r0`, and which of the words 0 to 3 are not zero. -/
def truthsAndRegister : Emission (Value × Id) := do
  let words ← constantValue .u32 ((List.range 4).map .ofNat)
  let truths ← zeroTest words .ifNonZero
  let register ← temp 0
  return (truths, register)

theorem truthsAndRegister_looks {w : World} : Looks w env truthsAndRegister s μ fun made t ν =>
    t.Leads ν made.2 ⟨made.2, []⟩ ∧ made.1.type = ⟨.bool, 4⟩ ∧
      t.Holds ν.processor made.1 [0, 0xffffffff, 0xffffffff, 0xffffffff] := by
  refine .bind (.of_reads (constantValue_steady _ _) (constantValue_reads (by decide) .ofNat))
    fun words t ν _ _ carries => ?_
  refine .bind (.of_reads ?_ (zeroTest_reads (by decide) (by decide) carries))
    fun truths t' ν' _ _ decides => ?_
  · exact .bind (bitcast_steady _ _) fun _ => .bind (constantValue_steady _ _) fun _ =>
      operate_steady rfl _ _
  refine .bind (temp_looks 0) fun register u κ since _ found => .pure fun _ => ?_
  refine ⟨found.2, decides.type, ?_, ?_⟩
  · rw [decides.type]
    rfl
  · rw [if_pos (congrArg VectorType.scalar decides.type)]
    exact ⟨_, since.knows decides.knows, by decide⟩

/-- Whether some step succeeds in the block that the first instruction of a program leaves open. -/
def succeedsFirst {α : Type} (e : Emission α) (inst : Instruction) (first : Lowering) : Bool :=
  (first.steps [inst]).toOption.any fun l =>
    l.state.builder.function?.isSome && l.state.builder.block?.isSome &&
      (e.run first.environment l.state).1.isOk

/-- Where such a step succeeds all is settled. -/
theorem exists_settled {α : Type} {p : Program} {e : Emission α}
    (evaluates : ((Lowering.firstStep? p).any fun x =>
      decide (succeedsFirst e x.1 x.2.2 = true)) = true) :
    ∃ env s a t, s.Settled env ∧ e.run env s = (.ok a, t) := by
  obtain ⟨inst, rest, first, decoded, started, evaluates⟩ :=
    Lowering.exists_firstStep p (P := fun inst l => succeedsFirst e inst l = true) evaluates
  obtain ⟨l, accepted, holds⟩ := (Option.any_eq_true _ _).1 evaluates
  rw [Bool.and_eq_true, Bool.and_eq_true] at holds
  obtain ⟨place, succeeds⟩ := holds
  have accepted : first.steps [inst] = .ok l := by
    cases is : first.steps [inst] with
    | error e =>
      rw [is] at accepted
      cases accepted
    | ok k =>
      rw [is] at accepted
      cases accepted
      rfl
  have settled := Lowering.settled decoded ⟨rest, rfl⟩ started accepted place
  obtain ⟨_, _, _, environment⟩ := Lowering.start_eq_ok.1 started
  rw [environment] at succeeds
  cases ran : e.run (p.environment (inst :: rest) ⟨[], [], []⟩ .default) l.state with
  | mk a? t =>
    rw [ran] at succeeds
    cases a? with
    | error e => cases succeeds
    | ok a => exact ⟨_, _, a, t, settled, ran⟩

/-- Truth values of four components, of which two are written to the components x and z. -/
theorem storeMasked_replaces_truths : ∃ env s p v t μ q, s.Settled env ∧ p.type = float4 ∧
    v.type = ⟨.bool, 4⟩ ∧ (storeMasked p v ⟨5⟩).run env s = (.ok (), t) ∧ s.Leads μ p.id q ∧
      s.Holds μ.processor v [0, 0xffffffff, 0xffffffff, 0xffffffff] ∧
        ∀ w, Replacing w p v ⟨5⟩ s t μ q [0, 0xffffffff, 0xffffffff, 0xffffffff] := by
  obtain ⟨env, s, made, t, settled, ran⟩ :=
    exists_settled (p := indexable) (e := truthsAndRegister) (by decide +kernel)
  let nothing : World := ⟨⟨fun _ _ => 0, fun _ _ => 0, fun _ _ => 0⟩, fun _ m => m, id⟩
  obtain ⟨code, μ, follows, _, _, furnished, _, leads, type, holds⟩ :=
    truthsAndRegister_looks (w := nothing) (μ := ⟨fun _ => none, fun _ => none, fun _ => 0, []⟩)
      settled made t ran
  let p : Pointer := ⟨float4, .priv, made.2⟩
  have below : ∀ c ∈ WriteMask.components ⟨5⟩, c < 4 :=
    fun c mem => WriteMask.lt_of_mem_components mem
  obtain ⟨u, stored, replaces⟩ := storeMasked_replaces (p := p) (v := made.1)
    ⟨follows.ready, furnished⟩ ScalarType.noConfusion (Nat.le_refl 4) below (by decide)
    (.inr (by rw [type]; decide))
  exact ⟨env, t, p, made.1, u, μ, _, ⟨follows.ready, furnished⟩, rfl, type, stored, leads, holds,
    fun w => replaces w μ _ _ leads holds⟩

end StoreMasked

end Lower

end ShaderLowering
