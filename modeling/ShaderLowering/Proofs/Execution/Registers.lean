import ShaderLowering.Proofs.Execution.Values
import ShaderLowering.Proofs.Interface.Redeclaration

/-!
Temporaries at run time. Each has a variable, which is loaded where an instruction names it as a
source and stored to, under the mask, where it names it as a destination. A source gives the word of
the component that its swizzle picks, modified in sign; a store changes the components of the mask
and no others.
-/

namespace ShaderLowering

open Spirv (Id Instr Arg Op Module Processor Device Datum)

/-- The contents of the temporaries. -/
abbrev Registers := Nat → Words4

namespace Operand

/-- A temporary. -/
def IsRegister (op : Operand) : Prop :=
  op.type = .temp ∧ ∃ reg, op.index? 0 = some reg ∧ reg.toNat < maxTemps

instance (op : Operand) : Decidable op.IsRegister :=
  decidable_of_iff (op.type = .temp ∧ ((op.index? 0).any (·.toNat < maxTemps)) = true) <| by
    rw [Option.any_eq_true]
    simp only [IsRegister, decide_eq_true_eq]

/-- A temporary or an immediate. -/
def IsSource (op : Operand) : Prop :=
  op.IsRegister ∨ op.type = .imm32

/-- A temporary or nothing. -/
def IsTarget (op : Operand) : Prop :=
  op.IsRegister ∨ op.type = .null

instance (op : Operand) : Decidable op.IsSource :=
  inferInstanceAs (Decidable (_ ∨ _))

instance (op : Operand) : Decidable op.IsTarget :=
  inferInstanceAs (Decidable (_ ∨ _))

/-- The number of the register that an operand names. -/
def register (op : Operand) : Nat :=
  (op.index? 0).elim 0 UInt32.toNat

/-- The component that an operand supplies to component `c` of a destination. -/
def lane (op : Operand) (c : Nat) : Nat :=
  match op.selection with
  | .mask => c
  | .swizzle | .select1 => op.swizzle.lane c

/-- The word that an operand supplies to component `c` of a destination. -/
def word (d : Device) (R : Registers) (op : Operand) (c : Nat) : UInt32 :=
  let four := if op.type = .imm32 then op.imm else R op.register
  Lower.modified d (.ofData op.data) op.modifier (four.get (op.lane c))

theorem lane_lt (op : Operand) {c : Nat} (low : c < 4) : op.lane c < 4 := by
  unfold lane
  split
  · exact low
  · exact op.swizzle.lane_lt c
  · exact op.swizzle.lane_lt c

theorem sourceLanes_eq (op : Operand) (mask : WriteMask) :
    Lower.sourceLanes op mask = mask.components.map op.lane := by
  unfold Lower.sourceLanes lane Swizzle.picked
  cases op.selection with
  | mask => simp
  | swizzle | select1 => rfl

end Operand

namespace WriteMask

theorem components_ne_nil {mask : WriteMask} (h : ¬mask.isEmpty = true) : mask.components ≠ [] := by
  intro none_
  refine h ((isEmpty_iff mask).2 fun c => Bool.eq_false_iff.2 fun mem => ?_)
  rw [← mem_components, none_] at mem
  cases mem

theorem lt_of_mem_components {mask : WriteMask} {c : Nat} (h : c ∈ mask.components) : c < 4 :=
  List.mem_range.1 (List.mem_filter.1 h).1

/-- Four words with those in the components of a mask replaced. -/
def merge (mask : WriteMask) (g : Nat → UInt32) (v : Words4) : Words4 where
  x := if mask.contains 0 then g 0 else v.x
  y := if mask.contains 1 then g 1 else v.y
  z := if mask.contains 2 then g 2 else v.z
  w := if mask.contains 3 then g 3 else v.w

/-- A component of a mask stands behind those of the mask that come before it. -/
theorem components_rank (mask : WriteMask) {c : Nat} (mem : mask.contains c = true) :
    mask.components[mask.rank c]? = some c := by
  have low : c < 4 := lt_of_mem_components (mem_components.2 mem)
  unfold components rank
  have parts : List.range 4 = List.range c ++ c :: (List.range' (c + 1) (3 - c)) := by
    match c, low with
    | 0, _ | 1, _ | 2, _ | 3, _ => rfl
  rw [parts, List.filter_append, List.filter_cons_of_pos mem,
    List.getElem?_append_right (Nat.le_refl _), Nat.sub_self]
  rfl

/-- Components of the mask come from the packed words, the others from the old ones. -/
theorem map_mergeLanes (mask : WriteMask) (count : Nat) (old new : Nat → UInt32) :
    (Lower.mergeLanes count mask).map
        (((List.range count).map old ++ mask.components.map new).getD · 0) =
      (List.range count).map fun c => if mask.contains c then new c else old c := by
  have size : ((List.range count).map old).length = count := by
    rw [List.length_map, List.length_range]
  rw [Lower.mergeLanes, List.map_map]
  refine List.map_congr_left fun c hc => ?_
  have low := List.mem_range.1 hc
  dsimp only [Function.comp_apply]
  split
  · next mem =>
    have here : (mask.components.map new)[mask.rank c]? = some (new c) := by
      rw [List.getElem?_map, mask.components_rank mem]
      rfl
    rw [List.getD_eq_getElem?_getD, List.getElem?_append_right (by omega), size,
      Nat.add_sub_cancel_left, here, Option.getD_some]
  · rw [List.getD_eq_getElem?_getD, List.getElem?_append_left (by omega), List.getElem?_map,
      List.getElem?_range low]
    rfl

/-- The components of a merged vector, in order. -/
theorem toList_merge (mask : WriteMask) (g : Nat → UInt32) (v : Words4) :
    (mask.merge g v).toList = (Lower.mergeLanes 4 mask).map
      ((v.toList ++ mask.components.map g).getD · 0) := by
  have old : v.toList = (List.range 4).map v.get := rfl
  rw [old, map_mergeLanes]
  rfl

theorem mergeLanes_lt {mask : WriteMask} {count i : Nat}
    (mem : i ∈ Lower.mergeLanes count mask) : i < count + mask.count := by
  obtain ⟨c, hc, rfl⟩ := List.mem_map.1 mem
  split
  · next mem =>
    obtain ⟨inside, _⟩ := List.getElem?_eq_some_iff.1 (mask.components_rank mem)
    exact Nat.add_lt_add_left inside count
  · have := List.mem_range.1 hc
    omega

theorem merge_single {mask : WriteMask} {c : Nat} (only : mask.components = [c])
    (g : Nat → UInt32) (v : Words4) : mask.merge g v = v.set c (g c) := by
  have contains (i : Nat) : mask.contains i = decide (i = c) := by
    rw [Bool.eq_iff_iff, ← mem_components, only, List.mem_singleton, decide_eq_true_iff]
  have low : c < 4 := lt_of_mem_components (only ▸ List.mem_singleton_self c)
  unfold merge
  simp only [contains]
  match c, low with
  | 0, _ | 1, _ | 2, _ | 3, _ => rfl

theorem components_firstN {count : Nat} (few : count ≤ 4) :
    (firstN count).components = List.range count := by
  match count, few with
  | 0, _ | 1, _ | 2, _ | 3, _ | 4, _ => decide

theorem merge_all (g : Nat → UInt32) (v : Words4) :
    (firstN 4).merge g v = ⟨g 0, g 1, g 2, g 3⟩ := by
  have all : ∀ c < 4, (firstN 4).contains c = true := by decide
  simp [merge, all]

/-- Only the words for the components of a mask matter. -/
theorem merge_congr {mask : WriteMask} {g h : Nat → UInt32}
    (same : ∀ c ∈ mask.components, g c = h c)
    (v : Words4) : mask.merge g v = mask.merge h v := by
  have lane (c : Nat) (old : UInt32) :
      (if mask.contains c then g c else old) = if mask.contains c then h c else old := by
    split
    · next mem => exact same c (mem_components.2 mem)
    · rfl
  unfold merge
  rw [lane 0, lane 1, lane 2, lane 3]

/-- The components outside of a mask stay. -/
theorem get_merge {mask : WriteMask} {c : Nat} (low : c < 4) (other : mask.contains c = false)
    (g : Nat → UInt32) (v : Words4) : (mask.merge g v).get c = v.get c := by
  match c, low with
  | 0, _ | 1, _ | 2, _ | 3, _ => simp [merge, Words4.get, other]

theorem merge_empty {mask : WriteMask} (none_ : mask.isEmpty = true) (g : Nat → UInt32)
    (v : Words4) : mask.merge g v = v := by
  simp [merge, (isEmpty_iff mask).1 none_]

end WriteMask

namespace Operand

/-- The registers once words are written to those components of an operand that its mask has. -/
def assign (op : Operand) (g : Nat → UInt32) (R : Registers) : Registers :=
  if op.type = .temp then
    Function.update R op.register (op.mask.merge g (R op.register))
  else R

/-- Only the words for the components of the mask matter. -/
theorem assign_congr {op : Operand} {g h : Nat → UInt32}
    (same : op.type = .temp → ∀ c ∈ op.mask.components, g c = h c) (R : Registers) :
    op.assign g R = op.assign h R := by
  unfold assign
  split
  · next written => rw [WriteMask.merge_congr (same written)]
  · rfl

/-- What a write to an operand does to memory, and from where its code loads: from nowhere but the
place that it changes. -/
def Written (op : Operand) (g : Nat → UInt32) (before after : Id → Words4) (code : List Instr)
    (t : State) : Prop :=
  if op.isNull || op.mask.isEmpty then after = before ∧ LoadsFrom (fun _ => False) code
  else ∃ id, t.temps[op.register]? = some id ∧ LoadsFrom (· = id) code ∧
    after = Function.update before id (op.mask.merge g (before id))

end Operand

namespace State

variable {s t : State} {μ ν : Processor}

/-- The variables of the temporaries hold what the registers contain. -/
def Shows (s : State) (memory : Id → Words4) (R : Registers) : Prop :=
  ∀ n id, s.temps[n]? = some id → memory id = R n

theorem temps_later (h : s.temps.toList <+: t.temps.toList) {n : Nat} {id : Id}
    (at_ : s.temps[n]? = some id) : t.temps[n]? = some id := by
  obtain ⟨rest, h⟩ := h
  rw [← Array.getElem?_toList] at at_ ⊢
  obtain ⟨inside, _⟩ := List.getElem?_eq_some_iff.1 at_
  rw [← h, List.getElem?_append_left inside, at_]

/-- Whatever memory holds is what some registers contain. -/
theorem exists_shows (s : State) (memory : Id → Words4) : ∃ R, s.Shows memory R := by
  refine ⟨fun n => s.temps[n]?.elim .zero memory, fun n id at_ => ?_⟩
  dsimp only
  rw [at_]
  rfl

theorem Shows.earlier {memory : Id → Words4} {R : Registers} (h : t.Shows memory R)
    (later : s.temps.toList <+: t.temps.toList) : s.Shows memory R :=
  fun n id at_ => h n id (temps_later later at_)

/-- A value that goes on being carried. -/
theorem Carries.reindex {v : Value} {scalar : ScalarType} {cs : List Nat} {f : Nat → Nat}
    {g : Nat → UInt32} (h : s.Carries μ v scalar (cs.map f) g) :
    s.Carries μ v scalar cs fun c => g (f c) :=
  ⟨by rw [h.type, List.length_map], by simpa [List.map_map, Function.comp_def] using h.knows⟩

end State

namespace Operand.Written

variable {op : Operand} {g : Nat → UInt32} {before after : Id → Words4} {code : List Instr}
  {t u : State} {R : Registers}

/-- A destination that takes nothing. -/
theorem skipped (h : (op.isNull || op.mask.isEmpty) = true) : op.Written g before before [] t := by
  rw [Written, if_pos h]
  exact ⟨rfl, List.forall_mem_nil _⟩

/-- Code in front that loads nothing. -/
theorem prepend {more : List Instr} (h : op.Written g before after code t)
    (none_ : LoadsFrom (fun _ => False) more) : op.Written g before after (more ++ code) t := by
  unfold Written at h ⊢
  split
  · next skipped =>
    rw [if_pos skipped] at h
    exact ⟨h.1, none_.append h.2⟩
  · next taken =>
    rw [if_neg taken] at h
    obtain ⟨id, at_, loads, stored⟩ := h
    exact ⟨id, at_, (none_.mono fun _ => False.elim).append loads, stored⟩

theorem later (h : op.Written g before after code t) (more : t.temps.toList <+: u.temps.toList) :
    op.Written g before after code u := by
  unfold Written at h ⊢
  split
  · next skipped => rwa [if_pos skipped] at h
  · next taken =>
    rw [if_neg taken] at h
    obtain ⟨id, at_, h⟩ := h
    exact ⟨id, State.temps_later more at_, h⟩

/-- A write changes the variables of temporaries as it changes the registers. -/
theorem shows_ (h : op.Written g before after code t) (nodup : t.temps.toList.Nodup)
    (target : op.IsTarget) (shown : t.Shows before R) : t.Shows after (op.assign g R) := by
  unfold Written at h
  split at h
  · next skipped =>
    obtain ⟨rfl, _⟩ := h
    rcases Bool.or_eq_true_iff.1 skipped with null | empty
    · have other : op.type ≠ .temp := by
        rw [of_decide_eq_true null]
        nofun
      rwa [assign, if_neg other]
    · unfold assign
      split
      · rwa [WriteMask.merge_empty empty, Function.update_eq_self]
      · exact shown
  · next taken =>
    obtain ⟨id, at_, _, rfl⟩ := h
    have register : op.IsRegister := target.resolve_right fun null =>
      taken (by rw [isNull, null]; rfl)
    rw [assign, if_pos register.1, ← shown _ _ at_]
    intro n id' at'
    by_cases same : n = op.register
    · obtain rfl : id' = id := Option.some.inj (at'.symm.trans (same ▸ at_))
      rw [same, Function.update_self, Function.update_self]
    · have other : id' ≠ id := by
        rintro rfl
        rw [← Array.getElem?_toList] at at_ at'
        have inside := (List.getElem?_eq_some_iff.1 at').1
        exact same ((List.getElem?_inj inside nodup).1 (at'.trans at_.symm))
      rw [Function.update_of_ne other, Function.update_of_ne same]
      exact shown n id' at'

/-- Nothing but temporaries is written. -/
theorem elsewhere (h : op.Written g before after code t) {id : Id} (other : id ∉ t.temps.toList) :
    after id = before id := by
  unfold Written at h
  split at h
  · rw [h.1]
  · obtain ⟨id', at_, _, rfl⟩ := h
    refine Function.update_of_ne ?_ _ _
    rintro rfl
    exact other (Array.mem_toList_iff.2 (Array.mem_of_getElem? at_))

/-- All that is loaded for a write is what the mask leaves alone. -/
theorem loads (h : op.Written g before after code t) :
    LoadsFrom (fun id => t.temps[op.register]? = some id) code := by
  unfold Written at h
  split at h
  · exact h.2.mono fun _ => False.elim
  · obtain ⟨id, at_, loads, _⟩ := h
    refine loads.mono fun _ same => ?_
    rw [same]
    exact at_

end Operand.Written

/-- Places that are those of the temporaries among some operands, in order. -/
def Fetched (t : State) (ops : List Operand) (ids : List Id) : Prop :=
  List.Forall₂ (fun op id => t.temps[op.register]? = some id) (ops.filter (·.type = .temp)) ids

theorem Fetched.later {t u : State} {ops : List Operand} {ids : List Id} (h : Fetched t ops ids)
    (more : t.temps.toList <+: u.temps.toList) : Fetched u ops ids :=
  h.imp fun _ _ at_ => State.temps_later more at_

theorem Fetched.cons {t : State} {op : Operand} {ops : List Operand} {ids others : List Id}
    (first : Fetched t [op] ids) (rest : Fetched t ops others) :
    Fetched t (op :: ops) (ids ++ others) := by
  unfold Fetched
  rw [← List.singleton_append, List.filter_append]
  exact List.rel_append first rest

namespace Lower

variable {d : Device} {L : Id → Prop} {env : Environment} {s : State} {μ : Processor}

theorem name_reads (id : Id) (text : String) :
    Reads d L env (name id text) s μ fun _ _ _ => True :=
  .read_bind (.ite (fun _ => .pure fun _ => trivial) fun _ => .note fun _ _ h => h)

theorem listVariable_reads (id : Id) (storage : Spirv.StorageClass) :
    Reads d L env (listVariable id storage) s μ fun _ _ _ => True :=
  .note fun _ _ h => h

/-- A loop whose rounds all run through. -/
theorem forIn_reads {α : Type} {f : α → Unit → Emission (ForInStep Unit)}
    (round : ∀ a s μ, Reads d L env (f a ()) s μ fun r _ _ => r = .yield ()) (list : List α) :
    Reads d L env (ForIn.forIn list () f : Emission Unit) s μ fun _ _ _ => True := by
  induction list generalizing s μ with
  | nil =>
    rw [List.forIn_nil]
    exact .pure fun _ => trivial
  | cons a rest ih =>
    rw [List.forIn_cons]
    refine .bind (round a s μ) fun r t ν _ h => ?_
    rw [h]
    exact ih

theorem declareTemps_reads {count : Nat} (few : count ≤ maxTemps) :
    Reads d L env (declareTemps count) s μ fun _ t _ => count ≤ t.temps.size := by
  have runs : Reads d L env (declareTemps count) s μ fun _ _ _ => True := by
    unfold declareTemps
    rw [if_neg (Nat.not_lt.2 few)]
    refine .state_bind (.bind (forIn_reads (fun n s μ => ?_) _) fun _ t ν _ _ =>
      .pure fun _ => trivial)
    refine .bind (vectorType_reads _) fun _ _ _ _ _ => .bind (declareType_reads _) ?_
    refine fun _ _ _ _ _ => .bind (.newTemp _) fun _ _ _ _ _ => ?_
    refine .bind (listVariable_reads _ _) fun _ _ _ _ _ => .bind (name_reads _ _) ?_
    exact fun _ _ _ _ _ => .pure fun _ => rfl
  exact (runs.also fun _ _ ran => declareTemps_grows ran).mono fun _ _ _ _ h => h.2

/-- The variable of a temporary. -/
theorem temp_reads {reg : UInt32} (inside : reg.toNat < maxTemps) :
    Reads d L env (temp reg) s μ fun id t ν =>
      t.temps[reg.toNat]? = some id ∧ t.Knows ν id (.place id none) := by
  unfold temp
  rw [if_neg (Nat.not_le.2 inside)]
  refine .bind (declareTemps_reads inside) fun _ t ν _ enough => .state_bind ?_
  have at_ : t.temps[reg.toNat]? = some t.temps[reg.toNat] := Array.getElem?_eq_getElem enough
  refine .orFault at_ _ fun ready => ⟨at_, .of_variable ready (ready.housed _ ?_)⟩
  exact Array.getElem_mem_toList _

/-- The place of a temporary. -/
theorem pointer_reads {op : Operand} (h : op.IsRegister) (steps : List (Emission Id)) :
    Reads d L env (pointerWith op steps) s μ fun p t ν =>
      ∃ id, p = ⟨float4, .priv, id⟩ ∧ t.temps[op.register]? = some id ∧
        t.Knows ν id (.place id none) := by
  obtain ⟨type, reg, index, inside⟩ := h
  have number : op.register = reg.toNat := by rw [Operand.register, index]; rfl
  unfold pointerWith
  rw [type]
  refine .orFault_bind index (.bind (temp_reads inside) fun id u κ _ found => .pure fun _ => ?_)
  exact ⟨id, rfl, number ▸ found.1, found.2⟩

/-- What the variable of a temporary holds. -/
theorem yields_load {id : Id} (place : s.Knows μ id (.place id none)) :
    s.Yields d μ .load [.id id] (.words (μ.memory id).toList) := by
  intro t ν later n grows distinct
  have here := (later.knows place).datum? grows distinct
  have unfolded : d.evaluate? n ν .load [.id id] =
      (Device.datum? n ν (.id id)).bind (·.load? ν.memory) := rfl
  rw [unfolded, here, Option.bind_some, Datum.load?, later.memory]

theorem load_reads {id : Id} (place : s.Knows μ id (.place id none)) (allowed : L id) :
    Reads d L env (load ⟨float4, .priv, id⟩) s μ fun v t ν =>
      t.Carries ν v .f32 [0, 1, 2, 3] (μ.memory id).get := by
  refine .bind (vectorType_reads _) fun type t ν later _ => ?_
  rw [← later.memory]
  exact .bind (.emitValue rfl (fun _ => ⟨id, rfl, allowed⟩) (yields_load (later.knows place)))
    fun v u κ _ known => .pure fun _ => ⟨rfl, known⟩

theorem load_fetches {id : Id} (place : s.Knows μ id (.place id none)) :
    Fetches d env (load ⟨float4, .priv, id⟩) s μ fun v t ids ν =>
      ids = [id] ∧ t.Carries ν v .f32 [0, 1, 2, 3] (μ.memory id).get := by
  refine .readBind (vectorType_reads _) fun type t ν later _ => ?_
  rw [← later.memory]
  refine .bind (.emitLoad (yields_load (later.knows place))) fun v u ids κ _ h => ?_
  obtain ⟨rfl, known⟩ := h
  exact .pure fun _ => ⟨rfl, rfl, known⟩

theorem readPlace_fetches {op : Operand} (h : op.IsRegister) (steps : List (Emission Id))
    {cs : List Nat} (some_ : cs ≠ []) (inside : ∀ c ∈ cs, op.lane c < 4) (scalar : ScalarType) :
    Fetches d env (readPlace op steps (cs.map op.lane) scalar) s μ fun v t ids ν =>
      ∃ id, t.temps[op.register]? = some id ∧ ids = [id] ∧
        t.Carries ν v scalar cs fun c => (μ.memory id).get (op.lane c) := by
  refine .readBind (pointer_reads h steps) fun p t ν later found => ?_
  obtain ⟨id, rfl, at_, place⟩ := found
  refine .bind (load_fetches place) fun v u ids κ later' loaded => ?_
  obtain ⟨rfl, loaded⟩ := loaded
  have four : v.type.count = 4 := by rw [loaded.type]; rfl
  have within : ∀ i ∈ cs.map op.lane, i < [0, 1, 2, 3].length := by
    intro i hi
    obtain ⟨c, hc, rfl⟩ := List.mem_map.1 hi
    exact inside c hc
  have same_ : (cs.map op.lane).map ([0, 1, 2, 3].getD · 0) = cs.map op.lane := by
    refine (List.map_congr_left fun i hi => ?_).trans (List.map_id _)
    match i, within i hi with
    | 0, _ | 1, _ | 2, _ | 3, _ => rfl
  have casts : Reads d (fun _ => False) env
      (do bitcast (← swizzle (← completed v) (cs.map op.lane)) scalar) u κ fun v t ν =>
        u.temps.toList <+: t.temps.toList ∧
          t.Carries ν v scalar cs fun c => (μ.memory id).get (op.lane c) := by
    unfold completed
    rw [four, if_neg (by decide)]
    refine .pure_bind (.bind (swizzle_reads loaded (fun none_ => some_
      (List.map_eq_nil_iff.1 none_))
      within (by decide)) fun v w ξ later'' picked => ?_)
    rw [same_] at picked
    exact (bitcast_reads (by decide) picked.reindex scalar).mono fun v x ω last cast =>
      ⟨later''.temps.trans last.temps, later.memory ▸ cast⟩
  refine (Fetches.of_reads casts).mono fun v x ids ω _ h => ?_
  obtain ⟨rfl, temps, cast⟩ := h
  exact ⟨id, State.temps_later (later'.temps.trans temps) at_, rfl, cast⟩

/-- A value is what an operand supplies to some components, as the registers show. -/
def Supplied (d : Device) (memory : Id → Words4) (cs : List Nat) (op : Operand) (v : Value)
    (t : State) (ν : Processor) : Prop :=
  ∃ g, t.Carries ν v (.ofData op.data) cs g ∧
    ∀ R, t.Shows memory R → ∀ c, g c = op.word d R c

theorem Supplied.later {memory : Id → Words4} {cs : List Nat} {op : Operand} {v : Value}
    {t u : State} {ν κ : Processor} (later : t.Later ν u κ) (h : Supplied d memory cs op v t ν) :
    Supplied d memory cs op v u κ := by
  obtain ⟨g, carries, shows_⟩ := h
  exact ⟨g, carries.later later, fun R shown => shows_ R (shown.earlier later.temps)⟩

/-- The value of a source operand. -/
theorem readOperand_fetches {op : Operand} (h : op.IsSource) {mask : WriteMask}
    (some_ : mask.components ≠ []) :
    Fetches d env (readOperand op mask) s μ fun v t ids ν =>
      Fetched t [op] ids ∧ Supplied d μ.memory mask.components op v t ν := by
  have number : ScalarType.ofData op.data ≠ .bool := by cases op.data <;> nofun
  have inside : ∀ c ∈ mask.components, op.lane c < 4 := fun c hc =>
    op.lane_lt (WriteMask.lt_of_mem_components hc)
  have lanes : Fetches d env (readLanes op (indexSteps op.indices) (sourceLanes op mask)) s μ
      fun v t ids ν => Fetched t [op] ids ∧
        ∃ g, t.Carries ν v (.ofData op.data) mask.components g ∧ ∀ R, t.Shows μ.memory R →
          ∀ c, g c = (if op.type = .imm32 then op.imm else R op.register).get (op.lane c) := by
    unfold readLanes Fetched
    rw [op.sourceLanes_eq]
    rcases h with register | immediate
    · rw [register.1]
      refine (readPlace_fetches register _ some_ inside _).mono fun v t ids ν _ found => ?_
      obtain ⟨id, at_, rfl, carries⟩ := found
      refine ⟨?_, _, carries, fun R shown c => ?_⟩
      · rw [List.filter_cons_of_pos (by simp [register.1])]
        exact .cons at_ .nil
      · rw [if_neg (by nofun), shown _ id at_]
    · rw [immediate]
      have same : (mask.components.map op.lane).map op.imm.get =
          mask.components.map fun c => op.imm.get (op.lane c) := List.map_map ..
      dsimp only
      rw [same]
      refine (Fetches.of_reads (constantValue_reads number _)).mono fun v t ids ν _ h => ?_
      obtain ⟨rfl, carries⟩ := h
      refine ⟨?_, _, carries, fun R _ c => by rw [if_pos rfl]⟩
      rw [List.filter_cons_of_neg (by simp [immediate])]
      exact .nil
  rw [readOperand_eq]
  refine .bind lanes fun v t ids ν later found => ?_
  obtain ⟨fetched, g, carries, is⟩ := found
  refine (Fetches.of_reads (applyModifier_reads carries op.modifier)).mono
    fun v u more κ later' modified => ?_
  obtain ⟨rfl, modified⟩ := modified
  rw [List.append_nil]
  refine ⟨fetched.later later'.temps, _, modified, fun R shown c => ?_⟩
  rw [is R (shown.earlier later'.temps) c]
  rfl

/-- The values of all sources of an instruction, each loaded once. -/
theorem readSources_fetches {inst : Instruction} (h : ∀ op ∈ inst.src, op.IsSource)
    {mask : WriteMask} (some_ : mask.components ≠ []) :
    Fetches d env (readSources inst mask) s μ fun vs t ids ν => Fetched t inst.src ids ∧
      List.Forall₂ (fun op v => Supplied d μ.memory mask.components op v t ν) inst.src vs := by
  unfold readSources
  generalize inst.src = ops at h ⊢
  induction ops generalizing s μ with
  | nil => exact .pure fun _ => ⟨.nil, .nil⟩
  | cons op rest ih =>
    rw [List.mapM_cons]
    refine .bind (readOperand_fetches (h op List.mem_cons_self) some_)
      fun v t ids ν later first => ?_
    refine .bind (ih fun op mem => h op (List.mem_cons_of_mem _ mem))
      fun vs u others κ later' found => .pure fun _ => ?_
    obtain ⟨fetched, supplied⟩ := found
    rw [later.memory] at supplied
    rw [List.append_nil]
    exact ⟨(first.1.later later'.temps).cons fetched, .cons (first.2.later later') supplied⟩

/-- The constant that numbers a component. -/
theorem constantU32_reads (n : Nat) :
    Reads d L env (constantU32 n) s μ fun id t ν => t.Knows ν id (.words [.ofNat n]) :=
  .of_ready fun _ => (constant_reads (by decide) _).mono fun _ _ _ later is =>
    .of_constant later.ready is

/-- A component of a variable. -/
theorem chain_reads {id index : Id} {c : Nat} (place : s.Knows μ id (.place id none))
    (number : s.Knows μ index (.words [.ofNat c])) (low : c < 4) :
    Reads d L env (chain (.single .f32) .priv id [index]) s μ fun p t ν =>
      t.Knows ν p.id (.place id (some c)) := by
  refine .bind (vectorType_reads _) fun pointee t ν later _ => ?_
  refine .bind (declareType_reads _) fun pointer u κ later' _ => ?_
  refine .bind (.emitValue (x := .place id (some c)) rfl (by intro is; cases is)
    fun w ξ more n grows distinct => ?_) fun _ _ _ _ known => .pure fun _ => known
  have base := (more.knows (later'.knows (later.knows place))).datum? grows distinct
  have word := (more.knows (later'.knows (later.knows number))).words? grows distinct
  change d.evaluate? n ξ .accessChain [.id id, .id index] = _
  rw [Device.evaluate?, word, base]
  have small : (UInt32.ofNat c).toNat = c :=
    UInt32.toNat_ofNat_of_lt' (Nat.lt_trans low (by decide))
  have below : UInt32.ofNat c < 4 := by
    rw [UInt32.lt_iff_toNat_lt, small]
    exact low
  simp only [Option.bind_eq_bind, Option.bind_some, Datum.component?, if_pos below, small]

variable {v : Value} {scalar : ScalarType} {mask : WriteMask} {g : Nat → UInt32} {id : Id}

/-- A store under a mask changes the components of the mask. -/
theorem storeMasked_writes (number : scalar ≠ .bool) (some_ : ¬mask.isEmpty = true)
    (place : s.Knows μ id (.place id none)) (h : s.Carries μ v scalar mask.components g)
    (allowed : L id) :
    Writes d L env (storeMasked ⟨float4, .priv, id⟩ v mask) s μ fun _ _ ν =>
      ν.memory = Function.update μ.memory id (mask.merge g (μ.memory id)) := by
  unfold storeMasked
  rw [if_neg some_]
  refine .readBind (bitcast_reads number h .f32) fun v t ν later carries => ?_
  have place := later.knows place
  rw [← later.memory]
  have count : v.type.count = mask.count := by rw [carries.type]; rfl
  rw [count, if_neg (Nat.lt_irrefl _)]
  refine .pure_bind (.ite (fun one => absurd one (show ¬4 = 1 by decide)) fun _ => ?_)
  refine .ite (fun single => ?_) fun several => .ite (fun full => ?_) fun partial_ => ?_
  -- A single component is stored through a pointer to it.
  · obtain ⟨c, only⟩ : ∃ c, mask.components = [c] := List.length_eq_one_iff.1 single
    have first : mask.first?.getD 0 = c := by rw [WriteMask.first?, only]; rfl
    have low := WriteMask.lt_of_mem_components (only ▸ List.mem_singleton_self c)
    rw [only] at carries
    rw [first]
    refine .readBind (constantU32_reads c) fun index u κ later index_ => ?_
    refine .readBind (extract_reads (carries.later later) Nat.one_pos (by simp [UInt32.size]))
      fun part w ξ later' part_ => ?_
    refine .readBind (chain_reads (later'.knows (later.knows place)) (later'.knows index_) low)
      fun target x ω later'' target_ => ?_
    have memory := (later''.memory.trans later'.memory).trans later.memory
    refine .storeTo target_ (later''.knows part_.knows) ?_
    rw [memory, WriteMask.merge_single only]
    rfl
  -- All four components are stored at once.
  · obtain ⟨rfl, _⟩ := full
    refine .storeTo place carries.knows ?_
    change Datum.store? _ ((WriteMask.firstN 4).components.map g) _ =
      some (Function.update _ _ ((WriteMask.firstN 4).merge _ _))
    rw [WriteMask.components_firstN (Nat.le_refl 4), WriteMask.merge_all]
    rfl
  -- Other masks are merged into what the variable holds.
  · refine .readBind (load_reads place allowed) fun current u κ later loaded => ?_
    refine .readBind (vectorType_reads _) fun type w ξ later' _ => ?_
    have wide : ((ν.memory id).toList ++ mask.components.map g).length = 4 + mask.count := by
      rw [List.length_append, List.length_map]
      rfl
    have few := mask.count_le
    refine .readBind (shuffle_reads (later'.knows loaded.knows)
      (later'.knows (later.knows carries.knows)) (fun i hi => ?_) ?_)
      fun merged x ω later'' merged_ => ?_
    · exact Nat.lt_of_lt_of_eq (WriteMask.mergeLanes_lt hi) wide.symm
    · intro i hi
      have low : i < 4 + mask.count := WriteMask.mergeLanes_lt hi
      simp only [UInt32.size]
      omega
    · have memory := (later''.memory.trans later'.memory).trans later.memory
      refine .storeTo (later''.knows (later'.knows (later.knows place))) merged_ ?_
      rw [memory]
      change (Words4.ofList? ((Lower.mergeLanes 4 mask).map
        (((ν.memory id).toList ++ mask.components.map g).getD · 0))).map _ = _
      rw [← WriteMask.toList_merge]
      rfl

variable {op : Operand}

/-- A packed value is stored to the register of an operand. -/
theorem storeRegister_does (register : op.IsRegister) (number : scalar ≠ .bool)
    (some_ : ¬op.mask.isEmpty = true) (h : s.Carries μ v scalar op.mask.components g) :
    Executes d env (operandPointer op >>= fun p => storeMasked p v op.mask) s μ fun _ t code ν =>
      ∃ id, t.temps[op.register]? = some id ∧ LoadsFrom (· = id) code ∧
        ν.memory = Function.update μ.memory id (op.mask.merge g (μ.memory id)) := by
  refine Executes.bind (pointer_reads (L := fun _ => False) register _)
    fun p t code ν follows runs found => ?_
  obtain ⟨⟨memory, _, none_⟩, id, rfl, at_, place⟩ := found
  have later : s.Later μ t ν := ⟨follows.after runs, memory⟩
  have stores : Writes d (· = id) env _ t ν _ :=
    storeMasked_writes number some_ place (h.later later) rfl
  refine Executes.mono stores fun _ u more κ follows' _ stored => ?_
  refine ⟨id, State.temps_later follows'.temps at_, ?_, memory ▸ stored.2⟩
  exact (none_.mono fun _ => False.elim).append stored.1

/-- A write to a destination. -/
theorem writeOperand_does (target : op.IsTarget) (number : scalar ≠ .bool) (isSaturated : Bool)
    (h : ¬op.mask.isEmpty = true → s.Carries μ v scalar op.mask.components g) :
    Executes d env (writeOperand op v isSaturated) s μ fun _ t code ν =>
      op.Written (fun c => saturated d scalar isSaturated (g c)) μ.memory ν.memory code t := by
  unfold writeOperand Operand.Written
  by_cases skipped : (op.isNull || op.mask.isEmpty) = true
  · simp only [if_pos skipped]
    exact .pure fun _ => ⟨rfl, List.forall_mem_nil _⟩
  · simp only [if_neg skipped]
    have some_ : ¬op.mask.isEmpty = true := fun empty => skipped (by rw [empty, Bool.or_true])
    have register : op.IsRegister := target.resolve_right fun null =>
      skipped (by rw [Operand.isNull, null]; rfl)
    cases isSaturated with
    | false =>
      refine (storeRegister_does register number some_ ((h some_).congr fun c _ => ?_))
      simp [saturated]
    | true =>
      refine Executes.bind (saturate_reads (L := fun _ => False) (WriteMask.components_ne_nil some_)
        (h some_)) fun v t code ν _ _ clamped => ?_
      obtain ⟨⟨memory, _, none_⟩, clamped⟩ := clamped
      refine (storeRegister_does register number some_ clamped).mono ?_
      rintro _ u more κ _ _ ⟨id, at_, loads, stored⟩
      exact ⟨id, at_, (none_.mono fun _ => False.elim).append loads, memory ▸ stored⟩

/-- Where the components of a smaller mask stand. -/
theorem subLanes_spec {full sub : WriteMask}
    (inside : ∀ c ∈ sub.components, c ∈ full.components) :
    (∀ i ∈ subLanes full sub, i < full.components.length) ∧
      (subLanes full sub).map (full.components.getD · 0) = sub.components := by
  unfold subLanes
  generalize sub.components = parts at inside ⊢
  induction parts with
  | nil => exact ⟨nofun, rfl⟩
  | cons c rest ih =>
    obtain ⟨low, map⟩ := ih fun c hc => inside c (List.mem_cons_of_mem _ hc)
    obtain ⟨i, found⟩ := Option.isSome_iff_exists.1
      (List.isSome_idxOf?.2 (inside c List.mem_cons_self))
    obtain ⟨low', at_, _⟩ := List.idxOf?_eq_some_iff.1 found
    rw [List.filterMap_cons, found]
    refine ⟨List.forall_mem_cons.2 ⟨low', low⟩, ?_⟩
    rw [List.map_cons, map, ← List.getElem_eq_getD (h := low'), at_]

/-- A write of the part that a destination takes of a value. -/
theorem writePart_does (target : op.IsTarget) (number : scalar ≠ .bool) {full : WriteMask}
    (inside : ∀ c ∈ op.mask.components, c ∈ full.components)
    (h : s.Carries μ v scalar full.components g) :
    Executes d env (writePart op v full) s μ fun _ t code ν =>
      op.Written g μ.memory ν.memory code t := by
  have plain : (fun c => saturated d scalar false (g c)) = g := by
    funext c
    simp [saturated]
  unfold writePart
  by_cases skipped : (op.isNull || op.mask.isEmpty) = true
  · simp only [if_pos skipped, Operand.Written]
    exact .pure fun _ => ⟨rfl, List.forall_mem_nil _⟩
  · rw [if_neg skipped]
    have some_ : ¬op.mask.isEmpty = true := fun empty => skipped (by rw [empty, Bool.or_true])
    obtain ⟨low, lanes⟩ := subLanes_spec inside
    have taken : subLanes full op.mask ≠ [] := fun none_ =>
      WriteMask.components_ne_nil some_ (by rw [← lanes, none_]; rfl)
    refine Executes.bind (swizzle_reads (L := fun _ => False) h taken low full.count_le)
      fun part t code ν _ _ picked => ?_
    obtain ⟨⟨memory, _, none_⟩, picked⟩ := picked
    rw [lanes] at picked
    have writes : Executes d env (writeOperand op part false) t ν fun _ u more κ =>
        op.Written (fun c => saturated d scalar false (g c)) ν.memory κ.memory more u :=
      writeOperand_does target number false fun _ => picked
    rw [plain] at writes
    refine writes.mono fun _ u more κ _ _ written => ?_
    unfold Operand.Written at written ⊢
    rw [if_neg skipped] at written ⊢
    obtain ⟨id, at_, loads, stored⟩ := written
    exact ⟨id, at_, (none_.mono fun _ => False.elim).append loads, memory ▸ stored⟩

end Lower

end ShaderLowering
