import ShaderLowering.Proofs.Memory.Buffers

/-!
Raw and structured memory in the instructions of a program. Every load, store and atomic that is
accepted starts at the dword of the position that it is given, by one formula for all of them, so
that a load behind a store at the same position brings back what was stored.
-/

namespace ShaderLowering

open Spirv (Id Device Invocation World Address Memory Event)

namespace Instruction

variable (inst : Instruction)

/-- A store without components does nothing at all. -/
def skips : Bool :=
  inst.family = .bufferStore && inst.dst[0]?.any (·.mask.isEmpty)

end Instruction

namespace Lower

variable {w : World} {env : Environment} {s t : State} {μ : Invocation} {inst : Instruction}
  {array : DwordArray} {op : Operand}

theorem firstDword_needs (stride : UInt32) (element? : Option Operand) (offset : Operand) :
    Needs (firstDword stride element? offset) := by
  refine .later fun bytes => ?_
  have last (bytes : Id) : Needs (dwordAt bytes) :=
    .later fun _ => .later fun _ => .emitValue
  cases element? with
  | none => exact .later last
  | some element => exact .later fun _ => .later last

theorem atomicWord_needs (inst : Instruction) (target : AtomicTarget) :
    Needs (atomicWord inst target) := by
  refine .later fun _ => .later fun _ => .later fun _ => .later fun _ => .later fun _ => ?_
  refine .ite (.later fun _ => .later fun _ => .emitValue) ?_
  split
  · exact .emitValue
  · intro env s id t ran
    cases ran

/-- Accesses are lowered into an open block, unless they do nothing. -/
theorem lowerOperation_needs (accesses : inst.memory? = some op) (acts : inst.skips = false)
    (ran : (lowerOperation inst).run env s = (.ok (), t)) : s.HasPlace := by
  unfold lowerOperation at ran
  unfold Instruction.memory? at accesses
  split at accesses
  · next family =>
    rw [family] at ran
    have needs : Needs (lowerBufferLoad inst) := by
      refine .later fun _ => .later fun _ => .later fun _ => .first ?_
      exact firstDword_needs _ _ _
    exact needs env s () t ran
  · next family =>
    rw [family] at ran
    have target : (destination inst 0).run env s = (.ok op, s) := by
      unfold destination orFault
      rw [accesses]
      rfl
    rw [Instruction.skips, family, accesses] at acts
    have some_ : ¬op.mask.isEmpty = true := ne_true_of_eq_false acts
    dsimp only at ran
    rw [lowerBufferStore, run_idle_bind target] at ran
    simp only [if_neg some_] at ran
    exact Needs.later (fun _ => .later fun _ => .first (firstDword_needs _ _ _)) env s () t ran
  · next family =>
    rw [family, lowerAtomic_eq] at ran
    have needs : Needs (atomicDestinations inst >>= fun x => source inst 0 >>= fun address =>
        atomicTarget x.2 address >>= fun target => atomicWord inst target >>= fun id =>
          atomicResult x.1 target.scalar id) :=
      .later fun _ => .later fun _ => .later fun _ => .first (atomicWord_needs _ _)
    exact needs env s () t ran
  · cases accesses

/-- An access that does something does it at its position. -/
theorem lowerOperation_performs (classified : inst.HasFamily) (accesses : inst.memory? = some op)
    (acts : inst.skips = false) (names : s.dwordArray? op = some array)
    (suits : inst.Suits array) :
    Performs w env (lowerOperation inst) s μ fun _ t ν =>
      Served w.device env inst array t μ ν := by
  have kind := accesses
  unfold Instruction.memory? at kind
  unfold lowerOperation
  split at kind
  · next family =>
    rw [family]
    exact lowerBufferLoad_performs classified family accesses names suits
  · next family =>
    rw [family]
    rw [Instruction.skips, family, kind] at acts
    exact lowerBufferStore_performs classified family accesses (ne_true_of_eq_false acts)
      names suits
  · next family =>
    rw [family]
    exact lowerAtomic_performs family accesses names
  · cases kind

/-- Operands are found without any code. -/
theorem bufferSources_idle {isStructured : Bool} {sources : Option Operand × Operand × Operand}
    (ran : (bufferSources inst isStructured).run env s = (.ok sources, t)) : t = s := by
  have idle {n : Nat} {source_ : Operand} {u v : State}
      (ran : (source inst n).run env u = (.ok source_, v)) : v = u := by
    unfold source orFault at ran
    split at ran
    · cases ran
      rfl
    · cases ran
  unfold bufferSources at ran
  split at ran
  · obtain ⟨_, u, first, ran⟩ := Emission.run_bind_eq_ok.1 ran
    obtain ⟨_, v, second, ran⟩ := Emission.run_bind_eq_ok.1 ran
    obtain ⟨_, x, third, ran⟩ := Emission.run_bind_eq_ok.1 ran
    cases ran
    rw [idle third, idle second, idle first]
  · obtain ⟨_, u, first, ran⟩ := Emission.run_bind_eq_ok.1 ran
    obtain ⟨_, v, second, ran⟩ := Emission.run_bind_eq_ok.1 ran
    cases ran
    rw [idle second, idle first]

/-- A store without components adds no code. -/
theorem lowerOperation_skips (skips : inst.skips = true)
    (ran : (lowerOperation inst).run env s = (.ok (), t)) : t = s := by
  obtain ⟨family, empty⟩ := Bool.and_eq_true_iff.1 skips
  obtain ⟨out, target, none_⟩ := (Option.any_eq_true _ _).1 empty
  have target : (destination inst 0).run env s = (.ok out, s) := by
    unfold destination orFault
    rw [target]
    rfl
  unfold lowerOperation at ran
  rw [of_decide_eq_true family] at ran
  dsimp only at ran
  rw [lowerBufferStore, run_idle_bind target] at ran
  simp only [if_pos none_] at ran
  obtain ⟨sources, u, found, ran⟩ := Emission.run_bind_eq_ok.1 ran
  cases ran
  exact bufferSources_idle found

/-- Accesses are ordinary instructions inside of functions. -/
theorem result_access (accesses : inst.memory? = some op)
    (ran : result (lowerInstruction inst) env s = (.ok (), t)) :
    ∃ u, (lowerOperation inst).run env s = (.ok (), u) ∧
      t = { u with lastOpcode? := some inst.opcode } := by
  obtain ⟨_, u, lowered, remembered⟩ := result_bind_eq_ok.1 ran
  cases remembered
  refine ⟨u, ?_, rfl⟩
  unfold Instruction.memory? at accesses
  unfold lowerByFamily lowerExecutable at lowered
  split at accesses
  case h_4 => cases accesses
  all_goals
    next family =>
      rw [family] at lowered
      exact ((result_inFunction (m := liftM (lowerOperation inst))).1 lowered).2

end Lower

namespace Lowering

variable {p : Program} {insts : List Instruction} {entries : SignatureEntries} {options : Options}
  {first l m n : Lowering} {inst : Instruction} {array : DwordArray}

/-- The lowering of a buffer instruction of a program, on memory that it suits. -/
structure Accesses (insts : List Instruction) (first l m : Lowering) (inst : Instruction)
    (array : DwordArray) : Prop where
  reached : ∃ done, done ++ [inst] <+: insts ∧ first.steps done = .ok l
  stepped : l.step inst = (.ok (), m)
  named : ∃ op, inst.memory? = some op ∧ l.state.dwordArray? op = some array
  suits : inst.Suits array

/-- The number of a structure and the offset that an access is given. -/
def positionIn (d : Device) (m : Lowering) (memory : Memory) (inst : Instruction)
    (array : DwordArray) : Option (UInt32 × UInt32) :=
  inst.position? array fun op c => op.word? d m.environment m.state memory c

/-- What an access does to an invocation: nothing, or what its kind does at its position. -/
def AccessedBy (d : Device) (m : Lowering) (inst : Instruction) (array : DwordArray)
    (μ ν : Invocation) : Prop :=
  if inst.skips then μ.Unmoved ν
  else ∃ e b, positionIn d m μ.memory inst array = some (e, b) ∧
    array.Serves (array.dword e b) d m.environment m.state inst μ ν

/-- Whatever an access finds in memory, its code gets through and does what it is to do. -/
theorem Accesses.does (decoded : p.instructions = .ok insts)
    (started : start (p.environment insts entries options) = .ok first)
    (access : Accesses insts first l m inst array) (w : World) (μ : Invocation) :
    ∃ ν, w.Spans l.state m.state μ ν ∧ AccessedBy w.device m inst array μ ν := by
  obtain ⟨⟨done, behind, ran⟩, stepped, ⟨op, accesses, names⟩, suits⟩ := access
  obtain ⟨_, _, _, environment⟩ := start_eq_ok.1 started
  have env : l.environment = p.environment insts entries options :=
    (steps_environment ran).trans environment
  obtain ⟨lowered, same⟩ := step_eq_ok.1 stepped
  obtain ⟨u, operated, is⟩ := Lower.result_access accesses lowered
  have code : m.state.builder = u.builder := by rw [is]
  unfold AccessedBy World.Spans
  rw [code]
  cases skips : inst.skips with
  | true =>
    obtain rfl := Lower.lowerOperation_skips skips operated
    exact ⟨μ, ⟨[], (List.append_nil _).symm, .nil⟩, .refl μ⟩
  | false =>
    have mem : inst ∈ insts :=
      behind.subset (List.mem_append_right _ (List.mem_singleton_self _))
    have place := Lower.lowerOperation_needs accesses skips operated
    have settled := settled decoded ((List.prefix_append _ _).trans behind) started ran place
    rw [env] at operated
    obtain ⟨code, ν, follows, runs, _, _, e, b, served⟩ :=
      Lower.lowerOperation_performs (w := w) (μ := μ) (p.hasFamily decoded inst mem) accesses skips
        names suits settled () u operated
    refine ⟨ν, ⟨code, follows.appends, runs⟩, ?_⟩
    rw [if_neg Bool.false_ne_true, positionIn, same, env, is]
    exact ⟨e, b, served { u with lastOpcode? := some inst.opcode } ⟨List.prefix_rfl, .refl _⟩⟩

/-- A load of the components that a store has written, each to where it came from. -/
structure BringsBack (store load : Instruction) (out value : Operand) : Prop where
  stores : store.family = .bufferStore
  loads : load.family = .bufferLoad
  target : load.dst[0]? = some out
  stored : store.stored? = some value
  mask : store.dst[0]?.map (·.mask) = some out.mask
  swizzle : load.memory?.map (·.swizzle) = some .identity

/-- A load at the position of a store that has been made gets the words of the store. -/
theorem AccessedBy.roundTrip {store load : Instruction} {out value : Operand} {d : Device}
    {μ ν κ : Invocation} (pair : BringsBack store load out value)
    (made : AccessedBy d m store array μ ν) (got : AccessedBy d n load array ν κ)
    (same : positionIn d m μ.memory store array = positionIn d n ν.memory load array) :
    out.Receives d n.environment n.state ν κ fun c =>
      (value.word? d m.environment m.state μ.memory c).getD 0 := by
  have loads : load.skips = false := by
    rw [Instruction.skips, pair.loads]
    rfl
  rw [AccessedBy, loads, if_neg Bool.false_ne_true] at got
  obtain ⟨e, b, at_, served⟩ := got
  unfold DwordArray.Serves at served
  rw [pair.loads] at served
  obtain ⟨out', source, target, memory, received⟩ := served
  obtain rfl : out = out' := Option.some.inj (pair.target.symm.trans target)
  have straight : source.swizzle = .identity := by
    have swizzle := pair.swizzle
    rw [memory] at swizzle
    exact Option.some.inj swizzle
  refine received.congr fun c mem => ?_
  obtain ⟨op, first, masked⟩ := Option.map_eq_some_iff.1 pair.mask
  have stores : store.skips = false := by
    rw [Instruction.skips, first]
    refine Bool.and_eq_false_iff.2 (.inr (Bool.eq_false_iff.2 fun none_ => ?_))
    have none_ : op.mask.isEmpty = true := none_
    rw [masked] at none_
    have absent := (out.mask.isEmpty_iff).1 none_ c
    rw [WriteMask.mem_components.1 mem] at absent
    cases absent
  rw [AccessedBy, stores, if_neg Bool.false_ne_true] at made
  obtain ⟨e', b', at_', served⟩ := made
  obtain ⟨rfl, rfl⟩ := Prod.mk.inj (Option.some.inj (at_'.symm.trans (same.trans at_)))
  unfold DwordArray.Serves at served
  rw [pair.stores] at served
  obtain ⟨op', value', g, first', stored, words, fills⟩ := served
  obtain rfl : op = op' := Option.some.inj (first.symm.trans first')
  obtain rfl : value = value' := Option.some.inj (pair.stored.symm.trans stored)
  have mem' : c ∈ op.mask.components := masked ▸ mem
  rw [straight, Swizzle.lane_identity (WriteMask.lt_of_mem_components mem), fills.written c mem',
    words c mem']
  rfl

/-- All accesses of raw and structured memory start at the same dword for the same position, and do
their work there; so a load of what a store has written gets the words that were stored. -/
theorem accesses_agree (decoded : p.instructions = .ok insts)
    (started : start (p.environment insts entries options) = .ok first) :
    (∀ l m inst array, Accesses insts first l m inst array → ∀ (w : World) (μ : Invocation),
      ∃ ν, w.Spans l.state m.state μ ν ∧ AccessedBy w.device m inst array μ ν) ∧
    ∀ l m n store load array out value, Accesses insts first l m store array →
      Accesses insts first m n load array → BringsBack store load out value →
        ∀ (w : World) (μ : Invocation), ∃ ν κ,
          w.Spans l.state m.state μ ν ∧ AccessedBy w.device m store array μ ν ∧
            w.Spans m.state n.state ν κ ∧
              (positionIn w.device m μ.memory store array =
                  positionIn w.device n ν.memory load array →
                out.Receives w.device n.environment n.state ν κ fun c =>
                  (value.word? w.device m.environment m.state μ.memory c).getD 0) := by
  refine ⟨fun l m inst array access => access.does decoded started, ?_⟩
  intro l m n store load array out value stores loads pair w μ
  obtain ⟨ν, spans, made⟩ := stores.does decoded started w μ
  obtain ⟨κ, spans', got⟩ := loads.does decoded started w ν
  exact ⟨ν, κ, spans, made, spans', made.roundTrip pair got⟩

/-- Whether instruction `k` of a program can be lowered, on memory that it suits. -/
def accessesAt (insts : List Instruction) (first : Lowering) (k : Nat)
    (array : DwordArray) : Bool :=
  (first.steps (insts.take k)).toOption.any fun l => insts[k]?.any fun inst =>
    (l.step inst).1.isOk && decide (inst.memory?.bind l.state.dwordArray? = some array) &&
      decide (inst.Suits array)

theorem eq_ok_of_toOption {ε α : Type} {a? : Except ε α} {a : α}
    (h : a?.toOption = some a) : a? = .ok a := by
  cases a? with
  | error e => cases h
  | ok b => exact congrArg Except.ok (Option.some.inj h)

theorem exists_accesses {k : Nat} (evaluates : accessesAt insts first k array = true) :
    ∃ inst l m, insts[k]? = some inst ∧ first.steps (insts.take k) = .ok l ∧
      first.steps (insts.take (k + 1)) = .ok m ∧ Accesses insts first l m inst array := by
  obtain ⟨l, ran, evaluates⟩ := (Option.any_eq_true _ _).1 evaluates
  obtain ⟨inst, at_, evaluates⟩ := (Option.any_eq_true _ _).1 evaluates
  obtain ⟨evaluates, suits⟩ := Bool.and_eq_true_iff.1 evaluates
  obtain ⟨accepted, names⟩ := Bool.and_eq_true_iff.1 evaluates
  have ran : first.steps (insts.take k) = .ok l := eq_ok_of_toOption ran
  have next : insts.take (k + 1) = insts.take k ++ [inst] := by
    rw [List.take_add_one, at_]
    rfl
  have stepped : l.step inst = (.ok (), (l.step inst).2) := by
    refine Prod.ext ?_ rfl
    cases given : (l.step inst).1 with
    | error e =>
      rw [given] at accepted
      cases accepted
    | ok _ => rfl
  refine ⟨inst, l, (l.step inst).2, at_, ran, ?_, ⟨insts.take k, ?_, ran⟩, stepped,
    Option.bind_eq_some_iff.1 (of_decide_eq_true names), of_decide_eq_true suits⟩
  · rw [next]
    exact steps_append.2 ⟨l, ran, steps_cons.2 ⟨_, stepped, rfl⟩⟩
  · rw [← next]
    exact List.take_prefix _ _

end Lowering

/-- `store_structured g0.xy, 1, 0, (5, 6, 7, 8)`, and a load of the same components. -/
def storeAndLoad : Program :=
  .assume [0x50050, 33, 0x0400009b, 1, 1, 1, 0x050000a0, 0x0011f000, 0, 8, 2, 0x0c0000a8,
    0x0011f032, 0, 0x4001, 1, 0x4001, 0, 0x4002, 5, 6, 7, 8, 0x090000a7, 0x00100032, 0, 0x4001, 1,
    0x4001, 0, 0x0011fe46, 0, 0x0100003e]

namespace Lowering

theorem accesses_agree_storeAndLoad : ∃ insts first l m n store load array out value,
    storeAndLoad.instructions = .ok insts ∧
      start (storeAndLoad.environment insts ⟨[], [], []⟩ .default) = .ok first ∧
      Accesses insts first l m store array ∧ Accesses insts first m n load array ∧
      BringsBack store load out value ∧ ∀ (w : World) (μ : Invocation), ∃ ν κ,
        w.Spans l.state m.state μ ν ∧ AccessedBy w.device m store array μ ν ∧
          w.Spans m.state n.state ν κ ∧
            (positionIn w.device m μ.memory store array =
                positionIn w.device n ν.memory load array →
              out.Receives w.device n.environment n.state ν κ fun c =>
                (value.word? w.device m.environment m.state μ.memory c).getD 0) := by
  have evaluates : (storeAndLoad.instructions.toOption.any fun insts =>
      (start (storeAndLoad.environment insts ⟨[], [], []⟩ .default)).toOption.any fun first =>
        (first.steps (insts.take 2)).toOption.any fun l =>
          ((insts[2]?.bind Instruction.memory?).bind l.state.dwordArray?).any fun array =>
            accessesAt insts first 2 array && accessesAt insts first 3 array &&
              insts[2]?.any (fun store => insts[3]?.any fun load =>
                store.family = .bufferStore && load.family = .bufferLoad && store.stored?.isSome &&
                  load.dst[0]?.any (fun out =>
                    store.dst[0]?.map (·.mask) = some out.mask) &&
                      load.memory?.map (·.swizzle) = some .identity)) = true := by
    decide +kernel
  obtain ⟨insts, decoded, evaluates⟩ := (Option.any_eq_true _ _).1 evaluates
  obtain ⟨first, started, evaluates⟩ := (Option.any_eq_true _ _).1 evaluates
  obtain ⟨_, _, evaluates⟩ := (Option.any_eq_true _ _).1 evaluates
  obtain ⟨array, _, evaluates⟩ := (Option.any_eq_true _ _).1 evaluates
  obtain ⟨evaluates, pair⟩ := Bool.and_eq_true_iff.1 evaluates
  obtain ⟨here, next⟩ := Bool.and_eq_true_iff.1 evaluates
  obtain ⟨store, l, m, at_, _, ran, stores⟩ := exists_accesses here
  obtain ⟨load, m', n, at_', ran', _, loads⟩ := exists_accesses next
  obtain rfl : m = m' := Except.ok.inj (ran.symm.trans ran')
  rw [at_, at_'] at pair
  obtain ⟨pair, swizzle⟩ := Bool.and_eq_true_iff.1 pair
  obtain ⟨pair, masks⟩ := Bool.and_eq_true_iff.1 pair
  obtain ⟨pair, stored⟩ := Bool.and_eq_true_iff.1 pair
  obtain ⟨isStore, isLoad⟩ := Bool.and_eq_true_iff.1 pair
  obtain ⟨out, target, mask⟩ := (Option.any_eq_true _ _).1 masks
  obtain ⟨value, stored⟩ := Option.isSome_iff_exists.1 stored
  have back : BringsBack store load out value :=
    ⟨of_decide_eq_true isStore, of_decide_eq_true isLoad, target, stored, of_decide_eq_true mask,
      of_decide_eq_true swizzle⟩
  have decoded := eq_ok_of_toOption decoded
  have started := eq_ok_of_toOption started
  exact ⟨insts, first, l, m, n, store, load, array, out, value, decoded, started, stores, loads,
    back, (accesses_agree decoded started).2 l m n store load array out value stores loads back⟩

end Lowering

end ShaderLowering
