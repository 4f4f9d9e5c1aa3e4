import ShaderLowering.Proofs.Conduct.Arithmetic

/-!
Results that may not be contracted. Arithmetic marks what it has just computed. Only `mov` computes
nothing: it passes its source on, so that the mark of a precise `mov` of an immediate ends up on the
literal, which other instructions share.
-/

namespace ShaderLowering

open Spirv (Id Op OpCode Annotation Module Decoration)

variable {α β : Type} {env : Environment} {s t u : State}

theorem Adds.nextId_le (h : Adds s t) : s.builder.nextId ≤ t.builder.nextId := by
  cases h with
  | fresh | declareNew => exact Nat.le_succ _
  | annotate | stage => exact Nat.le_refl _
  | declare key =>
    obtain ⟨_, _, _, same⟩ | ⟨_, same⟩ := s.builder.declare_eq key
    · exact Nat.le_of_eq (by rw [same])
    · rw [same]
      exact Nat.le_succ _
  | newVariable pointer storage initial? =>
    exact Nat.le_of_lt (s.builder.nextId_variable pointer storage initial? ▸ Nat.lt_succ_self _)
  | temp pointer =>
    exact Nat.le_of_lt (s.builder.nextId_variable pointer .priv none ▸ Nat.lt_succ_self _)
  | push _ _ _ _ _ placed =>
    obtain ⟨_, _, _, _, rfl⟩ := Spirv.Builder.push_eq_ok.1 placed
    exact Nat.le_refl _
  | note _ same => exact Nat.le_of_eq same.nextId.symm

theorem Emits.nextId_le (h : Emits s t) : s.builder.nextId ≤ t.builder.nextId := by
  induction h with
  | refl => exact Nat.le_refl _
  | step _ last ih => exact Nat.le_trans ih last.nextId_le

/-- An id that was taken between two states. -/
def State.Between (s t : State) (id : Id) : Prop :=
  s.builder.nextId ≤ id ∧ id < t.builder.nextId

instance (s t : State) (id : Id) : Decidable (s.Between t id) :=
  inferInstanceAs (Decidable (_ ∧ _))

theorem State.Between.widen {s' t' : State} {id : Id} (h : s.Between t id)
    (before : s'.builder.nextId ≤ s.builder.nextId)
    (behind : t.builder.nextId ≤ t'.builder.nextId) : s'.Between t' id :=
  ⟨Nat.le_trans before h.1, Nat.lt_of_lt_of_le h.2 behind⟩

/-- A step that gives an id which it takes itself, or one of those it is given. -/
def Passes (old : Id → Prop) (out : α → Id) (env : Environment)
    (run : Environment → State → Except CompileError α × State) : Prop :=
  ∀ s a t, run env s = (.ok a, t) → old (out a) ∨ s.Between t (out a)

namespace Passes

variable {old : Id → Prop} {out : α → Id} {out' : β → Id}

@[grind ←]
protected theorem pure {a : α} (given : old (out a)) :
    Passes old out env (pure a : Emission α).run := by
  intro s b t ran
  cases ran
  exact .inl given

/-- What another step passes on. -/
theorem bind {e : Emission α} {f : α → Emission β} (first : Passes old out env e.run)
    (later : ∀ a, Passes (fun id => old id ∨ id = out a) out' env (f a).run) :
    Passes old out' env (e >>= f).run := by
  intro s b u ran
  obtain ⟨a, t, ran, ran'⟩ := Emission.run_bind_eq_ok.1 ran
  have ahead := (Emission.emits_of_run ran).nextId_le
  have behind := (Emission.emits_of_run ran').nextId_le
  rcases later a t b u ran' with (given | same) | new
  · exact .inl given
  · rw [same]
    exact (first s a t ran).imp_right (·.widen (Nat.le_refl _) behind)
  · exact .inr (new.widen ahead (Nat.le_refl _))

/-- Another step comes first. -/
@[grind ←]
theorem after {e : Emission α} {f : α → Emission β} (later : ∀ a, Passes old out' env (f a).run) :
    Passes old out' env (e >>= f).run := by
  intro s b u ran
  obtain ⟨a, t, ran, ran'⟩ := Emission.run_bind_eq_ok.1 ran
  have ahead := (Emission.emits_of_run ran).nextId_le
  exact (later a t b u ran').imp_right (·.widen ahead (Nat.le_refl _))

theorem ite {p : Prop} [Decidable p] {yes no : Emission α} (hyes : Passes old out env yes.run)
    (hno : Passes old out env no.run) : Passes old out env (if p then yes else no).run := by
  split
  · exact hyes
  · exact hno

@[grind ←]
theorem fail {e : CompileError} {own : ∀ b, e ≠ .builder b} :
    Passes old out env (Emission.fail e own : Emission α).run := by
  intro s a t ran
  cases ran

@[grind ←]
theorem failWith (f : Fault) : Passes old out env (Lower.failWith f : Emission α).run :=
  .fail

@[grind ←]
theorem unsupported (inst : Instruction) :
    Passes old out env (Lower.unsupported inst : Emission α).run :=
  .after fun _ => .fail

/-- What is not given has been taken. -/
theorem between {run : Environment → State → Except CompileError α × State} {a : α}
    (h : Passes (fun _ => False) out env run) (ran : run env s = (.ok a, t)) :
    s.Between t (out a) :=
  (h s a t ran).resolve_left id

end Passes

namespace Lower

variable {old : Id → Prop} {value : Value}

@[grind ←]
theorem emitValue_passes (op : Op) (type : Id) (args : List Spirv.Arg) :
    Passes old (fun id => id) env (emitValue op type args).run := by
  intro s id t ran
  obtain ⟨id, _, taken, ran⟩ := Emission.run_bind_eq_ok.1 ran
  cases taken
  obtain ⟨_, _, pushed, ran⟩ := Emission.run_bind_eq_ok.1 ran
  cases ran
  have behind := (Emission.emits_of_run pushed).nextId_le
  exact .inr ⟨Nat.le_refl _, Nat.lt_of_lt_of_le (Nat.lt_succ_self _) behind⟩

@[grind ←]
theorem operate_passes (op : Op) (type : VectorType) (args : List Id) :
    Passes old Value.id env (operate op type args).run :=
  .after fun _ => .bind (emitValue_passes _ _ _) fun _ => .pure (.inr rfl)

@[grind ←]
theorem extended_passes (op : Spirv.ExtOp) (type : VectorType) (args : List Id) :
    Passes old Value.id env (extended op type args).run :=
  .after fun _ => .after fun _ => .bind (emitValue_passes _ _ _) fun _ => .pure (.inr rfl)

theorem boolToMask_passes : Passes old Value.id env (boolToMask value).run :=
  .after fun _ => .after fun _ => operate_passes _ _ _

theorem recast_passes (given : old value.id) (scalar : ScalarType) :
    Passes old Value.id env (recast value scalar).run :=
  .ite (.pure given) (operate_passes _ _ _)

theorem bitcast_passes (given : old value.id) (scalar : ScalarType) :
    Passes old Value.id env (bitcast value scalar).run :=
  .ite (.pure given) <| .ite (.bind boolToMask_passes fun _ => recast_passes (.inr rfl) _)
    (.bind (.pure given) fun _ => recast_passes (.inr rfl) _)

theorem extract_passes (given : old value.id) (component : Nat) :
    Passes old Value.id env (extract value component).run :=
  .ite (.pure given) <| .after fun _ => .bind (emitValue_passes _ _ _) fun _ => .pure (.inr rfl)

theorem extend_passes (given : old value.id) (count : Nat) :
    Passes old Value.id env (extend value count).run :=
  .ite (.pure given) <| .after fun _ => operate_passes _ _ _

theorem padToFour_passes (given : old value.id) :
    Passes old Value.id env (padToFour value).run :=
  .ite (.pure given) <| .after fun _ => .after fun _ => operate_passes _ _ _

theorem completed_passes (given : old value.id) :
    Passes old Value.id env (completed value).run :=
  .ite (padToFour_passes given) (.pure given)

theorem pick_passes (given : old value.id) (lanes : List Nat) :
    Passes old Value.id env (pick value lanes).run := by
  refine .ite (.pure given) <| .ite (extend_passes given _) ?_
  split
  · exact extract_passes given _
  · exact .after fun _ => .bind (emitValue_passes _ _ _) fun _ => .pure (.inr rfl)

theorem swizzle_passes (given : old value.id) (lanes : List Nat) :
    Passes old Value.id env (swizzle value lanes).run :=
  .ite (.pure given) <| .ite
    (.bind (padToFour_passes given) fun _ => pick_passes (.inr rfl) _)
    (.bind (.pure given) fun _ => pick_passes (.inr rfl) _)

theorem applyModifier_passes (given : old value.id) (modifier : Modifier) :
    Passes old Value.id env (applyModifier value modifier).run :=
  .bind (.ite (extended_passes _ _ _) (.pure given)) fun _ =>
    .ite (operate_passes _ _ _) (.pure (.inr rfl))

/-- What is read from a place has been loaded. -/
theorem readPlace_passes (op : Operand) (steps : List (Emission Id)) (lanes : List Nat)
    (scalar : ScalarType) : Passes old Value.id env (readPlace op steps lanes scalar).run := by
  refine .after fun p => ?_
  have loaded : Passes old Value.id env (load p).run :=
    .after fun _ => .bind (emitValue_passes _ _ _) fun _ => .pure (.inr rfl)
  exact .bind loaded fun _ => .bind (completed_passes (.inr rfl)) fun _ =>
    .bind (swizzle_passes (.inr rfl) _) fun _ => bitcast_passes (.inr rfl) _

/-- A source that is not an immediate is computed. -/
theorem readOperand_passes {op : Operand} (place : op.type ≠ .imm32) (mask : WriteMask) :
    Passes old Value.id env (readOperand op mask).run := by
  rw [readOperand_eq]
  refine .bind ?_ fun _ => applyModifier_passes (.inr rfl) _
  unfold readLanes
  dsimp only
  split
  · next is => exact absurd is place
  · exact .failWith _
  · exact readPlace_passes _ _ _ _

theorem compose_passes (scalar : ScalarType) (parts : List Id) :
    Passes (fun id => old id ∨ id ∈ parts) Value.id env (compose scalar parts).run := by
  unfold compose
  split
  · exact .pure (.inr List.mem_cons_self)
  · exact operate_passes _ _ _

theorem perComponent_passes {count : Nat} {scalar : ScalarType} {f : Nat → Emission Id}
    (each : ∀ c, Passes (fun _ => False) (fun id => id) env (f c).run) :
    Passes old Value.id env (perComponent count scalar f).run := by
  intro s v u ran
  obtain ⟨parts, t, ran, ran'⟩ := Emission.run_bind_eq_ok.1 ran
  have ahead := (Emission.emits_of_run ran).nextId_le
  have behind := (Emission.emits_of_run ran').nextId_le
  have all {list : List Nat} : ∀ {s t : State} {parts : List Id},
      (list.mapM f).run env s = (.ok parts, t) → ∀ id ∈ parts, s.Between t id := by
    induction list with
    | nil =>
      intro s t parts ran
      rw [List.mapM_nil] at ran
      cases ran
      exact nofun
    | cons c rest ih =>
      intro s t parts ran
      rw [List.mapM_cons] at ran
      obtain ⟨part, s₁, computed, ran⟩ := Emission.run_bind_eq_ok.1 ran
      obtain ⟨others, s₂, more, ran⟩ := Emission.run_bind_eq_ok.1 ran
      cases ran
      have ahead := (Emission.emits_of_run computed).nextId_le
      have behind := (Emission.emits_of_run more).nextId_le
      refine List.forall_mem_cons.2 ⟨?_, fun id hid => (ih more id hid).widen ahead (Nat.le_refl _)⟩
      exact ((each c).between computed).widen (Nat.le_refl _) behind
  have composed : Passes (fun id => False ∨ id ∈ parts) Value.id env (compose scalar parts).run :=
    compose_passes scalar parts
  rcases composed t v u ran' with (no | mem) | new
  · exact no.elim
  · exact .inr ((all ran v.id mem).widen (Nat.le_refl _) behind)
  · exact .inr (new.widen ahead (Nat.le_refl _))

theorem firstBitFromTop_passes (op : Spirv.ExtOp) (a : Value) (count : Nat) :
    Passes old Value.id env (firstBitFromTop op a count).run :=
  .after fun _ => .after fun _ => .after fun _ => .after fun _ => .after fun _ => .after fun _ =>
    operate_passes _ _ _

theorem extractField_passes (isSigned : Bool) (width offset value : Value) :
    Passes old Value.id env (extractField isSigned width offset value).run :=
  .after fun _ => .after fun _ => .after fun _ => perComponent_passes fun _ =>
    .after fun _ => .after fun _ => .after fun _ => .after fun _ => .after fun _ =>
    emitValue_passes _ _ _

theorem insertField_passes (width offset field base : Value) :
    Passes old Value.id env (insertField width offset field base).run :=
  .after fun _ => .after fun _ => .after fun _ => .after fun _ => perComponent_passes fun _ =>
    .after fun _ => .after fun _ => .after fun _ => .after fun _ => .after fun _ =>
    .after fun _ => emitValue_passes _ _ _

theorem packHalf_passes (a : Value) : Passes old Value.id env (packHalf a).run :=
  perComponent_passes fun _ => .after fun _ => .after fun _ => .after fun _ =>
    .bind (extended_passes _ _ _) fun _ => .pure (.inr rfl)

theorem unpackHalf_passes (a : Value) : Passes old Value.id env (unpackHalf a).run :=
  .after fun _ => perComponent_passes fun _ => .after fun _ =>
    .bind (extended_passes _ _ _) fun _ => .bind (extract_passes (.inr rfl) _) fun _ =>
    .pure (.inr rfl)

/-- Everything but a move computes its result. -/
theorem computeVector_passes {inst : Instruction} {op : Opcode} {src : Nat → Emission Value}
    {count : Nat} (computes : op ≠ .mov) :
    Passes old Value.id env (computeVector inst op src count).run := by
  have field := @extractField_passes env old
  have inserted := @insertField_passes env old
  have packed := @packHalf_passes env old
  have unpacked := @unpackHalf_passes env old
  have first := @firstBitFromTop_passes env old
  have mask := @boolToMask_passes env old
  unfold computeVector
  dsimp only
  -- The tables of opcodes come first, each with an operation of its own.
  iterate 8
    split
    · grind
  split <;> grind

end Lower

/-- A constant that any number of instructions may refer to. -/
def Spirv.Module.IsLiteral (m : Module) (id : Id) : Prop :=
  ∃ i ∈ m.globals.toList, i.result? = some id ∧
    (i.op = .ordinary .constant ∨ i.op = .ordinary .constantComposite)

instance (m : Module) (id : Id) : Decidable (m.IsLiteral id) :=
  inferInstanceAs (Decidable (∃ i ∈ m.globals.toList, _))

theorem Spirv.Module.IsLiteral.mono {m n : Module} {id : Id} (h : m.IsLiteral id)
    (more : ∀ i ∈ m.globals.toList, i ∈ n.globals.toList) : n.IsLiteral id :=
  h.imp fun i => .imp_left (more i)

/-- A precise move of an immediate. -/
def Instruction.movesLiteral (inst : Instruction) : Bool :=
  inst.op? = some .mov && !inst.preciseMask.isEmpty && inst.src[0]?.any (·.type = .imm32)

/-- What steps do to the marks, moves of literals apart: each new id gets each mark at most once. -/
structure State.Tallies (moves : Prop) (s t : State) : Prop where
  nextId : s.builder.nextId ≤ t.builder.nextId
  globals : ∀ i ∈ s.builder.module.globals.toList, i ∈ t.builder.module.globals.toList
  tally : ∀ k, t.tally k ≤ s.tally k + (if s.Between t k.target then 1 else 0) ∨
    k = Decoration.noContraction.on k.target ∧ t.builder.module.IsLiteral k.target ∧ moves

namespace State.Tallies

variable {moves : Prop} {id : Id}

theorem of_stamps (h : s.Stamps [] t) : s.Tallies moves t where
  nextId := h.nextId
  globals := h.globals
  tally k := by
    have := h.tally k
    unfold quota at this
    rw [List.count_nil] at this
    left
    unfold Between
    split_ifs at * <;> lia

theorem refl (s : State) : s.Tallies moves s :=
  .of_stamps (.refl s)

theorem trans (first : s.Tallies moves t) (second : t.Tallies moves u) : s.Tallies moves u where
  nextId := Nat.le_trans first.nextId second.nextId
  globals i hi := second.globals i (first.globals i hi)
  tally k := by
    have sn := first.nextId
    have tn := second.nextId
    rcases second.tally k with h₂ | literal
    · rcases first.tally k with h₁ | ⟨same, literal, why⟩
      · left
        unfold Between at *
        split_ifs at * <;> lia
      · exact .inr ⟨same, literal.mono second.globals, why⟩
    · exact .inr literal

/-- What has just been computed is marked. -/
theorem mark_new (h : s.Stamps [] t) (new : s.Between t id)
    (marked : t.Stamps [Decoration.noContraction.on id] u) : s.Tallies moves u where
  nextId := Nat.le_trans h.nextId marked.nextId
  globals i hi := marked.globals i (h.globals i hi)
  tally k := by
    left
    have h₁ := h.tally k
    have h₂ := marked.tally k
    have sn := h.nextId
    have tn := marked.nextId
    obtain ⟨behind, ahead⟩ := new
    have precise : (Decoration.noContraction.on id).isPrecise = true := decide_eq_true rfl
    unfold quota at h₁ h₂
    unfold Between
    rw [List.count_nil] at h₁
    by_cases same : k = Decoration.noContraction.on id
    · have target : k.target = id := congrArg Annotation.target same
      rw [same, precise, ← same, target] at h₁ h₂
      rw [List.count_singleton_self] at h₂
      rw [target]
      split_ifs at * <;> lia
    · rw [List.count_eq_zero.2 fun mem => same (List.mem_singleton.1 mem)] at h₂
      split_ifs at * <;> lia

/-- A literal is marked. -/
theorem mark_literal (literal : t.builder.module.IsLiteral id) (why : moves)
    (ran : (Lower.decorate id .noContraction []).run env t = (.ok (), u)) : t.Tallies moves u := by
  cases ran
  refine ⟨Nat.le_refl _, fun _ hi => hi, fun k => ?_⟩
  by_cases same : k = Decoration.noContraction.on id
  · subst same
    exact .inr ⟨rfl, literal, why⟩
  · left
    have added (i : Spirv.Instr) (is : i.mark? = some (Decoration.noContraction.on id)) :
        State.tally { t with builder := t.builder.annotate i } k = t.tally k := by
      rw [State.tally, marks_annotate, List.count_append, is, ← State.tally]
      exact congrArg (t.tally k + ·)
        (List.count_eq_zero.2 fun mem => same (List.mem_singleton.1 mem))
    rw [added _ rfl]
    exact Nat.le_add_right _ _

end State.Tallies

/-- A step that marks each new id at most once in each way, literals that are moved apart. -/
def Tallying (moves : Prop) (env : Environment)
    (run : Environment → State → Except CompileError α × State) : Prop :=
  ∀ s a t, s.Bare → run env s = (.ok a, t) → t.Bare ∧ s.Tallies moves t

theorem Decorates.tallying {moves : Prop}
    {run : Environment → State → Except CompileError α × State} (h : Decorates [] env run) :
    Tallying moves env run :=
  fun s a t bare ran => (h s a t bare nofun ran).imp_right .of_stamps

namespace Tallying

variable {moves : Prop}

theorem andThen {run : Environment → State → Except CompileError α × State}
    {next : α → Environment → State → Except CompileError β × State}
    (first : Tallying moves env run) (later : ∀ a, Tallying moves env (next a)) :
    Tallying moves env fun env s => Lower.andThen (run env s) fun a t => next a env t := by
  intro s b u bare ran
  obtain ⟨a, t, ran, ran'⟩ := Lower.andThen_eq_ok.1 ran
  obtain ⟨bare', tallies⟩ := first s a t bare ran
  obtain ⟨bare'', tallies'⟩ := later a t b u bare' ran'
  exact ⟨bare'', tallies.trans tallies'⟩

/-- A result that may be contracted only where the instruction lets it be. It is new, or it is a
literal that is moved. -/
theorem result {e : Emission Value} {inst : Instruction} {f : Value → Emission β}
    (unmarked : Decorates [] env e.run)
    (origin : ∀ s v t, e.run env s = (.ok v, t) → s.Between t v.id ∨
      (v.type.scalar = .f32 → inst.preciseMask.isEmpty = false →
        t.builder.module.IsLiteral v.id ∧ moves))
    (later : ∀ v, Decorates [] env (f v).run) :
    Tallying moves env (e >>= fun v => Lower.markPrecise inst v >>= fun _ => f v).run := by
  intro s b w bare ran
  obtain ⟨v, t, computed, ran⟩ := Emission.run_bind_eq_ok.1 ran
  obtain ⟨_, u, marked, ran⟩ := Emission.run_bind_eq_ok.1 ran
  obtain ⟨bare₁, stamps⟩ := unmarked s v t bare nofun computed
  have tallied : u.Bare ∧ s.Tallies moves u := by
    unfold Lower.markPrecise at marked
    split at marked
    · next precise =>
      rcases origin s v t computed with new | literal
      · have decorated : Decorates [Decoration.noContraction.on v.id] env
            (Lower.decorate v.id .noContraction []).run := .annotate rfl
        obtain ⟨bare₂, stamped⟩ :=
          decorated t () u bare₁ (List.forall_mem_singleton.2 new.2) marked
        exact ⟨bare₂, .mark_new stamps new stamped⟩
      · obtain ⟨literal, why⟩ := literal precise.1 (Bool.eq_false_iff.2 precise.2)
        refine ⟨?_, (State.Tallies.of_stamps stamps).trans (.mark_literal literal why marked)⟩
        cases marked
        exact bare₁
    · cases marked
      exact ⟨bare₁, .of_stamps stamps⟩
  obtain ⟨bare₃, stamps₃⟩ := later v u b w tallied.1 nofun ran
  exact ⟨bare₃, tallied.2.trans (.of_stamps stamps₃)⟩

end Tallying

namespace Lower

variable {inst : Instruction} {op : Operand} {mask : WriteMask} {v : Value}

theorem constantValue_literal {bits : List UInt32}
    (ran : (constantValue .f32 bits).run env s = (.ok v, t)) :
    t.builder.module.IsLiteral v.id := by
  obtain ⟨id, _, made, ran⟩ := Emission.run_bind_eq_ok.1 ran
  cases ran
  obtain ⟨parts, u, constants, made⟩ := Emission.run_bind_eq_ok.1 made
  split at made
  · next part =>
    cases made
    obtain _ | ⟨first, rest⟩ := bits
    · cases constants
    rw [List.mapM_cons] at constants
    obtain ⟨id, u₁, declared, constants⟩ := Emission.run_bind_eq_ok.1 constants
    obtain ⟨others, u₂, more, constants⟩ := Emission.run_bind_eq_ok.1 constants
    cases constants
    obtain ⟨type, _, _, declared⟩ := Emission.run_bind_eq_ok.1 declared
    have grown := (Emission.emits_of_run more).globals
    exact ⟨_, grown.subset (declare_mem declared), rfl, .inl rfl⟩
  · obtain ⟨type, _, _, made⟩ := Emission.run_bind_eq_ok.1 made
    exact ⟨_, declare_mem made, rfl, .inr rfl⟩

/-- A float operand is computed, or it is a literal and the operand an immediate. -/
theorem readOperand_origin (ran : (readOperand op mask).run env s = (.ok v, t)) :
    s.Between t v.id ∨
      (v.type.scalar = .f32 → t.builder.module.IsLiteral v.id ∧ op.type = .imm32) := by
  by_cases immediate : op.type = .imm32
  · rw [readOperand_eq] at ran
    obtain ⟨w, u, read, modified⟩ := Emission.run_bind_eq_ok.1 ran
    have type := applyModifier_type modified
    have ahead := (Emission.emits_of_run read).nextId_le
    have grown := (Emission.emits_of_run modified).globals
    have passes : Passes (w.id = ·) Value.id env (applyModifier w op.modifier).run :=
      applyModifier_passes rfl op.modifier
    rcases passes u v t modified with same | new
    · refine .inr fun float => ⟨?_, immediate⟩
      unfold readLanes at read
      rw [immediate] at read
      have scalar : ScalarType.ofData op.data = .f32 := by
        rw [← float, type, constantValue_type read]
      rw [scalar] at read
      rw [← same]
      exact (constantValue_literal read).mono fun i hi => grown.subset hi
    · exact .inl (new.widen ahead (Nat.le_refl _))
  · have passes : Passes (fun _ => False) Value.id env (readOperand op mask).run :=
      readOperand_passes immediate mask
    exact .inl (passes.between ran)

/-- The first source is as it was read. -/
theorem readSources_origin {values : List Value}
    (ran : (readSources inst mask).run env s = (.ok values, t)) (is : values[0]? = some v) :
    s.Between t v.id ∨ (v.type.scalar = .f32 →
      t.builder.module.IsLiteral v.id ∧ inst.src[0]?.any (·.type = .imm32) = true) := by
  unfold readSources at ran
  cases srcs : inst.src with
  | nil =>
    rw [srcs, List.mapM_nil] at ran
    cases ran
    cases is
  | cons op rest =>
    rw [srcs, List.mapM_cons] at ran
    obtain ⟨w, u, read, ran⟩ := Emission.run_bind_eq_ok.1 ran
    obtain ⟨others, u', more, ran⟩ := Emission.run_bind_eq_ok.1 ran
    cases ran
    cases is
    have behind := (Emission.emits_of_run more).nextId_le
    have grown := (Emission.emits_of_run more).globals
    refine (readOperand_origin read).imp (·.widen (Nat.le_refl _) behind) fun literal float => ?_
    obtain ⟨literal, immediate⟩ := literal float
    exact ⟨literal.mono fun i hi => grown.subset hi, decide_eq_true immediate⟩

/-- The result of an instruction is computed, or it is a literal and the instruction moves it. -/
theorem vectorResult_origin (ran : (vectorResult inst mask).run env s = (.ok v, t)) :
    s.Between t v.id ∨ (v.type.scalar = .f32 → inst.preciseMask.isEmpty = false →
      t.builder.module.IsLiteral v.id ∧ inst.movesLiteral = true) := by
  obtain ⟨sources, u, read, ran⟩ := Emission.run_bind_eq_ok.1 ran
  have ahead := (Emission.emits_of_run read).nextId_le
  cases is : inst.op? with
  | none =>
    rw [is] at ran
    cases ran
  | some op =>
    rw [is] at ran
    by_cases moves : op = .mov
    · subst moves
      have ran : (orFault sources[0]? (.missingSource inst.name 0)).run env u = (.ok v, t) := ran
      obtain ⟨found, rfl⟩ : sources[0]? = some v ∧ u = t := by
        cases first : sources[0]? <;> rw [first] at ran <;> cases ran
        exact ⟨rfl, rfl⟩
      refine (readSources_origin read found).imp_right fun literal float precise => ?_
      obtain ⟨literal, immediate⟩ := literal float
      refine ⟨literal, ?_⟩
      unfold Instruction.movesLiteral
      rw [is, precise, immediate]
      rfl
    · have passes : Passes (fun _ => False) Value.id env
          (computeVector inst op (fun n => orFault sources[n]? (.missingSource inst.name n))
            mask.count).run := computeVector_passes moves
      exact .inl ((passes.between ran).widen ahead (Nat.le_refl _))

end Lower

end ShaderLowering
