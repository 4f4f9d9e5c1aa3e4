import ShaderLowering.Proofs.Scope.Discipline
import ShaderLowering.Proofs.Scope.Requests

/-!
Requests in the course of a lowering. A session consists of the changes that lowering makes and of
requests, in any order. A change adds no type and no constant but by a declaration that is not
there yet, so what has been answered stays answered, and no declaration repeats another.
-/

namespace ShaderLowering

open Spirv (Id Instr Arg Op Module Builder StorageClass)

variable {H : Limits} {env : Environment} {binds : Descriptor → Prop} {s t : State}
  {x y : Configuration}

theorem Limits.Emits.isSingle {op : Op} (h : H.Emits op) : op.isSingle = false := by
  rcases h with plain | ⟨event, _⟩
  · cases op <;> first | rfl | cases plain
  · cases op <;> first | rfl | cases event

theorem Spirv.Op.isSingle_of_isAggregate {op : Op} (aggregate : op.isAggregate = true) :
    op.isSingle = false := by
  cases op <;> first | rfl | cases aggregate

namespace Spirv.Builder

variable {b c : Builder} {i : Instr}

theorem Like.interns (like : b.Like c) (interns : b.Interns) : c.Interns := by
  refine interns.of_eq (like.sound interns.sound) like.types like.constants (fun i mem => ?_) ?_
  · rw [like.globals] at mem
    exact .inl mem
  · refine interns.single.of_eq like.globals fun j mem => .inl ?_
    rwa [Module.bodies, like.functions] at mem

/-- Nothing single is appended to a block. -/
theorem Interns.push (interns : b.Interns) (placed : b.push i = .ok c) (sound : c.Sound)
    (other : i.isSingle = false) : c.Interns := by
  have appends := interns.sound.appends placed
  have single : c.module.Single := by
    refine interns.single.of_eq appends.globals fun j mem => ?_
    refine ((appends.mem_bodies j).1 mem).imp_right ?_
    rintro rfl
    exact other
  obtain ⟨_, _, _, _, rfl⟩ := push_eq_ok.1 placed
  exact interns.of_eq sound rfl rfl (fun _ => .inl) single

/-- Nothing single is added to the globals but by a request. -/
theorem Interns.addGlobal (interns : b.Interns) (sound : (b.addGlobal i).Sound)
    (other : i.isSingle = false) : (b.addGlobal i).Interns := by
  have single : (b.addGlobal i).module.Single :=
    single_addGlobal interns.single fun one => by cases other.symm.trans one
  refine interns.of_eq sound rfl rfl (fun j mem => ?_) single
  change j ∈ (b.module.globals.push i).toList at mem
  rw [Array.toList_push] at mem
  rcases List.mem_append.1 mem with old | last
  · exact .inl old
  · cases List.mem_singleton.1 last
    exact .inr other

theorem Interns.fresh (interns : b.Interns) : b.fresh.2.Interns :=
  interns.of_eq interns.sound.fresh rfl rfl (fun _ => .inl) interns.single

theorem Interns.variable_ (interns : b.Interns) (pointer : Id) (storage : StorageClass)
    (initial? : Option Id) : (b.variable_ pointer storage initial?).2.Interns := by
  have sound := interns.sound.variable_ pointer storage initial?
  unfold Builder.variable_ at sound ⊢
  dsimp only [Builder.fresh] at sound ⊢
  split at sound
  · next c placed => exact interns.fresh.push placed sound rfl
  · exact interns.fresh.addGlobal sound rfl

end Spirv.Builder

theorem Creates.interns {id : Id} {storage : StorageClass} {marks : List Instr}
    (h : Creates H s t id storage marks) (interns : s.builder.Interns) : t.builder.Interns := by
  obtain ⟨pointer, initial?, _, like⟩ := h.built
  exact like.interns (interns.variable_ pointer storage initial?)

theorem Act.interns (h : Act H env s t) (sound : t.builder.Sound) (interns : s.builder.Interns) :
    t.builder.Interns := by
  cases h with
  | declare _ proper => exact interns.declare proper
  | declareNew _ aggregate =>
    exact interns.fresh.addGlobal sound (Spirv.Op.isSingle_of_isAggregate aggregate)
  | compute emits placed => exact interns.fresh.push placed sound emits.isSingle
  | emit emits placed => exact interns.push placed sound emits.isSingle
  | create creates | builtin _ creates | locate _ _ creates => exact creates.interns interns
  | annotate plain => exact (s.builder.like_annotate plain.result?).interns interns
  | note like => exact like.interns interns
  | bind _ binds =>
    obtain ⟨_, _, _, _, _, creates, _⟩ := binds.made
    exact creates.interns interns

/-- A move that is not an act leaves the tables alone. -/
theorem Move.tables_eq (h : Move H env x y) :
    Act H env x.state y.state ∨ y.state.builder.tables.types = x.state.builder.tables.types ∧
      y.state.builder.tables.constants = x.state.builder.tables.constants := by
  cases h with
  | act act => exact .inl act
  | reserve | forget | place | leave | openFunction | closeFunction => exact .inr ⟨rfl, rfl⟩
  | exit ended =>
    obtain ⟨_, placed, rfl⟩ := Spirv.Builder.terminate_eq_ok.1 ended
    obtain ⟨_, _, _, _, rfl⟩ := Spirv.Builder.push_eq_ok.1 placed
    exact .inr ⟨rfl, rfl⟩
  | merge placed =>
    obtain ⟨_, _, _, _, rfl⟩ := Spirv.Builder.push_eq_ok.1 placed
    exact .inr ⟨rfl, rfl⟩
  | reopen opened =>
    rw [Spirv.Builder.reopenBlock_eq_ok opened]
    exact .inr ⟨rfl, rfl⟩
  | note builder =>
    exact .inr ⟨congrArg (·.tables.types) builder, congrArg (·.tables.constants) builder⟩

theorem Move.grows (h : Move H env x y) :
    x.state.builder.tables.Grows y.state.builder.tables := by
  rcases h.tables_eq with act | ⟨types, constants⟩
  · exact act.within.tables
  · exact .of_eq types constants

theorem Move.interns (h : Move H env x y) (sound : y.state.builder.Sound)
    (interns : x.state.builder.Interns) : y.state.builder.Interns := by
  rcases h.steers interns.sound with act | ⟨_, globals, bodies⟩
  · exact act.interns sound interns
  rcases h.tables_eq with act | ⟨types, constants⟩
  · exact act.interns sound interns
  refine interns.of_eq sound types constants (fun i mem => ?_) ?_
  · rw [globals] at mem
    exact .inl mem
  · refine interns.single.of_eq globals fun j mem => (bodies j mem).imp_right ?_
    rintro ⟨op, is⟩
    rw [Instr.isSingle, is]

/-- A session leads from the opened module through changes of a lowering, and is interrupted by
requests, which are recorded with their answers. -/
inductive Session (env : Environment) : List (Request × Id) → Configuration → Prop
  | opened {stage : StageState} (start : StageState.initial? env.stage = some stage) :
    Session env [] ⟨.opened env.options.version stage, []⟩
  | advance {log : List (Request × Id)} {x y : Configuration} (before : Session env log x)
    (next : Advance (fun _ => True) env x y) : Session env log y
  | ask {log : List (Request × Id)} {x : Configuration} {r : Request} {id : Id} {t : State}
    (before : Session env log x) (canonical : r.IsCanonical)
    (ran : r.emission.run env x.state = (.ok id, t)) :
    Session env (log ++ [(r, id)]) ⟨t, x.reserved⟩

/-- A builder whose tables are in order and hold the answers that have been given. -/
structure Spirv.Builder.Upholds (b : Builder) (log : List (Request × Id)) : Prop where
  interns : b.Interns
  answers : ∀ p ∈ log, p.1.IsCanonical ∧ p.1.answer? b.tables = some p.2

namespace Spirv.Builder.Upholds

variable {b c : Builder} {log : List (Request × Id)}

/-- Requests have the same answer if they are the same, and only then. -/
theorem eq_iff (h : b.Upholds log) {p q : Request × Id} (hp : p ∈ log) (hq : q ∈ log) :
    p.2 = q.2 ↔ p.1.normal = q.1.normal :=
  Request.answer_eq_iff h.interns (h.answers p hp).2 (h.answers q hq).2

theorem mono (h : b.Upholds log) (interns : c.Interns) (grows : b.tables.Grows c.tables) :
    c.Upholds log := by
  refine ⟨interns, fun p mem => ?_⟩
  obtain ⟨canonical, answered⟩ := h.answers p mem
  exact ⟨canonical, (p.1.answers canonical).stays answered grows⟩

theorem advance (h : x.state.builder.Upholds log) (next : Advance binds env x y) :
    y.state.builder.Upholds log := by
  cases next with
  | move _ ready move => exact h.mono (move.interns (move.ready ready).sound h.interns) move.grows
  | restage => exact h.mono h.interns fun _ _ => id

theorem ask (h : s.builder.Upholds log) {r : Request} {id : Id} (canonical : r.IsCanonical)
    (ran : r.emission.run env s = (.ok id, t)) : t.builder.Upholds (log ++ [(r, id)]) := by
  obtain ⟨id', t', ran', interns, grows, answered⟩ :=
    (r.answers canonical).runs env s h.interns trivial
  cases ran.symm.trans ran'
  refine ⟨interns, fun p mem => ?_⟩
  rcases List.mem_append.1 mem with mem | mem
  · exact (h.mono interns grows).answers p mem
  · cases List.mem_singleton.1 mem
    exact ⟨canonical, answered⟩

theorem opened {stage : StageState} (start : StageState.initial? env.stage = some stage) :
    (State.opened env.options.version stage).builder.Upholds [] := by
  have ready : Ready (.tables ((State.opened env.options.version stage).allowance fun _ => True))
      (.opened env.options.version stage) := State.ready_opened start
  refine ⟨⟨ready.sound, ⟨.nil, fun _ mem => absurd mem List.not_mem_nil⟩, fun key id found => ?_,
    fun _ mem => absurd mem List.not_mem_nil⟩, fun _ mem => absurd mem List.not_mem_nil⟩
  cases key <;> cases found

end Spirv.Builder.Upholds

namespace Session

variable {log : List (Request × Id)}

theorem upholds (session : Session env log x) : x.state.builder.Upholds log := by
  induction session with
  | opened start => exact .opened start
  | advance _ next ih => exact ih.advance next
  | ask _ canonical ran ih => exact ih.ask canonical ran

theorem path (session : Session env log x) (path : Path binds env x y) : Session env log y := by
  induction path with
  | refl => exact session
  | tail _ last ih =>
    refine ih.advance ?_
    cases last with
    | move _ ready move => exact .move (fun _ _ => trivial) ready move
    | restage => exact .restage

/-- A course is a session without requests of its own. -/
theorem of_course {stage : StageState} {insts : List Instruction}
    (start : StageState.initial? env.stage = some stage)
    (course : Course env env.options.version stage insts x) : Session env [] x := by
  induction course with
  | begin path => exact (Session.opened start).path path
  | step _ path _ ih => exact ih.path path

end Session

theorem State.Announced.interns (h : s.Announced env t) (interns : s.builder.Interns) :
    t.builder.Interns := by
  obtain ⟨_, _, rfl⟩ := h
  have sound := interns.sound
  refine interns.of_eq ?_ rfl rfl (fun _ => .inl) (interns.single.of_eq rfl fun _ => .inl)
  exact ⟨sound.function, sound.block, sound.below, sound.distinct, sound.interned, sound.named⟩

/-- In every session, requests are answered, with the same id if they are the same and only then,
and no declaration repeats another. The lowering of a shader is a session, up to the announcement
of the entry point; its own requests are those that its tables hold. -/
theorem interned_once (env : Environment) :
    (∀ log x, Session env log x →
      (∀ p ∈ log, ∀ q ∈ log, p.2 = q.2 ↔ p.1.normal = q.1.normal) ∧
        (∀ r : Request, r.IsCanonical → ∃ id t, r.emission.run env x.state = (.ok id, t)) ∧
          x.state.builder.Interns ∧ x.state.builder.tables.Exact) ∧
      ∀ insts l, lowerInstructions env insts = .ok l →
        l.state.builder.Interns ∧ l.state.builder.tables.Exact ∧
          ∃ x, Session env [] x ∧ x.state.Announced env l.state := by
  refine ⟨fun log x session => ?_, fun insts l lowered => ?_⟩
  · have upholds := session.upholds
    refine ⟨fun p hp q hq => upholds.eq_iff hp hq, fun r canonical => ?_, upholds.interns,
      upholds.interns.exact⟩
    obtain ⟨id, t, ran, _⟩ := (r.answers canonical).runs env x.state upholds.interns trivial
    exact ⟨id, t, ran⟩
  · obtain ⟨_, stage, x, y, start, course, path, announced⟩ := lowerInstructions_course lowered
    have session := (Session.of_course start course).path path
    have interns := announced.interns session.upholds.interns
    exact ⟨interns, interns.exact, y, session, announced⟩

/-- A vector asked for twice, a vector of one component and its component, equal bits of two types,
a truth value, and an array that has no elements, in front of a pixel shader that does nothing. -/
theorem interned_once_idleInput :
    ∃ insts l log x, idleInput.instructions = .ok insts ∧
      lowerInstructions (idleInput.environment insts ⟨[], [], []⟩ .default) insts = .ok l ∧
      Session (idleInput.environment insts ⟨[], [], []⟩ .default) log x ∧
      log = [(.vector .f32 4, 3), (.vector .f32 4, 3), (.vector .u32 1, 4), (.scalar .u32, 4),
        (.constant .u32 1, 5), (.constant .i32 1, 7), (.constant .bool 1, 9),
        (.array .f32 4 0, 3)] ∧
      (∀ p ∈ log, ∀ q ∈ log, p.2 = q.2 ↔ p.1.normal = q.1.normal) ∧
      x.state.builder.module.Single ∧ l.state.builder.module.Single := by
  obtain ⟨_, insts, l, _, lowered, _, decoded, _⟩ :=
    exists_compile idleInput ⟨[], [], []⟩ .default (fun _ _ _ => true) (by decide +kernel)
  have opened : Session (idleInput.environment insts ⟨[], [], []⟩ .default) []
      ⟨.opened Options.default.version (.pixel none false), []⟩ := .opened rfl
  have vector := (opened.ask (r := .vector .f32 4) trivial rfl).ask (r := .vector .f32 4)
    trivial rfl
  have single := (vector.ask (r := .vector .u32 1) trivial rfl).ask (r := .scalar .u32) trivial rfl
  have numbers := (single.ask (r := .constant .u32 1) ScalarType.IsNumeric.truth rfl).ask
    (r := .constant .i32 1) ScalarType.IsNumeric.truth rfl
  have truth := numbers.ask (r := .constant .bool 1) (fun _ => UInt32.le_refl 1) rfl
  have session := truth.ask (r := .array .f32 4 0) trivial rfl
  obtain ⟨sessions, lowerings⟩ :=
    interned_once (idleInput.environment insts ⟨[], [], []⟩ .default)
  obtain ⟨same, _, interns, _⟩ := sessions _ _ session
  exact ⟨insts, l, _, _, decoded, lowered, session, rfl, same, interns.single,
    (lowerings insts l lowered).1.single⟩

end ShaderLowering
