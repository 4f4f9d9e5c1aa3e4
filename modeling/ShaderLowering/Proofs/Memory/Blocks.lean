import ShaderLowering.Proofs.Memory.Steps
import ShaderLowering.Proofs.Scope.Control
import ShaderLowering.Proofs.WellFormed.Entry

/-!
Running a function block by block. A thread is an invocation with the code that is left of its
block; a branch takes it to the code of another. A lowering step that directs control ends in the
open block of a draft, and what that block goes on with is not known yet. So what is said of such a
step is said of every function in which the draft goes on: a thread in front of the code of the step
gets to what comes after it.
-/

namespace ShaderLowering

open Spirv (Id Instr Arg Op Module Function Node Merge Exit Datum Invocation World)

namespace Spirv

/-- The code of the block with a label. -/
def Function.code? (f : Function) (label : Id) : Option (List Instr) :=
  (f.blocks.toList.find? fun b => b.label = label).map fun b => b.body.toList

/-- An invocation on its way, and the code that is left of the block it is in. -/
structure Thread where
  rest : List Instr
  invocation : Invocation

namespace World

variable (w : World) (m : Module) (f : Function)

/-- What a thread does next. Merges are announced and do nothing. -/
def advance? (t : Thread) : Option Thread :=
  match t.rest with
  | [] => none
  | i :: rest =>
    match i.op, i.args with
    | .ordinary _, _ => (w.act? m t.invocation i).map fun ν => ⟨rest, ν⟩
    | .control .selectionMerge, _ | .control .loopMerge, _ => some ⟨rest, t.invocation⟩
    | .control .branch, [.id label] => (f.code? label).map fun code => ⟨code, t.invocation⟩
    | .control .branchConditional, [.id condition, .id yes, .id no] =>
      match m.datum? t.invocation.values condition with
      | some (.truths [b]) =>
        (f.code? (if b then yes else no)).map fun code => ⟨code, t.invocation⟩
      | _ => none
    | .control _, _ => none

/-- Where a thread gets to. -/
def Arrives : Thread → Thread → Prop :=
  Relation.ReflTransGen fun t u => w.advance? m f t = some u

/-- A run of a function from its first block up to a return. -/
def Returns (μ ν : Invocation) : Prop :=
  ∃ b, f.blocks[0]? = some b ∧ w.Arrives m f ⟨b.body.toList, μ⟩ ⟨[Exit.ret.instr], ν⟩

end World

namespace World

variable {w : World} {m : Module} {f : Function} {μ ν κ : Invocation} {code rest : List Instr}
  {t u : Thread}

theorem Arrives.of_advance (h : w.advance? m f t = some u) : w.Arrives m f t u :=
  .single h

/-- A thread that cannot go on is where it is. -/
theorem Arrives.eq_of_stuck (h : w.Arrives m f t u) (stuck : w.advance? m f t = none) : u = t := by
  cases Relation.ReflTransGen.cases_head h with
  | inl same => exact same.symm
  | inr more =>
    obtain ⟨v, next, _⟩ := more
    cases stuck.symm.trans next

/-- Threads do not choose: of two places that one gets to, the end is behind the other. -/
theorem Arrives.unique {v : Thread} (h : w.Arrives m f t u) (h' : w.Arrives m f t v)
    (ends : w.advance? m f u = none) (ends' : w.advance? m f v = none) : u = v := by
  induction h using Relation.ReflTransGen.head_induction_on with
  | refl => exact (h'.eq_of_stuck ends).symm
  | head next _ ih =>
    cases Relation.ReflTransGen.cases_head h' with
    | inl same =>
      subst same
      cases ends'.symm.trans next
    | inr more =>
      obtain ⟨x, next', later⟩ := more
      cases next.symm.trans next'
      exact ih later

/-- A function returns in one way. -/
theorem Returns.unique (h : w.Returns m f μ ν) (h' : w.Returns m f μ κ) : ν = κ := by
  obtain ⟨b, first, arrives⟩ := h
  obtain ⟨b', first', arrives'⟩ := h'
  cases first.symm.trans first'
  cases arrives.unique arrives' rfl rfl
  rfl

/-- What can be done is ordinary. -/
theorem advance?_act {i : Instr} (h : w.act? m μ i = some ν) :
    w.advance? m f ⟨i :: rest, μ⟩ = some ⟨rest, ν⟩ := by
  have ordinary : ∃ op, i.op = .ordinary op := by
    unfold act? at h
    split at h <;> first | exact ⟨_, rfl⟩ | cases h
  obtain ⟨op, type?, result?, args⟩ := i
  obtain ⟨op, rfl⟩ := ordinary
  change (w.act? m μ _).map _ = _
  rw [h]
  rfl

theorem arrives_run (h : w.run m code μ = some ν) :
    w.Arrives m f ⟨code ++ rest, μ⟩ ⟨rest, ν⟩ := by
  induction code generalizing μ with
  | nil =>
    cases h
    exact .refl
  | cons i later ih =>
    obtain ⟨κ, acted, ran⟩ := Option.bind_eq_some_iff.1 h
    exact .head (advance?_act acted) (ih ran)

theorem arrives_merge (merge : Merge) : w.Arrives m f ⟨merge.instr :: rest, μ⟩ ⟨rest, μ⟩ := by
  cases merge <;> exact .of_advance rfl

theorem arrives_branch {label : Id} (here_ : f.code? label = some code) :
    w.Arrives m f ⟨[(Exit.branch label).instr], μ⟩ ⟨code, μ⟩ := by
  refine .of_advance ?_
  change (f.code? label).map _ = _
  rw [here_]
  rfl

theorem arrives_test {condition yes no : Id} {b : Bool}
    (known : m.datum? μ.values condition = some (.truths [b]))
    (here_ : f.code? (if b then yes else no) = some code) :
    w.Arrives m f ⟨[(Exit.test condition yes no).instr], μ⟩ ⟨code, μ⟩ := by
  refine .of_advance ?_
  unfold advance?
  dsimp only [Exit.instr, Instr.control]
  rw [known]
  dsimp only
  rw [here_]
  rfl

end World

/-- Where the labels that a block names are placed once, a label leads to its block. -/
theorem Function.WellFormed.code? {f : Function} (formed : f.WellFormed) {b c : Block} {i : Instr}
    (hb : b ∈ f.blocks) (hi : i ∈ b.body) (named : c.label ∈ i.labels) (hc : c ∈ f.blocks) :
    f.code? c.label = some c.body.toList := by
  have once := formed.placed b hb i hi c.label named
  have only (l : List Block) (mem : c ∈ l) (once : (l.map (·.label)).count c.label = 1) :
      l.find? (fun b => b.label = c.label) = some c := by
    induction l with
    | nil => cases mem
    | cons first others ih =>
      rw [List.map_cons, List.count_cons] at once
      rcases List.mem_cons.1 mem with rfl | mem
      · rw [List.find?_cons, decide_eq_true rfl]
      · have there : 0 < (others.map (·.label)).count c.label :=
          List.count_pos_iff.2 (List.mem_map_of_mem mem)
        have apart : first.label ≠ c.label := by
          intro same
          rw [same, beq_self_eq_true, if_pos rfl] at once
          omega
        rw [beq_eq_false_iff_ne.2 apart, if_neg Bool.false_ne_true] at once
        rw [List.find?_cons, decide_eq_false apart]
        exact ih mem once
  rw [Function.code?, only _ (Array.mem_toList_iff.2 hc) once]
  rfl

/-- The code of a loop: what it tests, what it does then, and what it does in front of the next
round. -/
structure LoopCode where
  test : List Instr
  condition : Id
  body : List Instr
  next : List Instr

namespace LoopCode

/-- What the condition is found to be, in a module and in each that it may grow into. -/
def Decides (c : LoopCode) (m : Module) (μ : Invocation) (b : Bool) : Prop :=
  ∀ n : Module, m.Grows n → n.Distinct → n.datum? μ.values c.condition = some (.truths [b])

/-- Rounds of a loop, up to the test that fails. -/
inductive Runs (c : LoopCode) (w : World) (m : Module) : Invocation → Invocation → Prop
  | done {μ ν : Invocation} (tested : w.Runs m c.test μ ν) (fails : c.Decides m ν false) :
    Runs c w m μ ν
  | again {μ ν κ : Invocation} {μ₁ μ₂ : Invocation} (tested : w.Runs m c.test μ μ₁)
    (holds : c.Decides m μ₁ true) (acted : w.Runs m c.body μ₁ μ₂) (counted : w.Runs m c.next μ₂ ν)
    (rest : Runs c w m ν κ) : Runs c w m μ κ

/-- A loop comes to its end if what it knows says which way the test goes, and each round keeps that
for a lower count. -/
theorem exists_runs {c : LoopCode} {w : World} {m : Module} {bound : Id}
    (Inv Half : Nat → Invocation → Prop)
    (tests : ∀ κ, ∃ ν, w.Runs m c.test κ ν ∧ Invocation.Agrees bound κ ν ∧ ∀ k, Inv k κ →
      Inv k ν ∧ c.Decides m ν (decide (k ≠ 0)))
    (acts : ∀ κ, ∃ ν, w.Runs m c.body κ ν ∧ Invocation.Agrees bound κ ν ∧ ∀ k, Inv (k + 1) κ →
      Half k ν)
    (counts : ∀ κ, ∃ ν, w.Runs m c.next κ ν ∧ Invocation.Agrees bound κ ν ∧ ∀ k, Half k κ →
      Inv k ν)
    (k : Nat) {κ : Invocation} (now : Inv k κ) :
    ∃ ν, c.Runs w m κ ν ∧ Invocation.Agrees bound κ ν ∧ Inv 0 ν := by
  induction k generalizing κ with
  | zero =>
    obtain ⟨ν, ran, agrees, decides⟩ := tests κ
    obtain ⟨now, fails⟩ := decides 0 now
    exact ⟨ν, .done ran fails, agrees, now⟩
  | succ k ih =>
    obtain ⟨κ₁, ran₁, agrees₁, decides⟩ := tests κ
    obtain ⟨now, holds⟩ := decides (k + 1) now
    obtain ⟨κ₂, ran₂, agrees₂, half⟩ := acts κ₁
    obtain ⟨κ₃, ran₃, agrees₃, now'⟩ := counts κ₂
    obtain ⟨ν, rest, agrees, last⟩ := ih (now' k (half k now))
    exact ⟨ν, .again ran₁ holds ran₂ ran₃ rest,
      ((agrees₁.trans agrees₂).trans agrees₃).trans agrees, last⟩

/-- The blocks of a loop in a function. -/
structure Stands (c : LoopCode) (f : Function) (header check body next merge : Id)
    (rest : List Instr) : Prop where
  atHeader : f.code? header = some [(Merge.loop merge next).instr, (Exit.branch check).instr]
  atCheck : f.code? check = some (c.test ++ [(Exit.test c.condition body merge).instr])
  atBody : f.code? body = some (c.body ++ [(Exit.branch next).instr])
  atNext : f.code? next = some (c.next ++ [(Exit.branch header).instr])
  atMerge : f.code? merge = some rest

/-- Rounds lead through the blocks. -/
theorem Runs.arrives {c : LoopCode} {w : World} {m n : Module} {f : Function} {μ ν : Invocation}
    {header check body next merge : Id} {rest : List Instr} (h : c.Runs w m μ ν) (grows : m.Grows n)
    (distinct : n.Distinct) (stands : c.Stands f header check body next merge rest) :
    w.Arrives n f ⟨[(Exit.branch header).instr], μ⟩ ⟨rest, ν⟩ := by
  have tests {μ ν : Invocation} (tested : w.Runs m c.test μ ν) :
      w.Arrives n f ⟨[(Exit.branch header).instr], μ⟩
        ⟨[(Exit.test c.condition body merge).instr], ν⟩ :=
    (((World.arrives_branch stands.atHeader).trans (World.arrives_merge _)).trans
      (World.arrives_branch stands.atCheck)).trans (World.arrives_run (tested n grows distinct))
  induction h with
  | done tested fails =>
    exact (tests tested).trans (World.arrives_test (fails n grows distinct) stands.atMerge)
  | again tested holds acted counted _ ih =>
    refine (tests tested).trans (Relation.ReflTransGen.trans
      (World.arrives_test (holds n grows distinct) stands.atBody) ?_)
    refine (World.arrives_run (acted n grows distinct)).trans (Relation.ReflTransGen.trans
      (World.arrives_branch stands.atNext) ?_)
    exact (World.arrives_run (counted n grows distinct)).trans ih

end LoopCode

end Spirv

namespace Draft

variable {d e f : Draft} {n : Node} {code rest : List Instr} {s t : State}

/-- A later draft of the same function, with the same constructs open. -/
structure Beside (d e : Draft) : Prop extends d.SameFunction e where
  constructs : e.constructs = d.constructs

theorem Beside.refl (d : Draft) : d.Beside d :=
  ⟨⟨rfl, rfl⟩, rfl⟩

theorem Beside.trans (first : d.Beside e) (second : e.Beside f) : d.Beside f :=
  ⟨⟨second.earlier.trans first.earlier, second.definition.trans first.definition⟩,
    second.constructs.trans first.constructs⟩

/-- A function in which the open node goes on with some code. -/
def Continues (d : Draft) (f : Function) (rest : List Instr) : Prop :=
  ∃ n more, d.open? = some n ∧
    f.blocks.toList = d.done.map Node.block ++ ⟨n.label, (n.body ++ rest).toArray⟩ :: more

/-- A draft with more code in its open node. -/
structure Wrote (d e : Draft) (code : List Instr) : Prop where
  beside : d.Beside e
  done : e.done = d.done
  open? : e.open? = d.open?.map fun n => n.write code

theorem Wrote.continues (h : d.Wrote e code) {f : Function} (on : e.Continues f rest) :
    d.Continues f (code ++ rest) := by
  obtain ⟨m, more, opened, blocks⟩ := on
  obtain ⟨n, here_, rfl⟩ := Option.map_eq_some_iff.1 (h.open?.symm.trans opened)
  refine ⟨n, more, here_, ?_⟩
  rw [blocks, h.done, n.label_write, n.body_write, List.append_assoc]

/-- A function that goes on behind a merge has it in its code. -/
theorem Continues.of_announce {f : Function} {merge : Merge} (here_ : d.open? = some n)
    (on : Continues { d with open? := some (n.announce merge) } f rest) :
    d.Continues f (merge.instr :: rest) := by
  obtain ⟨_, more, opened, blocks⟩ := on
  cases opened
  refine ⟨n, more, here_, ?_⟩
  rw [blocks, n.body_announce, List.append_assoc]
  rfl

/-- A function that goes on in another block has an exit in front of it. -/
theorem Continues.of_exit {f : Function} {leave : Exit} {label : Id} (here_ : d.open? = some n)
    (on : ((d.exit n leave).enter label).Continues f rest) : d.Continues f [leave.instr] := by
  obtain ⟨m, more, _, blocks⟩ := on
  refine ⟨n, ⟨m.label, (m.body ++ rest).toArray⟩ :: more, here_, ?_⟩
  have ended : (n.exit leave).block = ⟨n.label, (n.body ++ [leave.instr]).toArray⟩ := by
    rw [Node.block, n.label_exit, n.body_exit]
  rw [blocks, ← ended]
  change (d.done ++ [n.exit leave]).map Node.block ++ _ = _
  rw [List.map_append, List.append_assoc]
  rfl

/-- A draft that has left the open node with some code and an exit, for a new one. -/
structure Left (d e : Draft) (code : List Instr) (leave : Exit) (label : Id) : Prop where
  beside : d.Beside e
  open? : e.open? = some (.start label)
  continues : ∀ f rest, e.Continues f rest → d.Continues f (code ++ [leave.instr])

theorem Left.of_exit {leave : Exit} {label : Id} (here_ : d.open? = some n) :
    d.Left ((d.exit n leave).enter label) [] leave label :=
  ⟨⟨⟨rfl, rfl⟩, rfl⟩, rfl, fun _ _ on => .of_exit here_ on⟩

theorem Left.of_announce {merge : Merge} {leave : Exit} {label : Id} (here_ : d.open? = some n)
    (h : Left { d with open? := some (n.announce merge) } e [] leave label) :
    d.Left e [merge.instr] leave label :=
  ⟨⟨⟨h.beside.earlier, h.beside.definition⟩, h.beside.constructs⟩, h.open?,
    fun g rest on => .of_announce here_ (h.continues g rest on)⟩

theorem Left.of_wrote {leave : Exit} {label : Id} (wrote : d.Wrote e code)
    (h : e.Left f [] leave label) : d.Left f code leave label :=
  ⟨wrote.beside.trans h.beside, h.open?, fun g rest on => wrote.continues (h.continues g rest on)⟩

/-- A label that the exit names leads to the code of its block. -/
theorem Left.code? {leave leave' : Exit} {label label' : Id} {code' first : List Instr}
    {g : Function}
    {a b : Draft} (h : d.Left e code leave label) (on : e.Continues g rest) (formed : g.WellFormed)
    (named : label' ∈ leave.targets) (there : a.Left b code' leave' label')
    (onward : b.Continues g first) : g.code? label' = some first := by
  obtain ⟨n, more, _, blocks⟩ := h.continues g rest on
  obtain ⟨_, more', opened, blocks'⟩ := onward
  cases there.open?.symm.trans opened
  let block : Spirv.Block := ⟨n.label, (n.body ++ (code ++ [leave.instr])).toArray⟩
  let target : Spirv.Block := ⟨label', first.toArray⟩
  have hb : block ∈ g.blocks := by
    rw [← Array.mem_toList_iff, blocks]
    exact List.mem_append_right _ List.mem_cons_self
  have hc : target ∈ g.blocks := by
    rw [← Array.mem_toList_iff, blocks']
    exact List.mem_append_right _ List.mem_cons_self
  have hi : leave.instr ∈ block.body :=
    List.mem_toArray.2 (List.mem_append_right _ (List.mem_append_right _ List.mem_cons_self))
  exact formed.code? hb hi (leave.labels_instr.symm ▸ named) hc

theorem Describes.openCode (h : d.Describes s) (here_ : d.open? = some n) :
    s.builder.openCode = n.body := by
  have at_ : (d.nodes.map Node.block).toArray[d.done.length]? = some n.block := by
    rw [nodes_of_open here_, List.getElem?_toArray, List.map_append,
      List.getElem?_append_right (Nat.le_of_eq (List.length_map _)), List.length_map, Nat.sub_self]
    rfl
  rw [Spirv.Builder.openCode, h.builder.function?, h.builder.block?_of_open here_,
    h.builder.functions, Draft.functions]
  simp only [Option.bind_eq_bind, Option.bind_some, Array.getElem?_push_size, Function.ofNodes]
  rw [at_]
  rfl

/-- A place for an instruction is an open node. -/
theorem Describes.exists_open (h : d.Describes s) (place : s.HasPlace) :
    ∃ n, d.open? = some n := by
  have opened := place.2
  rw [h.builder.block?, Option.isSome_map] at opened
  exact Option.isSome_iff_exists.1 opened

theorem Describes.hasPlace (h : d.Describes s) (here_ : d.open? = some n) : s.HasPlace := by
  refine ⟨?_, ?_⟩
  · rw [h.builder.function?]
    rfl
  · rw [h.builder.block?_of_open here_]
    rfl

/-- The code that an ordinary step writes is the code that follows. -/
theorem Describes.wrote (h : d.Describes s) (place : s.HasPlace) (added : Emits s t) :
    ∃ e code, d.Wrote e code ∧ e.Describes t ∧ ∀ more, s.Follows t more → more = code := by
  obtain ⟨n, here_⟩ := h.exists_open place
  obtain ⟨e, writes, he⟩ := added.describes h
  obtain ⟨code, next, globals, _, _, _, rfl⟩ := writes
  let e : Draft := { d with open? := d.open?.map fun n => n.write code, next, globals }
  refine ⟨e, code, ⟨⟨⟨rfl, rfl⟩, rfl⟩, rfl, rfl⟩, he, fun more follows => ?_⟩
  have behind := he.openCode (n := n.write code) (by rw [here_]; rfl)
  rw [follows.appends, h.openCode here_, n.body_write] at behind
  exact List.append_cancel_left behind

end Draft

section Advances

variable {env : Environment} {s t u : State} {μ ν : Invocation} {code : List Instr}

/-- A state behind another, whatever an invocation did in between. -/
structure State.Advances (env : Environment) (s t : State) : Prop where
  nextId : s.builder.nextId ≤ t.builder.nextId
  grows : s.builder.module.Grows t.builder.module
  maintains : s.Maintains t
  settled : t.Settled env
  entryPoint : t.entryPoint = s.entryPoint

namespace State

theorem Advances.refl (settled : s.Settled env) : s.Advances env s :=
  ⟨Nat.le_refl _, .refl _, .refl s, settled, rfl⟩

theorem Advances.trans (first : s.Advances env t) (second : t.Advances env u) :
    s.Advances env u :=
  ⟨Nat.le_trans first.nextId second.nextId, first.grows.trans second.grows,
    first.maintains.trans second.maintains, second.settled,
    second.entryPoint.trans first.entryPoint⟩

theorem Follows.advances (h : s.Follows t code) (emits : Emits s t) (maintains : s.Maintains t)
    (furnished : t.inventory.Furnished env t.builder.module) : s.Advances env t :=
  ⟨h.nextId, h.grows, maintains, ⟨h.ready, furnished⟩, emits.entryPoint⟩

theorem Advances.since (h : s.Advances env t) (agrees : Invocation.Agrees s.builder.nextId μ ν) :
    Since env s μ t ν :=
  .of_agrees h.nextId h.grows h.maintains h.settled agrees

end State

end Advances

section Turns

variable {env : Environment} {s t u : State} {d e : Draft}

/-- A state behind some steps that direct control. -/
structure State.Turns (s t : State) : Prop where
  sound : t.builder.Sound
  nextId : s.builder.nextId ≤ t.builder.nextId
  grows : s.builder.module.Grows t.builder.module
  inventory : t.inventory = s.inventory
  temps : t.temps = s.temps
  entryPoint : t.entryPoint = s.entryPoint

namespace State.Turns

theorem trans (first : s.Turns t) (second : t.Turns u) : s.Turns u :=
  ⟨second.sound, Nat.le_trans first.nextId second.nextId, first.grows.trans second.grows,
    second.inventory.trans first.inventory, second.temps.trans first.temps,
    second.entryPoint.trans first.entryPoint⟩

/-- Where a block is open again, all is settled. -/
theorem advances (h : s.Turns t) (settled : s.Settled env) (place : t.HasPlace) :
    s.Advances env t := by
  refine ⟨h.nextId, h.grows, ⟨?_, h.inventory ▸ .refl _⟩, ⟨⟨h.sound, place, ?_, ?_⟩, ?_⟩,
    h.entryPoint⟩
  · exact h.temps ▸ List.prefix_rfl
  · rw [h.temps]
    exact settled.nodup
  · rw [h.temps]
    exact fun id mem => (settled.housed id mem).mono h.grows
  · rw [h.inventory]
    exact settled.furnished.mono h.grows

/-- A builder that takes an instruction that directs control, or opens a block. -/
theorem of_tryBuild {step : Spirv.Builder → Except Spirv.BuildError Spirv.Builder}
    (hd : d.Describes s) (he : e.Describes t) (later : d.next ≤ e.next)
    (steers : ∀ c, step s.builder = .ok c → s.builder.Steers c)
    (run : Lower.result (Lower.tryBuild step) env s = (.ok (), t)) : s.Turns t := by
  have nextId : s.builder.nextId ≤ t.builder.nextId := by
    rw [hd.builder.nextId, he.builder.nextId]
    exact later
  rw [Lower.result_tryBuild] at run
  split at run
  · next c built =>
    cases run
    exact ⟨(steers c built).sound, nextId, (steers c built).grows, rfl, rfl, rfl⟩
  · cases run

end State.Turns

namespace Lower

theorem fresh_turns (sound : s.builder.Sound) {id : Id}
    (run : result (liftM fresh) env s = (.ok id, t)) : s.Turns t := by
  cases run
  exact ⟨sound.fresh, Nat.le_succ _, .refl _, rfl, rfl, rfl⟩

theorem terminate_turns (hd : d.Describes s) (sound : s.builder.Sound) (leave : Exit)
    (run : result (tryBuild (·.terminate leave.instr)) env s = (.ok (), t)) :
    ∃ n, d.open? = some n ∧ (d.exit n leave).Describes t ∧ s.Turns t := by
  obtain ⟨n, here_, he⟩ := of_terminate hd leave run
  have steers (c : Spirv.Builder) (built : s.builder.terminate leave.instr = .ok c) :
      s.builder.Steers c := by
    cases leave <;> exact (sound.steers_terminate built).1
  exact ⟨n, here_, he, .of_tryBuild hd he (Nat.le_refl _) steers run⟩

theorem merge_turns (hd : d.Describes s) (sound : s.builder.Sound) (merge : Merge)
    (run : result (tryBuild (·.push merge.instr)) env s = (.ok (), t)) :
    ∃ n, d.open? = some n ∧ Draft.Describes { d with open? := some (n.announce merge) } t ∧
      s.Turns t := by
  obtain ⟨n, here_, he⟩ := of_merge hd merge run
  have steers (c : Spirv.Builder) (built : s.builder.push merge.instr = .ok c) :
      s.builder.Steers c := by
    cases merge <;> exact sound.steers_push built
  exact ⟨n, here_, he, .of_tryBuild hd he (Nat.le_refl _) steers run⟩

theorem beginBlock_turns (hd : d.Describes s) (sound : s.builder.Sound) (closed : d.open? = none)
    {label : Id} (run : result (beginBlock label) env s = (.ok (), t)) :
    (d.enter label).Describes t ∧ s.Turns t := by
  have he := of_beginBlock hd closed run
  have steers (c : Spirv.Builder) (built : (s.builder.beginBlock (some label)).map (·.2) = .ok c) :
      s.builder.Steers c := by
    cases begun : s.builder.beginBlock (some label) with
    | error e =>
      rw [begun] at built
      cases built
    | ok r =>
      obtain ⟨label', b⟩ := r
      rw [begun] at built
      cases built
      exact sound.steers_beginBlock begun
  exact ⟨he, .of_tryBuild hd he (Nat.le_refl _) steers run⟩

end Lower

end Turns

section Traverses

variable {α β : Type} {w : World} {env : Environment} {s t u : State} {μ ν κ : Invocation}
  {d e f : Draft} {m : Module}

/-- Wherever a function goes on behind a draft, a thread has got there from where it goes on behind
an earlier one. -/
def Draft.Conducts (w : World) (m : Module) (d : Draft) (μ : Invocation) (e : Draft)
    (ν : Invocation) : Prop :=
  ∀ (n : Module) (f : Function) (rest : List Instr), m.Grows n → n.Distinct → f.WellFormed →
    e.Continues f rest → ∃ first, d.Continues f first ∧ w.Arrives n f ⟨first, μ⟩ ⟨rest, ν⟩

theorem Draft.Conducts.refl (m : Module) (d : Draft) (μ : Invocation) : d.Conducts w m μ d μ :=
  fun _ _ rest _ _ _ on => ⟨rest, on, .refl⟩

theorem Draft.Conducts.trans {m' : Module} (first : d.Conducts w m μ e ν) (grows : m.Grows m')
    (second : e.Conducts w m' ν f κ) : d.Conducts w m' μ f κ := by
  intro n g rest larger distinct formed on
  obtain ⟨middle, on, arrives⟩ := second n g rest larger distinct formed on
  obtain ⟨start, on, arrives'⟩ := first n g middle (grows.trans larger) distinct formed on
  exact ⟨start, on, arrives'.trans arrives⟩

theorem Draft.Wrote.conducts {code : List Instr} (h : d.Wrote e code)
    (runs : w.Runs m code μ ν) : d.Conducts w m μ e ν :=
  fun n _ rest larger distinct _ on =>
    ⟨code ++ rest, h.continues on, World.arrives_run (runs n larger distinct)⟩

/-- A step that, wherever it succeeds, a thread gets through. -/
def Traverses (w : World) (env : Environment) (step : Lower α) (s : State) (μ : Invocation)
    (Q : α → State → Invocation → Prop) : Prop :=
  s.Settled env → ∀ (d : Draft) (a : α) (t : State), d.Describes s →
    Lower.result step env s = (.ok a, t) → ∃ (e : Draft) (ν : Invocation), e.Describes t ∧
      d.Beside e ∧ s.Advances env t ∧ Invocation.Agrees s.builder.nextId μ ν ∧
        d.Conducts w t.builder.module μ e ν ∧ Q a t ν

namespace Traverses

variable {Q Q' : α → State → Invocation → Prop} {R : β → State → Invocation → Prop}

theorem mono {step : Lower α} (h : Traverses w env step s μ Q)
    (weaker : ∀ a t ν, State.Since env s μ t ν → Q a t ν → Q' a t ν) :
    Traverses w env step s μ Q' := by
  intro settled d a t hd run
  obtain ⟨e, ν, he, beside, advances, agrees, conducts, q⟩ := h settled d a t hd run
  exact ⟨e, ν, he, beside, advances, agrees, conducts, weaker a t ν (advances.since agrees) q⟩

/-- What is said of a step that leaves the interface registers alone. -/
theorem keeping {step : Lower α} (h : Traverses w env step s μ Q) (keeps : Lower.Keeps step) :
    Traverses w env step s μ fun a t ν => s.SameInterface t ∧ Q a t ν := by
  intro settled d a t hd run
  obtain ⟨e, ν, he, beside, advances, agrees, conducts, q⟩ := h settled d a t hd run
  exact ⟨e, ν, he, beside, advances, agrees, conducts, (keeps.of_ok run).toSameInterface, q⟩

protected theorem pure {a : α} (h : s.Settled env → Q a s μ) :
    Traverses w env (pure a) s μ Q := by
  intro settled d b t hd run
  cases run
  exact ⟨d, μ, hd, .refl d, .refl settled, .refl μ, .refl _ d μ, h settled⟩

protected theorem bind {step : Lower α} {later : α → Lower β} (first : Traverses w env step s μ Q)
    (second : ∀ a t ν, State.Since env s μ t ν → Q a t ν → Traverses w env (later a) t ν R) :
    Traverses w env (step >>= later) s μ R := by
  intro settled d b u hd run
  obtain ⟨a, t, ran, run⟩ := Lower.result_bind_eq_ok.1 run
  obtain ⟨e, ν, he, beside, advances, agrees, conducts, q⟩ := first settled d a t hd ran
  obtain ⟨e', κ, he', beside', advances', agrees', conducts', r⟩ :=
    second a t ν (advances.since agrees) q advances.settled e b u he run
  exact ⟨e', κ, he', beside.trans beside', advances.trans advances',
    agrees.trans (agrees'.mono advances.nextId), conducts.trans advances'.grows conducts', r⟩

/-- An ordinary step is traversed as it is performed. -/
theorem of_interface {step : InterfaceStep α} (h : step.Performs w env s μ Q) :
    Traverses w env (liftM step) s μ Q := by
  intro settled d a t hd run
  obtain ⟨code, ν, follows, runs, maintains, furnished, q⟩ := h settled a t run
  have emits := InterfaceStep.emits_of_run run
  obtain ⟨e, code', wrote, he, same⟩ := hd.wrote settled.place emits
  obtain rfl := same code follows
  exact ⟨e, ν, he, wrote.beside, follows.advances emits maintains furnished, follows.agrees runs,
    wrote.conducts runs, q⟩

theorem of_performs {step : Emission α} (h : Performs w env step s μ Q) :
    Traverses w env (liftM step) s μ Q :=
  of_interface h

/-- A step for each element of a list, with what holds behind the first ones. -/
theorem forIn {l : List α} {step : α → Lower Unit} {I : List α → State → Invocation → Prop}
    (round : ∀ before a after t ν, l = before ++ a :: after → State.Since env s μ t ν →
      I before t ν → Traverses w env (step a) t ν fun _ => I (before ++ [a])) (start : I [] s μ) :
    Traverses w env (ForIn.forIn l () fun a _ => do step a; return .yield ()) s μ fun _ => I l := by
  have steps (before after : List α) (all : l = before ++ after) (t : State) (ν : Invocation)
      (since : State.Since env s μ t ν) (now : I before t ν) :
      Traverses w env (ForIn.forIn after () fun a _ => do step a; return .yield ()) t ν
        fun _ => I l := by
    induction after generalizing before t ν with
    | nil =>
      rw [List.append_nil] at all
      subst all
      exact .pure fun _ => now
    | cons a rest ih =>
      rw [List.forIn_cons]
      refine .bind (Q := fun r t ν => r = ForInStep.yield () ∧ I (before ++ [a]) t ν) ?_
        fun r t' ν' since' h => ?_
      · exact .bind (round before a rest t ν all since now) fun _ _ _ _ h => .pure fun _ => ⟨rfl, h⟩
      · obtain ⟨rfl, h⟩ := h
        exact ih (before ++ [a]) (by rw [all, List.append_assoc]; rfl) t' ν'
          (since.trans since') h
  exact fun settled => steps [] l rfl s μ (.refl settled) start settled

end Traverses

namespace Lower

/-- The code that an ordinary step writes, which any invocation gets through. -/
theorem written {step : Emission α} {Q : Invocation → α → State → Invocation → Prop} {a : α}
    (hd : d.Describes s) (settled : s.Settled env)
    (performs : ∀ κ, Performs w env step s κ (Q κ)) (run : result (liftM step) env s = (.ok a, t)) :
    ∃ e code, d.Wrote e code ∧ e.Describes t ∧ s.Advances env t ∧
      ∀ κ, ∃ ν, w.Runs t.builder.module code κ ν ∧ Invocation.Agrees s.builder.nextId κ ν ∧
        Q κ a t ν := by
  obtain ⟨e, code, wrote, he, same⟩ := hd.wrote settled.place (emits_of_result run)
  have each (κ : Invocation) : s.Advances env t ∧ ∃ ν, w.Runs t.builder.module code κ ν ∧
      Invocation.Agrees s.builder.nextId κ ν ∧ Q κ a t ν := by
    obtain ⟨code', ν, follows, runs, maintains, furnished, q⟩ := performs κ settled a t run
    obtain rfl := same code' follows
    exact ⟨follows.advances (emits_of_result run) maintains furnished, ν, runs,
      follows.agrees runs, q⟩
  let idle : Invocation := ⟨fun _ => none, fun _ => none, fun _ => 0, []⟩
  exact ⟨e, code, wrote, he, (each idle).1, fun κ => (each κ).2⟩

theorem taken (hd : d.Describes s) (settled : s.Settled env) {id : Id}
    (run : result (liftM fresh) env s = (.ok id, t)) : ∃ e, d.Beside e ∧ e.Describes t ∧
      s.Advances env t ∧ ∀ f rest, e.Continues f rest → d.Continues f rest := by
  obtain ⟨_, he⟩ := of_fresh hd run
  obtain ⟨n, here_⟩ := hd.exists_open settled.place
  exact ⟨d.take 1, ⟨⟨rfl, rfl⟩, rfl⟩, he,
    (fresh_turns settled.sound run).advances settled (he.hasPlace (n := n) here_), fun _ _ on => on⟩

/-- From one block to the next. -/
theorem passage (hd : d.Describes s) (settled : s.Settled env) (leave : Exit) {label : Id}
    (run : result (do
      tryBuild (·.terminate leave.instr)
      beginBlock label) env s = (.ok (), u)) :
    ∃ e, d.Left e [] leave label ∧ e.Describes u ∧ s.Advances env u := by
  obtain ⟨_, t, left, entered⟩ := result_bind_eq_ok.1 run
  obtain ⟨n, here_, he, turns⟩ := terminate_turns hd settled.sound leave left
  obtain ⟨hf, turns'⟩ := beginBlock_turns he turns.sound rfl entered
  exact ⟨_, .of_exit here_, hf, (turns.trans turns').advances settled (hf.hasPlace rfl)⟩

theorem leaves (hd : d.Describes s) (settled : s.Settled env) (leave : Exit) {label : Id}
    {later : Lower β} {b : β} (run : result (do
      tryBuild (·.terminate leave.instr)
      beginBlock label
      later) env s = (.ok b, u)) : ∃ t e, d.Left e [] leave label ∧ e.Describes t ∧
        s.Advances env t ∧ result later env t = (.ok b, u) := by
  obtain ⟨_, s₁, left, run⟩ := result_bind_eq_ok.1 run
  obtain ⟨_, s₂, entered, run⟩ := result_bind_eq_ok.1 run
  obtain ⟨e, left, he, advances⟩ :=
    passage hd settled leave (result_bind_eq_ok.2 ⟨_, s₁, left, entered⟩)
  exact ⟨s₂, e, left, he, advances, run⟩

theorem announces_leaves (hd : d.Describes s) (settled : s.Settled env) (merge : Merge)
    (leave : Exit)
    {label : Id} {later : Lower β} {b : β} (run : result (do
      tryBuild (·.push merge.instr)
      tryBuild (·.terminate leave.instr)
      beginBlock label
      later) env s = (.ok b, u)) : ∃ t e, d.Left e [merge.instr] leave label ∧ e.Describes t ∧
        s.Advances env t ∧ result later env t = (.ok b, u) := by
  obtain ⟨_, s₁, announced, run⟩ := result_bind_eq_ok.1 run
  obtain ⟨n, here_, hd₁, turns⟩ := merge_turns hd settled.sound merge announced
  have advances := turns.advances settled (hd₁.hasPlace rfl)
  obtain ⟨t, e, left, he, advances', run⟩ := leaves hd₁ advances.settled leave run
  exact ⟨t, e, .of_announce here_ left, he, advances.trans advances', run⟩

/-- Code of a step, and from there to the next block. -/
theorem written_passage {step : Emission α} {Q : Invocation → α → State → Invocation → Prop} {a : α}
    (hd : d.Describes s) (settled : s.Settled env) (performs : ∀ κ, Performs w env step s κ (Q κ))
    (leave : Exit) {label : Id} (ran : result (liftM step) env s = (.ok a, t))
    (run : result (do
      tryBuild (·.terminate leave.instr)
      beginBlock label) env t = (.ok (), u)) :
    ∃ e code, d.Left e code leave label ∧ e.Describes u ∧ s.Advances env u ∧ t.Advances env u ∧
      ∀ κ, ∃ ν, w.Runs u.builder.module code κ ν ∧ Invocation.Agrees s.builder.nextId κ ν ∧
        Q κ a t ν := by
  obtain ⟨d₁, code, wrote, hd₁, advances, runs⟩ := written hd settled performs ran
  obtain ⟨e, left, he, advances'⟩ := passage hd₁ advances.settled leave run
  refine ⟨e, code, .of_wrote wrote left, he, advances.trans advances', advances', fun κ => ?_⟩
  obtain ⟨ν, ran, agrees, q⟩ := runs κ
  exact ⟨ν, ran.mono advances'.grows, agrees, q⟩

theorem writes_leaves {step : Emission α} {Q : Invocation → α → State → Invocation → Prop}
    (hd : d.Describes s) (settled : s.Settled env)
    (performs : ∀ κ, Performs w env step s κ (Q κ)) (leave : α → Exit) {label : Id}
    {later : Lower β} {b : β} (run : result (do
      let a ← step
      tryBuild (·.terminate (leave a).instr)
      beginBlock label
      later) env s = (.ok b, u)) : ∃ a r t e code, d.Left e code (leave a) label ∧
        e.Describes t ∧ s.Advances env t ∧ r.Advances env t ∧ result later env t = (.ok b, u) ∧
          ∀ κ, ∃ ν, w.Runs t.builder.module code κ ν ∧ Invocation.Agrees s.builder.nextId κ ν ∧
            Q κ a r ν := by
  obtain ⟨a, r, ran, run⟩ := result_bind_eq_ok.1 run
  obtain ⟨_, s₁, left, run⟩ := result_bind_eq_ok.1 run
  obtain ⟨_, t, entered, run⟩ := result_bind_eq_ok.1 run
  obtain ⟨e, code, left, he, advances, advances', runs⟩ := written_passage hd settled performs
    (leave a) ran (result_bind_eq_ok.2 ⟨_, s₁, left, entered⟩)
  exact ⟨a, r, t, e, code, left, he, advances, advances', run, runs⟩

/-- A step that is taken where a condition holds. -/
theorem selection_traverses {condition : Id} {b : Bool} {step : Lower Unit}
    {Q : State → Invocation → Prop} (known : s.Knows μ.processor condition (.truths [b]))
    (inner : ∀ t, s.Advances env t → Traverses w env step t μ fun _ => Q) :
    Traverses w env (do
      let thenLabel ← fresh
      let endLabel ← fresh
      selectionMerge endLabel
      branchConditional condition thenLabel endLabel
      beginBlock thenLabel
      step
      branch endLabel
      beginBlock endLabel) s μ fun _ t ν =>
        if b then ∃ u, u.Maintains t ∧ u.SameInterface t ∧ Q u ν else ν = μ := by
  intro settled d _ t hd run
  obtain ⟨thenLabel, s₁, taken₁, run⟩ := result_bind_eq_ok.1 run
  obtain ⟨d₁, beside₁, hd₁, advances₁, back₁⟩ := taken hd settled taken₁
  obtain ⟨endLabel, s₂, taken₂, run⟩ := result_bind_eq_ok.1 run
  obtain ⟨d₂, beside₂, hd₂, advances₂, back₂⟩ := taken hd₁ advances₁.settled taken₂
  obtain ⟨s₃, d₃, left₃, hd₃, advances₃, run⟩ := announces_leaves hd₂ advances₂.settled
    (.selection endLabel) (.test condition thenLabel endLabel) run
  have at₃ := (advances₁.trans advances₂).trans advances₃
  obtain ⟨_, s₄, stepped, run⟩ := result_bind_eq_ok.1 run
  obtain ⟨d₄, ν, hd₄, beside₄, advances₄, agrees, conducts, q⟩ :=
    inner s₃ at₃ at₃.settled _ () s₄ hd₃ stepped
  obtain ⟨d₅, left₅, hd₅, advances₅⟩ := passage hd₄ advances₄.settled (.branch endLabel) run
  have same : s₄.SameInterface t := ((Keeps.and_then (terminate_keeps _ _)
    (beginBlock_keeps _)).of_ok run).toSameInterface
  have at₅ := (at₃.trans advances₄).trans advances₅
  have beside := (((beside₁.trans beside₂).trans left₃.beside).trans beside₄).trans left₅.beside
  -- The two ways from the test to the place where they meet.
  have ways (m : Module) (f : Function) (rest : List Instr) (larger : t.builder.module.Grows m)
      (distinct : m.Distinct) (formed : f.WellFormed) (on : d₅.Continues f rest) :
      ∃ start, d.Continues f start ∧ w.Arrives m f ⟨start, μ⟩ ⟨rest, if b then ν else μ⟩ := by
    obtain ⟨code, on₃, arrives⟩ :=
      conducts m f _ (advances₅.grows.trans larger) distinct formed (left₅.continues f rest on)
    have truth := known.2 m (at₅.grows.trans larger) distinct
    refine ⟨_, back₁ f _ (back₂ f _ (left₃.continues f code on₃)), (World.arrives_merge _).trans ?_⟩
    cases b with
    | true =>
      have into := left₃.code? on₃ formed List.mem_cons_self left₃ on₃
      have out := left₅.code? on formed List.mem_cons_self left₅ on
      exact ((World.arrives_test truth into).trans arrives).trans (World.arrives_branch out)
    | false =>
      have past := left₃.code? on₃ formed (List.mem_cons_of_mem _ List.mem_cons_self) left₅ on
      exact World.arrives_test truth past
  cases b with
  | true =>
    exact ⟨d₅, ν, hd₅, beside, at₅, agrees.mono at₃.nextId, ways, s₄, advances₅.maintains,
      same, q⟩
  | false => exact ⟨d₅, μ, hd₅, beside, at₅, .refl μ, ways, rfl⟩

/-- A loop whose rounds are counted down by what it knows. -/
theorem loop_traverses {test : Emission Id} {step next : Emission Unit}
    (Inv Half : Nat → Invocation → Prop) (count : Nat)
    (tests : ∀ t κ, s.Advances env t → Performs w env test t κ fun c u ν => ∀ k, Inv k κ →
      Inv k ν ∧ u.Knows ν.processor c (.truths [decide (k ≠ 0)]))
    (steps : ∀ t κ, s.Advances env t → Performs w env step t κ fun _ _ ν => ∀ k, Inv (k + 1) κ →
      Half k ν)
    (nexts : ∀ t κ, s.Advances env t → Performs w env next t κ fun _ _ ν => ∀ k, Half k κ → Inv k ν)
    (start : Inv count μ) :
    Traverses w env (do
      let header ← fresh
      let check ← fresh
      let body ← fresh
      let continueLabel ← fresh
      let merge ← fresh
      branch header
      beginBlock header
      loopMerge merge continueLabel
      branch check
      beginBlock check
      let condition ← test
      branchConditional condition body merge
      beginBlock body
      step
      branch continueLabel
      beginBlock continueLabel
      next
      branch header
      beginBlock merge) s μ fun _ _ ν => Inv 0 ν := by
  intro settled d _ t hd run
  obtain ⟨header, s₁, taken₁, run⟩ := result_bind_eq_ok.1 run
  obtain ⟨d₁, beside₁, hd₁, advances₁, back₁⟩ := taken hd settled taken₁
  obtain ⟨check, s₂, taken₂, run⟩ := result_bind_eq_ok.1 run
  obtain ⟨d₂, beside₂, hd₂, advances₂, back₂⟩ := taken hd₁ advances₁.settled taken₂
  obtain ⟨body, s₃, taken₃, run⟩ := result_bind_eq_ok.1 run
  obtain ⟨d₃, beside₃, hd₃, advances₃, back₃⟩ := taken hd₂ advances₂.settled taken₃
  obtain ⟨continueLabel, s₄, taken₄, run⟩ := result_bind_eq_ok.1 run
  obtain ⟨d₄, beside₄, hd₄, advances₄, back₄⟩ := taken hd₃ advances₃.settled taken₄
  obtain ⟨merge, s₅, taken₅, run⟩ := result_bind_eq_ok.1 run
  obtain ⟨d₅, beside₅, hd₅, advances₅, back₅⟩ := taken hd₄ advances₄.settled taken₅
  have at₅ := (((advances₁.trans advances₂).trans advances₃).trans advances₄).trans advances₅
  obtain ⟨s₆, d₆, left₆, hd₆, advances₆, run⟩ := leaves hd₅ at₅.settled (.branch header) run
  have at₆ := at₅.trans advances₆
  obtain ⟨s₇, d₇, left₇, hd₇, advances₇, run⟩ := announces_leaves hd₆ at₆.settled
    (.loop merge continueLabel) (.branch check) run
  have at₇ := at₆.trans advances₇
  obtain ⟨condition, r, s₈, d₈, testCode, left₈, hd₈, advances₈, near, run, testRuns⟩ :=
    writes_leaves hd₇ at₇.settled (fun κ => tests s₇ κ at₇) (fun c => .test c body merge) run
  have at₈ := at₇.trans advances₈
  obtain ⟨_, _, s₉, d₉, bodyCode, left₉, hd₉, advances₉, _, run, bodyRuns⟩ :=
    writes_leaves hd₈ at₈.settled (fun κ => steps s₈ κ at₈) (fun _ => .branch continueLabel) run
  have at₉ := at₈.trans advances₉
  obtain ⟨_, s₁₀, ran, run⟩ := result_bind_eq_ok.1 run
  obtain ⟨d₁₀, nextCode, left₁₀, hd₁₀, advances₁₀, _, nextRuns⟩ :=
    written_passage hd₉ at₉.settled (fun κ => nexts s₉ κ at₉) (.branch header) ran run
  have at₁₀ := at₉.trans advances₁₀
  let c : Spirv.LoopCode := ⟨testCode, condition, bodyCode, nextCode⟩
  have later := advances₉.trans advances₁₀
  obtain ⟨ν, ran, agrees, last⟩ : ∃ ν, c.Runs w t.builder.module μ ν ∧
      Invocation.Agrees s.builder.nextId μ ν ∧ Inv 0 ν := by
    refine Spirv.LoopCode.exists_runs Inv Half (fun κ => ?_) (fun κ => ?_) (fun κ => ?_) count start
    · obtain ⟨ν, ran, agrees, decides⟩ := testRuns κ
      refine ⟨ν, ran.mono later.grows, agrees.mono at₇.nextId, fun k now => ?_⟩
      obtain ⟨now, known⟩ := decides k now
      exact ⟨now, fun m larger distinct =>
        known.2 m (near.grows.trans (later.grows.trans larger)) distinct⟩
    · obtain ⟨ν, ran, agrees, half⟩ := bodyRuns κ
      exact ⟨ν, ran.mono advances₁₀.grows, agrees.mono at₈.nextId, half⟩
    · obtain ⟨ν, ran, agrees, now⟩ := nextRuns κ
      exact ⟨ν, ran, agrees.mono at₉.nextId, now⟩
  have beside := ((((beside₁.trans beside₂).trans beside₃).trans beside₄).trans beside₅).trans
    ((((left₆.beside.trans left₇.beside).trans left₈.beside).trans left₉.beside).trans
      left₁₀.beside)
  refine ⟨d₁₀, ν, hd₁₀, beside, at₁₀, agrees, fun m f rest larger distinct formed on => ?_, last⟩
  have on₉ := left₁₀.continues f rest on
  have on₈ := left₉.continues f _ on₉
  have on₇ := left₈.continues f _ on₈
  have on₆ := left₇.continues f _ on₇
  have on₅ := left₆.continues f _ on₆
  have stands : c.Stands f header check body continueLabel merge rest :=
    ⟨left₆.code? on₆ formed List.mem_cons_self left₆ on₆,
      left₇.code? on₇ formed List.mem_cons_self left₇ on₇,
      left₈.code? on₈ formed List.mem_cons_self left₈ on₈,
      left₉.code? on₉ formed List.mem_cons_self left₉ on₉,
      left₈.code? on₈ formed (List.mem_cons_of_mem _ List.mem_cons_self) left₁₀ on⟩
  exact ⟨_, back₁ f _ (back₂ f _ (back₃ f _ (back₄ f _ (back₅ f _ on₅)))),
    ran.arrives larger distinct stands⟩

end Lower

end Traverses

section Entry

variable {w : World} {x : Shader} {v : VertexCounts} {env : Environment} {s t : State} {id : Id}

namespace Lower

/-- Opening a function changes nothing but the builder. -/
theorem openFunction_eq (run : result (openFunction (some id)) env s = (.ok id', t)) :
    id' = id ∧ ∃ builder, t = { s with builder } := by
  obtain ⟨void, s₁, first, run⟩ := result_bind_eq_ok.1 run
  obtain ⟨type, s₂, second, run⟩ := result_bind_eq_ok.1 run
  obtain ⟨b₁, rfl⟩ : ∃ builder, s₁ = { s with builder } := by
    cases first
    exact ⟨_, rfl⟩
  obtain ⟨b₂, rfl⟩ : ∃ builder, s₂ = { s with builder } := by
    cases second
    exact ⟨_, rfl⟩
  rw [beginFunction, result_get_bind] at run
  split at run
  · next begun =>
    unfold Spirv.Builder.beginFunction at begun
    split at begun
    · cases begun
    · cases begun
      cases run
      exact ⟨rfl, _, rfl⟩
  · cases run

theorem endFunction_eq (run : result endFunction env s = (.ok (), t)) :
    t = { s with builder.function? := none } := by
  rw [endFunction, result_tryBuild] at run
  unfold Spirv.Builder.endFunction at run
  cases open_ : s.builder.function? with
  | none =>
    rw [open_] at run
    cases run
  | some f =>
    rw [open_] at run
    cases run
    rfl

/-- An entry function is run from its first block through its contents to a return. -/
theorem entryFunction_returns {contents : Lower Unit} {Q : State → Invocation → Invocation → Prop}
    (rest : s.AtRest) (known : x.Invariant v s)
    (traverses : ∀ builder, x.Invariant v { s with builder } → ∀ μ,
      Traverses w x.env contents { s with builder } μ fun _ u ν => Q u μ ν)
    (run : result (entryFunction contents) x.env s = (.ok (), t)) :
    s.Maintains t ∧ t.entryPoint = s.entryPoint ∧
      ∃ f, t.builder.module.functions = s.builder.module.functions.push f ∧
        f.definition.result? = some s.entryPoint ∧ ∀ μ, ∃ u ν, u.Maintains t ∧
          u.SameInterface t ∧ Q u μ ν ∧ ∀ n : Module, t.builder.module.Grows n → n.Distinct →
            f.WellFormed → w.Returns n f μ ν := by
  unfold entryFunction at run
  rw [result_get_bind] at run
  obtain ⟨_, s₁, opened, run⟩ := result_bind_eq_ok.1 run
  obtain ⟨d₁, hd₁, begins, _⟩ := of_openFunction rest opened
  obtain ⟨rfl, b₁, same₁⟩ := openFunction_eq opened
  obtain ⟨known₁, _⟩ := openFunction_safe _ s _ s₁ known (.refl _) opened
  obtain ⟨_, s₂, started, run⟩ := result_bind_eq_ok.1 run
  have hd₂ := of_beginFreshBlock hd₁ begins.open? started
  obtain ⟨known₂, _⟩ := beginFreshBlock_safe s₁ _ s₂ known₁ (.refl _) started
  obtain ⟨b₂, same₂⟩ : ∃ builder, s₂ = { s with builder } := by
    obtain ⟨b, rfl⟩ := state_of_tryBuild started
    exact ⟨b, by rw [same₁]⟩
  have settled := known₂.settled (hd₂.hasPlace rfl)
  obtain ⟨_, u, ran, run⟩ := result_bind_eq_ok.1 run
  have same : u.SameInterface t :=
    ((Keeps.and_then (terminate_keeps _ _) endFunction_keeps).of_ok run).toSameInterface
  obtain ⟨_, s₄, returned, ended⟩ := result_bind_eq_ok.1 run
  subst same₂
  have each (μ : Invocation) : ∃ f ν, Q u μ ν ∧ s.Maintains u ∧ t.entryPoint = s.entryPoint ∧
      t.builder.module.functions = s.builder.module.functions.push f ∧
      f.definition.result? = some s.entryPoint ∧ u.builder.module.Grows t.builder.module ∧
        u.Maintains t ∧ ∀ n : Module, t.builder.module.Grows n → n.Distinct → f.WellFormed →
          w.Returns n f μ ν := by
    obtain ⟨d₃, ν, hd₃, beside, advances, _, conducts, q⟩ :=
      traverses b₂ known₂ μ settled _ () u hd₂ ran
    obtain ⟨n, here_, hd₄, turns⟩ := terminate_turns hd₃ advances.settled.sound .ret returned
    have constructs : (d₃.exit n .ret).constructs = [] := beside.constructs.trans begins.constructs
    obtain ⟨_, functions, _⟩ := of_endFunction hd₄ rfl constructs ended
    obtain rfl := endFunction_eq ended
    let f : Function := .ofNodes d₃.definition (d₃.exit n .ret).nodes
    have earlier : d₃.earlier = s.builder.module.functions := beside.earlier.trans begins.earlier
    have definition : d₃.definition.result? = some s.entryPoint := by
      rw [beside.definition]
      exact begins.definition
    have before : s.Maintains u := ⟨advances.maintains.temps, advances.maintains.within_⟩
    refine ⟨f, ν, q, before, turns.entryPoint.trans advances.entryPoint, ?_, definition,
      turns.grows,
      ⟨?_, turns.inventory ▸ .refl _⟩, fun m larger distinct formed => ?_⟩
    · rw [functions, ← earlier]
      rfl
    · have same : ({ s₄ with builder.function? := none } : State).temps = _ := turns.temps
      exact same ▸ List.prefix_rfl
    · have on : d₃.Continues f [Exit.ret.instr] := by
        refine ⟨n, [], here_, ?_⟩
        change (d₃.exit n .ret).nodes.map Node.block = _
        rw [Draft.nodes_of_none rfl, Draft.exit, List.map_append, List.map_singleton, Node.block,
          n.label_exit, n.body_exit]
      obtain ⟨first, ⟨_, more, opened, blocks⟩, arrives⟩ :=
        conducts m f _ (turns.grows.trans larger) distinct formed on
      cases opened
      have front : (d₁.take 1).done = [] := begins.done
      rw [Draft.enter, front] at blocks
      refine ⟨⟨d₁.next, first.toArray⟩, ?_, arrives⟩
      rw [← Array.getElem?_toList, blocks]
      rfl
  let idle : Invocation := ⟨fun _ => none, fun _ => none, fun _ => 0, []⟩
  obtain ⟨f, _, _, before, entryPoint, functions, definition, _, maintains, _⟩ := each idle
  refine ⟨before.trans maintains, entryPoint, f, functions, definition, fun μ => ?_⟩
  obtain ⟨g, ν, q, _, _, functions', _, _, maintains, returns⟩ := each μ
  obtain rfl := (Array.push_inj_right.1 (functions.symm.trans functions'))
  exact ⟨u, ν, maintains, same, q, returns⟩

end Lower

end Entry

end ShaderLowering
