import Mathlib.Logic.Basic
import ShaderLowering.Compile
import ShaderLowering.Program.Instruction
import ShaderLowering.Proofs.Control.Structure
import ShaderLowering.Proofs.Graph.Node

/-!
Machines that run programs whose ordinary instructions are opaque. In a step a machine makes an
event, or does something that cannot be seen, or stops. What is observed of a run are its first
events and how it ends; a machine that simulates another, with at least one step for each of its
steps, cannot be told from it.

The meaning of a structured program whose ordinary instructions are events. A program runs through
its instructions in order. The constructs around tell where a jump goes to. The words that are
tested, and those that a switch selects by, come from an oracle, one after the other.

The meaning of a lowered body. Control runs through a block and leaves it as the last instruction
says. What an instruction of the program was lowered to counts as its event, and stands in the
block that was open when its turn came. A branch reads the oracle through the comparison that
computes its condition.
-/

namespace ShaderLowering

/-- How a run stands. -/
inductive Ending
  | running
  | returned
  | killed
  /-- Control came where it never should. -/
  | undefined
deriving DecidableEq, Repr

inductive Outcome (σ : Type)
  | next (event? : Option Instruction) (state : σ)
  | stop (ending : Ending)

/-- What a machine does in a step. -/
abbrev Machine (σ : Type) := σ → Outcome σ

namespace Machine

variable {σ τ : Type}

/-- The events of the first steps, and how the run stands then. -/
def run (m : Machine σ) : Nat → σ → List Instruction × Ending
  | 0, _ => ([], .running)
  | k + 1, s =>
    match m s with
    | .stop ending => ([], ending)
    | .next event? t => (event?.toList ++ (m.run k t).1, (m.run k t).2)

/-- What is seen of a run up to event `n`. -/
def cut (n : Nat) (seen : List Instruction × Ending) : List Instruction × Ending :=
  if n ≤ seen.1.length then (seen.1.take n, .running) else seen

/-- A machine started in `s` makes just the given events, counted up to event `n`, and has the
given ending when it stops before that. A run that makes no further event is `running` as well. -/
def Yields (m : Machine σ) (s : σ) (n : Nat) (events : List Instruction) (ending : Ending) : Prop :=
  ∃ k, ∀ j, k ≤ j → cut n (m.run j s) = (events, ending)

variable {m : Machine σ} {s t : σ}

/-- Further steps add events, unless the run has ended. -/
theorem run_succ (m : Machine σ) (k : Nat) (s : σ) :
    (m.run k s).2 ≠ .running ∧ m.run (k + 1) s = m.run k s ∨
      (m.run k s).2 = .running ∧ (m.run k s).1 <+: (m.run (k + 1) s).1 := by
  induction k generalizing s with
  | zero => exact .inr ⟨rfl, List.nil_prefix⟩
  | succ k ih =>
    rw [run, run]
    cases m s with
    | stop ending =>
      by_cases h : ending = .running
      · exact .inr ⟨h, List.prefix_rfl⟩
      · exact .inl ⟨h, rfl⟩
    | next event? t =>
      refine (ih t).imp (fun ended => ?_) (fun runs => ?_)
      · refine ⟨ended.1, ?_⟩
        dsimp only
        rw [ended.2]
      · exact ⟨runs.1, (List.prefix_append_right_inj _).2 runs.2⟩

theorem run_prefix (m : Machine σ) (s : σ) {j k : Nat} (later : j ≤ k) :
    (m.run j s).1 <+: (m.run k s).1 := by
  induction later with
  | refl => exact List.prefix_rfl
  | step _ ih =>
    refine ih.trans ?_
    obtain ⟨_, same⟩ | ⟨_, more⟩ := m.run_succ _ s
    · exact same ▸ List.prefix_rfl
    · exact more

theorem run_ended {k : Nat} (ended : (m.run k s).2 ≠ .running) {j : Nat} (later : k ≤ j) :
    m.run j s = m.run k s := by
  induction later with
  | refl => rfl
  | step _ ih =>
    obtain ⟨_, same⟩ | ⟨runs, _⟩ := m.run_succ _ s
    · rw [same, ih]
    · rw [ih] at runs
      exact absurd runs ended

/-- A bounded sequence of numbers has a greatest member. -/
theorem exists_greatest {f : Nat → Nat} {n : Nat} (bounded : ∀ j, f j ≤ n) :
    ∃ k, ∀ j, f j ≤ f k := by
  refine Classical.byContradiction fun none_ => ?_
  simp only [not_exists, not_forall, Nat.not_le] at none_
  have grows (i : Nat) : ∃ j, i ≤ f j := by
    induction i with
    | zero => exact ⟨0, Nat.zero_le _⟩
    | succ i ih =>
      obtain ⟨j, hj⟩ := ih
      obtain ⟨k, hk⟩ := none_ j
      exact ⟨k, by omega⟩
  obtain ⟨j, hj⟩ := grows (n + 1)
  have := bounded j
  omega

/-- Every run has something to be seen, and only one thing. -/
theorem exists_yields (m : Machine σ) (s : σ) (n : Nat) :
    ∃ events ending, m.Yields s n events ending := by
  by_cases ends : ∃ k, (m.run k s).2 ≠ .running
  · obtain ⟨k, ended⟩ := ends
    exact ⟨_, _, k, fun j later => by rw [run_ended ended later]⟩
  · simp only [not_exists, ne_eq, not_not] at ends
    by_cases enough : ∃ k, n ≤ (m.run k s).1.length
    · obtain ⟨k, enough⟩ := enough
      refine ⟨(m.run k s).1.take n, .running, k, fun j later => ?_⟩
      have more := m.run_prefix s later
      rw [cut, if_pos (Nat.le_trans enough more.length_le)]
      obtain ⟨rest, same⟩ := more
      rw [← same, List.take_append_of_le_length enough]
    · simp only [not_exists, Nat.not_le] at enough
      obtain ⟨k, greatest⟩ := exists_greatest (f := fun j => (m.run j s).1.length) (n := n)
        fun j => Nat.le_of_lt (enough j)
      refine ⟨(m.run k s).1, .running, k, fun j later => ?_⟩
      have same := (m.run_prefix s later).eq_of_length_le (greatest j)
      rw [cut, if_neg (Nat.not_le.2 (enough j)), ← ends j, same]

theorem Yields.unique {n : Nat} {events events' : List Instruction} {ending ending' : Ending}
    (h : m.Yields s n events ending) (h' : m.Yields s n events' ending') :
    events = events' ∧ ending = ending' := by
  obtain ⟨k, h⟩ := h
  obtain ⟨k', h'⟩ := h'
  have same := (h (max k k') (Nat.le_max_left _ _)).symm.trans (h' _ (Nat.le_max_right _ _))
  exact Prod.mk.inj same

/-- A number of steps that lead from one state to another, with their events. -/
inductive Leads (m : Machine σ) : Nat → σ → List Instruction → σ → Prop
  | refl (s : σ) : Leads m 0 s [] s
  | step {k : Nat} {s t u : σ} {event? : Option Instruction} {events : List Instruction}
    (first : m s = .next event? t) (rest : Leads m k t events u) :
    Leads m (k + 1) s (event?.toList ++ events) u

theorem Leads.single {event? : Option Instruction} (h : m s = .next event? t) :
    m.Leads 1 s event?.toList t := by
  have := Leads.step h (.refl t)
  rwa [List.append_nil] at this

theorem Leads.trans {j k : Nat} {u : σ} {first second : List Instruction}
    (h : m.Leads j s first t) (h' : m.Leads k t second u) :
    m.Leads (k + j) s (first ++ second) u := by
  induction h with
  | refl => exact h'
  | step step _ ih =>
    rw [List.append_assoc]
    exact .step step (ih h')

theorem Leads.run_eq {k : Nat} {events : List Instruction} (h : m.Leads k s events t) (j : Nat) :
    m.run (j + k) s = (events ++ (m.run j t).1, (m.run j t).2) := by
  induction h with
  | refl => rfl
  | step first _ ih =>
    rw [← Nat.add_assoc, run, first]
    dsimp only
    rw [ih, List.append_assoc]

/-- Every step of the source is at least one step of the target, with the same event, and the
target stops where the source does. -/
structure Simulates (source : Machine σ) (target : Machine τ) (related : σ → τ → Prop) :
    Prop where
  next : ∀ s t event? s', related s t → source s = .next event? s' →
    ∃ k t', target.Leads (k + 1) t event?.toList t' ∧ related s' t'
  stop : ∀ s t ending, related s t → source s = .stop ending →
    ∃ k t', target.Leads k t [] t' ∧ target t' = .stop ending

namespace Simulates

variable {source : Machine σ} {target : Machine τ} {related : σ → τ → Prop}

/-- Whatever the source has done after `k` steps the target has done after some more. -/
theorem run_eq (h : Simulates source target related) (k : Nat) {s : σ} {t : τ}
    (start : related s t) : ∃ j, k ≤ j ∧ target.run j t = source.run k s := by
  induction k generalizing s t with
  | zero => exact ⟨0, Nat.le_refl _, rfl⟩
  | succ k ih =>
    cases step : source s with
    | stop ending =>
      obtain ⟨j, t', leads, stops⟩ := h.stop s t ending start step
      refine ⟨k + 1 + j, by omega, ?_⟩
      rw [leads.run_eq, run, run, stops, step]
      rfl
    | next event? s' =>
      obtain ⟨j, t', leads, related'⟩ := h.next s t event? s' start step
      obtain ⟨i, later, same⟩ := ih related'
      refine ⟨i + (j + 1), by omega, ?_⟩
      rw [leads.run_eq, same, run, step]

/-- Source and target cannot be told apart. -/
theorem yields_iff (h : Simulates source target related) {s : σ} {t : τ} (start : related s t)
    (n : Nat) (events : List Instruction) (ending : Ending) :
    source.Yields s n events ending ↔ target.Yields t n events ending := by
  obtain ⟨seen, ends, k, source_⟩ := source.exists_yields s n
  obtain ⟨seen', ends', k', target_⟩ := target.exists_yields t n
  obtain ⟨j, later, same⟩ := h.run_eq (max k k') start
  have first := source_ (max k k') (Nat.le_max_left _ _)
  have second := target_ j (Nat.le_trans (Nat.le_max_right _ _) later)
  rw [same] at second
  obtain ⟨rfl, rfl⟩ := Prod.mk.inj (first.symm.trans second)
  constructor
  · intro yields
    obtain ⟨rfl, rfl⟩ := yields.unique ⟨k, source_⟩
    exact ⟨k', target_⟩
  · intro yields
    obtain ⟨rfl, rfl⟩ := yields.unique ⟨k', target_⟩
    exact ⟨k, source_⟩

/-- A source that only stops where it should is never seen to end otherwise. -/
theorem run_defined (h : Simulates source target related)
    (defined : ∀ s t ending, related s t → source s = .stop ending → ending ≠ .undefined)
    (k : Nat) {s : σ} {t : τ} (start : related s t) : (source.run k s).2 ≠ .undefined := by
  induction k generalizing s t with
  | zero => exact nofun
  | succ k ih =>
    rw [run]
    cases step : source s with
    | stop ending => exact defined s t ending start step
    | next event? s' =>
      obtain ⟨_, _, _, related'⟩ := h.next s t event? s' start step
      exact ih related'

theorem yields_defined (h : Simulates source target related)
    (defined : ∀ s t ending, related s t → source s = .stop ending → ending ≠ .undefined)
    {s : σ} {t : τ} (start : related s t) {n : Nat} {events : List Instruction} {ending : Ending}
    (yields : source.Yields s n events ending) : ending ≠ .undefined := by
  obtain ⟨k, same⟩ := yields
  have seen := congrArg Prod.snd (same k (Nat.le_refl k))
  unfold cut at seen
  split at seen
  · cases seen
    exact nofun
  · cases seen
    exact h.run_defined defined k start

end Simulates

end Machine

end ShaderLowering

namespace ShaderLowering

/-- Whether a word passes a test. -/
def ZeroTest.passes : ZeroTest → UInt32 → Bool
  | .ifZero, word => word == 0
  | .ifNonZero, word => word != 0

/-- What is to be known of a construct around. -/
inductive Frame
  | branch
  /-- Its body begins with the given instructions. -/
  | loop (body : List Instruction)
  | switch
deriving Repr

/-- Whether a break leaves the construct. -/
def Frame.breaks : Frame → Bool
  | branch => false
  | loop _ | switch => true

structure Cursor where
  /-- The instructions that come next. -/
  rest : List Instruction
  /-- The constructs around, the innermost first. -/
  frames : List Frame
  /-- How many words the oracle has been asked for. -/
  asked : Nat
deriving Repr

namespace Cursor

def start (insts : List Instruction) : Cursor := ⟨insts, [], 0⟩

def enter (s : Cursor) (frame : Frame) : Cursor := { s with frames := frame :: s.frames }

/-- Goes on behind the nearest loop or switch. -/
def breakOut (s : Cursor) : Outcome Cursor :=
  match s.frames.findIdx? Frame.breaks with
  | some depth =>
    .next none { s with rest := behind depth s.rest, frames := s.frames.drop (depth + 1) }
  | none => .stop .undefined

/-- Goes on with the next turn of the nearest loop. -/
def continueOn (s : Cursor) : List Frame → Outcome Cursor
  | [] => .stop .undefined
  | .loop body :: frames => .next none { s with rest := body, frames := .loop body :: frames }
  | _ :: frames => s.continueOn frames

/-- What a jump does once it is taken. -/
def leave (s : Cursor) : Opcode → Outcome Cursor
  | .breakOp | .breakIf => s.breakOut
  | .continueOp | .continueIf => s.continueOn s.frames
  | .ret | .retIf => .stop .returned
  | .discard => .stop .killed
  | _ => .stop .undefined

/-- Where an `if` goes on that does not hold: in its other part, or behind it. -/
def otherwise (s : Cursor) : Outcome Cursor :=
  match divisions 0 s.rest with
  | [] => .stop .undefined
  | (inst, rest) :: _ =>
    if inst.control? = some .elseOp then .next none (enter { s with rest } .branch)
    else .next none { s with rest }

/-- Where a switch is entered: at the first case that has the word for its literal, and if there is
none at the last default. -/
def entrance? (word : UInt32) (labels : List (Instruction × List Instruction)) :
    Option (List Instruction) :=
  let case? := labels.find? (·.1.isCase word)
  let default? := labels.reverse.find? (·.1.isDefault)
  (case?.or default?).map (·.2)

/-- Goes on at the entrance of a switch, or behind the switch if it has none. -/
def select (s : Cursor) (word : UInt32) : Outcome Cursor :=
  match entrance? word (divisions 0 s.rest) with
  | some rest => .next none (enter { s with rest } .switch)
  | none => .next none { s with rest := behind 0 s.rest }

/-- Repeats the loop around, or leaves the construct around if it is not a loop. -/
def closeFrame (s : Cursor) : Outcome Cursor :=
  match s.frames with
  | [] => .stop .undefined
  | .loop body :: _ => .next none { s with rest := body }
  | _ :: frames => .next none { s with frames }

/-- What an instruction does, given the word that the oracle has for it. -/
def execute (s : Cursor) (inst : Instruction) (word : UInt32) : Outcome Cursor :=
  let told := { s with asked := s.asked + 1 }
  let holds := inst.zeroTest.passes word
  match inst.control? with
  | none => .next (some inst) s
  | some .ifOp => if holds then .next none (told.enter .branch) else told.otherwise
  | some .elseOp => .next none { s with rest := behind 0 s.rest, frames := s.frames.tail }
  | some .loop => .next none (s.enter (.loop s.rest))
  | some .switch => told.select word
  | some .endIf | some .endLoop | some .endSwitch => s.closeFrame
  | some op =>
    if op.isJumpOn then if holds then told.leave op else .next none told
    else s.leave op

/-- One step of a program. Labels do nothing, and behind the last instruction it returns. -/
def step (oracle : Nat → UInt32) : Machine Cursor := fun s =>
  match s.rest.dropWhile Instruction.isLabel with
  | [] => .stop .returned
  | inst :: rest => execute { s with rest } inst (oracle s.asked)

end Cursor

end ShaderLowering

namespace ShaderLowering

open Spirv (Id Instr Exit Arg)

namespace Spirv

namespace Exit

def readCases : List Arg → Option (List (UInt32 × Id))
  | [] => some []
  | .word literal :: .id label :: rest => (readCases rest).map ((literal, label) :: ·)
  | _ => none

theorem readCases_caseArgs (cases : List (UInt32 × Id)) :
    readCases (caseArgs cases) = some cases := by
  induction cases with
  | nil => rfl
  | cons c rest ih =>
    have step : caseArgs (c :: rest) = .word c.1 :: .id c.2 :: caseArgs rest := rfl
    rw [step, readCases, ih]
    rfl

/-- Where a switch goes: to the first case that has the word for its literal, or to the default. -/
def select (default_ : Id) (cases : List (UInt32 × Id)) (word : UInt32) : Id :=
  ((cases.find? fun c => c.1 = word).map (·.2)).getD default_

end Exit

/-- How control leaves a block that ends with an instruction. -/
def Instr.exit? (i : Instr) : Option Exit :=
  match i.op, i.args with
  | .control .branch, [.id label] => some (.branch label)
  | .control .branchConditional, [.id condition, .id ifTrue, .id ifFalse] =>
    some (.test condition ifTrue ifFalse)
  | .control .switch, .id selector :: .id default_ :: cases =>
    (Exit.readCases cases).map (.switch selector default_)
  | .control .ret, [] => some .ret
  | .control .kill, [] => some .kill
  | .control .unreachable, [] => some .unreachable
  | _, _ => none

theorem Exit.exit?_instr (e : Exit) : e.instr.exit? = some e := by
  cases e with
  | switch selector default_ cases =>
    have read : (Exit.switch selector default_ cases).instr.exit? =
        (readCases (caseArgs cases)).map (.switch selector default_) := rfl
    rw [read, readCases_caseArgs]
    rfl
  | branch | test | ret | kill | unreachable => rfl

def Block.exit? (b : Block) : Option Exit :=
  b.body.toList.getLast?.bind Instr.exit?

/-- Whether an instruction defines a constant zero. -/
def Instr.isZero (i : Instr) (constant : Id) : Bool :=
  i.op = .ordinary .constant && i.result? = some constant && i.args = [.word 0]

/-- What a comparison with the constant zero tests. -/
def Instr.zeroTest? (globals : Array Instr) (i : Instr) : Option ZeroTest :=
  match i.op, i.args with
  | .ordinary .iEqual, [.id _, .id constant] =>
    if globals.toList.any (·.isZero constant) then some .ifZero else none
  | .ordinary .iNotEqual, [.id _, .id constant] =>
    if globals.toList.any (·.isZero constant) then some .ifNonZero else none
  | _, _ => none

/-- The test that computes a condition in a block. -/
def Block.zeroTest? (globals : Array Instr) (b : Block) (condition : Id) : Option ZeroTest :=
  (b.body.toList.reverse.find? (·.result? = some condition)).bind (·.zeroTest? globals)

end Spirv

/-- A function, and the events that stand in its blocks. -/
structure Body where
  function : Spirv.Function
  globals : Array Instr
  events : Nat → List Instruction

/-- A place in a body. -/
structure Place where
  block : Nat
  /-- The events that are still to come in this block. -/
  ahead : List Instruction
  /-- How many words the oracle has been asked for. -/
  asked : Nat

namespace Body

variable (b : Body)

def enter (asked block : Nat) : Place := ⟨block, b.events block, asked⟩

/-- A function begins with its first block. -/
def start : Place := b.enter 0 0

/-- Goes to the block with a label. -/
def goto (asked : Nat) (label : Id) : Outcome Place :=
  match b.function.blocks.toList.findIdx? (·.label = label) with
  | some block => .next none (b.enter asked block)
  | none => .stop .undefined

def leave (oracle : Nat → UInt32) (asked : Nat) (block : Spirv.Block) : Exit → Outcome Place
  | .branch label => b.goto asked label
  | .test condition ifTrue ifFalse =>
    match block.zeroTest? b.globals condition with
    | some test => b.goto (asked + 1) (if test.passes (oracle asked) then ifTrue else ifFalse)
    | none => .stop .undefined
  | .switch _ default_ cases => b.goto (asked + 1) (Exit.select default_ cases (oracle asked))
  | .ret => .stop .returned
  | .kill => .stop .killed
  | .unreachable => .stop .undefined

/-- One step through a body: the next event of the block, or out of the block. -/
def step (oracle : Nat → UInt32) : Machine Place := fun p =>
  match p.ahead, b.function.blocks[p.block]? with
  | event :: ahead, _ => .next (some event) { p with ahead }
  | [], some block => (block.exit?.map (b.leave oracle p.asked block)).getD (.stop .undefined)
  | [], none => .stop .undefined

end Body

/-- An instruction that leaves control alone, with the block that was open when its turn came. -/
abbrev Mark := Option Nat × Instruction

/-- The instructions that stand in a block. -/
def eventsAt (marks : List Mark) (block : Nat) : List Instruction :=
  marks.filterMap fun m => if m.1 = some block then some m.2 else none

/-- The marks that instructions leave when they are lowered one after the other. -/
def Lowering.marks : Lowering → List Instruction → List Mark
  | _, [] => []
  | l, inst :: rest =>
    let later := (l.step inst).2.marks rest
    if inst.family = .controlFlow then later else (l.state.builder.block?, inst) :: later

/-- The body of a lowered shader. It is the first function of the module. -/
def body? (env : Environment) (insts : List Instruction) : Option Body :=
  match Lowering.start env, lowerInstructions env insts with
  | .ok first, .ok l =>
    l.state.builder.module.functions[0]?.map fun f =>
      ⟨f, l.state.builder.module.globals, eventsAt (first.marks insts)⟩
  | _, _ => none

end ShaderLowering
