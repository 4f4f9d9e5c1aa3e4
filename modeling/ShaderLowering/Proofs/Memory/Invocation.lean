import ShaderLowering.Proofs.Execution.Processor

/-!
Running code on memory. An invocation knows what ids stand for, as a processor does, and the
addresses that pointers lead to: an address is a variable with the indices that step into it, and
memory has a word for each address. What a processor computes an invocation computes alike; the rest
acts on memory. What lies outside of the code is the world's: the device, what a called function
leaves in memory, and what other invocations have left there when all meet at a barrier. The
invocation keeps a record of what it does to memory and to others.

Addresses are told apart by their indices alone. Whether an index is in range is for types to say.
-/

namespace ShaderLowering.Spirv

/-- A variable, and the indices that lead into it. -/
structure Address where
  variable_ : Id
  path : List Nat
deriving DecidableEq, Repr

namespace Address

def inside (p : Address) (path : List Nat) : Address :=
  { p with path := p.path ++ path }

/-- Component or element `i` of what lies at an address. -/
def part (p : Address) (i : Nat) : Address :=
  p.inside [i]

end Address

/-- A word for each address. -/
abbrev Memory := Address → UInt32

namespace Memory

/-- The memory once the components of a vector, or a single word, are written to an address. -/
def write (memory : Memory) (p : Address) (ws : List UInt32) : Memory :=
  match ws with
  | [w] => Function.update memory p w
  | ws => fun q =>
    ((List.range ws.length).find? fun i => q = p.part i).elim (memory q) fun i => ws.getD i 0

end Memory

/-- What others may notice of a run. -/
inductive Event
  | store (address : Address) (ws : List UInt32)
  /-- An atomic operation leaves a word behind. -/
  | exchange (address : Address) (w : UInt32)
  | call (function : Id)
  | barrier
  | vertex
  | primitive
deriving DecidableEq, Repr

/-- What lies outside of the code. -/
structure World where
  device : Device
  /-- What a function leaves in memory. -/
  call : Id → Memory → Memory
  /-- What is in memory once all invocations have arrived at a barrier. -/
  barrier : Memory → Memory

structure Invocation where
  values : Id → Option Datum
  /-- Where the pointers that were computed lead. -/
  addresses : Id → Option Address
  memory : Memory
  /-- Latest last. -/
  events : List Event

/-- Whether a type is that of truth values. -/
def Module.isTruth (m : Module) (type : Id) : Bool :=
  (m.definition? type).any (·.op = .ordinary .typeBool)

/-- What lies at an address, read as a type. There are no vectors of truth values in memory. -/
def Module.read? (m : Module) (memory : Memory) (p : Address) (type : Id) : Option Datum :=
  match m.definition? type with
  | some ⟨.ordinary .typeBool, _, _, _⟩ => some (.truths [memory p ≠ 0])
  | some ⟨.ordinary .typeInt, _, _, _⟩ | some ⟨.ordinary .typeFloat, _, _, _⟩ =>
    some (.words [memory p])
  | some ⟨.ordinary .typeVector, _, _, [.id component, .word n]⟩ =>
    if m.isTruth component then none
    else some (.words ((List.range n.toNat).map fun i => memory (p.part i)))
  | _ => none

namespace Op

def isAtomic : Op → Bool
  | atomicAnd | atomicOr | atomicXor | atomicIAdd | atomicISub | atomicSMax | atomicSMin
  | atomicUMax | atomicUMin | atomicExchange | atomicCompareExchange => true
  | _ => false

/-- The pointer and the values among the arguments of an atomic operation. -/
def atomicArgs? (op : Op) (args : List Arg) : Option (Id × List Arg) :=
  match op, args with
  | atomicCompareExchange, [.id p, _, _, _, value, comparator] => some (p, [value, comparator])
  | _, [.id p, _, _, value] => some (p, [value])
  | _, _ => none

/-- What an atomic operation makes of a word. -/
def exchange? (op : Op) (old : UInt32) (values : List UInt32) : Option UInt32 :=
  match op, values with
  | atomicAnd, [a] => some (old &&& a)
  | atomicOr, [a] => some (old ||| a)
  | atomicXor, [a] => some (old ^^^ a)
  | atomicIAdd, [a] => some (old + a)
  | atomicISub, [a] => some (old - a)
  | atomicSMax, [a] => some (if signed old < signed a then a else old)
  | atomicSMin, [a] => some (if signed a < signed old then a else old)
  | atomicUMax, [a] => some (if old < a then a else old)
  | atomicUMin, [a] => some (if a < old then a else old)
  | atomicExchange, [a] => some a
  | atomicCompareExchange, [a, comparator] => some (if old = comparator then a else old)
  | _, _ => none

end Op

namespace Invocation

variable (d : Device) (m : Module) (μ : Invocation)

/-- The values that are known, without the memory. -/
def processor : Processor :=
  ⟨μ.values, fun _ => .zero⟩

/-- Where an id leads. -/
def address? (id : Id) : Option Address :=
  match m.definition? id with
  | some ⟨.ordinary .var, _, _, _⟩ => some ⟨id, []⟩
  | _ => μ.addresses id

def index? (arg : Arg) : Option Nat := do
  let [n] ← Device.words? m μ.processor arg | none
  return n.toNat

/-- What an instruction computes that changes nothing else. -/
def evaluate? (op : Op) (type? : Option Id) (args : List Arg) : Option Datum :=
  match op, type?, args with
  | .load, some type, [.id p] => (μ.address? m p).bind fun address => m.read? μ.memory address type
  | .compositeInsert, _, [part, whole, .word n] => do
    let [w] ← Device.words? m μ.processor part | none
    return .words ((← Device.words? m μ.processor whole).set n.toNat w)
  | .fDiv, _, [a, b] =>
    (Device.lanes? m μ.processor (fun ws => some (d.float .fDiv ws)) [a, b]).map .words
  | .extInst, _, set :: .word code :: args =>
    if code = ExtOp.nMin.code then
      (Device.lanes? m μ.processor (fun ws => some (d.extended .nMin ws)) args).map .words
    else d.evaluate? m μ.processor .extInst (set :: .word code :: args)
  | .load, _, _ | .compositeInsert, _, _ | .fDiv, _, _ => none
  | op, _, args => d.evaluate? m μ.processor op args

end Invocation

namespace World

variable (w : World) (m : Module) (μ : Invocation)

/-- An atomic operation. It computes the word from before. -/
def exchange? (op : Op) (id : Id) (args : List Arg) : Option Invocation := do
  let (p, values) ← op.atomicArgs? args
  let address ← μ.address? m p
  let values ← values.mapM (Device.words? m μ.processor)
  let new ← op.exchange? (μ.memory address) values.flatten
  return { μ with
    values := Function.update μ.values id (some (.words [μ.memory address]))
    memory := Function.update μ.memory address new
    events := μ.events ++ [.exchange address new] }

/-- One instruction. A variable without initial value keeps what its memory happens to hold. -/
def act? (i : Instr) : Option Invocation :=
  match i with
  | ⟨.ordinary .var, _, some _, [_]⟩ => some μ
  | ⟨.ordinary .store, _, none, [.id p, value]⟩ => do
    let address ← μ.address? m p
    let ws ← Device.words? m μ.processor value
    return { μ with
      memory := μ.memory.write address ws, events := μ.events ++ [.store address ws] }
  | ⟨.ordinary .functionCall, _, some _, [.id f]⟩ =>
    some { μ with memory := w.call f μ.memory, events := μ.events ++ [.call f] }
  | ⟨.ordinary .controlBarrier, _, none, _⟩ =>
    some { μ with memory := w.barrier μ.memory, events := μ.events ++ [.barrier] }
  | ⟨.ordinary .emitVertex, _, none, []⟩ => some { μ with events := μ.events ++ [.vertex] }
  | ⟨.ordinary .endPrimitive, _, none, []⟩ => some { μ with events := μ.events ++ [.primitive] }
  | ⟨.ordinary .accessChain, _, some id, .id base :: indices⟩ => do
    let address ← μ.address? m base
    let path ← indices.mapM (μ.index? m)
    return { μ with
      addresses := Function.update μ.addresses id (some (address.inside path)) }
  | ⟨.ordinary op, type?, some id, args⟩ =>
    if op.isAtomic then exchange? m μ op id args
    else do
      let x ← μ.evaluate? w.device m op type? args
      return { μ with values := Function.update μ.values id (some x) }
  | _ => none

/-- Instructions one after the other. -/
def run (w : World) (m : Module) (code : List Instr) (μ : Invocation) : Option Invocation :=
  code.foldlM (w.act? m) μ

end World

end ShaderLowering.Spirv
