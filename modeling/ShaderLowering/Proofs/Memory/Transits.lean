import ShaderLowering.Proofs.Memory.Roles

/-!
What the components of interface registers travel in, and what travels. On its way in a component is
a word that lies in a variable of the interface, or is computed from what lies there, and goes to
the private input registers; on its way out it goes from the private output registers to the
interface. Things on their way fill cells of memory one after the other. As they are not taken from
where they go, each is what it was in the beginning.
-/

namespace ShaderLowering

open Spirv (StorageClass BuiltIn Invocation World Address Memory Event)

namespace Spirv

/-- The memory once some cells have got their words, one after the other. -/
def Memory.fill (memory : Memory) (cells : List (Address × UInt32)) : Memory :=
  cells.foldl (fun memory cell => Function.update memory cell.1 cell.2) memory

namespace Memory

variable {memory : Memory} {cells more : List (Address × UInt32)} {q : Address}

theorem fill_append : memory.fill (cells ++ more) = (memory.fill cells).fill more :=
  List.foldl_append

theorem fill_elsewhere (other : ∀ cell ∈ cells, q ≠ cell.1) : memory.fill cells q = memory q := by
  induction cells generalizing memory with
  | nil => rfl
  | cons cell rest ih =>
    have below : Memory.fill (Function.update memory cell.1 cell.2) rest q =
        Function.update memory cell.1 cell.2 q :=
      ih fun cell' mem => other cell' (List.mem_cons_of_mem _ mem)
    exact below.trans (Function.update_of_ne (other cell List.mem_cons_self) _ _)

/-- Where all cells at a place have the same word, the place has it. -/
theorem fill_at {x : UInt32} (mem : (q, x) ∈ cells)
    (same : ∀ cell ∈ cells, cell.1 = q → cell.2 = x) :
    memory.fill cells q = x := by
  obtain ⟨front, back, rfl⟩ := List.append_of_mem mem
  rw [fill_append]
  -- What comes behind the cell finds the word there, and writes it again at most.
  have still (l : List (Address × UInt32)) (same : ∀ cell ∈ l, cell.1 = q → cell.2 = x)
      (m : Memory) (is : m q = x) : m.fill l q = x := by
    induction l generalizing m with
    | nil => exact is
    | cons cell rest ih =>
      refine ih (fun cell' mem' => same cell' (List.mem_cons_of_mem _ mem')) _ ?_
      change Function.update m cell.1 cell.2 q = x
      by_cases here_ : q = cell.1
      · rw [here_, Function.update_self]
        exact same cell List.mem_cons_self here_.symm
      · rw [Function.update_of_ne here_, is]
  refine still back (fun cell mem' => ?_) _ (Function.update_self _ _ _)
  exact same cell (List.mem_append_right _ (List.mem_cons_of_mem _ mem'))

/-- Words that are written to some components of a vector fill their cells. -/
theorem assign_eq_fill {p : Address} {count : Nat} {mask : WriteMask} {g : Nat → UInt32}
    (within_ : ∀ c ∈ mask.components, c < count) : memory.assign p count mask g =
      memory.fill (mask.components.map fun c => (p.component count c, g c)) := by
  funext q
  by_cases part : ∃ c ∈ mask.components, q = p.component count c
  · obtain ⟨c, mem, rfl⟩ := part
    rw [assign_at within_ mem]
    refine (fill_at (List.mem_map.2 ⟨c, mem, rfl⟩) fun cell listed same => ?_).symm
    obtain ⟨c', mem', rfl⟩ := List.mem_map.1 listed
    -- The same place was given to both, so the words of both are there.
    have first : memory.assign p count mask g (p.component count c) = g c :=
      assign_at within_ mem
    have second : memory.assign p count mask g (p.component count c') = g c' :=
      assign_at within_ mem'
    exact second.symm.trans ((congrArg _ same).trans first)
  · rw [assign_other fun c mem same => part ⟨c, mem, same⟩]
    refine (fill_elsewhere fun cell listed same => ?_).symm
    obtain ⟨c, mem, rfl⟩ := List.mem_map.1 listed
    exact part ⟨c, mem, same⟩

end Memory

/-- Some cells got their words, one after the other, by stores to the variables they are in. Nothing
else happened. -/
structure Invocation.Filled (μ ν : Invocation) (cells : List (Address × UInt32)) : Prop where
  memory : ν.memory = μ.memory.fill cells
  events : ∃ stores, ν.events = μ.events ++ stores ∧ ∀ e ∈ stores, ∃ cell ∈ cells, ∃ p ws,
    p.variable_ = cell.1.variable_ ∧ e = .store p ws

namespace Invocation.Filled

variable {μ ν κ : Invocation} {cells more : List (Address × UInt32)}

theorem of_unmoved (h : μ.Unmoved ν) : μ.Filled ν [] :=
  ⟨h.memory, [], h.events.trans (List.append_nil _).symm, List.forall_mem_nil _⟩

theorem trans (first : μ.Filled ν cells) (second : ν.Filled κ more) :
    μ.Filled κ (cells ++ more) := by
  obtain ⟨stores, events, all⟩ := first.events
  obtain ⟨stores', events', all'⟩ := second.events
  refine ⟨?_, stores ++ stores', ?_, fun e he => ?_⟩
  · rw [second.memory, first.memory, Memory.fill_append]
  · rw [events', events, List.append_assoc]
  · rcases List.mem_append.1 he with mem | mem
    · obtain ⟨cell, listed, rest⟩ := all e mem
      exact ⟨cell, List.mem_append_left _ listed, rest⟩
    · obtain ⟨cell, listed, rest⟩ := all' e mem
      exact ⟨cell, List.mem_append_right _ listed, rest⟩

theorem of_stored {q : Address} {count : Nat} {mask : WriteMask} {g : Nat → UInt32}
    (within_ : ∀ c ∈ mask.components, c < count) (some_ : mask.components ≠ [])
    (h : μ.Stored ν q count mask g) :
    μ.Filled ν (mask.components.map fun c => (q.component count c, g c)) := by
  obtain ⟨p, ws, own, events⟩ := h.events
  refine ⟨h.memory.trans (Memory.assign_eq_fill within_), _, events, fun e he => ?_⟩
  obtain ⟨c, mem⟩ := List.exists_mem_of_ne_nil _ some_
  refine ⟨_, List.mem_map.2 ⟨c, mem, rfl⟩, p, ws, ?_, List.mem_singleton.1 he⟩
  rw [own, Address.component_variable]

theorem elsewhere (h : μ.Filled ν cells) {q : Address}
    (other : ∀ cell ∈ cells, q.variable_ ≠ cell.1.variable_) : ν.memory q = μ.memory q := by
  rw [h.memory]
  exact Memory.fill_elsewhere fun cell mem same => other cell mem (congrArg _ same)

end Invocation.Filled

end Spirv

/-- Where some things go, and the words that they are made of. No word is taken from where anything
goes. -/
structure Flow (ι : Type) where
  target : State → ι → Option Address
  word : State → Memory → ι → Option UInt32
  apart : ∀ u : State, u.Parted → ∀ memory memory' : Memory,
    (∀ q : Address, (∀ i p, target u i = some p → q.variable_ ≠ p.variable_) →
      memory q = memory' q) → ∀ i, word u memory i = word u memory' i

namespace Flow

variable {ι : Type} {F : Flow ι} {u : State} {μ ν κ : Invocation} {items more : List ι}

/-- The cell that something goes to, with the word that it gets. -/
def cell? (F : Flow ι) (u : State) (memory : Memory) (i : ι) : Option (Address × UInt32) :=
  (F.target u i).bind fun q => (F.word u memory i).map fun x => (q, x)

/-- All that happened is that some things got where they go. -/
def Filled (F : Flow ι) (u : State) (items : List ι) (μ ν : Invocation) : Prop :=
  ∃ cells, items.mapM (F.cell? u μ.memory) = some cells ∧ μ.Filled ν cells

/-- The words are given with the things. -/
def given (F : Flow ι) : Flow (ι × UInt32) where
  target u i := F.target u i.1
  word _ _ i := some i.2
  apart _ _ _ _ _ _ := rfl

namespace Filled

theorem elsewhere (h : F.Filled u items μ ν) {q : Address}
    (other : ∀ i p, F.target u i = some p → q.variable_ ≠ p.variable_) :
    ν.memory q = μ.memory q := by
  obtain ⟨cells, all, filled⟩ := h
  refine filled.elsewhere fun cell mem => ?_
  obtain ⟨i, _, is⟩ := List.exists_of_mem_mapM all mem
  obtain ⟨q, target, is⟩ := Option.bind_eq_some_iff.1 is
  obtain ⟨x, _, rfl⟩ := Option.map_eq_some_iff.1 is
  exact other i q target

/-- There is a place that each of the things goes to, and a word that it is made of. -/
theorem exists_word (h : F.Filled u items μ ν) {i : ι} (mem : i ∈ items) :
    (∃ q, F.target u i = some q) ∧ ∃ x, F.word u μ.memory i = some x := by
  obtain ⟨cells, all, _⟩ := h
  obtain ⟨_, _, is⟩ := List.exists_mem_mapM all mem
  obtain ⟨q, target, is⟩ := Option.bind_eq_some_iff.1 is
  obtain ⟨x, word, _⟩ := Option.map_eq_some_iff.1 is
  exact ⟨⟨q, target⟩, x, word⟩

theorem of_unmoved (h : μ.Unmoved ν) : F.Filled u [] μ ν :=
  ⟨[], rfl, .of_unmoved h⟩

theorem trans (parted : u.Parted) (first : F.Filled u items μ ν) (second : F.Filled u more ν κ) :
    F.Filled u (items ++ more) μ κ := by
  have same : F.cell? u ν.memory = F.cell? u μ.memory := by
    funext i
    have word := F.apart u parted ν.memory μ.memory (fun q other => first.elsewhere other) i
    rw [cell?, cell?, word]
  obtain ⟨cells, all, filled⟩ := first
  obtain ⟨cells', all', filled'⟩ := second
  refine ⟨cells ++ cells', ?_, filled.trans filled'⟩
  rw [List.mapM_append, all, ← same, all']
  rfl

/-- Words that are given with things are the words that the things are made of. -/
theorem of_given {w : ι → UInt32} (h : F.given.Filled u (items.map fun i => (i, w i)) μ ν)
    (word : ∀ i ∈ items, F.word u μ.memory i = some (w i)) : F.Filled u items μ ν := by
  obtain ⟨cells, all, filled⟩ := h
  refine ⟨cells, ?_, filled⟩
  rw [← all]
  clear all filled
  induction items with
  | nil => rfl
  | cons i rest ih =>
    have first : F.cell? u μ.memory i = F.given.cell? u μ.memory (i, w i) := by
      rw [cell?, word i List.mem_cons_self]
      rfl
    rw [List.map_cons, List.mapM_cons, List.mapM_cons, first,
      ih fun i' mem => word i' (List.mem_cons_of_mem _ mem)]

end Filled

end Flow

instance {ι : Type} (F : Flow ι) : Composes F.Filled where
  idle := .of_unmoved
  trans := .trans

/-- A step that brings things whose words are known brings the things that are made of them. -/
theorem Conveys.of_given {ι α : Type} {w : World} {env : Environment} {s : State} {μ : Invocation}
    {F : Flow ι} {items : List ι} {x : ι → UInt32} {e : Emission α} {P : α → Prop}
    (h : Conveys w env F.given.Filled (items.map fun i => (i, x i)) e s μ P)
    (word : ∀ u, s.Maintains u → ∀ i ∈ items, F.word u μ.memory i = some (x i)) :
    Conveys w env F.Filled items e s μ P := by
  refine Performs.mono h fun _ t _ since h => ⟨h.1, fun u maintains parted => ?_⟩
  exact .of_given (h.2 u maintains parted) (word u (since.maintains.trans maintains))

/-- What one component of an interface register travels in. -/
inductive Carrier
  | location (location : UInt32)
  | builtin (builtin : BuiltIn)
  /-- An element of a built-in array. -/
  | element (builtin : BuiltIn) (index : Nat)
deriving DecidableEq, Repr

/-- What a system value of a whole register is copied from or to. Clip and cull distances are
numbered through all registers instead, and other values are not copied. -/
def SystemValue.carrier? (stage : ShaderStage) (side : Side) (value : SystemValue) :
    Option Carrier :=
  match side, value with
  | .input, .position => some (.builtin (if stage = .pixel then .fragCoord else .position))
  | .input, .vertexId => some (.builtin .vertexIndex)
  | .input, .instanceId => some (.builtin .instanceIndex)
  | .input, .isFrontFace => some (.builtin .frontFacing)
  | .input, .sampleIndex => some (.builtin .sampleId)
  | .input, .primitiveId => some (.builtin .primitiveId)
  | .output, .position => some (.builtin .position)
  | .input, .renderTargetArrayIndex | .output, .renderTargetArrayIndex => some (.builtin .layer)
  | .input, .viewportArrayIndex | .output, .viewportArrayIndex => some (.builtin .viewportIndex)
  | _, _ => none

namespace Lower

/-- A number in an index, which is a word. -/
def asIndex (n : Nat) : Nat :=
  (UInt32.ofNat n).toNat

end Lower

open Lower (asIndex floatOne verticesOf)

/-- How many vertices inputs are arrayed over. -/
def State.vertexCount (env : Environment) (s : State) : Nat :=
  match env.stage with
  | .geometry | .hull | .domain =>
    if s.stage.inputVertices = 0 then maxInterfaceRegisters else s.stage.inputVertices
  | _ => 0

theorem State.Maintains.vertexCount {env : Environment} {s t : State} (h : s.Maintains t) :
    t.vertexCount env = s.vertexCount env := by
  have same : t.stage = s.stage := h.within_.stage
  rw [State.vertexCount, same]
  rfl

/-- The index of a vertex, where a location variable has one. -/
def LocationVariable.path (l : LocationVariable) (vertex? : Option Nat) : List Nat :=
  if 0 < l.vertices then vertex?.toList else []

theorem LocationVariable.path_none (l : LocationVariable) : l.path none = [] :=
  ite_self _

namespace Carrier

/-- Where a component lies that travels in something, for a vertex if there are several. -/
def place? (u : State) (side : Side) (vertex? : Option Nat) (c : Nat) : Carrier → Option Address
  | .location reg => (u.inventory.location? side reg).map fun l =>
    Address.part ⟨l.id, l.path (vertex?.map asIndex)⟩ c
  | .builtin key => (u.builtins.lookup (key, side.storage)).map fun b =>
    Address.component ⟨b.id, b.path (vertex?.map asIndex) none⟩ b.type.count c
  | .element key i => (u.builtins.lookup (key, side.storage)).map fun b =>
    ⟨b.id, b.path (vertex?.map asIndex) (some (asIndex i))⟩

/-- A component lies in a variable of the interface. -/
theorem exists_port {u : State} {side : Side} {vertex? : Option Nat} {c : Nat} {k : Carrier}
    {p : Address} (is : k.place? u side vertex? c = some p) :
    ∃ port : Port, port.storageClass = side.storage ∧
      u.holder? (.port port) = some p.variable_ := by
  cases k with
  | location reg =>
    obtain ⟨l, found, rfl⟩ := Option.map_eq_some_iff.1 is
    refine ⟨.register side reg, rfl, ?_⟩
    rw [State.holder?, State.port?, State.located_inventory, found]
    rfl
  | builtin key =>
    obtain ⟨b, found, rfl⟩ := Option.map_eq_some_iff.1 is
    refine ⟨.builtin key side.storage, rfl, ?_⟩
    rw [Address.component_variable]
    exact congrArg (Option.map _) found
  | element key i =>
    obtain ⟨b, found, rfl⟩ := Option.map_eq_some_iff.1 is
    exact ⟨.builtin key side.storage, rfl, congrArg (Option.map _) found⟩

end Carrier

/-- The word of a built-in that is one number. -/
def State.draw? (u : State) (memory : Memory) (builtin : BuiltIn) : Option UInt32 :=
  (u.builtins.lookup (builtin, .input)).map fun b => memory ⟨b.id, []⟩

/-- What a component is when it arrives in an input register. Numbers of vertices and instances are
counted from their bases, truth values are masks, and of the position of a pixel the last component
is inverted. -/
def Carrier.arrive? (w : World) (env : Environment) (u : State) (memory : Memory) (c : Nat)
    (x : UInt32) : Carrier → Option UInt32
  | .builtin .fragCoord => some (if c = 3 then w.device.float .fDiv [floatOne, x] else x)
  | .builtin .frontFacing => some (if x ≠ 0 then 0xffffffff else 0)
  | .builtin .vertexIndex =>
    if env.options.subtractBaseVertex then (u.draw? memory .baseVertex).map (x - ·) else some x
  | .builtin .instanceIndex => (u.draw? memory .baseInstance).map (x - ·)
  | _ => some x

/-- One component of an interface register on its way, for a vertex where there are several. -/
structure Transit where
  register : UInt32
  vertex? : Option Nat
  component : Nat
  carrier : Carrier
deriving DecidableEq

/-- Components of a register on their way, for each of some vertices. -/
def transits (vertices : List (Option Nat)) (reg : UInt32) (components : List Nat) (k : Carrier) :
    List Transit :=
  vertices.flatMap fun v => components.map fun c => ⟨reg, v, c, k⟩

theorem transits_none {α : Type} (f : Transit → α) (reg : UInt32) (components : List Nat)
    (k : Carrier) : (transits [none] reg components k).map f =
      components.map fun c => f ⟨reg, none, c, k⟩ := by
  rw [transits, List.flatMap_singleton, List.map_map]
  rfl

theorem transits_map {α : Type} (l : List α) (f : α → Option Nat) (reg : UInt32)
    (components : List Nat) (k : Carrier) : transits (l.map f) reg components k =
      l.flatMap fun a => transits [f a] reg components k := by
  simp only [transits, List.flatMap_map, List.flatMap_singleton]

theorem mem_transits {vertices : List (Option Nat)} {reg : UInt32} {components : List Nat}
    {k : Carrier} {i : Transit} : i ∈ transits vertices reg components k ↔
      i.vertex? ∈ vertices ∧ i.register = reg ∧ i.component ∈ components ∧ i.carrier = k := by
  simp only [transits, List.mem_flatMap, List.mem_map]
  constructor
  · rintro ⟨v, hv, c, hc, rfl⟩
    exact ⟨hv, rfl, hc, rfl⟩
  · rintro ⟨hv, rfl, hc, rfl⟩
    exact ⟨_, hv, _, hc, rfl⟩

/-- The word that arrives in an input register. -/
def Transit.word? (w : World) (env : Environment) (u : State) (memory : Memory) (i : Transit) :
    Option UInt32 :=
  (i.carrier.place? u .input i.vertex? i.component).bind fun p =>
    i.carrier.arrive? w env u memory i.component (memory p)

/-- From the interface to the private input registers. -/
def intake (w : World) (env : Environment) : Flow Transit where
  target u i := u.inputArray?.map fun array =>
    ⟨array, (i.vertex?.map asIndex).toList ++ [i.register.toNat, i.component]⟩
  word := Transit.word? w env
  apart u parted memory memory' same i := by
    have agree {q : Address} {port : Port} (from_ : port.storageClass = .input)
        (is : u.holder? (.port port) = some q.variable_) : memory q = memory' q := by
      refine same q fun j p target => ?_
      obtain ⟨array, there, rfl⟩ := Option.map_eq_some_iff.1 target
      refine parted.apart is (show u.holder? .inputs = some array from there) ?_
      change port.storageClass ≠ .priv
      rw [from_]
      exact StorageClass.noConfusion
    have draw (builtin : BuiltIn) : u.draw? memory builtin = u.draw? memory' builtin := by
      unfold State.draw?
      cases found : u.builtins.lookup (builtin, .input) with
      | none => rfl
      | some b =>
        have port : u.holder? (.port (.builtin builtin .input)) = some b.id :=
          congrArg (Option.map _) found
        exact congrArg some (agree rfl port)
    unfold Transit.word?
    cases place : i.carrier.place? u .input i.vertex? i.component with
    | none => rfl
    | some p =>
      obtain ⟨port, from_, is⟩ := Carrier.exists_port place
      rw [Option.bind_some, Option.bind_some, agree from_ is]
      unfold Carrier.arrive?
      rw [draw, draw]

/-- From the private output registers to the interface. -/
def outlet : Flow Transit where
  target u i := i.carrier.place? u .output i.vertex? i.component
  word u memory i := u.outputArray?.map fun array =>
    memory ⟨array, [i.register.toNat, i.component]⟩
  apart u parted memory memory' same i := by
    cases there : u.outputArray? with
    | none => rfl
    | some array =>
      refine congrArg some (same _ fun j p target => ?_)
      obtain ⟨port, from_, is⟩ := Carrier.exists_port target
      refine parted.apart (show u.holder? .outputs = some array from there) is ?_
      change StorageClass.priv ≠ port.storageClass
      rw [from_]
      exact StorageClass.noConfusion

namespace InterfaceRegister

/-- The components of an input register on their way, without distances. -/
def intakes (stage : ShaderStage) (count : Nat) (reg : UInt32) (r : InterfaceRegister) :
    List Transit :=
  (r.location?.toList.flatMap fun l => transits
    (verticesOf (if l.vertices = 0 then count else l.vertices)) reg r.userMask.components
      (.location reg)) ++
  r.systemValues.flatMap fun p => (p.2.carrier? stage .input).toList.flatMap fun k =>
    transits (verticesOf count) reg p.1.components k

/-- The components of an output register on their way, without distances. Layer and viewport numbers
are single. -/
def outlets (stage : ShaderStage) (reg : UInt32) (r : InterfaceRegister) : List Transit :=
  (r.location?.toList.flatMap fun _ =>
    transits [none] reg r.userMask.components (.location reg)) ++
  r.systemValues.flatMap fun p => (p.2.carrier? stage .output).toList.flatMap fun k =>
    transits [none] reg (if p.2 = .position then p.1.components else [p.1.first?.getD 0]) k

section Ways

variable {r : InterfaceRegister} {reg : UInt32} {vertices : LocationVariable → List (Option Nat)}
  {all : List (Option Nat)} {components : WriteMask × SystemValue → List Nat}
  {carrier? : SystemValue → Option Carrier} {i : Transit}

/-- What is on its way through the location of a register, or through the built-ins of its system
values. -/
theorem mem_ways : (i ∈ (r.location?.toList.flatMap fun l =>
      transits (vertices l) reg r.userMask.components (.location reg)) ++
    r.systemValues.flatMap fun p => (carrier? p.2).toList.flatMap fun k =>
      transits all reg (components p) k) ↔
    i.register = reg ∧
      ((∃ l, r.location? = some l ∧ i.vertex? ∈ vertices l ∧
          r.userMask.contains i.component = true ∧ i.carrier = .location reg) ∨
        ∃ p ∈ r.systemValues, i.vertex? ∈ all ∧ i.component ∈ components p ∧
          carrier? p.2 = some i.carrier) := by
  simp only [List.mem_append, List.mem_flatMap, mem_transits, Option.mem_toList,
    WriteMask.mem_components]
  constructor
  · rintro (⟨l, is, vertex, register, covers, carrier⟩ | ⟨p, listed, k, is, vertex, register,
      has, rfl⟩)
    · exact ⟨register, .inl ⟨l, is, vertex, covers, carrier⟩⟩
    · exact ⟨register, .inr ⟨p, listed, vertex, has, is⟩⟩
  · rintro ⟨register, ⟨l, is, vertex, covers, carrier⟩ | ⟨p, listed, vertex, has, is⟩⟩
    · exact .inl ⟨l, is, vertex, register, covers, carrier⟩
    · exact .inr ⟨p, listed, _, is, vertex, register, has, rfl⟩

theorem register_of_mem_intakes {stage : ShaderStage} {count : Nat}
    (mem : i ∈ r.intakes stage count reg) : i.register = reg :=
  (mem_ways.1 mem).1

theorem register_of_mem_outlets {stage : ShaderStage} (mem : i ∈ r.outlets stage reg) :
    i.register = reg :=
  (mem_ways.1 mem).1

end Ways

end InterfaceRegister

namespace State

/-- All input registers on their way, without distances. -/
def intakes (env : Environment) (s : State) : List Transit :=
  s.inputs.entries.flatMap fun e => e.2.intakes env.stage (s.vertexCount env) e.1

/-- All output registers on their way, without distances. -/
def outlets (env : Environment) (s : State) : List Transit :=
  s.outputs.entries.flatMap fun e => e.2.outlets env.stage e.1

end State

end ShaderLowering
