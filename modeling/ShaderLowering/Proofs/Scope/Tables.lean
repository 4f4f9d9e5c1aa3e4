import ShaderLowering.Proofs.Scope.Accounts

/-!
The tables of a builder and its globals. A type that is not an aggregate, or a constant, is among
the globals once and in a table under one key; a key can be told from what its declaration is made
of. A request keeps this up: what is in no table is not among the globals, so to declare it anew
repeats nothing.
-/

namespace ShaderLowering

open Spirv (Id Instr Arg Op Module Builder Key TypeKey ConstantKey)

/-- Flags that are told apart by their words. -/
theorem flag_eq {flag flag' : Bool} {yes no : UInt32} (apart : yes ≠ no)
    (same : (if flag then yes else no) = if flag' then yes else no) : flag = flag' := by
  cases flag <;> cases flag'
  · rfl
  · exact absurd same.symm apart
  · exact absurd same apart
  · rfl

namespace Spirv

theorem Dim.code_injective {dim dim' : Dim} (same : dim.code = dim'.code) : dim = dim' := by
  cases dim <;> cases dim' <;> first | rfl | exact absurd same (by decide)

theorem ImageFormat.code_injective {format format' : ImageFormat}
    (same : format.code = format'.code) : format = format' := by
  cases format <;> cases format' <;> first | rfl | exact absurd same (by decide)

theorem Arg.map_id_injective {ids ids' : List Id} (same : ids.map Arg.id = ids'.map Arg.id) :
    ids = ids' :=
  List.map_injective_iff.2 (fun _ _ => Arg.id.inj) same

end Spirv

theorem ImageType.args_injective {image image' : ImageType}
    (sampled : image.sampled = image'.sampled)
    {component component' : Id} (same : image.args component = image'.args component') :
    image = image' := by
  obtain ⟨_, dim, isArrayed, isMultisampled, isStorage, format⟩ := image
  obtain ⟨_, dim', isArrayed', isMultisampled', isStorage', format'⟩ := image'
  simp only [ImageType.args, List.cons.injEq, Arg.word.injEq] at same
  obtain ⟨_, dims, _, arrayed, multisampled, storage, formats, _⟩ := same
  cases sampled
  obtain rfl := Spirv.Dim.code_injective dims
  obtain rfl := Spirv.ImageFormat.code_injective formats
  obtain rfl := flag_eq (by decide) arrayed
  obtain rfl := flag_eq (by decide) multisampled
  obtain rfl := flag_eq (by decide) storage
  rfl

namespace Spirv

/-- The types that are not aggregates, and constants. -/
def Op.isSingle : Op → Bool
  | typeBool | typeFloat | typeFunction | typeImage | typeInt | typePointer | typeSampledImage
  | typeSampler | typeVector | typeVoid | constant | constantComposite | constantFalse
  | constantNull | constantTrue => true
  | _ => false

def Instr.isSingle (i : Instr) : Bool :=
  match i.op with
  | .ordinary op => op.isSingle
  | .control _ => false

/-- Two instructions that differ in their ids at most. -/
def Instr.Repeats (i j : Instr) : Prop :=
  i.op = j.op ∧ i.resultType? = j.resultType? ∧ i.args = j.args

/-- The module has no two types, aggregates apart, and no two constants that repeat one another,
and none in blocks. -/
structure Module.Single (m : Module) : Prop where
  globals : m.globals.toList.Pairwise fun i j => i.isSingle = true → ¬i.Repeats j
  bodies : ∀ i ∈ m.bodies, i.isSingle = false

theorem Module.Single.of_eq {m n : Module} (h : m.Single) (globals : n.globals = m.globals)
    (bodies : ∀ i ∈ n.bodies, i ∈ m.bodies ∨ i.isSingle = false) : n.Single where
  globals := by
    rw [globals]
    exact h.globals
  bodies i mem := (bodies i mem).elim (h.bodies i) id

/-- Which constructor of a key an opcode belongs to. -/
def TypeKey.kindOf : Op → Nat
  | .typeVoid => 0
  | .typeBool | .typeInt | .typeFloat => 1
  | .typeVector => 2
  | .typeArray => 3
  | .typeRuntimeArray => 4
  | .typePointer => 5
  | .typeFunction => 6
  | .typeStruct => 7
  | .typeImage => 8
  | .typeSampler => 9
  | _ => 10

theorem TypeKey.kindOf_op (key : TypeKey) : kindOf key.op = key.ctorIdx := by
  cases key with
  | scalar component => cases component <;> rfl
  | _ => rfl

/-- Which constructor of a key an opcode belongs to. -/
def ConstantKey.kindOf : Op → Nat
  | .constantComposite => 1
  | .constantNull => 2
  | _ => 0

theorem ConstantKey.kindOf_op (key : ConstantKey) : kindOf key.op = key.ctorIdx := by
  cases key with
  | scalar component type bits =>
    cases component with
    | bool =>
      unfold op
      dsimp only
      split <;> rfl
    | _ => rfl
  | _ => rfl

/-- The key without the ids that follow from the rest of it. -/
def Key.plain : Key → Key
  | .type (.vector scalar count _) => .type (.vector scalar count 0)
  | .type (.array element length _) => .type (.array element length 0)
  | .type (.image image _) => .type (.image image 0)
  | .constant (.scalar component _ bits) => .constant (.scalar component 0 bits)
  | key => key

/-- Those ids tell no two keys apart. -/
theorem Key.IsProper.eq_of_plain {globals : List Instr} {t : Tables globals} {key key' : Key}
    (proper : key.IsProper t) (proper' : key'.IsProper t) (same : key.plain = key'.plain) :
    key = key' := by
  cases key with
  | type key =>
    cases key' with
    | constant key' => cases key <;> cases key' <;> cases same
    | type key' =>
      cases key <;> cases key' <;> grind [Key.plain, Key.IsProper, Tables.Numbers]
  | constant key =>
    cases key' with
    | type key' => cases key <;> cases key' <;> cases same
    | constant key' =>
      cases key <;> cases key' <;> grind [Key.plain, Key.IsProper, Tables.Numbers]

/-- What is asked for by different keys has different ids. -/
def Tables.Exact {globals : List Instr} (t : Tables globals) : Prop :=
  ∀ key key' id id', t.lookup key = some id → t.lookup key' = some id' →
    (id = id' ↔ key.plain = key'.plain)

namespace Builder

variable {b c : Builder} {i : Instr} {key key' : Key} {id id' : Id}

/-- An id has one declaration. -/
theorem Sound.declares_eq (h : b.Sound) {op op' : Op} {type? type'? : Option Id}
    {args args' : List Arg} (d : b.module.Declares op type? args id)
    (d' : b.module.Declares op' type'? args' id) : op = op' ∧ type? = type'? ∧ args = args' := by
  have same := h.distinct _ d.mem_definitions _ d'.mem_definitions id rfl rfl
  injection same with ops types _ arguments
  exact ⟨OpCode.ordinary.inj ops, types, arguments⟩

/-- Keys of one id ask for the same declaration. -/
theorem Sound.alike (h : b.Sound) (found : b.tables.lookup key = some id)
    (found' : b.tables.lookup key' = some id) :
    key.op = key'.op ∧ key.type? = key'.type? ∧ key.args = key'.args :=
  h.declares_eq (Tables.held_of_lookup found) (Tables.held_of_lookup found')

theorem Sound.scalar_eq (h : b.Sound) {scalar scalar' : ScalarType}
    (found : b.tables.lookup (.type (.scalar scalar)) = some id)
    (found' : b.tables.lookup (.type (.scalar scalar')) = some id) : scalar = scalar' := by
  obtain ⟨ops, _, arguments⟩ := h.alike found found'
  cases scalar <;> cases scalar' <;>
    first | rfl | exact absurd ops (by decide) | exact absurd arguments (by decide)

theorem Sound.number_eq (h : b.Sound) {word word' : UInt32} (number : b.tables.Numbers word id)
    (number' : b.tables.Numbers word' id) : word = word' := by
  obtain ⟨type, _, found⟩ := number
  obtain ⟨type', _, found'⟩ := number'
  obtain ⟨_, _, arguments⟩ := h.alike found found'
  exact Arg.word.inj (List.cons.inj arguments).1

theorem Sound.typeKey_eq (h : b.Sound) {key key' : TypeKey}
    (proper : (Key.type key).IsProper b.tables) (proper' : (Key.type key').IsProper b.tables)
    (ops : key.op = key'.op) (arguments : key.args = key'.args) : key = key' := by
  have kinds : key.ctorIdx = key'.ctorIdx := by
    rw [← TypeKey.kindOf_op, ← TypeKey.kindOf_op, ops]
  cases key <;> cases key' <;> try (cases kinds; done)
  case void.void | sampler.sampler => rfl
  case scalar.scalar scalar scalar' =>
    cases scalar <;> cases scalar' <;>
      first | rfl | exact absurd ops (by decide) | exact absurd arguments (by decide)
  case vector.vector =>
    cases arguments
    cases h.scalar_eq proper proper'
    rfl
  case array.array =>
    cases arguments
    cases h.number_eq proper proper'
    rfl
  case runtimeArray.runtimeArray | sampledImage.sampledImage =>
    cases arguments
    rfl
  case pointer.pointer =>
    injection arguments with storage pointee
    cases StorageClass.code_injective (Arg.word.inj storage)
    cases pointee
    rfl
  case function.function =>
    injection arguments with returns parameters
    cases returns
    cases Arg.map_id_injective parameters
    rfl
  case struct.struct =>
    cases Arg.map_id_injective arguments
    rfl
  case image.image =>
    have component := Arg.id.inj (List.cons.inj arguments).1
    subst component
    cases ImageType.args_injective (h.scalar_eq proper proper') arguments
    rfl

theorem Sound.constantKey_eq (h : b.Sound) {key key' : ConstantKey}
    (proper : (Key.constant key).IsProper b.tables)
    (proper' : (Key.constant key').IsProper b.tables) (ops : key.op = key'.op)
    (types : key.type = key'.type) (arguments : key.args = key'.args) : key = key' := by
  have kinds : key.ctorIdx = key'.ctorIdx := by
    rw [← ConstantKey.kindOf_op, ← ConstantKey.kindOf_op, ops]
  cases key <;> cases key' <;> try (cases kinds; done)
  case scalar.scalar component type bits component' type' bits' =>
    obtain rfl : type = type' := types
    obtain rfl := h.scalar_eq proper.1 proper'.1
    suffices bits = bits' by rw [this]
    cases component with
    | bool =>
      -- the opcode tells whether the bits are zero
      have zero : bits = 0 ↔ bits' = 0 := by
        change (if bits = 0 then Op.constantFalse else Op.constantTrue) =
          if bits' = 0 then Op.constantFalse else Op.constantTrue at ops
        grind
      have few := proper.2 rfl
      have few' := proper'.2 rfl
      grind
    | _ => exact Arg.word.inj (List.cons.inj arguments).1
  case composite.composite =>
    cases types
    cases Arg.map_id_injective arguments
    rfl
  case null.null =>
    cases types
    rfl

/-- A proper key can be told from its declaration. -/
theorem Sound.key_eq (h : b.Sound) (proper : key.IsProper b.tables)
    (proper' : key'.IsProper b.tables) (ops : key.op = key'.op) (types : key.type? = key'.type?)
    (arguments : key.args = key'.args) : key = key' := by
  cases key with
  | type key =>
    cases key' with
    | type key' => exact congrArg Key.type (h.typeKey_eq proper proper' ops arguments)
    | constant key' => cases types
  | constant key =>
    cases key' with
    | type key' => cases types
    | constant key' =>
      exact congrArg Key.constant
        (h.constantKey_eq proper proper' ops (Option.some.inj types) arguments)

theorem lookup_of_declare (found : (b.declare key).2.tables.lookup key' = some id') :
    key' = key ∨ b.tables.lookup key' = some id' := by
  unfold declare at found
  split at found
  · exact .inr found
  · refine (Tables.lookup_enter _ found).imp_right fun old => ?_
    rwa [b.lookup_make] at old

theorem mem_globals_declare (mem : i ∈ (b.declare key).2.module.globals.toList) :
    i ∈ b.module.globals.toList ∨ i = key.declaration (b.declare key).1 := by
  obtain ⟨id, _, _, same⟩ | ⟨_, new⟩ := b.declare_eq key
  · rw [same] at mem
    exact .inl mem
  · rw [new] at mem ⊢
    change i ∈ (b.module.globals.push _).toList at mem
    rw [Array.toList_push] at mem
    exact (List.mem_append.1 mem).imp_right List.mem_singleton.1

theorem single_addGlobal (h : b.module.Single)
    (new : i.isSingle = true → ∀ j ∈ b.module.globals.toList, ¬j.Repeats i) :
    (b.addGlobal i).module.Single where
  globals := by
    change (b.module.globals.push i).toList.Pairwise _
    rw [Array.toList_push, List.pairwise_append]
    refine ⟨h.globals, List.pairwise_singleton _ _, fun j mem i' last single repeats => ?_⟩
    cases List.mem_singleton.1 last
    refine new ?_ j mem repeats
    rwa [Instr.isSingle, repeats.1] at single
  bodies := h.bodies

/-- The tables hold proper keys, and all single globals under one; no single global is there
twice. -/
structure Interns (b : Builder) : Prop where
  sound : b.Sound
  single : b.module.Single
  proper : ∀ key id, b.tables.lookup key = some id → key.IsProper b.tables
  listed : ∀ i ∈ b.module.globals.toList, i.isSingle = true →
    ∃ key id, b.tables.lookup key = some id ∧ i = key.declaration id

namespace Interns

/-- An id is in the tables under one key. -/
theorem key_eq (h : b.Interns) (found : b.tables.lookup key = some id)
    (found' : b.tables.lookup key' = some id) : key = key' := by
  obtain ⟨ops, types, arguments⟩ := h.sound.alike found found'
  exact h.sound.key_eq (h.proper key id found) (h.proper key' id found') ops types arguments

/-- What a key that is in no table asks for is not among the globals. -/
theorem not_repeats (h : b.Interns) (proper : key.IsProper b.tables)
    (missing : b.tables.lookup key = none) (single : (key.declaration id).isSingle = true) :
    ∀ i ∈ b.module.globals.toList, ¬i.Repeats (key.declaration id) := by
  rintro i mem ⟨ops, types, arguments⟩
  have single_ : i.isSingle = true := by
    rwa [Instr.isSingle, ops]
  obtain ⟨key', id', found, rfl⟩ := h.listed i mem single_
  have same := h.sound.key_eq (h.proper key' id' found) proper (OpCode.ordinary.inj ops) types
    arguments
  rw [same, missing] at found
  cases found

/-- A step that leaves the tables alone and adds nothing single. -/
theorem of_eq (h : b.Interns) (sound : c.Sound) (types : c.tables.types = b.tables.types)
    (constants : c.tables.constants = b.tables.constants)
    (globals : ∀ i ∈ c.module.globals.toList, i ∈ b.module.globals.toList ∨ i.isSingle = false)
    (single : c.module.Single) : c.Interns where
  sound := sound
  single := single
  proper key id found := by
    have grows : b.tables.Grows c.tables := .of_eq types constants
    have back : c.tables.Grows b.tables := .of_eq types.symm constants.symm
    exact (h.proper key id (back key id found)).mono grows
  listed i mem one := by
    have grows : b.tables.Grows c.tables := .of_eq types constants
    rcases globals i mem with old | other
    · obtain ⟨key, id, found, is⟩ := h.listed i old one
      exact ⟨key, id, grows key id found, is⟩
    · cases other.symm.trans one

/-- A request keeps this up. -/
theorem declare (h : b.Interns) (proper : key.IsProper b.tables) :
    (b.declare key).2.Interns := by
  cases known : b.tables.lookup key with
  | some id =>
    have same : b.declare key = (id, b) := by
      unfold Builder.declare
      rw [known]
    rw [same]
    exact h
  | none =>
    have grows := (b.within_declare key).tables
    refine ⟨h.sound.declare key, ?_, fun key' id found => ?_, fun i mem one => ?_⟩
    · obtain ⟨id, _, _, same⟩ | ⟨_, new⟩ := b.declare_eq key
      · rw [same]
        exact h.single
      · rw [new]
        exact single_addGlobal (b := b.fresh.2) h.single (h.not_repeats proper known)
    · rcases lookup_of_declare found with rfl | old
      · exact proper.mono grows
      · exact (h.proper key' id old).mono grows
    · rcases mem_globals_declare mem with old | is
      · obtain ⟨key', id, found, is⟩ := h.listed i old one
        exact ⟨key', id, grows key' id found, is⟩
      · exact ⟨key, _, b.lookup_declare key, is⟩

/-- Keys in the tables have the same id if they are the same, and only then. -/
theorem exact (h : b.Interns) : b.tables.Exact := by
  intro key key' id id' found found'
  constructor
  · rintro rfl
    rw [h.key_eq found found']
  · intro same
    obtain rfl := (h.proper key id found).eq_of_plain (h.proper key' id' found') same
    exact Option.some.inj (found.symm.trans found')

end Interns

/-- A constant that is in no table is declared, whatever is among the globals. -/
theorem globals_declare_constant {key : ConstantKey}
    (missing : b.tables.lookup (.constant key) = none) :
    (b.declare (.constant key)).2.module.globals =
      b.module.globals.push ((Key.constant key).declaration b.nextId) := by
  unfold Builder.declare
  rw [missing]
  rfl

/-- Truth values have to be asked for by one word each: other words for the same truth value would
get a declaration of their own, which repeats the one that is there. -/
theorem not_single_of_truths {type : Id} {bits bits' : UInt32} (apart : bits' ≠ bits)
    (there : bits ≠ 0) (there' : bits' ≠ 0)
    (missing : b.tables.lookup (.constant (.scalar .bool type bits)) = none)
    (missing' : b.tables.lookup (.constant (.scalar .bool type bits')) = none) :
    ¬((b.declare (.constant (.scalar .bool type bits))).2.declare
      (.constant (.scalar .bool type bits'))).2.module.Single := by
  intro single
  have still : (b.declare (.constant (.scalar .bool type bits))).2.tables.lookup
      (.constant (.scalar .bool type bits')) = none := by
    refine Option.eq_none_iff_forall_ne_some.2 fun id found => ?_
    rcases lookup_of_declare found with same | old
    · cases same
      exact apart rfl
    · cases missing'.symm.trans old
  have pairs := single.globals
  rw [globals_declare_constant still, globals_declare_constant missing, Array.toList_push,
    Array.toList_push, List.append_assoc, List.pairwise_append] at pairs
  have op {bits : UInt32} (there : bits ≠ 0) :
      (ConstantKey.scalar .bool type bits).op = .constantTrue := if_neg there
  refine (List.pairwise_cons.1 pairs.2.1).1 _ (List.mem_singleton.2 rfl) ?_ ⟨?_, rfl, rfl⟩
  · change (ConstantKey.scalar .bool type bits).op.isSingle = true
    rw [op there]
    rfl
  · change OpCode.ordinary (ConstantKey.scalar .bool type bits).op =
      .ordinary (ConstantKey.scalar .bool type bits').op
    rw [op there, op there']

end Builder

end Spirv

end ShaderLowering
