import ShaderLowering.Proofs.Scope.Tables

/-!
Requests for types and constants. A request comes down to a key, which is made up of the request
and, where it takes other types or constants, of the answers to those. Its answer is what the tables
hold under the key. Tables are only added to, so the answer stays the same; and no id is in them
under two keys, so requests with the same answer have come down to the same key.
-/

namespace ShaderLowering

open Spirv (Id Instr Arg Op Module Builder StorageClass Key Tables)

namespace Spirv

namespace Tables

variable {globals more : List Instr} {t : Tables globals} {u : Tables more} {id : Id}

def scalar? (t : Tables globals) (scalar : ScalarType) : Option Id :=
  t.lookup (.type (.scalar scalar))

/-- Where scalars count as vectors of one component. -/
def vector? (t : Tables globals) (scalar : ScalarType) (count : UInt32) : Option Id :=
  (t.scalar? scalar).bind fun component =>
    if count ≤ 1 then some component else t.lookup (.type (.vector scalar count component))

def constant? (t : Tables globals) (scalar : ScalarType) (bits : UInt32) : Option Id :=
  (t.scalar? scalar).bind fun type => t.lookup (.constant (.scalar scalar type bits))

theorem numbers_iff {word : UInt32} : t.Numbers word id ↔ t.constant? .u32 word = some id :=
  Option.bind_eq_some_iff.symm

end Tables

/-- Where each vector has a component at least. -/
theorem Builder.Interns.vector_eq {b : Builder} (h : b.Interns) {scalar scalar' : ScalarType}
    {count count' : UInt32} {id : Id} (some_ : 1 ≤ count) (some_' : 1 ≤ count')
    (found : b.tables.vector? scalar count = some id)
    (found' : b.tables.vector? scalar' count' = some id) : scalar = scalar' ∧ count = count' := by
  obtain ⟨component, known, found⟩ := Option.bind_eq_some_iff.1 found
  obtain ⟨component', known', found'⟩ := Option.bind_eq_some_iff.1 found'
  by_cases few : count ≤ 1 <;> by_cases few' : count' ≤ 1
  · rw [if_pos few] at found
    rw [if_pos few'] at found'
    cases found
    cases found'
    cases h.key_eq known known'
    exact ⟨rfl, (UInt32.le_antisymm few some_).trans (UInt32.le_antisymm some_' few')⟩
  · rw [if_pos few] at found
    rw [if_neg few'] at found'
    cases found
    cases h.key_eq known found'
  · rw [if_neg few] at found
    rw [if_pos few'] at found'
    cases found'
    cases h.key_eq found known'
  · rw [if_neg few] at found
    rw [if_neg few'] at found'
    cases h.key_eq found found'
    exact ⟨rfl, rfl⟩

end Spirv

/-- A request for a type or a constant. -/
inductive Request
  | void
  | scalar (type : ScalarType)
  | vector (scalar : ScalarType) (count : UInt32)
  | array (scalar : ScalarType) (count length : UInt32)
  | pointer (pointee : Id) (storage : StorageClass)
  | function (returns : Id) (parameters : List Id)
  | image (type : ImageType)
  | sampler
  | sampledImage (image : Id)
  | constant (scalar : ScalarType) (bits : UInt32)
  | composite (type : Id) (parts : List Id)
  | null (type : Id)
deriving DecidableEq, Repr

namespace Request

open Lower in
/-- The step that answers a request. -/
def emission : Request → Emission Id
  | .void => voidType
  | .scalar type => scalarType type
  | .vector component count => vectorType ⟨component, count.toNat⟩
  | .array component count length => do
    let element ← vectorType ⟨component, count.toNat⟩
    arrayOf element length.toNat
  | .pointer pointee storage => pointerType pointee storage
  | .function returns parameters => functionType returns parameters
  | .image type => imageType type
  | .sampler => samplerType
  | .sampledImage type => sampledImageType type
  | .constant component bits => Lower.constant component bits
  | .composite type parts => constantComposite type parts
  | .null type => constantNull type

/-- A truth value is asked for as zero or one. -/
def IsCanonical : Request → Prop
  | .constant component bits => component = .bool → bits ≤ 1
  | _ => True

/-- A vector of one component is its component. -/
def ofVector (component : ScalarType) (count : UInt32) : Request :=
  if count ≤ 1 then .scalar component else .vector component count

/-- The same request without vectors of one component, and with the element in place of an array
that has no elements. -/
def normal : Request → Request
  | .vector component count => ofVector component count
  | .array component count length =>
    if length = 0 then ofVector component count
    else .array component (if count ≤ 1 then 1 else count) length
  | r => r

/-- The key that a request comes down to. -/
def key? {globals : List Instr} (t : Tables globals) : Request → Option Key
  | .void => some (.type .void)
  | .scalar type => some (.type (.scalar type))
  | .vector component count => (t.scalar? component).map fun type =>
    .type (.vector component count type)
  | .array component count length => (t.vector? component count).bind fun element =>
    (t.constant? .u32 length).map fun number => .type (.array element length number)
  | .pointer pointee storage => some (.type (.pointer storage pointee))
  | .function returns parameters => some (.type (.function returns parameters))
  | .image type => (t.scalar? type.sampled).map fun component => .type (.image type component)
  | .sampler => some (.type .sampler)
  | .sampledImage type => some (.type (.sampledImage type))
  | .constant component bits => (t.scalar? component).map fun type =>
    .constant (.scalar component type bits)
  | .composite type parts => some (.constant (.composite type parts))
  | .null type => some (.constant (.null type))

/-- What the tables hold under the key, if it is there. -/
def found? {globals : List Instr} (t : Tables globals) (r : Request) : Option Id :=
  (r.key? t).bind t.lookup

def answer? {globals : List Instr} (t : Tables globals) (r : Request) : Option Id :=
  r.normal.found? t

end Request

/-- A step gives what is looked up once it has run, whatever comes later. It may need something of
the builder that it starts with. -/
structure Answers (needs : Builder → Prop) (e : Emission Id) (find? : Builder → Option Id) :
    Prop where
  runs : ∀ env (s : State), s.builder.Interns → needs s.builder →
    ∃ id t, e.run env s = (.ok id, t) ∧
    t.builder.Interns ∧ s.builder.tables.Grows t.builder.tables ∧ find? t.builder = some id
  stays : ∀ {b c : Builder} {id : Id}, find? b = some id → b.tables.Grows c.tables →
    find? c = some id

namespace Answers

variable {e : Emission Id} {f g : Builder → Option Id} {needs : Builder → Prop}

theorem declare (key : Key) (proper : ∀ b, needs b → key.IsProper b.tables) :
    Answers needs (.declare key) (·.tables.lookup key) where
  runs _ s interns need := ⟨_, _, rfl, interns.declare (proper _ need),
    (s.builder.within_declare key).tables, s.builder.lookup_declare key⟩
  stays found grows := grows _ _ found

theorem pure (id : Id) : Answers needs (Pure.pure id) fun _ => some id where
  runs _ s interns _ := ⟨id, s, rfl, interns, fun _ _ found => found, rfl⟩
  stays found _ := found

/-- What comes later may need the answer that came first. -/
theorem bind {k : Id → Emission Id} {g : Id → Builder → Option Id} (first : Answers needs e f)
    (later : ∀ id, Answers (fun b => f b = some id) (k id) (g id)) :
    Answers needs (e >>= k) fun b => (f b).bind fun id => g id b where
  runs env s interns need := by
    obtain ⟨id, t, ran, interns, grows, found⟩ := first.runs env s interns need
    obtain ⟨id', u, ran', interns, grows', found'⟩ := (later id).runs env t interns found
    refine ⟨id', u, ?_, interns, fun key a held => grows' key a (grows key a held), ?_⟩
    · rw [Emission.run_bind, ran]
      exact ran'
    · exact Option.bind_eq_some_iff.2 ⟨id, first.stays found grows', found'⟩
  stays found grows := by
    obtain ⟨id, found, found'⟩ := Option.bind_eq_some_iff.1 found
    exact Option.bind_eq_some_iff.2 ⟨id, first.stays found grows, (later id).stays found' grows⟩

theorem ite {p : Prop} [Decidable p] {yes no : Emission Id} (hyes : Answers needs yes f)
    (hno : Answers needs no g) :
    Answers needs (if p then yes else no) fun b => if p then f b else g b := by
  split
  · exact hyes
  · exact hno

theorem congr (h : Answers needs e f) (same : ∀ b, f b = g b) : Answers needs e g :=
  (funext same : f = g) ▸ h

end Answers

namespace Lower

variable {needs : Builder → Prop}

theorem scalarType_answers (scalar : ScalarType) :
    Answers needs (scalarType scalar) (·.tables.scalar? scalar) :=
  .declare _ fun _ _ => trivial

theorem vectorType_answers (scalar : ScalarType) (count : UInt32) :
    Answers needs (vectorType ⟨scalar, count.toNat⟩) (·.tables.vector? scalar count) := by
  have few : count.toNat ≤ 1 ↔ count ≤ 1 :=
    (UInt32.le_iff_toNat_le (b := 1)).symm
  unfold vectorType
  simp only [few, UInt32.ofNat_toNat]
  exact .bind (scalarType_answers scalar) fun component =>
    .ite (.pure component) (.declare _ fun _ known => known)

theorem constant_answers (scalar : ScalarType) (bits : UInt32)
    (truth : scalar = .bool → bits ≤ 1) :
    Answers needs (constant scalar bits) (·.tables.constant? scalar bits) :=
  .bind (scalarType_answers scalar) fun _ => .declare _ fun _ known => ⟨known, truth⟩

theorem arrayOf_answers (element : Id) (length : UInt32) :
    Answers needs (arrayOf element length.toNat) fun b => if length = 0 then some element
      else (b.tables.constant? .u32 length).bind fun number =>
        b.tables.lookup (.type (.array element length number)) := by
  have zero : length.toNat = 0 ↔ length = 0 := UInt32.toNat_inj (b := 0)
  unfold arrayOf constantU32
  simp only [zero, UInt32.ofNat_toNat]
  refine .ite (.pure element) (.bind (constant_answers .u32 length ScalarType.IsNumeric.truth)
    fun number => ?_)
  exact .declare _ fun b known => Spirv.Tables.numbers_iff.2 known

end Lower

namespace Request

variable {b : Builder} {r r' : Request} {id : Id} {globals : List Instr} {t : Tables globals}

theorem found_vector (t : Tables globals) (component : ScalarType) (count : UInt32) :
    (vector component count).found? t = (t.scalar? component).bind fun type =>
      t.lookup (.type (.vector component count type)) :=
  Option.bind_map ..

theorem found_image (t : Tables globals) (type : ImageType) :
    (image type).found? t = (t.scalar? type.sampled).bind fun component =>
      t.lookup (.type (.image type component)) :=
  Option.bind_map ..

theorem found_constant (t : Tables globals) (component : ScalarType) (bits : UInt32) :
    (constant component bits).found? t = t.constant? component bits :=
  Option.bind_map ..

theorem answer_vector (t : Tables globals) (component : ScalarType) (count : UInt32) :
    (vector component count).answer? t = t.vector? component count := by
  unfold Spirv.Tables.vector?
  by_cases few : count ≤ 1
  · simp only [answer?, normal, ofVector, if_pos few, Option.bind_fun_some]
    rfl
  · simp only [answer?, normal, ofVector, if_neg few]
    exact found_vector t component count

theorem vector_one (t : Tables globals) (component : ScalarType) (count : UInt32) :
    t.vector? component (if count ≤ 1 then 1 else count) = t.vector? component count := by
  unfold Spirv.Tables.vector?
  by_cases few : count ≤ 1
  · simp only [if_pos few, UInt32.le_refl, if_true]
  · simp only [if_neg few]

/-- Every request is answered, and the answer stays what it is. -/
theorem answers (r : Request) (canonical : r.IsCanonical) :
    Answers (fun _ => True) r.emission (r.answer? ·.tables) := by
  cases r with
  | void | pointer | function | sampler | sampledImage | composite | null =>
    exact .declare _ fun _ _ => trivial
  | scalar component => exact Lower.scalarType_answers component
  | vector component count =>
    exact (Lower.vectorType_answers component count).congr fun b =>
      (answer_vector b.tables component count).symm
  | array component count length =>
    refine (Answers.bind (Lower.vectorType_answers component count) fun element =>
      Lower.arrayOf_answers element length).congr fun b => ?_
    rw [← answer_vector]
    by_cases empty : length = 0
    · simp only [answer?, normal, if_pos empty, Option.bind_fun_some]
    · rw [answer_vector]
      simp only [answer?, normal, if_neg empty, found?, key?, vector_one, Option.bind_assoc,
        Option.bind_map]
      rfl
  | image type =>
    have answers : Answers (fun _ => True) (Lower.imageType type) _ :=
      .bind (Lower.scalarType_answers type.sampled) fun component =>
        .declare (.type (.image type component)) fun _ known => known
    exact answers.congr fun b => (found_image b.tables type).symm
  | constant component bits =>
    exact (Lower.constant_answers component bits canonical).congr fun b =>
      (found_constant b.tables component bits).symm

/-- An array has elements of some components. -/
def IsNormal : Request → Prop
  | .array _ count _ => 1 ≤ count
  | _ => True

theorem isNormal_ofVector (component : ScalarType) (count : UInt32) :
    (ofVector component count).IsNormal := by
  unfold ofVector
  split <;> exact trivial

theorem isNormal_normal (r : Request) : r.normal.IsNormal := by
  cases r with
  | vector component count => exact isNormal_ofVector component count
  | array component count length =>
    dsimp only [normal]
    split
    · exact isNormal_ofVector component count
    · change 1 ≤ if count ≤ 1 then 1 else count
      split
      · exact UInt32.le_refl 1
      · next many => exact UInt32.le_of_lt (UInt32.not_le.1 many)
  | _ => exact trivial

/-- Which kind of request a key belongs to. -/
def kindOf : Key → Nat
  | .type .void => 0
  | .type (.scalar _) => 1
  | .type (.vector ..) => 2
  | .type (.array ..) => 3
  | .type (.pointer ..) => 4
  | .type (.function ..) => 5
  | .type (.image ..) => 6
  | .type .sampler => 7
  | .type (.sampledImage _) => 8
  | .constant (.scalar ..) => 9
  | .constant (.composite ..) => 10
  | _ => 11

theorem kindOf_key {key : Key} (is : r.key? t = some key) : kindOf key = r.ctorIdx := by
  cases r with
  | vector | image | constant =>
    obtain ⟨_, _, rfl⟩ := Option.map_eq_some_iff.1 is
    rfl
  | array =>
    obtain ⟨_, _, is⟩ := Option.bind_eq_some_iff.1 is
    obtain ⟨_, _, rfl⟩ := Option.map_eq_some_iff.1 is
    rfl
  | _ =>
    cases is
    rfl

/-- Requests that come down to the same key are the same. -/
theorem eq_of_key (interns : b.Interns) (normal : r.IsNormal) (normal' : r'.IsNormal) {key : Key}
    (is : r.key? b.tables = some key) (is' : r'.key? b.tables = some key) : r = r' := by
  have kinds : r.ctorIdx = r'.ctorIdx := by
    rw [← kindOf_key is, ← kindOf_key is']
  cases r <;> cases r' <;> try (cases kinds; done)
  case vector.vector | image.image | constant.constant =>
    obtain ⟨_, _, rfl⟩ := Option.map_eq_some_iff.1 is
    obtain ⟨_, _, same⟩ := Option.map_eq_some_iff.1 is'
    cases same
    rfl
  case array.array =>
    obtain ⟨element, vector, is⟩ := Option.bind_eq_some_iff.1 is
    obtain ⟨element', vector', is'⟩ := Option.bind_eq_some_iff.1 is'
    obtain ⟨_, _, rfl⟩ := Option.map_eq_some_iff.1 is
    obtain ⟨_, _, same⟩ := Option.map_eq_some_iff.1 is'
    cases same
    obtain ⟨rfl, rfl⟩ := interns.vector_eq normal normal' vector vector'
    rfl
  all_goals
    cases is
    cases is'
    rfl

/-- Two requests have the same answer if they are the same, and only then. -/
theorem answer_eq_iff (interns : b.Interns) {id' : Id} (answered : r.answer? b.tables = some id)
    (answered' : r'.answer? b.tables = some id') :
    id = id' ↔ r.normal = r'.normal := by
  constructor
  · rintro rfl
    obtain ⟨key, is, found⟩ := Option.bind_eq_some_iff.1 answered
    obtain ⟨key', is', found'⟩ := Option.bind_eq_some_iff.1 answered'
    cases interns.key_eq found found'
    exact eq_of_key interns r.isNormal_normal r'.isNormal_normal is is'
  · intro same
    unfold answer? at answered answered'
    rw [same, answered'] at answered
    exact Option.some.inj answered.symm

end Request

end ShaderLowering
