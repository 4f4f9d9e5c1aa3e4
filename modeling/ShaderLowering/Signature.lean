import ShaderLowering.Container.SignatureChunk
import ShaderLowering.Program.Mask

/-!
Signatures: the entries of a signature chunk with their tags interpreted, ordered by register,
then by first component. Lookups take the first element in that order.
-/

namespace ShaderLowering

/-- What a tessellation factor feeds: the levels of the edges or those of the inside. -/
inductive TessLevel
  | outer
  | inner
deriving DecidableEq, Repr

inductive SystemValue
  | undefined
  | position
  | clipDistance
  | cullDistance
  | renderTargetArrayIndex
  | viewportArrayIndex
  | vertexId
  | primitiveId
  | instanceId
  | isFrontFace
  | sampleIndex
  /-- A tessellation factor of a quad, by edge. -/
  | quadEdgeTessFactor (edge : Nat)
  /-- An inside tessellation factor of a quad, by axis. -/
  | quadInsideTessFactor (axis : Nat)
  /-- A tessellation factor of a triangle, by edge. -/
  | triEdgeTessFactor (edge : Nat)
  | triInsideTessFactor
  | lineDetailTessFactor
  | lineDensityTessFactor
  | target
  | depth
  | coverage
  | depthGreaterEqual
  | depthLessEqual
  | stencilRef
  | unknown (raw : UInt32)
deriving DecidableEq, Repr, Inhabited

namespace SystemValue

/-- The system value with a number in the chunk. -/
def ofCode (raw : UInt32) : SystemValue :=
  match raw.toNat with
  | 0 => undefined
  | 1 => position
  | 2 => clipDistance
  | 3 => cullDistance
  | 4 => renderTargetArrayIndex
  | 5 => viewportArrayIndex
  | 6 => vertexId
  | 7 => primitiveId
  | 8 => instanceId
  | 9 => isFrontFace
  | 10 => sampleIndex
  | 11 => quadEdgeTessFactor 0
  | 12 => quadEdgeTessFactor 1
  | 13 => quadEdgeTessFactor 2
  | 14 => quadEdgeTessFactor 3
  | 15 => quadInsideTessFactor 0
  | 16 => quadInsideTessFactor 1
  | 17 => triEdgeTessFactor 0
  | 18 => triEdgeTessFactor 1
  | 19 => triEdgeTessFactor 2
  | 20 => triInsideTessFactor
  | 21 => lineDetailTessFactor
  | 22 => lineDensityTessFactor
  | 64 => target
  | 65 => depth
  | 66 => coverage
  | 67 => depthGreaterEqual
  | 68 => depthLessEqual
  | 69 => stencilRef
  | _ => unknown raw

def name : SystemValue → String
  | undefined => "Undefined"
  | position => "Position"
  | clipDistance => "ClipDistance"
  | cullDistance => "CullDistance"
  | renderTargetArrayIndex => "RenderTargetArrayIndex"
  | viewportArrayIndex => "ViewportArrayIndex"
  | vertexId => "VertexId"
  | primitiveId => "PrimitiveId"
  | instanceId => "InstanceId"
  | isFrontFace => "IsFrontFace"
  | sampleIndex => "SampleIndex"
  | quadEdgeTessFactor edge => s!"QuadEdgeTessFactor({edge})"
  | quadInsideTessFactor axis => s!"QuadInsideTessFactor({axis})"
  | triEdgeTessFactor edge => s!"TriEdgeTessFactor({edge})"
  | triInsideTessFactor => "TriInsideTessFactor"
  | lineDetailTessFactor => "LineDetailTessFactor"
  | lineDensityTessFactor => "LineDensityTessFactor"
  | target => "Target"
  | depth => "Depth"
  | coverage => "Coverage"
  | depthGreaterEqual => "DepthGreaterEqual"
  | depthLessEqual => "DepthLessEqual"
  | stencilRef => "StencilRef"
  | unknown raw => s!"Unknown({raw})"

/-- Whether the tag names something other than a user value. -/
def isBuiltin : SystemValue → Bool
  | undefined | target | unknown _ => false
  | _ => true

def isClipCull : SystemValue → Bool
  | clipDistance | cullDistance => true
  | _ => false

/-- The tessellation level array and the element of it that a factor feeds. -/
def tessLevel? : SystemValue → Option (TessLevel × Nat)
  | quadEdgeTessFactor edge => some (.outer, edge)
  | triEdgeTessFactor edge => some (.outer, edge)
  | quadInsideTessFactor axis => some (.inner, axis)
  | triInsideTessFactor => some (.inner, 0)
  | lineDetailTessFactor => some (.outer, 1)
  | lineDensityTessFactor => some (.outer, 0)
  | _ => none

end SystemValue

/-- How a register is typed in the signature. -/
inductive ComponentType
  | unknown
  | uint32
  | sint32
  | float32
deriving DecidableEq, Repr, Inhabited

namespace ComponentType

def ofCode (raw : UInt32) : ComponentType :=
  match raw.toNat with
  | 1 => uint32
  | 2 => sint32
  | 3 => float32
  | _ => unknown

def name : ComponentType → String
  | unknown => "Unknown"
  | uint32 => "Uint32"
  | sint32 => "Sint32"
  | float32 => "Float32"

end ComponentType

inductive Interpolation
  | undefined
  | constant
  | linear
  | linearCentroid
  | linearNoPerspective
  | linearNoPerspectiveCentroid
  | linearSample
  | linearNoPerspectiveSample
deriving DecidableEq, Repr, Inhabited

namespace Interpolation

def ofCode (raw : UInt32) : Interpolation :=
  match raw.toNat with
  | 1 => constant
  | 2 => linear
  | 3 => linearCentroid
  | 4 => linearNoPerspective
  | 5 => linearNoPerspectiveCentroid
  | 6 => linearSample
  | 7 => linearNoPerspectiveSample
  | _ => undefined

def name : Interpolation → String
  | undefined => "Undefined"
  | constant => "Constant"
  | linear => "Linear"
  | linearCentroid => "LinearCentroid"
  | linearNoPerspective => "LinearNoPerspective"
  | linearNoPerspectiveCentroid => "LinearNoPerspectiveCentroid"
  | linearSample => "LinearSample"
  | linearNoPerspectiveSample => "LinearNoPerspectiveSample"

def isFlat (mode : Interpolation) : Bool :=
  mode = constant

def isCentroid (mode : Interpolation) : Bool :=
  mode = linearCentroid || mode = linearNoPerspectiveCentroid

def isSample (mode : Interpolation) : Bool :=
  mode = linearSample || mode = linearNoPerspectiveSample

def isNoPerspective (mode : Interpolation) : Bool :=
  mode = linearNoPerspective || mode = linearNoPerspectiveCentroid ||
    mode = linearNoPerspectiveSample

end Interpolation

structure SignatureElement where
  name : String
  index : UInt32
  register : UInt32
  mask : WriteMask
  usedMask : WriteMask
  systemValue : SystemValue
  componentType : ComponentType
  stream : UInt32
  interpolation : Interpolation
deriving DecidableEq, Repr, Inhabited

/-- ASCII letters in lower case, all else as it is. -/
def asciiLower (text : String) : List Char :=
  text.toList.map Char.toLower

namespace SignatureElement

def ofEntry (e : SignatureEntry) : SignatureElement :=
  { name := e.name
    index := e.index
    register := e.register
    mask := ⟨e.mask &&& 0xf⟩
    usedMask := ⟨e.readWriteMask &&& 0xf⟩
    systemValue := .ofCode e.systemValue
    componentType := .ofCode e.componentType
    stream := e.stream
    interpolation := .undefined }

/-- Whether the element has a semantic, which is compared without regard to ASCII case. -/
def matchesSemantic (e : SignatureElement) (name : String) (index : UInt32) : Bool :=
  e.index = index && asciiLower e.name = asciiLower name

/-- The place of an element in a signature: by register, by first component (an empty mask comes
last), by stream. -/
def before (a b : SignatureElement) : Bool :=
  let first (e : SignatureElement) : Nat := e.mask.first?.getD 4
  a.register < b.register ||
    (a.register = b.register &&
      (first a < first b || (first a = first b && a.stream < b.stream)))

end SignatureElement

structure Signature where
  elements : List SignatureElement
deriving DecidableEq, Repr, Inhabited

namespace Signature

def empty : Signature := ⟨[]⟩

/-- Puts an element in front of the first one that does not come before it. -/
def insertElement (e : SignatureElement) : List SignatureElement → List SignatureElement
  | [] => [e]
  | f :: rest => if f.before e then f :: insertElement e rest else e :: f :: rest

/-- The signature of a chunk. Elements at the same place keep their order in the chunk. -/
def ofEntries (entries : List SignatureEntry) : Signature :=
  ⟨(entries.map SignatureElement.ofEntry).foldr insertElement []⟩

/-- Sets the interpolation of the elements on given registers; the last mode given for a register
counts. -/
def withInterpolation (s : Signature) (modes : List (UInt32 × Interpolation)) : Signature :=
  ⟨s.elements.map fun e =>
    match modes.reverse.find? (·.1 = e.register) with
    | some (_, mode) => { e with interpolation := mode }
    | none => e⟩

/-- All elements on a register. -/
def elementsOn (s : Signature) (register : UInt32) : List SignatureElement :=
  s.elements.filter (·.register = register)

/-- The first element on a register. -/
def lookup? (s : Signature) (register : UInt32) : Option SignatureElement :=
  s.elements.find? (·.register = register)

/-- The first element on a register that covers a component. -/
def lookupComponent? (s : Signature) (register : UInt32) (component : Nat) :
    Option SignatureElement :=
  (s.elementsOn register).find? (·.mask.contains component)

def findSemantic? (s : Signature) (name : String) (index : UInt32) : Option SignatureElement :=
  s.elements.find? (·.matchesSemantic name index)

/-- How a register is typed; floats where the signature does not say. -/
def componentType (s : Signature) (register : UInt32) : ComponentType :=
  match s.lookup? register with
  | some e => if e.componentType = .unknown then .float32 else e.componentType
  | none => .float32

/-- Registers and masks of the elements with a system value, in order. -/
def layoutOf (s : Signature) (value : SystemValue) : List (UInt32 × WriteMask) :=
  (s.elements.filter (·.systemValue = value)).map fun e => (e.register, e.mask)

/-- How many components are tagged with a system value. -/
def componentsOf (s : Signature) (value : SystemValue) : Nat :=
  ((s.layoutOf value).flatMap fun p => p.2.components).length

variable {s : Signature} {register index : UInt32} {component : Nat} {e : SignatureElement}
  {name : String}

/-- No two elements of the signature cover the same component of a register. -/
def Apart (s : Signature) : Prop :=
  ∀ e ∈ s.elements, ∀ f ∈ s.elements, e.register = f.register →
    ∀ c, e.mask.contains c = true → f.mask.contains c = true → e = f

theorem mem_of_lookupComponent? (found : s.lookupComponent? register component = some e) :
    e ∈ s.elements ∧ e.register = register ∧ e.mask.contains component = true := by
  rw [lookupComponent?] at found
  obtain ⟨inside, on⟩ := List.mem_filter.1 (List.mem_of_find?_eq_some found)
  have covers := List.find?_some found
  exact ⟨inside, of_decide_eq_true on, covers⟩

theorem lookupComponent?_eq_some (apart : s.Apart) :
    s.lookupComponent? register component = some e ↔
      e ∈ s.elements ∧ e.register = register ∧ e.mask.contains component = true := by
  refine ⟨mem_of_lookupComponent?, fun ⟨inside, on, covers⟩ => ?_⟩
  cases found : s.lookupComponent? register component with
  | none =>
    have on' : e ∈ s.elementsOn register := List.mem_filter.2 ⟨inside, decide_eq_true on⟩
    exact absurd covers (List.find?_eq_none.1 found e on')
  | some f =>
    obtain ⟨inside', on', covers'⟩ := mem_of_lookupComponent? found
    rw [apart e inside f inside' (on.trans on'.symm) component covers covers']

/-- A semantic is found under any spelling, as to case, of its name. -/
theorem isSome_findSemantic? :
    (s.findSemantic? name index).isSome = true ↔
      ∃ e ∈ s.elements, e.index = index ∧ asciiLower e.name = asciiLower name := by
  simp [findSemantic?, SignatureElement.matchesSemantic]

end Signature

end ShaderLowering
