import ShaderLowering.Container.Error

/-!
Signature chunks: the interface registers of one side of a shader stage with their semantic and
system-value tags. A chunk is a count, the offset of a table of entries, the table, and the
zero-terminated names that the entries point to. `SignatureChunk.parse` reads a chunk in either
entry layout; `SignatureChunk.encode` writes one.
-/

namespace ShaderLowering

/-- One row of a signature, with its tags as the raw numbers of the chunk. -/
structure SignatureEntry where
  name : String
  index : UInt32
  register : UInt32
  systemValue : UInt32
  componentType : UInt32
  mask : UInt8
  readWriteMask : UInt8
  stream : UInt32
deriving DecidableEq, Repr, Inhabited

namespace SignatureEntry

/-- A three-float user semantic: index zero, no system value, float components. -/
def user (name : String) (register : UInt32) (mask : UInt8) : SignatureEntry :=
  { name, index := 0, register, systemValue := 0, componentType := 3,
    mask, readWriteMask := mask, stream := 0 }

/-- A semantic tagged with a system value. -/
def tagged (name : String) (systemValue register : UInt32) (mask : UInt8) : SignatureEntry :=
  { user name register mask with systemValue }

end SignatureEntry

namespace SignatureChunk

/-- The text from `offset` to the next zero byte. -/
def nameAt (bytes : Bytes) (entry offset : Nat) : Except SignatureFault String :=
  if bytes.length < offset then .error (.namePastEnd entry offset bytes.length)
  else
    let tail := bytes.drop offset
    if tail.contains 0 then
      match String.fromUTF8? ⟨(tail.takeWhile (· != 0)).toArray⟩ with
      | some name => .ok name
      | none => .error (.nameNotUtf8 entry offset)
    else .error (.nameUnterminated entry offset)

/-- Entry number `entry` of the table that occupies bytes `start` up to `stop`. The name may lie
anywhere behind the chunk header but not inside the table. -/
def entryAt (layout : EntryLayout) (bytes : Bytes) (start stop entry : Nat) :
    Except SignatureFault SignatureEntry := do
  let field (offset : Nat) (what : String) : Except SignatureFault UInt32 :=
    let at_ := start + entry * layout.size + offset
    match bytes.word? at_ with
    | some w => .ok w
    | none => .error (.fieldPastEnd entry what at_ bytes.length)
  let nameOffset ← field 0 "semantic_name_offset"
  let nameOffset := nameOffset.toNat
  if nameOffset < signatureHeaderSize ∨ (start ≤ nameOffset ∧ nameOffset < stop) then
    throw (.nameInsideTable entry nameOffset start stop)
  let packed ← field 20 "mask"
  let stream ← match layout with
    | .long => field 24 "stream"
    | .short => pure (packed >>> 16 &&& 0xff)
  let name ← nameAt bytes entry nameOffset
  let index ← field 4 "semantic_index"
  let systemValue ← field 8 "system_value_type"
  let componentType ← field 12 "component_type"
  let register ← field 16 "register"
  return {
    name, index, register, systemValue, componentType, stream
    mask := packed.toUInt8
    readWriteMask := (packed >>> 8).toUInt8 }

/-- All entries, read in one layout. -/
def parseEntries (layout : EntryLayout) (bytes : Bytes) (count start : Nat) :
    Except SignatureFault (List SignatureEntry) :=
  let stop := start + count * layout.size
  if bytes.length < stop then .error (.tablePastEnd start stop bytes.length)
  else (List.range count).mapM (entryAt layout bytes start stop)

/-- The layout that a chunk without an identifier seems to have. In the long layout the first
entry's stream and minimum precision are small numbers; in the short one the same bytes usually
belong to a name. -/
def guessLayout (bytes : Bytes) (start : Nat) : EntryLayout :=
  match bytes.word? (start + 24), bytes.word? (start + 28) with
  | some stream, some precision => if stream ≤ 3 ∧ precision ≤ 8 then .long else .short
  | _, _ => .short

/-- Reads a signature chunk. The identifier, where there is one, decides which layout is tried
first; the other one is tried when that fails. -/
def parse (id : Option FourCC) (bytes : Bytes) : Except SignatureFault (List SignatureEntry) :=
  match bytes.word? 0, bytes.word? 4 with
  | some count, some tableOffset =>
    let count := count.toNat
    let start := tableOffset.toNat
    if count = 0 then .ok []
    else if start < signatureHeaderSize ∨ start % 4 ≠ 0 then .error (.misplacedTable start)
    else
      let first := match id with
        | some id => if id.announcesLongEntries then .long else .short
        | none => guessLayout bytes start
      match parseEntries first bytes count start with
      | .ok entries => .ok entries
      | .error inFirst =>
        match parseEntries first.other bytes count start with
        | .ok entries => .ok entries
        | .error inSecond => .error (.noLayoutFits first inFirst inSecond)
  | _, _ => .error (.headerTruncated bytes.length)

/-- The table row of an entry whose name starts at `nameOffset`. -/
def encodeEntry (layout : EntryLayout) (nameOffset : Nat) (e : SignatureEntry) : Bytes :=
  Bytes.ofWords [.ofNat nameOffset, e.index, e.systemValue, e.componentType, e.register] ++
  match layout with
  | .short => [e.mask, e.readWriteMask, e.stream.toUInt8, 0]
  | .long => [e.mask, e.readWriteMask, 0, 0] ++ Bytes.ofWords [e.stream, 0]

/-- A name as the chunk stores it: its UTF-8 bytes and a zero byte. -/
def encodeName (name : String) : Bytes :=
  name.toUTF8.data.toList ++ [0]

/-- The rows of a table, given where the first name starts. -/
def encodeTable (layout : EntryLayout) : (nameOffset : Nat) → List SignatureEntry → Bytes
  | _, [] => []
  | nameOffset, e :: rest =>
    encodeEntry layout nameOffset e ++
      encodeTable layout (nameOffset + (encodeName e.name).length) rest

/-- Writes a signature chunk: header, table, names. -/
def encode (layout : EntryLayout) (entries : List SignatureEntry) : Bytes :=
  Bytes.ofWords [.ofNat entries.length, .ofNat signatureHeaderSize] ++
  encodeTable layout (signatureHeaderSize + layout.size * entries.length) entries ++
  entries.flatMap (encodeName ·.name)

end SignatureChunk

end ShaderLowering
