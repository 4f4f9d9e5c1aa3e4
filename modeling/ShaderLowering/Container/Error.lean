import ShaderLowering.Container.FourCC

/-!
Why a container or one of its signature chunks is rejected. Each cause belongs to one of four
kinds; `context` says what was found, and `message` puts the kind in front of it.
-/

namespace ShaderLowering

/-- The two layouts of a signature entry. The short one packs mask, read/write mask and stream
into its last word; the long one gives the stream and the minimum precision words of their own. -/
inductive EntryLayout
  | short
  | long
deriving DecidableEq, Repr, Inhabited

namespace EntryLayout

/-- Bytes per entry. -/
def size : EntryLayout → Nat
  | short => 24
  | long => 32

def other : EntryLayout → EntryLayout
  | short => long
  | long => short

end EntryLayout

/-- What is wrong with a signature chunk. Entries are counted from zero. -/
inductive SignatureFault
  | headerTruncated (size : Nat)
  | misplacedTable (offset : Nat)
  | tablePastEnd (start stop size : Nat)
  | fieldPastEnd (entry : Nat) (field : String) (offset size : Nat)
  | nameInsideTable (entry offset start stop : Nat)
  | namePastEnd (entry offset size : Nat)
  | nameUnterminated (entry offset : Nat)
  | nameNotUtf8 (entry offset : Nat)
  | noLayoutFits (first : EntryLayout) (inFirst inSecond : SignatureFault)
deriving Repr, Inhabited

/-- Bytes in front of the entry table of a signature chunk. -/
def signatureHeaderSize : Nat := 8

/-- Bytes of the fixed container header: magic, checksum, version word, size, chunk count. -/
def containerHeaderSize : Nat := 32

/-- The most chunks a container may list. -/
def maxChunks : Nat := 4096

namespace SignatureFault

def context : SignatureFault → String
  | headerTruncated size =>
    s!"signature chunk is truncated: need {signatureHeaderSize} bytes for header, got {size}"
  | misplacedTable offset =>
    s!"param_offset {offset} is misaligned or points into the signature header"
  | tablePastEnd start stop size =>
    s!"signature table at {start}..{stop} is outside chunk length {size}"
  | fieldPastEnd entry field offset size =>
    s!"entry {entry}: need 4 bytes for {field} at {offset}, but chunk length is {size}"
  | nameInsideTable entry offset start stop =>
    s!"entry {entry} semantic_name_offset {offset} points into signature table ({start}..{stop}) or header"
  | namePastEnd entry offset size =>
    s!"entry {entry}: semantic_name offset {offset} is outside chunk length {size}"
  | nameUnterminated entry offset =>
    s!"entry {entry}: semantic_name at offset {offset} is missing a null terminator"
  | nameNotUtf8 entry offset =>
    s!"entry {entry}: semantic_name at offset {offset} is not valid UTF-8"
  | noLayoutFits first inFirst inSecond =>
    s!"failed to parse signature entries ({first.size}-byte layout: {inFirst.context}; " ++
    s!"{first.other.size}-byte layout: {inSecond.context})"

end SignatureFault

inductive ContainerError
  /-- The input ends inside the fixed header. -/
  | headerTruncated (given : Nat)
  | wrongMagic (found : FourCC)
  | declaredSizeTooSmall (declared : Nat)
  | declaredSizePastEnd (declared given : Nat)
  | tooManyChunks (count : Nat)
  | offsetTableOverrun (count declared : Nat)
  | offsetUnreadable (chunk : Nat)
  /-- A chunk starts before the end of the offset table. -/
  | chunkOverlapsTable (chunk offset firstPayload : Nat)
  | chunkHeaderTruncated (chunk offset : Nat)
  | payloadPastEnd (chunk : Nat) (id : FourCC) (start len declared : Nat)
  /-- A signature chunk read on its own. -/
  | signature (fault : SignatureFault)
  /-- A signature chunk looked up under an identifier. -/
  | signatureOf (id : FourCC) (fault : SignatureFault)
deriving Repr, Inhabited

namespace ContainerError

inductive Kind
  | malformedHeader
  | malformedOffsets
  | outOfBounds
  | invalidChunk
deriving DecidableEq, Repr

def kind : ContainerError → Kind
  | headerTruncated _ | wrongMagic _ | declaredSizeTooSmall _ => .malformedHeader
  | tooManyChunks _ | offsetTableOverrun .. | offsetUnreadable _ | chunkOverlapsTable .. =>
    .malformedOffsets
  | declaredSizePastEnd .. | chunkHeaderTruncated .. | payloadPastEnd .. => .outOfBounds
  | signature _ | signatureOf .. => .invalidChunk

def Kind.text : Kind → String
  | malformedHeader => "malformed DXBC header"
  | malformedOffsets => "malformed DXBC chunk offsets"
  | outOfBounds => "DXBC data out of bounds"
  | invalidChunk => "invalid DXBC chunk"

def context : ContainerError → String
  | headerTruncated given => s!"{given} bytes is shorter than the header"
  | wrongMagic found => s!"magic is {found.text}, not {FourCC.dxbc.text}"
  | declaredSizeTooSmall declared =>
    s!"declared size {declared} cannot hold the {containerHeaderSize}-byte header"
  | declaredSizePastEnd declared given =>
    s!"declared size {declared} but only {given} bytes given"
  | tooManyChunks count => s!"{count} chunks (limit {maxChunks})"
  | offsetTableOverrun count declared =>
    s!"offset table of {count} entries overruns the {declared}-byte container"
  | offsetUnreadable chunk => s!"offset {chunk} unreadable"
  | chunkOverlapsTable chunk offset firstPayload =>
    s!"chunk {chunk} at {offset} overlaps the header and offset table (< {firstPayload})"
  | chunkHeaderTruncated chunk offset => s!"chunk {chunk} header at {offset} is truncated"
  | payloadPastEnd chunk id start len declared =>
    s!"chunk {chunk} ({id.text}) payload {start}+{len} runs past byte {declared}"
  | signature fault => fault.context
  | signatureOf id fault => s!"{id.text}: {fault.context}"

def message (e : ContainerError) : String :=
  s!"{e.kind.text}: {e.context}"

end ContainerError

end ShaderLowering
