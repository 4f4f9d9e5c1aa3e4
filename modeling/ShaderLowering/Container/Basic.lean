import ShaderLowering.Container.SignatureChunk

/-!
Shader containers: a fixed header, a table of chunk offsets, and chunks that carry an identifier,
a length and a payload. Nothing in a container is trusted: `Container.parse` checks every range
against the declared size and never reads behind it. `Container.encode` writes the container that
holds given chunks in order.
-/

namespace ShaderLowering

structure Chunk where
  id : FourCC
  payload : Bytes
deriving DecidableEq, Repr, Inhabited

structure Container where
  checksum : Bytes
  totalSize : UInt32
  chunkCount : UInt32
  /-- In the order of the offset table. -/
  chunks : List Chunk
deriving DecidableEq, Repr, Inhabited

namespace Container

/-- The chunk that starts at `offset` of the declared region. No chunk may start before the end
of the offset table, `firstPayload`. -/
def readChunk (region : Bytes) (firstPayload index offset : Nat) : Except ContainerError Chunk :=
  if offset < firstPayload then .error (.chunkOverlapsTable index offset firstPayload)
  else
    match FourCC.at? region offset, region.word? (offset + 4) with
    | some id, some len =>
      let start := offset + 8
      match region.slice? start len.toNat with
      | some payload => .ok ⟨id, payload⟩
      | none => .error (.payloadPastEnd index id start len.toNat region.length)
    | _, _ => .error (.chunkHeaderTruncated index offset)

/-- Chunk `index` of the offset table. -/
def readTableEntry (region : Bytes) (firstPayload index : Nat) : Except ContainerError Chunk :=
  match region.word? (containerHeaderSize + 4 * index) with
  | some offset => readChunk region firstPayload index offset.toNat
  | none => .error (.offsetUnreadable index)

/-- Reads a container, checking its header and every chunk range. Bytes behind the declared size
are ignored; the checksum is not verified. -/
def parse (bytes : Bytes) : Except ContainerError Container := do
  let truncated := ContainerError.headerTruncated bytes.length
  let some magic := FourCC.at? bytes 0 | throw truncated
  if magic ≠ .dxbc then throw (.wrongMagic magic)
  let some checksum := bytes.slice? 4 16 | throw truncated
  let some totalSize := bytes.word? 24 | throw truncated
  let some chunkCount := bytes.word? 28 | throw truncated
  let size := totalSize.toNat
  let count := chunkCount.toNat
  if size < containerHeaderSize then throw (.declaredSizeTooSmall size)
  if bytes.length < size then throw (.declaredSizePastEnd size bytes.length)
  if maxChunks < count then throw (.tooManyChunks count)
  let firstPayload := containerHeaderSize + 4 * count
  if size < firstPayload then throw (.offsetTableOverrun count size)
  let chunks ← (List.range count).mapM (readTableEntry (bytes.take size) firstPayload)
  return { checksum, totalSize, chunkCount, chunks }

/-- The first chunk with an identifier. -/
def chunk? (c : Container) (id : FourCC) : Option Chunk :=
  c.chunks.find? (·.id = id)

/-- The program chunk. The spelling of shader model 5 is preferred. -/
def programChunk? (c : Container) : Option Chunk :=
  c.chunk? .shex <|> c.chunk? .shdr

/-- The first chunk under exactly this spelling that parses; if none does, why the first of them
does not. -/
def signatureUnder? (c : Container) (id : FourCC) :
    Option (Except ContainerError (List SignatureEntry)) :=
  let parsed := (c.chunks.filter (·.id = id)).map fun chunk => SignatureChunk.parse id chunk.payload
  match parsed.findSome? Except.toOption, parsed.head? with
  | some entries, _ => some (.ok entries)
  | none, some (.error fault) => some (.error (.signatureOf id fault))
  | none, _ => none

/-- The signature stored under `id` or, when that is absent or does not parse, under its other
spelling. When both fail, the fault under `id` is reported. -/
def signature? (c : Container) (id : FourCC) :
    Option (Except ContainerError (List SignatureEntry)) :=
  let exact := c.signatureUnder? id
  match exact with
  | some (.ok entries) => some (.ok entries)
  | _ =>
    match exact, id.alternateSpelling?.bind c.signatureUnder? with
    | _, some (.ok entries) => some (.ok entries)
    | some fault, _ => some fault
    | none, fallback => fallback

/-- The offset table for chunks that lie one behind the other from `offset` on. -/
def encodeOffsets : (offset : Nat) → List Chunk → List UInt32
  | _, [] => []
  | offset, chunk :: rest =>
    .ofNat offset :: encodeOffsets (offset + 8 + chunk.payload.length) rest

def encodeChunk (chunk : Chunk) : Bytes :=
  chunk.id.toBytes ++ Bytes.ofWord (.ofNat chunk.payload.length) ++ chunk.payload

/-- Writes the container that holds `chunks` in order, with a checksum of zeros. -/
def encode (chunks : List Chunk) : Bytes :=
  let firstPayload := containerHeaderSize + 4 * chunks.length
  let body := chunks.flatMap encodeChunk
  FourCC.dxbc.toBytes ++ List.replicate 16 0 ++
  Bytes.ofWords
    (1 :: .ofNat (firstPayload + body.length) :: .ofNat chunks.length ::
      encodeOffsets firstPayload chunks) ++
  body

end Container

end ShaderLowering
