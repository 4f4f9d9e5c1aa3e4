import ShaderLowering.Program.Basic
import ShaderLowering.Proofs.Container.Format

/-!
Containers come back as they were written: what `Container.encode` writes for some chunks is in
the container format, and the format gives it these chunks. The main statement adds what look-ups
find in a container that was read back.
-/

namespace ShaderLowering

namespace Container

variable {chunks : List Chunk} {c : Chunk} {i : Nat}

/-- The chunks, one behind the other. -/
def body (chunks : List Chunk) : Bytes :=
  chunks.flatMap encodeChunk

theorem length_encodeChunk : (encodeChunk c).length = 8 + c.payload.length := by
  rw [encodeChunk, List.length_append]
  rfl

theorem body_cons (rest : List Chunk) : body (c :: rest) = encodeChunk c ++ body rest :=
  List.flatMap_cons

theorem body_append (before after : List Chunk) :
    body (before ++ after) = body before ++ body after :=
  List.flatMap_append

theorem length_encodeOffsets (offset : Nat) :
    (encodeOffsets offset chunks).length = chunks.length := by
  induction chunks generalizing offset with
  | nil => rfl
  | cons chunk rest ih => exact congrArg (· + 1) (ih _)

/-- Chunk `i` lies behind those in front of it. -/
theorem getElem_encodeOffsets (offset : Nat) (inTable : i < (encodeOffsets offset chunks).length) :
    (encodeOffsets offset chunks)[i] = .ofNat (offset + (body (chunks.take i)).length) := by
  induction chunks generalizing offset i with
  | nil => cases inTable
  | cons chunk rest ih =>
    cases i with
    | zero => rfl
    | succ i =>
      have behind := ih (offset + 8 + chunk.payload.length) (Nat.lt_of_succ_lt_succ inTable)
      rw [List.take_succ_cons, body_cons, List.length_append, length_encodeChunk]
      refine behind.trans (congrArg UInt32.ofNat ?_)
      omega

/-- Where the chunks begin. -/
def firstPayload (chunks : List Chunk) : Nat :=
  containerHeaderSize + 4 * chunks.length

/-- The words of the header and the offset table. -/
def tableWords (chunks : List Chunk) : List UInt32 :=
  1 :: .ofNat (firstPayload chunks + (body chunks).length) :: .ofNat chunks.length ::
    encodeOffsets (firstPayload chunks) chunks

theorem length_tableWords (chunks : List Chunk) :
    (tableWords chunks).length = 3 + chunks.length := by
  simp only [tableWords, List.length_cons, length_encodeOffsets]
  omega

theorem encode_eq (chunks : List Chunk) :
    encode chunks = FourCC.dxbc.toBytes ++ List.replicate 16 0 ++
      Bytes.ofWords (tableWords chunks) ++ body chunks := rfl

theorem length_encode (chunks : List Chunk) :
    (encode chunks).length = firstPayload chunks + (body chunks).length := by
  have magic : FourCC.dxbc.toBytes.length = 4 := rfl
  rw [encode_eq, List.length_append, List.length_append, List.length_append, magic,
    List.length_replicate, Bytes.length_ofWords, length_tableWords, firstPayload,
    containerHeaderSize]
  omega

theorem has_word (inTable : i < (tableWords chunks).length) :
    (encode chunks).Has (20 + 4 * i) (Bytes.ofWord (tableWords chunks)[i]) := by
  have table : (encode chunks).Has 20 (Bytes.ofWords (tableWords chunks)) :=
    ⟨FourCC.dxbc.toBytes ++ List.replicate 16 0, body chunks, by
      rw [encode_eq, List.append_assoc], rfl⟩
  exact table.words i inTable

theorem has_body (chunks : List Chunk) :
    (encode chunks).Has (firstPayload chunks) (body chunks) := by
  refine ⟨_, [], by rw [encode_eq, List.append_nil], ?_⟩
  have whole := length_encode chunks
  rw [encode_eq, List.length_append] at whole
  exact Nat.add_right_cancel whole

theorem has_chunk {before after : List Chunk} (split : chunks = before ++ c :: after) :
    (encode chunks).Has (firstPayload chunks + (body before).length) (encodeChunk c) := by
  have all := has_body chunks
  rw [split, body_append, body_cons, ← split] at all
  exact all.right.left

namespace Format

theorem size_encode (small : (encode chunks).length < 2 ^ 32) :
    size (encode chunks) = (encode chunks).length := by
  have there := has_word (i := 1) (show 1 < (tableWords chunks).length by
    rw [length_tableWords]; omega)
  rw [size, there.numberAt, length_encode]
  rw [length_encode] at small
  exact UInt32.toNat_ofNat_of_lt' small

theorem count_encode (small : (encode chunks).length < 2 ^ 32) :
    count (encode chunks) = chunks.length := by
  have there := has_word (i := 2) (show 2 < (tableWords chunks).length by
    rw [length_tableWords]; omega)
  rw [count, there.numberAt]
  rw [length_encode, firstPayload] at small
  exact UInt32.toNat_ofNat_of_lt' (show _ < 2 ^ 32 by omega)

theorem tableEnd_encode (small : (encode chunks).length < 2 ^ 32) :
    tableEnd (encode chunks) = firstPayload chunks := by
  rw [tableEnd, count_encode small, firstPayload]

theorem offset_encode (small : (encode chunks).length < 2 ^ 32) (inTable : i < chunks.length) :
    offset (encode chunks) i = firstPayload chunks + (body (chunks.take i)).length := by
  have inside := (has_chunk (eq_take_cons_drop inTable)).le
  have entry : i < (encodeOffsets (firstPayload chunks) chunks).length := by
    rwa [length_encodeOffsets]
  have word := has_word (i := i + 3) (show i + 3 < (tableWords chunks).length by
    rw [length_tableWords]; omega)
  have at_ : containerHeaderSize + 4 * i = 20 + 4 * (i + 3) := by
    unfold containerHeaderSize
    omega
  rw [offset, at_, word.numberAt]
  change ((encodeOffsets (firstPayload chunks) chunks)[i]).toNat = _
  rw [getElem_encodeOffsets]
  exact UInt32.toNat_ofNat_of_lt' (show _ < 2 ^ 32 by omega)

/-- The parts of a chunk stand where the offset table says. -/
theorem has_parts (small : (encode chunks).length < 2 ^ 32) (inTable : i < chunks.length) :
    (encode chunks).Has (offset (encode chunks) i) chunks[i].id.toBytes ∧
      (encode chunks).Has (offset (encode chunks) i + 4)
        (Bytes.ofWord (.ofNat chunks[i].payload.length)) ∧
      (encode chunks).Has (offset (encode chunks) i + 8) chunks[i].payload := by
  have there := has_chunk (eq_take_cons_drop inTable)
  rw [← offset_encode small inTable, encodeChunk] at there
  exact ⟨there.left.left, there.left.right, there.right⟩

theorem length_payload (small : (encode chunks).length < 2 ^ 32) (inTable : i < chunks.length) :
    length (encode chunks) i = chunks[i].payload.length := by
  obtain ⟨_, length_, payload⟩ := has_parts small inTable
  have inside := payload.le
  rw [length, length_.numberAt]
  exact UInt32.toNat_ofNat_of_lt' (show _ < 2 ^ 32 by omega)

theorem chunk_encode (small : (encode chunks).length < 2 ^ 32) (inTable : i < chunks.length) :
    chunk (encode chunks) i = chunks[i] := by
  obtain ⟨id, _, payload⟩ := has_parts small inTable
  rw [chunk, FourCC.spelledAt_of_has id, length_payload small inTable, payload.take_drop]

theorem holdsChunk_encode (small : (encode chunks).length < 2 ^ 32) (inTable : i < chunks.length) :
    HoldsChunk (encode chunks) i := by
  obtain ⟨_, _, payload⟩ := has_parts small inTable
  have inside := payload.le
  refine ⟨?_, ?_, ?_⟩
  · rw [tableEnd_encode small, offset_encode small inTable]
    exact Nat.le_add_right _ _
  · rw [size_encode small]
    omega
  · rwa [size_encode small, length_payload small inTable]

theorem holds_encode (few : chunks.length ≤ maxChunks) (small : (encode chunks).length < 2 ^ 32) :
    Holds (encode chunks) where
  header := by rw [length_encode, firstPayload]; omega
  magic := rfl
  size_ge := by rw [size_encode small, length_encode, firstPayload]; omega
  size_le := Nat.le_of_eq (size_encode small)
  count_le := by rwa [count_encode small]
  table := by rw [tableEnd_encode small, size_encode small, length_encode]; omega
  chunks := fun i inTable => holdsChunk_encode small (by rwa [count_encode small] at inTable)

end Format

/-- What is written is read back. -/
theorem parse_encode (few : chunks.length ≤ maxChunks) (small : (encode chunks).length < 2 ^ 32) :
    ∃ c, parse (encode chunks) = .ok c ∧ c.chunks = chunks := by
  refine ⟨_, parse_eq_ok.2 ⟨Format.holds_encode few small, rfl⟩, ?_⟩
  change (List.range (Format.count (encode chunks))).map (Format.chunk (encode chunks)) = chunks
  rw [Format.count_encode small]
  refine List.ext_getElem (by simp) fun i _ inTable => ?_
  rw [List.getElem_map, List.getElem_range, Format.chunk_encode small inTable]

/-- Bytes behind what was written make no difference. -/
theorem parse_encode_append (small : (encode chunks).length < 2 ^ 32) (suffix : Bytes) :
    parse (encode chunks ++ suffix) = parse (encode chunks) := by
  have header : containerHeaderSize ≤ (encode chunks).length := by
    rw [length_encode, firstPayload]
    omega
  have written : (encode chunks ++ suffix).take (encode chunks).length = encode chunks :=
    List.take_left
  have region : Format.size (encode chunks ++ suffix) = (encode chunks).length := by
    have inside : 24 + 4 ≤ (encode chunks).length := Nat.le_trans (by decide) header
    rw [Format.size, ← Bytes.numberAt_take inside, written]
    exact Format.size_encode small
  have fits : (encode chunks).length ≤ (encode chunks ++ suffix).length := by
    rw [List.length_append]
    exact Nat.le_add_right _ _
  rw [← parse_take header (Nat.le_of_eq region) fits, written]

/-- A program is read from the bytes of a container as from the container. -/
theorem ofContainerBytes_encode (c : Container) (few : c.chunks.length ≤ maxChunks)
    (small : (encode c.chunks).length < 2 ^ 32) (suffix : Bytes) :
    Program.ofContainerBytes (encode c.chunks ++ suffix) = Program.ofContainer c := by
  obtain ⟨read, parsed, same⟩ := parse_encode few small
  rw [← parse_encode_append small suffix] at parsed
  rw [Program.ofContainerBytes, parsed]
  simp only [Program.ofContainer, programChunk?, chunk?, same]
/-- What a look-up under an identifier should give: the chunk with that identifier and none in
front of it, or nothing where no chunk has it. -/
def IsFirst (chunks : List Chunk) (id : FourCC) : Option Chunk → Prop
  | some c => ∃ before after, chunks = before ++ c :: after ∧ c.id = id ∧ ∀ d ∈ before, d.id ≠ id
  | none => ∀ d ∈ chunks, d.id ≠ id

theorem isFirst_chunk? (c : Container) (id : FourCC) : IsFirst c.chunks id (c.chunk? id) := by
  cases found : c.chunk? id with
  | none =>
    intro d mem
    simpa using List.find?_eq_none.1 found d mem
  | some first =>
    obtain ⟨is, before, after, split, others⟩ := List.find?_eq_some_iff_append.1 found
    exact ⟨before, after, split, by simpa using is, fun d mem => by simpa using others d mem⟩

/-- A container comes back from its bytes, whatever stands behind them: its chunks in order, under
each identifier the first of them, and as the program the first under the later spelling or else the
first under the earlier one. -/
theorem encode_roundTrip (few : chunks.length ≤ maxChunks)
    (small : (encode chunks).length < 2 ^ 32) (suffix : Bytes) :
    ∃ c, parse (encode chunks ++ suffix) = .ok c ∧ c.chunks = chunks ∧
      (∀ id, IsFirst chunks id (c.chunk? id)) ∧
      ∃ shex? shdr?, IsFirst chunks .shex shex? ∧ IsFirst chunks .shdr shdr? ∧
        c.programChunk? = if shex?.isSome then shex? else shdr? := by
  obtain ⟨c, read, same⟩ := parse_encode few small
  rw [← parse_encode_append small suffix] at read
  have firsts (id : FourCC) : IsFirst chunks id (c.chunk? id) := same ▸ c.isFirst_chunk? id
  refine ⟨c, read, same, firsts, c.chunk? .shex, c.chunk? .shdr, firsts _, firsts _, ?_⟩
  unfold programChunk?
  cases c.chunk? .shex <;> rfl

/-- An empty chunk, two programs under the earlier spelling, and a byte behind them. -/
def twicePrograms : List Chunk :=
  [⟨.isgn, []⟩, ⟨.shdr, [1, 2, 3]⟩, ⟨.shdr, []⟩]

theorem encode_roundTrip_twicePrograms :
    ∃ c, parse (encode twicePrograms ++ [7]) = .ok c ∧ c.chunks = twicePrograms ∧
      c.programChunk? = some ⟨.shdr, [1, 2, 3]⟩ := by
  obtain ⟨c, read, same, _⟩ := @encode_roundTrip twicePrograms (by decide) (by decide) [7]
  refine ⟨c, read, same, ?_⟩
  rw [programChunk?, chunk?, chunk?, same]
  rfl

end Container

end ShaderLowering
