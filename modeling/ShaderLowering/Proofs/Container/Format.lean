import ShaderLowering.Container.Basic
import ShaderLowering.Proofs.Container.Reading

/-!
The container format, said without a reader: where a chunk lies, how long it is and which bytes
name it. `Container.parse` accepts exactly the byte strings in this format, returns the chunks that
the format gives them, and depends on no byte behind the declared size.
-/

namespace ShaderLowering

namespace Container

namespace Format

variable (bytes : Bytes)

/-- The size that the header declares. -/
def size : Nat := bytes.numberAt 24

/-- The number of chunks that the header declares. -/
def count : Nat := bytes.numberAt 28

/-- Where the offset table ends. -/
def tableEnd : Nat := containerHeaderSize + 4 * count bytes

/-- Where the offset table says that chunk `i` starts. -/
def offset (i : Nat) : Nat := bytes.numberAt (containerHeaderSize + 4 * i)

/-- The length of the payload of chunk `i`. -/
def length (i : Nat) : Nat := bytes.numberAt (offset bytes i + 4)

/-- Chunk `i`: what its first four bytes spell and, behind its length, its payload. -/
def chunk (i : Nat) : Chunk where
  id := FourCC.spelledAt bytes (offset bytes i)
  payload := (bytes.drop (offset bytes i + 8)).take (length bytes i)

/-- The container that the bytes describe, its chunks in the order of the table. -/
def contents : Container where
  checksum := (bytes.drop 4).take 16
  totalSize := .ofNat (size bytes)
  chunkCount := .ofNat (count bytes)
  chunks := (List.range (count bytes)).map (chunk bytes)

/-- Chunk `i` lies behind the offset table and inside the declared size. -/
structure HoldsChunk (i : Nat) : Prop where
  behind_table : tableEnd bytes ≤ offset bytes i
  header : offset bytes i + 8 ≤ size bytes
  payload : offset bytes i + 8 + length bytes i ≤ size bytes

/-- The bytes are in the container format. Chunks may overlap and repeat. -/
structure Holds : Prop where
  header : containerHeaderSize ≤ bytes.length
  magic : bytes.take 4 = FourCC.dxbc.toBytes
  size_ge : containerHeaderSize ≤ size bytes
  size_le : size bytes ≤ bytes.length
  count_le : count bytes ≤ maxChunks
  table : tableEnd bytes ≤ size bytes
  chunks : ∀ i < count bytes, HoldsChunk bytes i

instance (i : Nat) : Decidable (HoldsChunk bytes i) :=
  decidable_of_iff
    (tableEnd bytes ≤ offset bytes i ∧ offset bytes i + 8 ≤ size bytes ∧
      offset bytes i + 8 + length bytes i ≤ size bytes)
    ⟨fun ⟨table, header, payload⟩ => ⟨table, header, payload⟩,
      fun ⟨table, header, payload⟩ => ⟨table, header, payload⟩⟩

instance : Decidable (Holds bytes) :=
  decidable_of_iff
    (containerHeaderSize ≤ bytes.length ∧ bytes.take 4 = FourCC.dxbc.toBytes ∧
      containerHeaderSize ≤ size bytes ∧ size bytes ≤ bytes.length ∧ count bytes ≤ maxChunks ∧
      tableEnd bytes ≤ size bytes ∧ ∀ i < count bytes, HoldsChunk bytes i)
    ⟨fun ⟨header, magic, size_ge, size_le, count_le, table, chunks⟩ =>
        ⟨header, magic, size_ge, size_le, count_le, table, chunks⟩,
      fun ⟨header, magic, size_ge, size_le, count_le, table, chunks⟩ =>
        ⟨header, magic, size_ge, size_le, count_le, table, chunks⟩⟩

variable {bytes}

theorem spelledAt_eq_dxbc (inside : 4 ≤ bytes.length) :
    FourCC.spelledAt bytes 0 = FourCC.dxbc ↔ bytes.take 4 = FourCC.dxbc.toBytes := by
  have four : bytes.take 4 = (FourCC.spelledAt bytes 0).toBytes :=
    FourCC.take_drop_eq_toBytes (show 0 + 4 ≤ bytes.length from inside)
  rw [four, FourCC.toBytes_injective.eq_iff]

end Format

variable {bytes : Bytes} {c : Chunk} {i : Nat}

open Format

theorem readChunk_eq_ok {region : Bytes} {first index at_ : Nat} :
    readChunk region first index at_ = .ok c ↔
      first ≤ at_ ∧ at_ + 8 + region.numberAt (at_ + 4) ≤ region.length ∧
      c = ⟨FourCC.spelledAt region at_,
        (region.drop (at_ + 8)).take (region.numberAt (at_ + 4))⟩ := by
  unfold readChunk
  split
  · next before => simp [show ¬first ≤ at_ by omega]
  next behind =>
  rcases Nat.lt_or_ge region.length (at_ + 8) with short | header
  · rw [Bytes.word?_eq_none (show region.length < at_ + 4 + 4 by omega)]
    simp [show ¬at_ + 8 + region.numberAt (at_ + 4) ≤ region.length by omega]
  rw [FourCC.at?_eq_some (by omega), Bytes.word?_eq_some (by omega)]
  simp only [Bytes.toNat_numberAt]
  rcases Nat.lt_or_ge region.length (at_ + 8 + region.numberAt (at_ + 4)) with short | payload
  · rw [Bytes.slice?_eq_none_iff.2 short]
    simp [show ¬at_ + 8 + region.numberAt (at_ + 4) ≤ region.length by omega]
  · rw [Bytes.slice?_eq_some payload]
    simp [payload, show first ≤ at_ by omega, eq_comm]

/-- One entry of the offset table, read from the declared region. -/
theorem readTableEntry_eq_ok (fits : size bytes ≤ bytes.length)
    (table : tableEnd bytes ≤ size bytes)
    (inTable : i < count bytes) :
    readTableEntry (bytes.take (size bytes)) (tableEnd bytes) i = .ok c ↔
      HoldsChunk bytes i ∧ c = chunk bytes i := by
  have length_ : (bytes.take (size bytes)).length = size bytes := List.length_take_of_le fits
  have entry : containerHeaderSize + 4 * i + 4 ≤ size bytes := by
    unfold tableEnd at table
    omega
  rw [readTableEntry, Bytes.word?_eq_some (by omega), Bytes.numberAt_take entry]
  have named : bytes.numberAt (containerHeaderSize + 4 * i) = offset bytes i := rfl
  dsimp only
  rw [Bytes.toNat_numberAt, named, readChunk_eq_ok, length_]
  constructor
  · rintro ⟨behind, payload, rfl⟩
    have header : offset bytes i + 8 ≤ size bytes := by omega
    rw [Bytes.numberAt_take (by omega)] at payload ⊢
    refine ⟨⟨behind, header, payload⟩, ?_⟩
    rw [FourCC.spelledAt_take (by omega), List.drop_take, List.take_take,
      Nat.min_eq_left (by omega)]
    rfl
  · rintro ⟨⟨behind, header, payload⟩, rfl⟩
    rw [Bytes.numberAt_take (by omega), FourCC.spelledAt_take (by omega), List.drop_take,
      List.take_take]
    refine ⟨behind, payload, ?_⟩
    have whole : min (bytes.numberAt (offset bytes i + 4)) (size bytes - (offset bytes i + 8)) =
        Format.length bytes i := by
      unfold Format.length at payload ⊢
      omega
    rw [whole]
    rfl

/-- All entries of the offset table. -/
theorem readTable_eq_ok (fits : size bytes ≤ bytes.length) (table : tableEnd bytes ≤ size bytes)
    {chunks : List Chunk} :
    (List.range (count bytes)).mapM (readTableEntry (bytes.take (size bytes)) (tableEnd bytes)) =
        .ok chunks ↔
      (∀ i < count bytes, HoldsChunk bytes i) ∧
        chunks = (List.range (count bytes)).map (chunk bytes) := by
  rw [mapM_eq_ok]
  constructor
  · intro each
    have at_ {i : Nat} (inTable : i < count bytes) :
        HoldsChunk bytes i ∧ chunks[i]? = some (chunk bytes i) := by
      have inTable' : i < chunks.length := by rwa [← each.length_eq, List.length_range]
      have read := (List.forall₂_iff_get.1 each).2 i (by rwa [List.length_range]) inTable'
      simp only [List.get_eq_getElem, List.getElem_range] at read
      obtain ⟨holds, is⟩ := (readTableEntry_eq_ok fits table inTable).1 read
      exact ⟨holds, by rw [List.getElem?_eq_getElem inTable', is]⟩
    refine ⟨fun i inTable => (at_ inTable).1, List.ext_getElem? fun i => ?_⟩
    rcases Nat.lt_or_ge i (count bytes) with inTable | behind
    · simp [(at_ inTable).2, inTable]
    · have behind' : chunks.length ≤ i := by rwa [← each.length_eq, List.length_range]
      simp [behind, behind']
  · rintro ⟨holds, rfl⟩
    rw [List.forall₂_map_right_iff, List.forall₂_same]
    intro i mem
    have inTable := List.mem_range.1 mem
    exact (readTableEntry_eq_ok fits table inTable).2 ⟨holds i inTable, rfl⟩

/-- Reading a container whose header is there. -/
theorem parse_of_header (header : containerHeaderSize ≤ bytes.length) :
    parse bytes =
      if FourCC.spelledAt bytes 0 ≠ .dxbc then .error (.wrongMagic (FourCC.spelledAt bytes 0))
      else if size bytes < containerHeaderSize then .error (.declaredSizeTooSmall (size bytes))
      else if bytes.length < size bytes then
        .error (.declaredSizePastEnd (size bytes) bytes.length)
      else if maxChunks < count bytes then .error (.tooManyChunks (count bytes))
      else if size bytes < tableEnd bytes then
        .error (.offsetTableOverrun (count bytes) (size bytes))
      else ((List.range (count bytes)).mapM
          (readTableEntry (bytes.take (size bytes)) (tableEnd bytes))).map fun chunks =>
        ⟨(contents bytes).checksum, (contents bytes).totalSize, (contents bytes).chunkCount,
          chunks⟩ := by
  unfold containerHeaderSize at header
  have size_ : size bytes = (contents bytes).totalSize.toNat := (bytes.toNat_numberAt 24).symm
  have count_ : count bytes = (contents bytes).chunkCount.toNat := (bytes.toNat_numberAt 28).symm
  have magic : FourCC.at? bytes 0 = some (FourCC.spelledAt bytes 0) :=
    FourCC.at?_eq_some (by omega)
  have checksum : bytes.slice? 4 16 = some (contents bytes).checksum :=
    Bytes.slice?_eq_some (by omega)
  have totalSize : bytes.word? 24 = some (contents bytes).totalSize :=
    Bytes.word?_eq_some (by omega)
  have chunkCount : bytes.word? 28 = some (contents bytes).chunkCount :=
    Bytes.word?_eq_some (by omega)
  unfold parse
  rw [magic, checksum, totalSize, chunkCount, size_, tableEnd, count_]
  rfl

/-- A header that is cut short is refused. -/
theorem not_parse_of_short (short : bytes.length < containerHeaderSize) {c : Container} :
    parse bytes ≠ .ok c := by
  intro ran
  unfold containerHeaderSize at short
  have chunkCount : bytes.word? 28 = none := Bytes.word?_eq_none (by omega)
  unfold parse at ran
  rw [chunkCount] at ran
  extract_lets truncated behind at ran
  have refused : behind () ≠ .ok c := by
    intro ran
    unfold behind at ran
    split at ran
    · split at ran <;> cases ran
    · cases ran
  split at ran
  · split at ran
    · cases ran
    · exact refused ran
  · cases ran

/-- What is read is in the format and is what the format says. -/
theorem parse_eq_ok {c : Container} : parse bytes = .ok c ↔ Holds bytes ∧ c = contents bytes := by
  rcases Nat.lt_or_ge bytes.length containerHeaderSize with short | header
  · refine iff_of_false (not_parse_of_short short) fun holds => ?_
    have := holds.1.header
    omega
  have four : 4 ≤ bytes.length := by
    unfold containerHeaderSize at header
    omega
  rw [parse_of_header header]
  constructor
  · intro ran
    split at ran
    · cases ran
    next magic =>
    split at ran
    · cases ran
    next size_ge =>
    split at ran
    · cases ran
    next size_le =>
    split at ran
    · cases ran
    next count_le =>
    split at ran
    · cases ran
    next table =>
    have size_le := Nat.le_of_not_lt size_le
    have table := Nat.le_of_not_lt table
    cases read : (List.range (count bytes)).mapM
        (readTableEntry (bytes.take (size bytes)) (tableEnd bytes)) with
    | error e =>
      rw [read] at ran
      cases ran
    | ok chunks =>
      rw [read] at ran
      cases ran
      obtain ⟨holds, rfl⟩ := (readTable_eq_ok size_le table).1 read
      exact ⟨⟨header, (spelledAt_eq_dxbc four).1 (not_not.1 magic), Nat.le_of_not_lt size_ge,
        size_le, Nat.le_of_not_lt count_le, table, holds⟩, rfl⟩
  · rintro ⟨holds, rfl⟩
    have read := (readTable_eq_ok holds.size_le holds.table).2 ⟨holds.chunks, rfl⟩
    rw [if_neg (not_not.2 ((spelledAt_eq_dxbc four).2 holds.magic)),
      if_neg (Nat.not_lt.2 holds.size_ge), if_neg (Nat.not_lt.2 holds.size_le),
      if_neg (Nat.not_lt.2 holds.count_le), if_neg (Nat.not_lt.2 holds.table), read]
    rfl

/-- Only the header and the declared region are read. -/
theorem parse_take {n : Nat} (header : containerHeaderSize ≤ n) (region : size bytes ≤ n)
    (fits : n ≤ bytes.length) : parse (bytes.take n) = parse bytes := by
  have length_ : (bytes.take n).length = n := List.length_take_of_le fits
  have inside : containerHeaderSize ≤ (bytes.take n).length := by omega
  have size_ : size (bytes.take n) = size bytes :=
    Bytes.numberAt_take (by unfold containerHeaderSize at header; omega)
  have count_ : count (bytes.take n) = count bytes :=
    Bytes.numberAt_take (by unfold containerHeaderSize at header; omega)
  have magic : FourCC.spelledAt (bytes.take n) 0 = FourCC.spelledAt bytes 0 :=
    FourCC.spelledAt_take (by unfold containerHeaderSize at header; omega)
  have checksum : (contents (bytes.take n)).checksum = (contents bytes).checksum := by
    unfold containerHeaderSize at header
    simp only [contents]
    rw [List.drop_take, List.take_take, Nat.min_eq_left (by omega)]
  have table : tableEnd (bytes.take n) = tableEnd bytes := by rw [tableEnd, tableEnd, count_]
  have totalSize : (contents (bytes.take n)).totalSize = (contents bytes).totalSize :=
    congrArg UInt32.ofNat size_
  have chunkCount : (contents (bytes.take n)).chunkCount = (contents bytes).chunkCount :=
    congrArg UInt32.ofNat count_
  rw [parse_of_header inside, parse_of_header (by omega), size_, count_, table, magic, length_,
    List.take_take, Nat.min_eq_left region, if_neg (Nat.not_lt.2 region),
    if_neg (Nat.not_lt.2 (Nat.le_trans region fits)), checksum, totalSize, chunkCount]

/-- A container is read just when the bytes are in the format, and then its chunks are those that
the offset table points to; bytes behind the header and the declared size make no difference. -/
theorem parse_reads_format (bytes : Bytes) :
    ((∃ c, parse bytes = .ok c) ↔ Holds bytes) ∧
    (∀ c, parse bytes = .ok c → c.chunks = (List.range (count bytes)).map (chunk bytes)) ∧
    ∀ other n, containerHeaderSize ≤ n → size bytes ≤ n → n ≤ bytes.length → n ≤ other.length →
      bytes.take n = other.take n → parse bytes = parse other := by
  refine ⟨⟨?_, fun holds => ⟨_, parse_eq_ok.2 ⟨holds, rfl⟩⟩⟩, fun c read => ?_,
    fun other n header region fits fits' same => ?_⟩
  · rintro ⟨c, read⟩
    exact (parse_eq_ok.1 read).1
  · rw [(parse_eq_ok.1 read).2]
    rfl
  · have region' : size other ≤ n := by
      have size_ : size (bytes.take n) = size (other.take n) := congrArg size same
      unfold containerHeaderSize at header
      unfold size at size_ region ⊢
      rw [Bytes.numberAt_take (by omega), Bytes.numberAt_take (by omega)] at size_
      rwa [← size_]
    rw [← parse_take header region fits, same, parse_take header region' fits']

/-- An empty chunk that ends where the container ends, and bytes behind it. -/
theorem parse_reads_format_emptyChunk :
    (∃ c, parse (encode [⟨.isgn, []⟩] ++ [1]) = .ok c) ∧
      parse (encode [⟨.isgn, []⟩] ++ [1]) = parse (encode [⟨.isgn, []⟩] ++ [2, 3]) :=
  ⟨(parse_reads_format _).1.2 (by decide),
    (parse_reads_format _).2.2 _ 44 (by decide) (by decide) (by decide) (by decide) (by decide)⟩

end Container

end ShaderLowering
