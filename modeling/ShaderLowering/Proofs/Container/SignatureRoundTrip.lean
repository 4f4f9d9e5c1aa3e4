import ShaderLowering.Container.Basic
import ShaderLowering.Proofs.Container.Reading

/-!
Signatures come back as they were written. A chunk does not say which of the two entry layouts it
has; it is read in the layout that its identifier or its first entry suggests and, when that fails,
in the other. A short chunk never reads as a long one, because the first name stands where the
longer table would be.
-/

namespace ShaderLowering

/-- The bytes of a character other than NUL. -/
theorem zero_not_mem_utf8EncodeChar {c : Char} (nonzero : c ≠ '\x00') :
    (0 : UInt8) ∉ String.utf8EncodeChar c := by
  have pos : c.val.toNat ≠ 0 := fun zero => nonzero (Char.ext (UInt32.toNat_inj.1 zero))
  fun_cases String.utf8EncodeChar c <;> simp [← UInt8.toNat_inj] <;> omega

theorem zero_not_mem_toUTF8 {name : String} (free : '\x00' ∉ name.toList) :
    (0 : UInt8) ∉ name.toUTF8.data.toList := by
  rw [String.toUTF8_eq_toByteArray, ← String.utf8Encode_toList, List.utf8Encode,
    List.toList_data_toByteArray, List.mem_flatMap]
  rintro ⟨c, mem, zero⟩
  exact zero_not_mem_utf8EncodeChar (fun nul => free (nul ▸ mem)) zero

theorem fromUTF8?_toUTF8 (s : String) : String.fromUTF8? s.toUTF8 = some s :=
  dif_pos s.isValidUTF8

namespace SignatureChunk

variable {bytes : Bytes} {layout : EntryLayout} {e : SignatureEntry} {es : List SignatureEntry}
  {offset start stop i : Nat}

theorem nameAt_eq_ok {name : String} (has : bytes.Has offset (encodeName name))
    (free : '\x00' ∉ name.toList) (entry : Nat) : nameAt bytes entry offset = .ok name := by
  have inside := has.le
  have nonzero : ∀ b ∈ name.toUTF8.data.toList, (b != 0) = true := fun b mem =>
    bne_iff_ne.2 fun zero => zero_not_mem_toUTF8 free (zero ▸ mem)
  obtain ⟨front, back, rfl, rfl⟩ := has
  rw [nameAt, if_neg (by omega)]
  dsimp only
  rw [List.drop_left, encodeName, List.append_assoc, if_pos (by simp),
    List.takeWhile_append_of_pos nonzero]
  have text : (⟨(name.toUTF8.data.toList ++
      List.takeWhile (· != 0) ([0] ++ back)).toArray⟩ : ByteArray) = name.toUTF8 := by
    simp
  rw [text, fromUTF8?_toUTF8]

theorem length_encodeEntry (nameOffset : Nat) :
    (encodeEntry layout nameOffset e).length = layout.size := by
  cases layout <;> rfl

theorem length_encodeTable (nameOffset : Nat) :
    (encodeTable layout nameOffset es).length = layout.size * es.length := by
  induction es generalizing nameOffset with
  | nil => rfl
  | cons e rest ih =>
    rw [encodeTable, List.length_append, length_encodeEntry, ih, List.length_cons,
      Nat.mul_succ, Nat.add_comm]

/-- All names, one behind the other. -/
def names (es : List SignatureEntry) : Bytes :=
  es.flatMap (encodeName ·.name)

theorem names_cons (e : SignatureEntry) (rest : List SignatureEntry) :
    names (e :: rest) = encodeName e.name ++ names rest := List.flatMap_cons

theorem names_append (before after : List SignatureEntry) :
    names (before ++ after) = names before ++ names after := List.flatMap_append

theorem encodeTable_append (nameOffset : Nat) (before after : List SignatureEntry) :
    encodeTable layout nameOffset (before ++ after) =
      encodeTable layout nameOffset before ++
        encodeTable layout (nameOffset + (names before).length) after := by
  induction before generalizing nameOffset with
  | nil => rfl
  | cons e rest ih =>
    rw [List.cons_append, encodeTable, ih, encodeTable, List.append_assoc, names_cons,
      List.length_append, Nat.add_assoc]

/-- Where the table of an encoded chunk ends and its names begin. -/
def tableEnd (layout : EntryLayout) (es : List SignatureEntry) : Nat :=
  signatureHeaderSize + layout.size * es.length

theorem length_encode :
    (encode layout es).length = tableEnd layout es + (names es).length := by
  rw [encode, List.length_append, List.length_append, length_encodeTable, Bytes.length_ofWords]
  rfl

theorem has_header (layout : EntryLayout) (es : List SignatureEntry) :
    (encode layout es).Has 0 (Bytes.ofWords [.ofNat es.length, .ofNat signatureHeaderSize]) := by
  have front : (encode layout es).Has 0 (Bytes.ofWords
      [.ofNat es.length, .ofNat signatureHeaderSize] ++
      encodeTable layout (tableEnd layout es) es) :=
    ⟨[], names es, rfl, rfl⟩
  exact front.left

theorem has_table (layout : EntryLayout) (es : List SignatureEntry) :
    (encode layout es).Has signatureHeaderSize
    (encodeTable layout (tableEnd layout es) es) := by
  rw [encode, List.append_assoc]
  exact .intro _ _ _

theorem has_names (layout : EntryLayout) (es : List SignatureEntry) :
    (encode layout es).Has (tableEnd layout es) (names es) := by
  refine ⟨_, [], by rw [encode, List.append_nil]; rfl, ?_⟩
  rw [List.length_append, length_encodeTable, Bytes.length_ofWords]
  rfl

/-- The row of an entry. -/
theorem has_row (layout : EntryLayout) {before after : List SignatureEntry}
    (split : es = before ++ e :: after) :
    (encode layout es).Has (signatureHeaderSize + before.length * layout.size)
      (encodeEntry layout (tableEnd layout es + (names before).length) e) := by
  have table := has_table layout es
  rw [split, encodeTable_append, encodeTable, ← split] at table
  have row := table.right.left
  rwa [length_encodeTable, Nat.mul_comm] at row

/-- The name of an entry. -/
theorem has_name (layout : EntryLayout) {before after : List SignatureEntry}
    (split : es = before ++ e :: after) :
    (encode layout es).Has (tableEnd layout es + (names before).length) (encodeName e.name) := by
  have all := has_names layout es
  rw [split, names_append, names_cons, ← split] at all
  exact all.right.left

/-- What the last word of a short row, and the sixth of a long one, hold beside the masks. -/
def packed (e : SignatureEntry) : EntryLayout → UInt32
  | .short => Bytes.word e.mask e.readWriteMask e.stream.toUInt8 0
  | .long => Bytes.word e.mask e.readWriteMask 0 0

theorem mask_packed : (packed e layout).toUInt8 = e.mask := by
  cases layout <;> exact Bytes.toUInt8_word ..

theorem readWriteMask_packed : (packed e layout >>> 8).toUInt8 = e.readWriteMask := by
  cases layout <;> exact Bytes.toUInt8_word_shiftRight ..

theorem stream_packed (small : e.stream < 256) : packed e .short >>> 16 &&& 0xff = e.stream := by
  have stream : e.stream.toUInt8.toNat = e.stream.toNat := by
    rw [UInt32.toNat_toUInt8]
    exact Nat.mod_eq_of_lt (UInt32.lt_iff_toNat_lt.1 small)
  exact UInt32.toNat_inj.1 ((Bytes.toNat_word_third ..).trans stream)

/-- The words of a row. -/
theorem has_words {at_ nameOffset : Nat} (has : bytes.Has at_ (encodeEntry layout nameOffset e)) :
    bytes.word? at_ = some (.ofNat nameOffset) ∧ bytes.word? (at_ + 4) = some e.index ∧
      bytes.word? (at_ + 8) = some e.systemValue ∧ bytes.word? (at_ + 12) = some e.componentType ∧
      bytes.word? (at_ + 16) = some e.register ∧
      bytes.word? (at_ + 20) = some (packed e layout) := by
  have row (i : Nat) (inRow : i < 5) := (has.left.words i inRow).word
  refine ⟨row 0 (by decide), row 1 (by decide), row 2 (by decide), row 3 (by decide),
    row 4 (by decide), ?_⟩
  have masks := has.right
  rw [Bytes.length_ofWords] at masks
  cases layout with
  | short => exact masks.word_bytes
  | long => exact masks.left.word_bytes

theorem has_stream {at_ nameOffset : Nat} (has : bytes.Has at_ (encodeEntry .long nameOffset e)) :
    bytes.word? (at_ + 24) = some e.stream ∧ bytes.word? (at_ + 28) = some 0 := by
  have row := has.right.right
  rw [Bytes.length_ofWords] at row
  exact ⟨(row.words 0 Nat.two_pos).word, (row.words 1 Nat.one_lt_two).word⟩

/-- Reading a row in the layout in which it was written. -/
theorem entryAt_eq_ok {nameOffset : Nat}
    (row : bytes.Has (start + i * layout.size) (encodeEntry layout nameOffset e))
    (name : bytes.Has nameOffset (encodeName e.name)) (free : '\x00' ∉ e.name.toList)
    (fits : nameOffset < 2 ^ 32) (header : signatureHeaderSize ≤ nameOffset)
    (behind : stop ≤ nameOffset) (small : layout = .short → e.stream < 256) :
    entryAt layout bytes start stop i = .ok e := by
  obtain ⟨nameOffset_, index, systemValue, componentType, register, packed_⟩ := has_words row
  have offset_ : (UInt32.ofNat nameOffset).toNat = nameOffset := UInt32.toNat_ofNat_of_lt' fits
  have outside : ¬(nameOffset < signatureHeaderSize ∨
    (start ≤ nameOffset ∧ nameOffset < stop)) := by
    omega
  unfold entryAt
  simp only [Nat.add_zero, nameOffset_, index, systemValue, componentType, register, packed_, bind,
    Except.bind, pure, Except.pure, offset_, if_neg outside, nameAt_eq_ok name free, mask_packed,
    readWriteMask_packed]
  cases layout with
  | short => simp only [stream_packed (small rfl)]
  | long => simp only [(has_stream row).1]

/-- What an encoded chunk says of its table. -/
theorem table_header (fits : (encode layout es).length ≤ 2 ^ 32) :
    (encode layout es).word? 0 = some (.ofNat es.length) ∧
      (encode layout es).word? 4 = some 8 ∧ (UInt32.ofNat es.length).toNat = es.length := by
  have header := has_header layout es
  refine ⟨(header.words 0 Nat.two_pos).word, (header.words 1 Nat.one_lt_two).word, ?_⟩
  refine UInt32.toNat_ofNat_of_lt' (Nat.lt_of_lt_of_le ?_ fits)
  rw [length_encode, tableEnd]
  have rows : es.length ≤ layout.size * es.length :=
    Nat.le_mul_of_pos_left _ (by cases layout <;> decide)
  unfold signatureHeaderSize
  omega

/-- A chunk is read in the layout in which it was written. -/
theorem parseEntries_eq_ok (free : ∀ e ∈ es, '\x00' ∉ e.name.toList)
    (fits : (encode layout es).length ≤ 2 ^ 32)
    (small : layout = .short → ∀ e ∈ es, e.stream < 256) :
    parseEntries layout (encode layout es) es.length signatureHeaderSize = .ok es := by
  have stop : signatureHeaderSize + es.length * layout.size = tableEnd layout es := by
    rw [Nat.mul_comm, tableEnd]
  rw [parseEntries, stop, if_neg (by rw [length_encode]; omega), mapM_eq_ok,
    List.forall₂_iff_get]
  refine ⟨List.length_range, fun i _ inTable => ?_⟩
  rw [List.get_eq_getElem, List.get_eq_getElem, List.getElem_range]
  have mem : es[i] ∈ es := List.getElem_mem inTable
  have split := eq_take_cons_drop inTable
  have row := has_row layout split
  have name := has_name layout split
  rw [List.length_take_of_le (Nat.le_of_lt inTable)] at row
  have inside := name.le
  have long : 0 < (encodeName es[i].name).length := by simp [encodeName]
  refine entryAt_eq_ok row name (free _ mem) (by omega) ?_ (Nat.le_add_right _ _)
    fun is => small is _ mem
  unfold tableEnd
  omega

/-- Where the first name of a short chunk stands, the longer table does not end yet. -/
theorem entryAt_long_of_short {rest : List SignatureEntry}
    (fits : (encode .short (e :: rest)).length ≤ 2 ^ 32) (stop : Nat)
    (longer : tableEnd .short (e :: rest) < stop) :
    entryAt .long (encode .short (e :: rest)) signatureHeaderSize stop 0 =
      .error (.nameInsideTable 0 (tableEnd .short (e :: rest)) signatureHeaderSize stop) := by
  have row : (encode .short (e :: rest)).Has signatureHeaderSize
      (encodeEntry .short (tableEnd .short (e :: rest)) e) := by
    have row := has_row .short (List.nil_append (e :: rest)).symm
    rwa [List.length_nil, Nat.zero_mul] at row
  have name : (encode .short (e :: rest)).Has (tableEnd .short (e :: rest)) (encodeName e.name) :=
    has_name .short (List.nil_append (e :: rest)).symm
  have inside := name.le
  have long : 0 < (encodeName e.name).length := by simp [encodeName]
  obtain ⟨nameOffset, -⟩ := has_words row
  have offset_ : (UInt32.ofNat (tableEnd .short (e :: rest))).toNat = tableEnd .short (e :: rest) :=
    UInt32.toNat_ofNat_of_lt' (Nat.lt_of_lt_of_le (by omega) fits)
  have behind : signatureHeaderSize ≤ tableEnd .short (e :: rest) := Nat.le_add_right _ _
  unfold entryAt
  simp only [Nat.add_zero, Nat.zero_mul, nameOffset, bind, Except.bind, offset_]
  rw [if_pos (.inr ⟨behind, longer⟩)]
  rfl

/-- A chunk in the short layout does not read as one in the long layout. -/
theorem parseEntries_long_of_short (nonempty : es ≠ [])
    (fits : (encode .short es).length ≤ 2 ^ 32) :
    ∃ fault, parseEntries .long (encode .short es) es.length signatureHeaderSize =
      .error fault := by
  obtain ⟨e, rest, rfl⟩ := List.exists_cons_of_ne_nil nonempty
  have longer : tableEnd .short (e :: rest) <
      signatureHeaderSize + (e :: rest).length * EntryLayout.long.size := by
    simp only [tableEnd, EntryLayout.size, List.length_cons]
    omega
  unfold parseEntries
  dsimp only
  split
  · exact ⟨_, rfl⟩
  cases read : (List.range (e :: rest).length).mapM (entryAt .long (encode .short (e :: rest))
      signatureHeaderSize (signatureHeaderSize + (e :: rest).length * EntryLayout.long.size)) with
  | error fault => exact ⟨fault, rfl⟩
  | ok results =>
    rw [List.length_cons, List.range_succ_eq_map, mapM_eq_ok] at read
    cases read with
    | cons first _ =>
      rw [← List.length_cons, entryAt_long_of_short fits _ longer] at first
      cases first

/-- The layout that is tried first. -/
def firstLayout (id : Option FourCC) (bytes : Bytes) (start : Nat) : EntryLayout :=
  match id with
  | some id => if id.announcesLongEntries then .long else .short
  | none => guessLayout bytes start

theorem parse_encode_nil (id : Option FourCC) : parse id (encode layout []) = .ok [] := rfl

/-- How an encoded chunk is read. -/
theorem parse_encode (id : Option FourCC) (nonempty : es ≠ [])
    (fits : (encode layout es).length ≤ 2 ^ 32) :
    parse id (encode layout es) =
      let first := firstLayout id (encode layout es) signatureHeaderSize
      match parseEntries first (encode layout es) es.length signatureHeaderSize with
      | .ok entries => .ok entries
      | .error inFirst =>
        match parseEntries first.other (encode layout es) es.length signatureHeaderSize with
        | .ok entries => .ok entries
        | .error inSecond => .error (.noLayoutFits first inFirst inSecond) := by
  obtain ⟨count, start, count_⟩ := table_header fits
  have some_ : es.length ≠ 0 := fun none_ => nonempty (List.length_eq_zero_iff.1 none_)
  unfold parse
  rw [count, start]
  dsimp only
  rw [count_, if_neg some_, if_neg (by decide)]
  rfl

/-- A short chunk is read back, whichever layout is tried first. -/
theorem parse_short (id : Option FourCC) (free : ∀ e ∈ es, '\x00' ∉ e.name.toList)
    (small : ∀ e ∈ es, e.stream < 256) (fits : (encode .short es).length ≤ 2 ^ 32) :
    parse id (encode .short es) = .ok es := by
  rcases eq_or_ne es [] with rfl | nonempty
  · exact parse_encode_nil id
  have read := parseEntries_eq_ok free fits fun _ => small
  rw [parse_encode id nonempty fits]
  dsimp only
  cases firstLayout id (encode .short es) signatureHeaderSize with
  | short => rw [read]
  | long =>
    obtain ⟨fault, failed⟩ := parseEntries_long_of_short nonempty fits
    rw [failed, EntryLayout.other, read]

/-- A long chunk is read back when the long layout is tried first. -/
theorem parse_long (id : Option FourCC) (free : ∀ e ∈ es, '\x00' ∉ e.name.toList)
    (fits : (encode .long es).length ≤ 2 ^ 32)
    (first : es ≠ [] → firstLayout id (encode .long es) signatureHeaderSize = .long) :
    parse id (encode .long es) = .ok es := by
  rcases eq_or_ne es [] with rfl | nonempty
  · exact parse_encode_nil id
  rw [parse_encode id nonempty fits]
  dsimp only
  rw [first nonempty, parseEntries_eq_ok free fits nofun]

/-- A long chunk looks like one when the first stream is small. -/
theorem guessLayout_long (low : ∀ e ∈ es.head?, e.stream ≤ 3) (nonempty : es ≠ []) :
    guessLayout (encode .long es) signatureHeaderSize = .long := by
  obtain ⟨e, rest, rfl⟩ := List.exists_cons_of_ne_nil nonempty
  have row := has_row .long (List.nil_append (e :: rest)).symm
  rw [List.length_nil, Nat.zero_mul] at row
  obtain ⟨stream, precision⟩ := has_stream row
  rw [Nat.add_zero] at stream precision
  rw [guessLayout, stream, precision]
  exact if_pos ⟨low e rfl, by decide⟩

end SignatureChunk

namespace FourCC

/-- The two spellings of a pair lead to each other. -/
theorem alternateSpelling?_spellings : ∀ spellings ∈ signatureSpellings,
    alternateSpelling? spellings.1 = some spellings.2 ∧
      alternateSpelling? spellings.2 = some spellings.1 := by
  decide

theorem announcesLongEntries_spellings : ∀ spellings ∈ signatureSpellings,
    announcesLongEntries spellings.2 = true := by
  decide

end FourCC

namespace Container

variable {c : Container} {spellings : FourCC × FourCC} {stored : Chunk} {es : List SignatureEntry}

/-- The container stores a chunk under one of two spellings and none but it under either. -/
structure Stores (c : Container) (spellings : FourCC × FourCC) (stored : Chunk) : Prop where
  mem : stored ∈ c.chunks
  spelled : stored.id = spellings.1 ∨ stored.id = spellings.2
  alone : ∀ chunk ∈ c.chunks, chunk.id = spellings.1 ∨ chunk.id = spellings.2 → chunk = stored

theorem signatureUnder?_of_absent {id : FourCC} (absent : ∀ chunk ∈ c.chunks, chunk.id ≠ id) :
    c.signatureUnder? id = none := by
  have none_ : c.chunks.filter (·.id = id) = [] := by
    rw [List.filter_eq_nil_iff]
    exact fun chunk mem => by simpa using absent chunk mem
  rw [signatureUnder?, none_]
  rfl

/-- What is stored is found under its own spelling. -/
theorem Stores.signatureUnder? (h : c.Stores spellings stored)
    (read : SignatureChunk.parse (some stored.id) stored.payload = .ok es) :
    c.signatureUnder? stored.id = some (.ok es) := by
  have parsed (chunk : Chunk) (mem : chunk ∈ c.chunks.filter (·.id = stored.id)) :
      SignatureChunk.parse (some stored.id) chunk.payload = .ok es := by
    obtain ⟨mem, is⟩ := List.mem_filter.1 mem
    rw [h.alone chunk mem (of_decide_eq_true is ▸ h.spelled), read]
  have found : stored ∈ c.chunks.filter (·.id = stored.id) :=
    List.mem_filter.2 ⟨h.mem, decide_eq_true rfl⟩
  obtain ⟨first, rest, all⟩ := List.exists_cons_of_ne_nil (List.ne_nil_of_mem found)
  rw [all] at parsed
  rw [Container.signatureUnder?, all, List.map_cons, parsed first List.mem_cons_self]
  rfl

/-- It is found under either spelling. -/
theorem Stores.signature? (h : c.Stores spellings stored)
    (known : spellings ∈ FourCC.signatureSpellings)
    (read : SignatureChunk.parse (some stored.id) stored.payload = .ok es) {requested : FourCC}
    (is : requested = spellings.1 ∨ requested = spellings.2) :
    c.signature? requested = some (.ok es) := by
  unfold Container.signature?
  by_cases exact_ : requested = stored.id
  · rw [exact_, h.signatureUnder? read]
  have absent : c.signatureUnder? requested = none :=
    signatureUnder?_of_absent fun chunk mem same =>
      exact_ (same.symm.trans (congrArg Chunk.id (h.alone chunk mem (same ▸ is))))
  have other : requested.alternateSpelling? = some stored.id := by
    obtain ⟨toLong, toShort⟩ := FourCC.alternateSpelling?_spellings spellings known
    rcases is with is | is <;> rcases h.spelled with stored_ | stored_
    · exact absurd (is.trans stored_.symm) exact_
    · rw [is, stored_, toLong]
    · rw [is, stored_, toShort]
    · exact absurd (is.trans stored_.symm) exact_
  dsimp only
  rw [absent, other, Option.bind_some, h.signatureUnder? read]

/-- A signature is read back from what was written for it: from a short chunk without an
identifier and under any spelling, from a long chunk under the spelling that announces it, and
without an identifier when the first entry's stream is small. -/
theorem signature_roundTrip (es : List SignatureEntry) (free : ∀ e ∈ es, '\x00' ∉ e.name.toList) :
    ((∀ e ∈ es, e.stream < 256) → (SignatureChunk.encode .short es).length ≤ 2 ^ 32 →
      SignatureChunk.parse none (SignatureChunk.encode .short es) = .ok es ∧
      ∀ spellings ∈ FourCC.signatureSpellings, ∀ id ∈ [spellings.1, spellings.2],
        ∀ requested ∈ [spellings.1, spellings.2], ∀ c : Container,
        c.Stores spellings ⟨id, SignatureChunk.encode .short es⟩ →
          c.signature? requested = some (.ok es)) ∧
    ((SignatureChunk.encode .long es).length ≤ 2 ^ 32 →
      (∀ spellings ∈ FourCC.signatureSpellings, ∀ requested ∈ [spellings.1, spellings.2],
        ∀ c : Container, c.Stores spellings ⟨spellings.2, SignatureChunk.encode .long es⟩ →
          c.signature? requested = some (.ok es)) ∧
      ((∀ e ∈ es.head?, e.stream ≤ 3) →
        SignatureChunk.parse none (SignatureChunk.encode .long es) = .ok es)) := by
  have either {spellings : FourCC × FourCC} {requested : FourCC}
      (mem : requested ∈ [spellings.1, spellings.2]) :
      requested = spellings.1 ∨ requested = spellings.2 := by simpa using mem
  refine ⟨fun small fits => ⟨SignatureChunk.parse_short _ free small fits, ?_⟩,
    fun fits => ⟨?_, fun low => ?_⟩⟩
  · intro spellings known id _ requested mem c stores
    exact stores.signature? known (SignatureChunk.parse_short _ free small fits) (either mem)
  · intro spellings known requested mem c stores
    refine stores.signature? known (SignatureChunk.parse_long _ free fits fun _ => ?_) (either mem)
    exact if_pos (FourCC.announcesLongEntries_spellings spellings known)
  · exact SignatureChunk.parse_long _ free fits (SignatureChunk.guessLayout_long low)

/-- A position, and a value that goes to the last stream. -/
def streamedSignature : List SignatureEntry :=
  [.tagged "SV_Position" 1 0 0xf, { SignatureEntry.user "COLOR" 1 0x7 with stream := 3 }]

theorem signature_roundTrip_streamed :
    SignatureChunk.parse none (SignatureChunk.encode .short streamedSignature) =
      .ok streamedSignature ∧
      SignatureChunk.parse none (SignatureChunk.encode .long streamedSignature) =
        .ok streamedSignature ∧
      (⟨[], 0, 1, [⟨.isgn, SignatureChunk.encode .short streamedSignature⟩]⟩ : Container).signature?
        (.ofChars 'I' 'S' 'G' '1') = some (.ok streamedSignature) := by
  obtain ⟨short, long⟩ := signature_roundTrip streamedSignature (by decide +kernel)
  obtain ⟨unnamed, stored⟩ := short (by decide) (by decide +kernel)
  refine ⟨unnamed, (long (by decide +kernel)).2 (by decide), ?_⟩
  refine stored (.isgn, .ofChars 'I' 'S' 'G' '1') (by decide) .isgn (by decide) _ (by decide) _
    ⟨List.mem_singleton.2 rfl, .inl rfl, fun chunk mem _ => List.mem_singleton.1 mem⟩

end Container

end ShaderLowering
