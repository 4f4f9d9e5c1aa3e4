import ShaderLowering.Proofs.Container.RoundTrip
import ShaderLowering.Proofs.Container.SignatureRoundTrip

/-!
Which of several signature chunks a look-up takes. A container may hold many chunks under either
spelling of an identifier, and any of them may be malformed. Parsable chunks go before malformed
ones, the spelling asked for goes before the other, and chunks in front go before chunks behind; so
malformed chunks, wherever they stand, do not change a signature that is found.
-/

namespace ShaderLowering

namespace Chunk

/-- The payload is no signature in the layouts that may stand under the identifier. -/
def Malformed (chunk : Chunk) : Prop :=
  ∃ fault, SignatureChunk.parse chunk.id chunk.payload = .error fault

theorem malformed_or_parses (chunk : Chunk) :
    chunk.Malformed ∨ ∃ entries, SignatureChunk.parse chunk.id chunk.payload = .ok entries := by
  unfold Malformed
  cases SignatureChunk.parse chunk.id chunk.payload with
  | error fault => exact .inl ⟨fault, rfl⟩
  | ok entries => exact .inr ⟨entries, rfl⟩

end Chunk

namespace Container

variable {c : Container} {chunks padded : List Chunk} {chunk : Chunk} {id : FourCC}
  {entries : List SignatureEntry} {e : ContainerError}

/-- No chunk under the identifier parses. There may be none at all. -/
def NoneParses (chunks : List Chunk) (id : FourCC) : Prop :=
  ∀ chunk ∈ chunks, chunk.id = id → chunk.Malformed

/-- The entries are those of the first chunk under the identifier that parses. -/
def FirstParse (chunks : List Chunk) (id : FourCC) (entries : List SignatureEntry) : Prop :=
  ∃ before chunk after, chunks = before ++ chunk :: after ∧ chunk.id = id ∧
    SignatureChunk.parse chunk.id chunk.payload = .ok entries ∧ NoneParses before id

/-- The error is that of the first chunk under the identifier, told with the identifier. -/
def FirstError (chunks : List Chunk) (id : FourCC) (e : ContainerError) : Prop :=
  ∃ chunk fault, IsFirst chunks id (some chunk) ∧
    SignatureChunk.parse chunk.id chunk.payload = .error fault ∧ e = .signatureOf id fault

theorem noneParses_cons :
    NoneParses (chunk :: chunks) id ↔ (chunk.id = id → chunk.Malformed) ∧ NoneParses chunks id :=
  List.forall_mem_cons

theorem FirstParse.head (is : chunk.id = id)
    (parsed : SignatureChunk.parse chunk.id chunk.payload = .ok entries) :
    FirstParse (chunk :: chunks) id entries :=
  ⟨[], chunk, chunks, rfl, is, parsed, fun _ mem => nomatch mem⟩

theorem FirstParse.tail (passed : chunk.id = id → chunk.Malformed)
    (first : FirstParse chunks id entries) : FirstParse (chunk :: chunks) id entries := by
  obtain ⟨before, found, after, rfl, is, parsed, others⟩ := first
  exact ⟨chunk :: before, found, after, rfl, is, parsed, noneParses_cons.2 ⟨passed, others⟩⟩

theorem firstParse_cons :
    FirstParse (chunk :: chunks) id entries ↔
      (chunk.id = id ∧ SignatureChunk.parse chunk.id chunk.payload = .ok entries) ∨
        (chunk.id = id → chunk.Malformed) ∧ FirstParse chunks id entries := by
  refine ⟨?_, fun one => one.elim (fun head => .head head.1 head.2) fun tail => tail.2.tail tail.1⟩
  rintro ⟨before, found, after, split, is, parsed, others⟩
  cases before with
  | nil =>
    cases split
    exact .inl ⟨is, parsed⟩
  | cons first before =>
    cases split
    obtain ⟨passed, others⟩ := noneParses_cons.1 others
    exact .inr ⟨passed, before, found, after, rfl, is, parsed, others⟩

/-- Either no chunk under an identifier parses or one of them is the first that does. -/
theorem noneParses_or_firstParse (chunks : List Chunk) (id : FourCC) :
    NoneParses chunks id ∨ ∃ entries, FirstParse chunks id entries := by
  induction chunks with
  | nil => exact .inl fun _ mem => nomatch mem
  | cons chunk chunks ih =>
    by_cases is : chunk.id = id
    · rcases chunk.malformed_or_parses with malformed | ⟨entries, parsed⟩
      · exact ih.imp (fun none => noneParses_cons.2 ⟨fun _ => malformed, none⟩)
          fun ⟨entries, first⟩ => ⟨entries, first.tail fun _ => malformed⟩
      · exact .inr ⟨entries, .head is parsed⟩
    · exact ih.imp (fun none => noneParses_cons.2 ⟨fun same => absurd same is, none⟩)
        fun ⟨entries, first⟩ => ⟨entries, first.tail fun same => absurd same is⟩

theorem FirstParse.not_noneParses (first : FirstParse chunks id entries) :
    ¬NoneParses chunks id := by
  intro none
  obtain ⟨before, found, after, rfl, is, parsed, _⟩ := first
  obtain ⟨fault, failed⟩ := none found (by simp) is
  cases parsed.symm.trans failed

/-- Where no chunk parses, either none is there or the first of them has an error. -/
theorem NoneParses.absent_or_error (none : NoneParses chunks id) :
    IsFirst chunks id .none ∨ ∃ e, FirstError chunks id e := by
  induction chunks with
  | nil => exact .inl fun _ mem => nomatch mem
  | cons chunk chunks ih =>
    obtain ⟨here, behind⟩ := noneParses_cons.1 none
    by_cases is : chunk.id = id
    · obtain ⟨fault, failed⟩ := here is
      exact .inr ⟨_, chunk, fault, ⟨[], chunks, rfl, is, fun _ mem => nomatch mem⟩, failed, rfl⟩
    · rcases ih behind with absent | ⟨e, first, fault, ⟨before, after, rfl, same, others⟩, failed⟩
      · exact .inl (List.forall_mem_cons.2 ⟨is, absent⟩)
      · exact .inr ⟨e, first, fault,
          ⟨chunk :: before, after, rfl, same, List.forall_mem_cons.2 ⟨is, others⟩⟩, failed⟩

/-- What the chunks under an identifier parse to, in order. -/
def parses (chunks : List Chunk) (id : FourCC) :
    List (Except SignatureFault (List SignatureEntry)) :=
  (chunks.filter (·.id = id)).map fun chunk => SignatureChunk.parse id chunk.payload

theorem toOption_of_noneParses (none : NoneParses chunks id) :
    (parses chunks id).findSome? Except.toOption = .none := by
  refine List.findSome?_eq_none_iff.2 fun parsed mem => ?_
  obtain ⟨chunk, listed, rfl⟩ := List.mem_map.1 mem
  obtain ⟨there, is⟩ := List.mem_filter.1 listed
  obtain rfl : chunk.id = id := by simpa using is
  obtain ⟨fault, failed⟩ := none chunk there rfl
  rw [failed]
  rfl

theorem toOption_of_firstParse (first : FirstParse chunks id entries) :
    (parses chunks id).findSome? Except.toOption = some entries := by
  obtain ⟨before, found, after, rfl, rfl, parsed, others⟩ := first
  have apart : parses (before ++ found :: after) found.id =
      parses before found.id ++ .ok entries :: parses after found.id := by
    simp [parses, parsed]
  rw [apart, List.findSome?_append, toOption_of_noneParses others, Option.none_or,
    List.findSome?_cons_of_isSome] <;> rfl

theorem head?_of_firstError {before after : List Chunk} (others : ∀ d ∈ before, d.id ≠ chunk.id) :
    (parses (before ++ chunk :: after) chunk.id).head? =
      some (SignatureChunk.parse chunk.id chunk.payload) := by
  have skipped : before.filter (·.id = chunk.id) = [] :=
    List.filter_eq_nil_iff.2 fun d mem => by simpa using others d mem
  simp [parses, skipped]

theorem signatureUnder?_of_firstParse (first : FirstParse c.chunks id entries) :
    c.signatureUnder? id = some (.ok entries) := by
  rw [signatureUnder?, ← parses, toOption_of_firstParse first]

theorem signatureUnder?_of_firstError (none : NoneParses c.chunks id)
    (first : FirstError c.chunks id e) : c.signatureUnder? id = some (.error e) := by
  rw [signatureUnder?, ← parses, toOption_of_noneParses none]
  obtain ⟨chunk, fault, ⟨before, after, split, rfl, others⟩, failed, rfl⟩ := first
  rw [split, head?_of_firstError others, failed]

/-- The three cases of a look-up under one spelling. -/
theorem signatureUnder?_cases (c : Container) (id : FourCC) :
    (∃ entries, FirstParse c.chunks id entries ∧ c.signatureUnder? id = some (.ok entries)) ∨
    (NoneParses c.chunks id ∧ ∃ e, FirstError c.chunks id e ∧
      c.signatureUnder? id = some (.error e)) ∨
    (IsFirst c.chunks id none ∧ c.signatureUnder? id = none) := by
  rcases noneParses_or_firstParse c.chunks id with none | ⟨entries, first⟩
  · rcases none.absent_or_error with absent | ⟨e, first⟩
    · exact .inr (.inr ⟨absent, signatureUnder?_of_absent absent⟩)
    · exact .inr (.inl ⟨none, e, first, signatureUnder?_of_firstError none first⟩)
  · exact .inl ⟨entries, first, signatureUnder?_of_firstParse first⟩

theorem noneParses_of_absent (absent : IsFirst chunks id none) : NoneParses chunks id :=
  fun chunk mem is => absurd is (absent chunk mem)

theorem signatureUnder?_eq_ok :
    c.signatureUnder? id = some (.ok entries) ↔ FirstParse c.chunks id entries := by
  refine ⟨fun found => ?_, signatureUnder?_of_firstParse⟩
  rcases c.signatureUnder?_cases id with ⟨others, first, is⟩ | ⟨_, e, _, is⟩ | ⟨_, is⟩
  · cases found.symm.trans is
    exact first
  · cases found.symm.trans is
  · cases found.symm.trans is

theorem signatureUnder?_eq_error :
    c.signatureUnder? id = some (.error e) ↔
      NoneParses c.chunks id ∧ FirstError c.chunks id e := by
  refine ⟨fun found => ?_, fun one => signatureUnder?_of_firstError one.1 one.2⟩
  rcases c.signatureUnder?_cases id with ⟨others, _, is⟩ | ⟨none, e, first, is⟩ | ⟨_, is⟩
  · cases found.symm.trans is
  · cases found.symm.trans is
    exact ⟨none, first⟩
  · cases found.symm.trans is

theorem signatureUnder?_eq_none :
    c.signatureUnder? id = none ↔ IsFirst c.chunks id none := by
  refine ⟨fun found => ?_, signatureUnder?_of_absent⟩
  rcases c.signatureUnder?_cases id with ⟨entries, _, is⟩ | ⟨_, e, _, is⟩ | ⟨absent, _⟩
  · cases found.symm.trans is
  · cases found.symm.trans is
  · exact absent

/-- No chunk under the other spelling of an identifier parses, if it has another spelling. -/
def OtherNoneParses (chunks : List Chunk) (id : FourCC) : Prop :=
  ∀ other, id.alternateSpelling? = some other → NoneParses chunks other

/-- What the look-up under the other spelling finds. -/
def fallback? (c : Container) (id : FourCC) :
    Option (Except ContainerError (List SignatureEntry)) :=
  id.alternateSpelling?.bind c.signatureUnder?

theorem fallback?_eq_ok :
    c.fallback? id = some (.ok entries) ↔
      ∃ other, id.alternateSpelling? = some other ∧ FirstParse c.chunks other entries := by
  simp only [fallback?, Option.bind_eq_some_iff, signatureUnder?_eq_ok]

theorem fallback?_eq_error :
    c.fallback? id = some (.error e) ↔
      ∃ other, id.alternateSpelling? = some other ∧ NoneParses c.chunks other ∧
        FirstError c.chunks other e := by
  simp only [fallback?, Option.bind_eq_some_iff, signatureUnder?_eq_error]

theorem fallback?_eq_none :
    c.fallback? id = none ↔
      ∀ other, id.alternateSpelling? = some other → IsFirst c.chunks other none := by
  simp only [fallback?, Option.bind_eq_none_iff, signatureUnder?_eq_none]

theorem otherNoneParses_iff :
    OtherNoneParses c.chunks id ↔ ∀ entries, c.fallback? id ≠ some (.ok entries) := by
  refine ⟨fun none entries found => ?_, fun unfound other is => ?_⟩
  · obtain ⟨other, is, first⟩ := fallback?_eq_ok.1 found
    exact first.not_noneParses (none other is)
  · rcases noneParses_or_firstParse c.chunks other with none | ⟨entries, first⟩
    · exact none
    · exact absurd (fallback?_eq_ok.2 ⟨other, is, first⟩) (unfound entries)

theorem noneParses_iff :
    NoneParses c.chunks id ↔ ∀ entries, c.signatureUnder? id ≠ some (.ok entries) := by
  refine ⟨fun none entries found => (signatureUnder?_eq_ok.1 found).not_noneParses none,
    fun unfound => ?_⟩
  rcases noneParses_or_firstParse c.chunks id with none | ⟨entries, first⟩
  · exact none
  · exact absurd (signatureUnder?_eq_ok.2 first) (unfound entries)

theorem signature?_eq_ok :
    c.signature? id = some (.ok entries) ↔
      FirstParse c.chunks id entries ∨ NoneParses c.chunks id ∧
        ∃ other, id.alternateSpelling? = some other ∧ FirstParse c.chunks other entries := by
  rw [← signatureUnder?_eq_ok, noneParses_iff, ← fallback?_eq_ok, signature?, ← fallback?]
  rcases c.signatureUnder? id with _ | _ | _ <;> rcases c.fallback? id with _ | _ | _ <;> simp

theorem signature?_eq_error_iff :
    c.signature? id = some (.error e) ↔
      c.signatureUnder? id = some (.error e) ∧ OtherNoneParses c.chunks id ∨
        c.signatureUnder? id = none ∧ c.fallback? id = some (.error e) := by
  rw [otherNoneParses_iff, signature?, ← fallback?]
  rcases c.signatureUnder? id with _ | _ | _ <;> rcases c.fallback? id with _ | _ | _ <;> simp

theorem signature?_eq_error :
    c.signature? id = some (.error e) ↔
      NoneParses c.chunks id ∧ OtherNoneParses c.chunks id ∧
        (FirstError c.chunks id e ∨ IsFirst c.chunks id none ∧
          ∃ other, id.alternateSpelling? = some other ∧ FirstError c.chunks other e) := by
  rw [signature?_eq_error_iff, signatureUnder?_eq_error, signatureUnder?_eq_none,
    fallback?_eq_error]
  constructor
  · rintro (⟨⟨none, first⟩, others⟩ | ⟨absent, other, is, none, first⟩)
    · exact ⟨none, others, .inl first⟩
    · refine ⟨noneParses_of_absent absent, fun _ same => ?_, .inr ⟨absent, other, is, first⟩⟩
      cases is.symm.trans same
      exact none
  · rintro ⟨none, others, first | ⟨absent, other, is, first⟩⟩
    · exact .inl ⟨⟨none, first⟩, others⟩
    · exact .inr ⟨absent, other, is, others other is, first⟩

theorem signature?_eq_none :
    c.signature? id = none ↔ IsFirst c.chunks id none ∧
      ∀ other, id.alternateSpelling? = some other → IsFirst c.chunks other none := by
  rw [← signatureUnder?_eq_none, ← fallback?_eq_none, signature?, ← fallback?]
  rcases c.signatureUnder? id with _ | _ | _ <;> rcases c.fallback? id with _ | _ | _ <;> simp

/-- The second list is the first with malformed chunks, under either spelling of the identifier,
put in anywhere. -/
inductive Padded (id : FourCC) : List Chunk → List Chunk → Prop
  | nil : Padded id [] []
  | keep (chunk : Chunk) {chunks padded : List Chunk} (rest : Padded id chunks padded) :
    Padded id (chunk :: chunks) (chunk :: padded)
  | insert {chunk : Chunk} {chunks padded : List Chunk} (malformed : chunk.Malformed)
    (spelled : chunk.id = id ∨ id.alternateSpelling? = some chunk.id)
    (rest : Padded id chunks padded) : Padded id chunks (chunk :: padded)

namespace Padded

variable {spelling : FourCC}

theorem noneParses (pads : Padded id chunks padded) (none : NoneParses chunks spelling) :
    NoneParses padded spelling := by
  induction pads with
  | nil => exact none
  | keep chunk _ ih =>
    obtain ⟨here, behind⟩ := noneParses_cons.1 none
    exact noneParses_cons.2 ⟨here, ih behind⟩
  | insert malformed _ _ ih => exact noneParses_cons.2 ⟨fun _ => malformed, ih none⟩

theorem firstParse (pads : Padded id chunks padded) (first : FirstParse chunks spelling entries) :
    FirstParse padded spelling entries := by
  induction pads with
  | nil => exact first
  | keep chunk _ ih =>
    rcases firstParse_cons.1 first with ⟨is, parsed⟩ | ⟨passed, behind⟩
    · exact .head is parsed
    · exact (ih behind).tail passed
  | insert malformed _ _ ih => exact (ih first).tail fun _ => malformed

end Padded

/-- What a look-up gives. The first parsable chunk under the identifier wins, then the first under
its other spelling; without any, the error of the first chunk under the identifier or else of the
first under the other spelling; nothing only where neither is there. So a signature that is found
is found as well with malformed chunks in between. -/
theorem signature?_selects (c : Container) (id : FourCC) :
    (∀ entries, c.signature? id = some (.ok entries) ↔
      FirstParse c.chunks id entries ∨ NoneParses c.chunks id ∧
        ∃ other, id.alternateSpelling? = some other ∧ FirstParse c.chunks other entries) ∧
    (∀ e, c.signature? id = some (.error e) ↔
      NoneParses c.chunks id ∧ OtherNoneParses c.chunks id ∧
        (FirstError c.chunks id e ∨ IsFirst c.chunks id none ∧
          ∃ other, id.alternateSpelling? = some other ∧ FirstError c.chunks other e)) ∧
    (c.signature? id = none ↔ IsFirst c.chunks id none ∧
      ∀ other, id.alternateSpelling? = some other → IsFirst c.chunks other none) ∧
    ∀ (d : Container) (entries : List SignatureEntry), Padded id c.chunks d.chunks →
      c.signature? id = some (.ok entries) → d.signature? id = some (.ok entries) := by
  refine ⟨fun _ => signature?_eq_ok, fun _ => signature?_eq_error, signature?_eq_none,
    fun d entries pads found => ?_⟩
  rcases signature?_eq_ok.1 found with first | ⟨none, other, is, first⟩
  · exact signature?_eq_ok.2 (.inl (pads.firstParse first))
  · exact signature?_eq_ok.2 (.inr ⟨pads.noneParses none, other, is, pads.firstParse first⟩)

/-- A signature under the longer spelling only, and the same between two malformed chunks. -/
def lateSignature : List Chunk :=
  [⟨.ofChars 'I' 'S' 'G' '1', SignatureChunk.encode .long [.user "A" 3 7]⟩]

def paddedSignature : List Chunk :=
  ⟨.isgn, []⟩ :: ⟨.ofChars 'I' 'S' 'G' '1', [1]⟩ :: lateSignature ++ [⟨.isgn, [2]⟩]

theorem malformed_of_short {id : FourCC} {payload : Bytes} (short : payload.length < 4) :
    Chunk.Malformed ⟨id, payload⟩ := by
  refine ⟨.headerTruncated payload.length, ?_⟩
  simp only [SignatureChunk.parse, Bytes.word?_eq_none (show payload.length < 0 + 4 by omega)]

theorem signature?_selects_paddedSignature :
    Padded .isgn lateSignature paddedSignature ∧
      Container.signature? ⟨[], 0, 0, lateSignature⟩ .isgn = some (.ok [.user "A" 3 7]) ∧
      Container.signature? ⟨[], 0, 0, paddedSignature⟩ .isgn = some (.ok [.user "A" 3 7]) := by
  have pads : Padded .isgn lateSignature paddedSignature :=
    .insert (malformed_of_short (by decide)) (.inl rfl)
      (.insert (malformed_of_short (by decide)) (.inr (by decide))
        (.keep _ (.insert (malformed_of_short (by decide)) (.inl rfl) .nil)))
  have found : Container.signature? ⟨[], 0, 0, lateSignature⟩ .isgn =
      some (.ok [.user "A" 3 7]) := by
    have parsed : SignatureChunk.parse (some (.ofChars 'I' 'S' 'G' '1'))
        (SignatureChunk.encode .long [.user "A" 3 7]) = .ok [.user "A" 3 7] :=
      SignatureChunk.parse_long _ (by decide +kernel) (by decide +kernel) fun _ => rfl
    have absent : IsFirst lateSignature .isgn none :=
      List.forall_mem_singleton.2 (by decide)
    exact signature?_eq_ok.2 (.inr ⟨noneParses_of_absent absent, _, rfl, .head rfl parsed⟩)
  exact ⟨pads, found, (signature?_selects _ .isgn).2.2.2 ⟨[], 0, 0, paddedSignature⟩ _ pads found⟩

end Container

end ShaderLowering
