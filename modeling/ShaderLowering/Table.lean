/-!
Tables with word keys. A table is an association list with increasing keys, so its entries come
out the same however they went in. `find?_insert` says what an insertion changes.
-/

namespace ShaderLowering

structure Table (α : Type) where
  entries : List (UInt32 × α)
  /-- Keys increase, so none comes twice. -/
  increasing : (entries.map (·.1)).Pairwise (· < ·)
deriving Repr

namespace Table

variable {α : Type}

def empty : Table α := ⟨[], .nil⟩

instance : Inhabited (Table α) := ⟨empty⟩

/-- The value of the first entry with a key. -/
def findIn (key : UInt32) : List (UInt32 × α) → Option α
  | [] => none
  | (k, a) :: rest => if k = key then some a else findIn key rest

@[simp] theorem findIn_nil (key : UInt32) : findIn key ([] : List (UInt32 × α)) = none := rfl

theorem findIn_cons (key k : UInt32) (a : α) (rest : List (UInt32 × α)) :
    findIn key ((k, a) :: rest) = if k = key then some a else findIn key rest := rfl

def find? (t : Table α) (key : UInt32) : Option α :=
  findIn key t.entries

def contains (t : Table α) (key : UInt32) : Bool :=
  (t.find? key).isSome

/-- Puts an entry in front of the first greater key, in place of one with the same key. -/
def insertIn (key : UInt32) (a : α) : List (UInt32 × α) → List (UInt32 × α)
  | [] => [(key, a)]
  | (k, b) :: rest =>
    if key < k then (key, a) :: (k, b) :: rest
    else if k = key then (key, a) :: rest
    else (k, b) :: insertIn key a rest

@[simp] theorem insertIn_nil (key : UInt32) (a : α) : insertIn key a [] = [(key, a)] := rfl

theorem insertIn_cons (key k : UInt32) (a b : α) (rest : List (UInt32 × α)) :
    insertIn key a ((k, b) :: rest) =
      if key < k then (key, a) :: (k, b) :: rest
      else if k = key then (key, a) :: rest
      else (k, b) :: insertIn key a rest := rfl

theorem mem_keys_insertIn {key k : UInt32} {a : α} {l : List (UInt32 × α)} :
    k ∈ (insertIn key a l).map (·.1) ↔ k = key ∨ k ∈ l.map (·.1) := by
  induction l with
  | nil => simp
  | cons e rest ih =>
    obtain ⟨head, b⟩ := e
    by_cases hlt : key < head
    · simp [insertIn_cons, hlt]
    · by_cases heq : head = key
      · subst heq
        simp [insertIn_cons]
      · simp only [insertIn_cons, hlt, heq, if_false, List.map_cons, List.mem_cons, ih]
        exact or_left_comm

theorem increasing_insertIn {key : UInt32} {a : α} {l : List (UInt32 × α)}
    (h : (l.map (·.1)).Pairwise (· < ·)) : ((insertIn key a l).map (·.1)).Pairwise (· < ·) := by
  induction l with
  | nil => simp
  | cons e rest ih =>
    obtain ⟨head, b⟩ := e
    obtain ⟨hhead, hrest⟩ := List.pairwise_cons.1 h
    by_cases hlt : key < head
    · simp only [insertIn_cons, hlt, if_true, List.map_cons]
      refine List.pairwise_cons.2 ⟨fun k hk => ?_, h⟩
      rcases List.mem_cons.1 hk with rfl | hk
      · exact hlt
      · exact UInt32.lt_trans hlt (hhead k hk)
    · by_cases heq : head = key
      · subst heq
        simp only [insertIn_cons, hlt, if_false, if_true]
        exact List.pairwise_cons.2 ⟨hhead, hrest⟩
      · simp only [insertIn_cons, hlt, heq, if_false, List.map_cons]
        refine List.pairwise_cons.2 ⟨fun k hk => ?_, ih hrest⟩
        rcases mem_keys_insertIn.1 hk with rfl | hk
        · exact UInt32.lt_of_le_of_ne (UInt32.not_lt.1 hlt) heq
        · exact hhead k hk

/-- Sets the value at a key. -/
def insert (t : Table α) (key : UInt32) (a : α) : Table α :=
  ⟨insertIn key a t.entries, increasing_insertIn t.increasing⟩

/-- Keys in increasing order. -/
def keys (t : Table α) : List UInt32 :=
  t.entries.map (·.1)

/-- Values in the order of their keys. -/
def values (t : Table α) : List α :=
  t.entries.map (·.2)

theorem findIn_insertIn_self (key : UInt32) (a : α) (l : List (UInt32 × α)) :
    findIn key (insertIn key a l) = some a := by
  induction l with
  | nil => simp [findIn_cons]
  | cons e rest ih =>
    obtain ⟨k, b⟩ := e
    by_cases h : key < k
    · simp [insertIn_cons, h, findIn_cons]
    · by_cases hk : k = key
      · simp [insertIn_cons, hk, findIn_cons]
      · simp [insertIn_cons, h, hk, findIn_cons, ih]

theorem findIn_insertIn_of_ne {key other : UInt32} (h : other ≠ key) (a : α)
    (l : List (UInt32 × α)) : findIn other (insertIn key a l) = findIn other l := by
  induction l with
  | nil => simp [findIn_cons, h.symm]
  | cons e rest ih =>
    obtain ⟨k, b⟩ := e
    by_cases hlt : key < k
    · simp [insertIn_cons, hlt, findIn_cons, h.symm]
    · by_cases hk : k = key
      · simp [insertIn_cons, hk, findIn_cons, h.symm]
      · simp [insertIn_cons, hlt, hk, findIn_cons, ih]

@[simp] theorem find?_empty (key : UInt32) : (empty : Table α).find? key = none := rfl

/-- An insertion changes the value at its own key and at no other. -/
theorem find?_insert (t : Table α) (key other : UInt32) (a : α) :
    (t.insert key a).find? other = if other = key then some a else t.find? other := by
  by_cases h : other = key
  · subst h
    simp [insert, find?, findIn_insertIn_self]
  · simp [insert, find?, findIn_insertIn_of_ne h, h]

end Table

end ShaderLowering
