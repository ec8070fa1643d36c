/-!
# Sorted maps — finite maps kept in key order

A `SortedMap` is its list of entries, strictly increasing by key. The order is part of the type, so
two maps with the same look-ups are equal (`SortedMap.ext_get?`), whatever the history of
insertions, and listing a map is listing its entries.

* `insert` replaces or adds one entry, `get?` looks one up: `get?_insert`.
* `ofList` takes entries in any order; a listing of a map gives the map back: `ofList_entries`.
* `filter` keeps the entries that pass a test, and `erase` drops one key: `get?_erase`.
* `NameSet` is a set of names, a map without values.
-/

namespace CircuitBlocks

/-! ## Entry lists -/

namespace SortedMap

section Entries

variable {κ : Type} {ν : Type} [LT κ] [DecidableLT κ] [DecidableEq κ]

/-- Puts `(k, v)` at its place in a list ordered by key, in place of an entry with the same key. -/
def insertEntry (k : κ) (v : ν) : List (κ × ν) → List (κ × ν)
  | [] => [(k, v)]
  | (k', v') :: rest =>
    if k < k' then (k, v) :: (k', v') :: rest
    else if k = k' then (k, v) :: rest
    else (k', v') :: insertEntry k v rest

/-- The value of the first entry with the key. -/
def lookupEntry (k : κ) : List (κ × ν) → Option ν
  | [] => none
  | (k', v) :: rest => if k = k' then some v else lookupEntry k rest

/-- An insertion adds its own entry, and no other. -/
theorem mem_insertEntry {k : κ} {v : ν} {e : κ × ν} {l : List (κ × ν)}
    (h : e ∈ insertEntry k v l) : e = (k, v) ∨ e ∈ l := by
  induction l with
  | nil => simpa [insertEntry] using h
  | cons hd tl ih =>
    obtain ⟨k', v'⟩ := hd
    simp only [insertEntry] at h
    split at h
    · simpa using h
    · split at h
      · rcases List.mem_cons.1 h with rfl | h
        · exact .inl rfl
        · exact .inr (List.mem_cons_of_mem _ h)
      · rcases List.mem_cons.1 h with rfl | h
        · exact .inr List.mem_cons_self
        · exact (ih h).imp id (List.mem_cons_of_mem _)

/-- After an insertion its key has the new value, and the others have theirs. -/
theorem lookupEntry_insertEntry (k j : κ) (v : ν) (l : List (κ × ν)) :
    lookupEntry j (insertEntry k v l) = if j = k then some v else lookupEntry j l := by
  induction l with
  | nil => simp [insertEntry, lookupEntry]
  | cons hd tl ih =>
    obtain ⟨k', v'⟩ := hd
    simp only [insertEntry]
    split
    · simp [lookupEntry]
    · split
      · next h' => subst h'; by_cases h : j = k <;> simp [lookupEntry, h]
      · next h' =>
        by_cases h : j = k'
        · subst h; simp [lookupEntry, Ne.symm h']
        · simp [lookupEntry, h, ih]

omit [LT κ] [DecidableLT κ] in
theorem lookupEntry_filter_ne (k j : κ) (l : List (κ × ν)) :
    lookupEntry j (l.filter fun e => e.1 ≠ k) = if j = k then none else lookupEntry j l := by
  induction l with
  | nil => simp [lookupEntry]
  | cons hd tl ih =>
    obtain ⟨k', v⟩ := hd
    by_cases hk : k' = k
    · subst hk
      by_cases hj : j = k' <;> simp_all [lookupEntry]
    · by_cases hj : j = k' <;> simp_all [lookupEntry]

omit [DecidableEq κ] in
/-- Whether each key is below the next. -/
def inOrder : List (κ × ν) → Bool
  | e₁ :: e₂ :: rest => decide (e₁.1 < e₂.1) && inOrder (e₂ :: rest)
  | _ => true

variable [LE κ] [Std.IsLinearOrder κ] [Std.LawfulOrderLT κ]

omit [DecidableEq κ] in
/-- Where each key is below the next, it is below all that follow. -/
theorem inOrder_iff_pairwise {l : List (κ × ν)} :
    inOrder l = true ↔ l.Pairwise (·.1 < ·.1) := by
  induction l with
  | nil => simp [inOrder]
  | cons e₁ tl ih =>
    cases tl with
    | nil => simp [inOrder]
    | cons e₂ rest =>
      simp only [inOrder, Bool.and_eq_true, decide_eq_true_eq, ih]
      refine ⟨fun ⟨hlt, h⟩ => List.pairwise_cons.2 ⟨fun e he => ?_, h⟩, fun h => ?_⟩
      · rcases List.mem_cons.1 he with rfl | he
        · exact hlt
        · exact Std.lt_trans hlt ((List.pairwise_cons.1 h).1 e he)
      · obtain ⟨hrel, h⟩ := List.pairwise_cons.1 h
        exact ⟨hrel e₂ List.mem_cons_self, h⟩

/-- Entries stay in order when one is inserted. -/
theorem pairwise_insertEntry (k : κ) (v : ν) {l : List (κ × ν)}
    (h : l.Pairwise (·.1 < ·.1)) : (insertEntry k v l).Pairwise (·.1 < ·.1) := by
  induction l with
  | nil => simp [insertEntry]
  | cons hd tl ih =>
    obtain ⟨k', v'⟩ := hd
    simp only [insertEntry]
    obtain ⟨hrel, htl⟩ := List.pairwise_cons.1 h
    split
    · -- the new key is below the first one, and so below all
      next hlt =>
      refine List.pairwise_cons.2 ⟨fun e he => ?_, h⟩
      rcases List.mem_cons.1 he with rfl | he
      · exact hlt
      · exact Std.lt_trans hlt (hrel e he)
    · next hge =>
      split
      · next heq => subst heq; exact List.pairwise_cons.2 ⟨fun e he => hrel e he, htl⟩
      · next hne =>
        refine List.pairwise_cons.2 ⟨fun e he => ?_, ih htl⟩
        rcases mem_insertEntry he with rfl | he
        · -- it is not below the first one and not equal to it
          rcases Std.lt_trichotomy k k' with hlt | heq | hgt
          · exact absurd hlt hge
          · exact absurd heq hne
          · exact hgt
        · exact hrel e he

omit [DecidableLT κ] [Std.IsLinearOrder κ] in
/-- A key below all others is not there. -/
theorem lookupEntry_eq_none_of_lt {k : κ} {l : List (κ × ν)} (h : ∀ e ∈ l, k < e.1) :
    lookupEntry k l = none := by
  induction l with
  | nil => rfl
  | cons hd tl ih =>
    have hk : k ≠ hd.1 := fun e => Std.lt_irrefl (e ▸ h hd List.mem_cons_self)
    simp only [lookupEntry, hk, if_false]
    exact ih fun e he => h e (List.mem_cons_of_mem _ he)

omit [DecidableLT κ] in
/-- Two ordered lists with the same look-ups are the same list. -/
theorem eq_of_lookupEntry_eq {l₁ l₂ : List (κ × ν)} (h₁ : l₁.Pairwise (·.1 < ·.1))
    (h₂ : l₂.Pairwise (·.1 < ·.1)) (h : ∀ k, lookupEntry k l₁ = lookupEntry k l₂) :
    l₁ = l₂ := by
  induction l₁ generalizing l₂ with
  | nil =>
    cases l₂ with
    | nil => rfl
    | cons e l₂ => have := h e.1; simp [lookupEntry] at this
  | cons e₁ l₁ ih =>
    cases l₂ with
    | nil => have := h e₁.1; simp [lookupEntry] at this
    | cons e₂ l₂ =>
      obtain ⟨hr₁, ht₁⟩ := List.pairwise_cons.1 h₁
      obtain ⟨hr₂, ht₂⟩ := List.pairwise_cons.1 h₂
      -- the smaller of the two first keys would not be found in the other list
      have hfst : e₁.1 = e₂.1 := by
        rcases Std.lt_trichotomy e₁.1 e₂.1 with hlt | heq | hgt
        · have := h e₁.1
          rw [lookupEntry_eq_none_of_lt (l := e₂ :: l₂) fun e he => ?_] at this
          · simp [lookupEntry] at this
          · rcases List.mem_cons.1 he with rfl | he
            · exact hlt
            · exact Std.lt_trans hlt (hr₂ e he)
        · exact heq
        · have := h e₂.1
          rw [lookupEntry_eq_none_of_lt (l := e₁ :: l₁) fun e he => ?_] at this
          · simp [lookupEntry] at this
          · rcases List.mem_cons.1 he with rfl | he
            · exact hgt
            · exact Std.lt_trans hgt (hr₁ e he)
      obtain ⟨k₁, v₁⟩ := e₁
      obtain ⟨k₂, v₂⟩ := e₂
      obtain rfl : k₁ = k₂ := hfst
      have hv : v₁ = v₂ := by have := h k₁; simpa [lookupEntry] using this
      subst hv
      congr 1
      -- the first key is found in neither rest, and another key not at the front
      refine ih ht₁ ht₂ fun k => ?_
      by_cases hk : k = k₁
      · subst hk
        rw [lookupEntry_eq_none_of_lt hr₁, lookupEntry_eq_none_of_lt hr₂]
      · have := h k
        simpa [lookupEntry, hk] using this

end Entries

end SortedMap

/-! ## The type -/

/-- A finite map whose entries are listed in increasing key order. -/
structure SortedMap (κ : Type) (ν : Type) [LT κ] where
  entries : List (κ × ν)
  sorted : entries.Pairwise (·.1 < ·.1)
  deriving DecidableEq

namespace SortedMap

variable {κ : Type} {ν : Type} [LT κ]

/-- The map without entries. -/
def empty : SortedMap κ ν := ⟨[], .nil⟩

instance : EmptyCollection (SortedMap κ ν) := ⟨empty⟩

instance : Inhabited (SortedMap κ ν) := ⟨empty⟩

/-- The keys, in order. -/
def keys (m : SortedMap κ ν) : List κ := m.entries.map (·.1)

/-- The values, in key order. -/
def values (m : SortedMap κ ν) : List ν := m.entries.map (·.2)

/-- How many entries the map has. -/
def size (m : SortedMap κ ν) : Nat := m.entries.length

/-- Keeps the entries that pass the test. -/
def filter (p : κ → ν → Bool) (m : SortedMap κ ν) : SortedMap κ ν :=
  ⟨m.entries.filter fun e => p e.1 e.2, m.sorted.sublist List.filter_sublist⟩

section Lookup

variable [DecidableEq κ]

/-- The map without a key. -/
def erase (m : SortedMap κ ν) (k : κ) : SortedMap κ ν := m.filter fun k' _ => k' ≠ k

/-- The value under a key. -/
def get? (m : SortedMap κ ν) (k : κ) : Option ν := lookupEntry k m.entries

/-- Whether the map has the key. -/
def contains (m : SortedMap κ ν) (k : κ) : Bool := (m.get? k).isSome

@[simp] theorem get?_empty (k : κ) : (∅ : SortedMap κ ν).get? k = none := rfl

@[simp] theorem get?_erase (m : SortedMap κ ν) (k j : κ) :
    (m.erase k).get? j = if j = k then none else m.get? j :=
  lookupEntry_filter_ne k j m.entries

variable [DecidableLT κ] [LE κ] [Std.IsLinearOrder κ] [Std.LawfulOrderLT κ]

/-- The map with `v` under `k`, in place of what was there. -/
def insert (m : SortedMap κ ν) (k : κ) (v : ν) : SortedMap κ ν :=
  ⟨insertEntry k v m.entries, pairwise_insertEntry k v m.sorted⟩

/-- The map of a list of entries; of two entries with one key the later counts. A list that is in
order is taken as it is. -/
def ofList (l : List (κ × ν)) : SortedMap κ ν :=
  if h : inOrder l then ⟨l, inOrder_iff_pairwise.1 h⟩
  else l.foldl (fun m e => m.insert e.1 e.2) ∅

@[simp] theorem ofList_entries (m : SortedMap κ ν) : ofList m.entries = m := by
  simp [ofList, inOrder_iff_pairwise.2 m.sorted]

@[simp] theorem get?_insert (m : SortedMap κ ν) (k j : κ) (v : ν) :
    (m.insert k v).get? j = if j = k then some v else m.get? j :=
  lookupEntry_insertEntry k j v m.entries

omit [DecidableLT κ] in
/-- Maps are determined by their look-ups. -/
theorem ext_get? {m₁ m₂ : SortedMap κ ν} (h : ∀ k, m₁.get? k = m₂.get? k) : m₁ = m₂ := by
  obtain ⟨l₁, h₁⟩ := m₁
  obtain ⟨l₂, h₂⟩ := m₂
  obtain rfl : l₁ = l₂ := eq_of_lookupEntry_eq h₁ h₂ h
  rfl

end Lookup

end SortedMap

/-! ## Sets of names -/

/-- A set of names, listed in order. -/
abbrev NameSet := SortedMap String Unit

/-- The set of the listed names. -/
def NameSet.ofList (names : List String) : NameSet :=
  SortedMap.ofList (names.map fun n => (n, ()))

/-- The names of the first set that the second lacks, in order. -/
def NameSet.missingFrom (a b : NameSet) : List String :=
  a.keys.filter fun n => !b.contains n

end CircuitBlocks
