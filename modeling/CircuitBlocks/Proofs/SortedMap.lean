import CircuitBlocks.SortedMap
import Mathlib.Data.List.Nodup

/-!
# Sorted maps — keys and entries

What is listed in a map is what is found under a key. Sets of names are maps without values, so two sets
that lack nothing of each other are equal.

* `SortedMap.mem_entries_iff` — an entry is listed just if its value is found under its key.
* `SortedMap.contains_ofList` — a map of a list has the listed keys.
* `SortedMap.mem_of_mem_ofList` — and no entries but the listed ones.
* `SortedMap.get?_ofList` — if the keys differ, each is found with its value.
* **`NameSet.eq_of_missingFrom`** — two sets that lack nothing of each other are equal.
-/

namespace CircuitBlocks

namespace SortedMap

/-! ## Entries -/

variable {κ ν : Type} [LT κ] [DecidableLT κ] [DecidableEq κ] [LE κ] [Std.IsLinearOrder κ]
  [Std.LawfulOrderLT κ]

omit [DecidableLT κ] [Std.IsLinearOrder κ] in
/-- An entry is found under its key. -/
theorem lookupEntry_of_mem {l : List (κ × ν)} (h : l.Pairwise (·.1 < ·.1)) {e : κ × ν}
    (he : e ∈ l) : lookupEntry e.1 l = some e.2 := by
  induction l with
  | nil => cases he
  | cons hd tl ih =>
    obtain ⟨hrel, htl⟩ := List.pairwise_cons.1 h
    rcases List.mem_cons.1 he with rfl | he
    · simp [lookupEntry]
    · have hne : e.1 ≠ hd.1 := fun heq => Std.lt_irrefl (heq ▸ hrel e he)
      simp [lookupEntry, hne, ih htl he]

omit [LT κ] [DecidableLT κ] [LE κ] [Std.IsLinearOrder κ] [Std.LawfulOrderLT κ] in
/-- What is found is an entry. -/
theorem mem_of_lookupEntry {l : List (κ × ν)} {k : κ} {v : ν} (h : lookupEntry k l = some v) :
    (k, v) ∈ l := by
  induction l with
  | nil => cases h
  | cons hd tl ih =>
    rw [lookupEntry] at h
    split at h
    · next heq =>
      obtain rfl : hd.2 = v := Option.some.inj h
      rw [heq]
      exact List.mem_cons_self
    · exact List.mem_cons_of_mem _ (ih h)

omit [DecidableLT κ] [Std.IsLinearOrder κ] in
/-- An entry is listed just if its value is found under its key. -/
theorem mem_entries_iff {m : SortedMap κ ν} {k : κ} {v : ν} :
    (k, v) ∈ m.entries ↔ m.get? k = some v :=
  ⟨fun h => lookupEntry_of_mem m.sorted h, mem_of_lookupEntry⟩

omit [DecidableLT κ] [LE κ] [Std.IsLinearOrder κ] [Std.LawfulOrderLT κ] in
/-- What is under a key is a value of the map. -/
theorem mem_values_of_get? {m : SortedMap κ ν} {k : κ} {v : ν} (h : m.get? k = some v) :
    v ∈ m.values :=
  List.mem_map.2 ⟨(k, v), mem_of_lookupEntry h, rfl⟩

omit [DecidableLT κ] [Std.IsLinearOrder κ] in
/-- Every value of a map is under one of its keys. -/
theorem exists_get?_of_mem_values {m : SortedMap κ ν} {v : ν} (h : v ∈ m.values) :
    ∃ k, m.get? k = some v := by
  obtain ⟨e, he, rfl⟩ := List.mem_map.1 h
  exact ⟨e.1, lookupEntry_of_mem m.sorted he⟩

omit [DecidableLT κ] [Std.IsLinearOrder κ] in
/-- What is left of a map was in it. -/
theorem get?_of_filter {m : SortedMap κ ν} {test : κ → ν → Bool} {k : κ} {v : ν}
    (h : (m.filter test).get? k = some v) : m.get? k = some v :=
  mem_entries_iff.1 (List.mem_filter.1 (mem_entries_iff.2 h)).1

omit [DecidableLT κ] [Std.IsLinearOrder κ] in
/-- What passes the test is left of a map. -/
theorem get?_filter (m : SortedMap κ ν) (test : κ → ν → Bool) (k : κ) :
    (m.filter test).get? k = (m.get? k).filter (test k) := by
  refine Option.ext fun v => ?_
  rw [Option.filter_eq_some_iff, ← mem_entries_iff, ← mem_entries_iff]
  exact List.mem_filter

omit [LT κ] [DecidableLT κ] [LE κ] [Std.IsLinearOrder κ] [Std.LawfulOrderLT κ] in
theorem lookupEntry_map {β : Type} (f : ν → β) (l : List (κ × ν)) (k : κ) :
    lookupEntry k (l.map fun e => (e.1, f e.2)) = (lookupEntry k l).map f := by
  induction l with
  | nil => rfl
  | cons hd tl ih =>
    rw [List.map_cons, lookupEntry, lookupEntry, ih]
    split <;> rfl

omit [DecidableLT κ] in
/-- Maps with the same values under each key, as far as a function tells, list the same values. -/
theorem map_values_eq {β : Type} {f : ν → β} {m m' : SortedMap κ ν}
    (h : ∀ k, (m.get? k).map f = (m'.get? k).map f) : m.values.map f = m'.values.map f := by
  have hsorted : ∀ m : SortedMap κ ν, (m.entries.map fun e => (e.1, f e.2)).Pairwise (·.1 < ·.1) :=
    fun m => List.pairwise_map.2 m.sorted
  have hentries : (m.entries.map fun e => (e.1, f e.2)) = m'.entries.map fun e => (e.1, f e.2) := by
    refine eq_of_lookupEntry_eq (hsorted m) (hsorted m') fun k => ?_
    rw [lookupEntry_map, lookupEntry_map]
    exact h k
  have hvalues : ∀ m : SortedMap κ ν, m.values.map f = (m.entries.map fun e => (e.1, f e.2)).map (·.2) := by
    intro m
    rw [values, List.map_map, List.map_map]
    rfl
  rw [hvalues, hvalues, hentries]

/-! ## Keys -/

omit [DecidableLT κ] [DecidableEq κ] [Std.IsLinearOrder κ] in
theorem nodup_keys (m : SortedMap κ ν) : m.keys.Nodup := by
  refine List.pairwise_map.2 (m.sorted.imp ?_)
  intro e e' hlt heq
  exact Std.lt_irrefl (heq ▸ hlt)

omit [DecidableLT κ] [Std.IsLinearOrder κ] in
theorem mem_keys_iff {m : SortedMap κ ν} {k : κ} : k ∈ m.keys ↔ m.contains k = true := by
  rw [contains, Option.isSome_iff_exists]
  constructor
  · intro h
    obtain ⟨e, he, rfl⟩ := List.mem_map.1 h
    exact ⟨e.2, lookupEntry_of_mem m.sorted he⟩
  · rintro ⟨v, hv⟩
    exact List.mem_map.2 ⟨(k, v), mem_of_lookupEntry hv, rfl⟩

omit [DecidableLT κ] [Std.IsLinearOrder κ] in
theorem size_ne_zero_of_contains {m : SortedMap κ ν} {k : κ} (h : m.contains k = true) : m.size ≠ 0 := by
  have hmem := mem_keys_iff.2 h
  rw [keys, List.mem_map] at hmem
  obtain ⟨e, he, -⟩ := hmem
  exact Nat.ne_of_gt (List.length_pos_of_mem he)

omit [DecidableLT κ] [Std.IsLinearOrder κ] in
theorem exists_contains_of_size_ne_zero {m : SortedMap κ ν} (h : m.size ≠ 0) :
    ∃ k, m.contains k = true := by
  obtain ⟨e, he⟩ := List.exists_mem_of_length_pos (Nat.pos_of_ne_zero h)
  exact ⟨e.1, mem_keys_iff.1 (List.mem_map_of_mem he)⟩

/-- A key is there after an insertion if it is the new one, or was there. -/
theorem contains_insert (m : SortedMap κ ν) (k j : κ) (v : ν) :
    (m.insert k v).contains j = (decide (j = k) || m.contains j) := by
  rw [contains, get?_insert]
  by_cases h : j = k
  · rw [if_pos h, decide_eq_true h]
    rfl
  · rw [if_neg h, decide_eq_false h]
    rfl

omit [DecidableLT κ] [LE κ] [Std.IsLinearOrder κ] [Std.LawfulOrderLT κ] in
/-- A key is there after a removal if it was there, and is not the one removed. -/
theorem contains_erase (m : SortedMap κ ν) (k j : κ) :
    (m.erase k).contains j = (decide (j ≠ k) && m.contains j) := by
  rw [contains, get?_erase]
  by_cases h : j = k
  · simp [h]
  · simp [h, contains]

theorem contains_foldl_insert (l : List (κ × ν)) (m : SortedMap κ ν) (k : κ) :
    (l.foldl (fun m e => m.insert e.1 e.2) m).contains k = true ↔
      m.contains k = true ∨ k ∈ l.map (·.1) := by
  induction l generalizing m with
  | nil => simp
  | cons e rest ih =>
    rw [List.foldl_cons, ih, contains_insert, List.map_cons, List.mem_cons]
    simp only [Bool.or_eq_true, decide_eq_true_eq]
    rw [or_comm (a := k = e.1), or_assoc]

/-- A map of a list has the listed keys. -/
theorem contains_ofList {l : List (κ × ν)} {k : κ} :
    (ofList l).contains k = true ↔ k ∈ l.map (·.1) := by
  unfold ofList
  split
  · exact mem_keys_iff.symm
  · rw [contains_foldl_insert]
    exact or_iff_right Bool.false_ne_true

theorem mem_of_mem_foldl_insert {l : List (κ × ν)} {m : SortedMap κ ν} {e : κ × ν}
    (h : e ∈ (l.foldl (fun m e => m.insert e.1 e.2) m).entries) : e ∈ m.entries ∨ e ∈ l := by
  induction l generalizing m with
  | nil => exact .inl h
  | cons f rest ih =>
    rcases ih h with h | h
    · rcases mem_insertEntry h with rfl | h
      · exact .inr List.mem_cons_self
      · exact .inl h
    · exact .inr (List.mem_cons_of_mem _ h)

/-- A map of a list has no entries but the listed ones. -/
theorem mem_of_mem_ofList {l : List (κ × ν)} {e : κ × ν} (h : e ∈ (ofList l).entries) : e ∈ l := by
  unfold ofList at h
  split at h
  · exact h
  · exact (mem_of_mem_foldl_insert h).resolve_left List.not_mem_nil

/-- A map of a list with different keys has the listed entries. -/
theorem get?_ofList {l : List (κ × ν)} (hnodup : (l.map (·.1)).Nodup) {k : κ} {v : ν} :
    (ofList l).get? k = some v ↔ (k, v) ∈ l := by
  refine ⟨fun h => mem_of_mem_ofList (mem_entries_iff.2 h), fun h => ?_⟩
  obtain ⟨u, hu⟩ := Option.isSome_iff_exists.1 (contains_ofList.2 (List.mem_map_of_mem h))
  have hmem := mem_of_mem_ofList (mem_entries_iff.2 hu)
  rw [hu, (Prod.mk.inj (List.inj_on_of_nodup_map hnodup hmem h rfl)).2]

end SortedMap

/-! ## Sets of names -/

namespace NameSet

/-- Nothing is missing just if all names are there. -/
theorem missingFrom_eq_nil_iff {a b : NameSet} :
    a.missingFrom b = [] ↔ ∀ name, a.contains name = true → b.contains name = true := by
  rw [missingFrom, List.filter_eq_nil_iff]
  constructor
  · intro h name hname
    simpa using h name (SortedMap.mem_keys_iff.2 hname)
  · intro h name hname
    simpa using h name (SortedMap.mem_keys_iff.1 hname)

@[simp] theorem missingFrom_self (a : NameSet) : a.missingFrom a = [] :=
  missingFrom_eq_nil_iff.2 fun _ h => h

/-- Two sets of the same names are equal. -/
theorem ext_contains {a b : NameSet} (h : ∀ name, a.contains name = true ↔ b.contains name = true) : a = b := by
  refine SortedMap.ext_get? fun name => ?_
  have hiff : a.contains name = b.contains name := Bool.eq_iff_iff.2 (h name)
  rw [SortedMap.contains, SortedMap.contains] at hiff
  cases ha : a.get? name with
  | none =>
    rw [ha] at hiff
    exact (Option.isSome_eq_false_iff.1 hiff.symm |> Option.isNone_iff_eq_none.1).symm
  | some _ =>
    rw [ha] at hiff
    obtain ⟨u, hu⟩ := Option.isSome_iff_exists.1 hiff.symm
    exact hu.symm

/-- Two sets of names that lack nothing of each other are equal. -/
theorem eq_of_missingFrom {a b : NameSet} (hab : a.missingFrom b = []) (hba : b.missingFrom a = []) :
    a = b :=
  ext_contains fun name => ⟨missingFrom_eq_nil_iff.1 hab name, missingFrom_eq_nil_iff.1 hba name⟩

theorem contains_ofList {names : List String} {name : String} :
    (ofList names).contains name = true ↔ name ∈ names := by
  unfold ofList
  rw [SortedMap.contains_ofList, List.map_map]
  simp

end NameSet

end CircuitBlocks
