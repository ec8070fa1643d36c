import CircuitBlocks.Proofs.SortedMap
import Mathlib.Data.List.Basic

/-!
# Counting — what a replacement does to a count

A collection of small lists, one for each worker or for each key of a map, is counted as one long list.
Replacing one of the small lists trades its count for that of the new one. Sums are stated without
subtraction, so that counts before and after a step can be compared by linear arithmetic.

* `countP_flatMap_set` replaces an element of a list.
* `add_countP_le_flatMap` counts two elements of a list.
* `SortedMap.countP_insert` and `SortedMap.countP_erase` replace and drop an entry of a map.
-/

namespace CircuitBlocks

variable {α β : Type}

/-- An element of a list may be brought to the front, with the rest around it. -/
theorem exists_append_of_getElem? {l : List α} {i : Nat} {a : α} (h : l[i]? = some a) :
    ∃ before after, l = before ++ a :: after ∧ before.length = i := by
  obtain ⟨hi, ha⟩ := List.getElem?_eq_some_iff.1 h
  refine ⟨l.take i, l.drop (i + 1), ?_, ?_⟩
  · rw [← ha, ← List.drop_eq_getElem_cons hi, List.take_append_drop]
  · rw [List.length_take]
    omega

theorem set_length_append (before after : List α) (a b : α) :
    (before ++ a :: after).set before.length b = before ++ b :: after := by
  rw [List.set_append_right _ _ (Nat.le_refl _), Nat.sub_self, List.set_cons_zero]

/-- Replacing one element trades the count of its list for that of the new one. -/
theorem countP_flatMap_set (p : β → Bool) (f : α → List β) {l : List α} {i : Nat} {a : α}
    (h : l[i]? = some a) (b : α) :
    ((l.set i b).flatMap f).countP p + (f a).countP p
      = (l.flatMap f).countP p + (f b).countP p := by
  obtain ⟨before, after, rfl, rfl⟩ := exists_append_of_getElem? h
  rw [set_length_append]
  simp only [List.flatMap_append, List.flatMap_cons, List.countP_append]
  omega

/-- An element of a list counts. -/
theorem countP_le_flatMap (p : β → Bool) (f : α → List β) {l : List α} {a : α} (h : a ∈ l) :
    (f a).countP p ≤ (l.flatMap f).countP p := by
  obtain ⟨before, after, rfl⟩ := List.append_of_mem h
  simp only [List.flatMap_append, List.flatMap_cons, List.countP_append]
  omega

/-- Two elements of a list at different places both count. -/
theorem add_countP_le_flatMap (p : β → Bool) (f : α → List β) {l : List α} {i j : Nat} {a b : α}
    (hij : i ≠ j) (hi : l[i]? = some a) (hj : l[j]? = some b) :
    (f a).countP p + (f b).countP p ≤ (l.flatMap f).countP p := by
  obtain ⟨before, after, rfl, rfl⟩ := exists_append_of_getElem? hi
  -- the other place is before the first one or after it
  have hmem : b ∈ before ++ after := by
    rw [List.mem_append]
    rcases Nat.lt_or_gt_of_ne hij with hlt | hgt
    · obtain ⟨k, rfl⟩ := Nat.exists_eq_add_of_lt hlt
      refine .inr (List.mem_of_getElem? (i := k) ?_)
      rw [← hj, List.getElem?_append_right (by omega)]
      simp [Nat.add_assoc]
    · rw [List.getElem?_append_left hgt] at hj
      exact .inl (List.mem_of_getElem? hj)
  have hcount := countP_le_flatMap p f hmem
  simp only [List.flatMap_append, List.flatMap_cons, List.countP_append] at hcount ⊢
  omega

/-! ## Maps -/

namespace SortedMap

section Entries

variable {κ ν : Type} [LT κ] [DecidableLT κ] [DecidableEq κ] [LE κ] [Std.IsLinearOrder κ]
  [Std.LawfulOrderLT κ]

/-- What an optional value counts for. -/
def listOf (f : ν → List β) (v : Option ν) : List β := (v.map f).getD []

omit [DecidableLT κ] [Std.IsLinearOrder κ] in
/-- A key below all keys of a list is in none of its entries. -/
theorem listOf_lookupEntry_of_lt (f : ν → List β) {k : κ} {l : List (κ × ν)}
    (h : ∀ e ∈ l, k < e.1) : listOf f (lookupEntry k l) = [] := by
  rw [lookupEntry_eq_none_of_lt h]
  rfl

/-- What an entry holds takes the place of what its key held before. -/
theorem countP_insertEntry (p : β → Bool) (f : ν → List β) (k : κ) (v : ν) {l : List (κ × ν)}
    (h : l.Pairwise (·.1 < ·.1)) :
    ((insertEntry k v l).flatMap fun e => f e.2).countP p
        + (listOf f (lookupEntry k l)).countP p
      = (l.flatMap fun e => f e.2).countP p + (f v).countP p := by
  -- the new entry comes before the head, replaces it, or goes further down
  induction l with
  | nil => simp [insertEntry, lookupEntry, listOf]
  | cons hd tl ih =>
    obtain ⟨k', v'⟩ := hd
    obtain ⟨hrel, htl⟩ := List.pairwise_cons.1 h
    simp only [insertEntry]
    split
    · next hlt =>
      -- the key is new, since it is below all that are there
      have hnone : listOf f (lookupEntry k ((k', v') :: tl)) = [] := by
        refine listOf_lookupEntry_of_lt f fun e he => ?_
        rcases List.mem_cons.1 he with rfl | he
        · exact hlt
        · exact Std.lt_trans hlt (hrel e he)
      rw [hnone]
      simp only [List.flatMap_cons, List.countP_append, List.countP_nil]
      omega
    · split
      · next heq =>
        subst heq
        simp only [lookupEntry, listOf, if_true, Option.map_some, Option.getD_some,
          List.flatMap_cons, List.countP_append]
        omega
      · next hne =>
        have := ih htl
        simp only [lookupEntry, if_neg hne, List.flatMap_cons, List.countP_append]
        omega

omit [DecidableLT κ] [Std.IsLinearOrder κ] in
/-- What an entry that is removed held is what is missing from the count. -/
theorem countP_eraseEntry (p : β → Bool) (f : ν → List β) (k : κ) {l : List (κ × ν)}
    (h : l.Pairwise (·.1 < ·.1)) :
    ((l.filter fun e => e.1 ≠ k).flatMap fun e => f e.2).countP p
        + (listOf f (lookupEntry k l)).countP p
      = (l.flatMap fun e => f e.2).countP p := by
  induction l with
  | nil => simp [lookupEntry, listOf]
  | cons hd tl ih =>
    obtain ⟨k', v'⟩ := hd
    obtain ⟨hrel, htl⟩ := List.pairwise_cons.1 h
    have := ih htl
    by_cases hk : k' = k
    · -- all later keys are greater, so no other entry goes
      subst hk
      rw [listOf_lookupEntry_of_lt f hrel] at this
      simp only [lookupEntry, listOf, if_true, Option.map_some, Option.getD_some,
        List.flatMap_cons, List.countP_append, ne_eq, not_true, decide_false,
        List.filter_cons_of_neg, Bool.false_eq_true, not_false_eq_true, List.countP_nil] at this ⊢
      omega
    · rw [List.filter_cons_of_pos (by simpa using hk)]
      simp only [lookupEntry, if_neg (Ne.symm hk), List.flatMap_cons, List.countP_append]
      omega

end Entries

variable {κ ν : Type} [LT κ] [DecidableLT κ] [DecidableEq κ] [LE κ] [Std.IsLinearOrder κ]
  [Std.LawfulOrderLT κ]

/-- Inserting an entry trades the count of what was under its key for that of the new value. -/
theorem countP_insert (p : β → Bool) (f : ν → List β) (m : SortedMap κ ν) (k : κ) (v : ν) :
    ((m.insert k v).values.flatMap f).countP p + (listOf f (m.get? k)).countP p
      = (m.values.flatMap f).countP p + (f v).countP p := by
  simp only [values, List.flatMap_map]
  exact countP_insertEntry p f k v m.sorted

omit [DecidableLT κ] [Std.IsLinearOrder κ] in
/-- Dropping an entry drops what it counts for. -/
theorem countP_erase (p : β → Bool) (f : ν → List β) (m : SortedMap κ ν) (k : κ) :
    ((m.erase k).values.flatMap f).countP p + (listOf f (m.get? k)).countP p
      = (m.values.flatMap f).countP p := by
  simp only [values, List.flatMap_map]
  exact countP_eraseEntry p f k m.sorted

end SortedMap

end CircuitBlocks
