import CircuitBlocks.Proofs.Signals

/-!
# Signals — laid end to end, and cut apart again

Ports and flat values are two views of the same signals. Every signal is found again in its flat values, by its
widths, and flat values can be cut as long as the widths do not come to more than there are. Empty ports take
nothing, and surplus values are left over.

* `Signals.ofFlat?_matrix_eq_some_iff_take` — what is cut, by its widths and values.
* `Signals.exists_ofFlat?_matrix_iff` — when there is something to cut.
* `Signals.cutWords?_eq` — an offset that is a machine word cuts the same.
* **`Signals.ofFlat?_exact`** — the two views, both ways.
-/

namespace CircuitBlocks

namespace Signals

variable {flat : List Float} {ws : List Nat} {s : Signals}

/-! ## Flat values of signals -/

/-- Signals are found again in their own values. -/
theorem ofFlat?_flatten (s : Signals) : ofFlat? s.shape s.flatten s.widths = some s := by
  cases s with
  | single values => rfl
  | matrix ports => exact ofFlat?_matrix_eq_some_iff.2 ⟨rfl, rfl, List.prefix_rfl⟩

/-! ## Ports of flat values -/

/-- What is cut has the values that come first, as many as the widths come to. -/
theorem ofFlat?_matrix_eq_some_iff_take : ofFlat? .matrix flat ws = some s ↔
    s.shape = .matrix ∧ s.widths = ws ∧ s.flatten = flat.take (totalWidth ws) := by
  rw [ofFlat?_matrix_eq_some_iff]
  refine and_congr_right fun _ => and_congr_right fun hwidths => ?_
  rw [List.prefix_iff_eq_take, length_flatten, hwidths]

/-- There is something to cut just if there are enough values. -/
theorem exists_ofFlat?_matrix_iff :
    (∃ s, ofFlat? .matrix flat ws = some s) ↔ totalWidth ws ≤ flat.length := by
  constructor
  · rintro ⟨s, hs⟩
    obtain ⟨-, rfl, hvalues⟩ := ofFlat?_matrix_eq_some_iff.1 hs
    exact s.length_flatten ▸ hvalues.length_le
  · exact fun h => ⟨_, ofFlat?_matrix_of_le h⟩

/-! ## Offsets that are machine words

The naturals of `cutFrom?` have no bound. A word goes round beyond the last one, and then it is in front of the
place that it started from, so that the slice is refused as the one that is too long is. -/

/-- Values cut into ports with an offset that is a machine word. -/
def cutWords? (flat : List Float) : (offset : UInt64) → (widths : List UInt64) → Option (List (List Float))
  | _, [] => some []
  | offset, w :: ws => do
    let port ← slice? flat offset.toNat (offset + w).toNat
    let ports ← cutWords? flat (offset + w) ws
    return port :: ports

variable {offset w : UInt64}

/-- A word that has gone round is in front of both of its parts. -/
theorem toNat_add_lt_of_size_le (h : UInt64.size ≤ offset.toNat + w.toNat) :
    (offset + w).toNat < offset.toNat := by
  have hoffset := offset.toNat_lt
  have hw := w.toNat_lt
  rw [UInt64.toNat_add]
  simp only [UInt64.size] at h
  omega

/-- Whether a slice is in range does not depend on the word going round. -/
theorem slice?_add_word (hsize : flat.length < UInt64.size) :
    slice? flat offset.toNat (offset + w).toNat = slice? flat offset.toNat (offset.toNat + w.toNat) := by
  by_cases hround : UInt64.size ≤ offset.toNat + w.toNat
  · have hlt := toNat_add_lt_of_size_le hround
    rw [slice?, slice?, if_neg (by omega), if_neg (by omega)]
  · rw [UInt64.toNat_add, Nat.mod_eq_of_lt (Nat.not_le.1 hround)]

/-- Of values that a word can count, the same ports are cut. -/
theorem cutWords?_eq (hsize : flat.length < UInt64.size) (words : List UInt64)
    (hoffset : offset.toNat ≤ flat.length) :
    cutWords? flat offset words = cutFrom? flat offset.toNat (words.map UInt64.toNat) := by
  induction words generalizing offset with
  | nil => rfl
  | cons w words ih =>
    rw [cutWords?, List.map_cons, cutFrom?, slice?_add_word hsize]
    cases hslice : slice? flat offset.toNat (offset.toNat + w.toNat) with
    | none => rfl
    | some port =>
      -- the slice ends within the values, so the word has not gone round
      obtain ⟨hlength, hnext⟩ := (slice?_eq_some_iff hoffset).1 hslice
      have hle := add_length_le_of_isPrefix_drop hoffset hnext
      have hadd : (offset + w).toNat = offset.toNat + w.toNat := by
        rw [UInt64.toNat_add, Nat.mod_eq_of_lt]
        rw [hlength] at hle
        exact Nat.lt_of_le_of_lt hle hsize
      rw [ih (by omega), hadd]

/-! ## Both ways -/

/-- **Laid end to end, and cut apart again.** Signals have as many values as their widths come to, and a width for
each port; their values, cut by their widths, are these signals. Any flat values can be cut into the ports of any
widths, empty ones among them, just if the widths come to no more than there are values. What is cut then has these
widths, and its values are the flat ones from the first on, in order, as many as the widths come to; and it is the
only matrix of which this holds. All of this is so too if the offset is a machine word that goes round. -/
theorem ofFlat?_exact :
    (∀ s : Signals, s.flatten.length = totalWidth s.widths ∧ s.widths.length = s.portCount ∧
      ofFlat? s.shape s.flatten s.widths = some s) ∧
    (∀ (flat : List Float) (ws : List Nat),
      ((∃ s, ofFlat? .matrix flat ws = some s) ↔ totalWidth ws ≤ flat.length) ∧
      ∀ s, ofFlat? .matrix flat ws = some s ↔
        s.shape = .matrix ∧ s.widths = ws ∧ s.flatten = flat.take (totalWidth ws)) ∧
    ∀ (flat : List Float) (words : List UInt64), flat.length < UInt64.size →
      (cutWords? flat 0 words).map matrix = ofFlat? .matrix flat (words.map UInt64.toNat) :=
  ⟨fun s => ⟨s.length_flatten, s.length_widths, s.ofFlat?_flatten⟩,
    fun _ _ => ⟨exists_ofFlat?_matrix_iff, fun _ => ofFlat?_matrix_eq_some_iff_take⟩,
    fun flat words hsize => congrArg (Option.map matrix) (cutWords?_eq hsize words (Nat.zero_le flat.length))⟩

/-- Behind a port of two values comes an empty one, and the last of four values is left over. A port that would end
behind the last value is refused, and so is one whose end is a word that has gone round to the first place. -/
theorem ofFlat?_exact_surplus :
    ofFlat? .matrix [1, 2, 3, 4] [2, 0, 1] = some (.matrix [[1, 2], [], [3]]) ∧
    ofFlat? .matrix (flatten (.matrix [[1, 2], [], [3]])) [2, 0, 1] = some (.matrix [[1, 2], [], [3]]) ∧
    (¬ ∃ s, ofFlat? .matrix [1, 2, 3, 4] [2, 0, 3] = some s) ∧
    [1, 2, 3, (4 : Float)].length < UInt64.size ∧ (1 + 18446744073709551615 : UInt64) = 0 ∧
    (cutWords? [1, 2, 3, 4] 0 [1, 18446744073709551615]).map matrix = none := by
  obtain ⟨hback, hcut, hwords⟩ := ofFlat?_exact
  have hsize : [1, 2, 3, (4 : Float)].length < UInt64.size := by decide
  refine ⟨((hcut _ _).2 _).2 ⟨rfl, rfl, rfl⟩, (hback (.matrix [[1, 2], [], [3]])).2.2, ?_, hsize, by decide, ?_⟩
  · rw [(hcut _ _).1]
    decide
  · -- the sum is beyond what a word can count, and the cut fails as it does over naturals
    have hround : ¬ ∃ s, ofFlat? .matrix [1, 2, 3, 4] [1, 18446744073709551615] = some s := by
      rw [(hcut _ _).1]
      decide
    rw [hwords _ _ hsize]
    exact Option.eq_none_iff_forall_ne_some.2 fun s hs => hround ⟨s, hs⟩

end Signals

end CircuitBlocks
