import CircuitBlocks.Block.Basic
import CircuitBlocks.Proofs.SortedMap

/-!
# Staleness — what a fresh block agrees on with its record

The text of the unit is compared first, and then the differences of the two sets of crate names, one way
and the other; if both are empty, the sets are equal.

* **`Block.staleness_eq_fresh_iff`** — a block is fresh just if its record has the text and the crates
  that the block has now.
* `Block.staleness_of_no_source` — a block whose record has no text is never fresh.
-/

namespace CircuitBlocks

/-! ## Freshness -/

/-- A record is fresh just if its source is the unit's, and it names the same crates. -/
theorem Staleness.ofRecord_eq_fresh_iff {f : Fragments} {s : SignalShape} {crates : NameSet}
    {r : CompileRecord} :
    ofRecord f s crates r = .fresh ↔ r.source = unitText f s r.artifactName ∧ r.crates = crates := by
  unfold ofRecord
  constructor
  · intro h
    split at h
    · cases h
    · next hsource =>
      split at h
      · cases h
      · next hadded =>
        split at h
        · cases h
        · next hremoved =>
          -- nothing was added, and nothing removed
          exact ⟨(Decidable.not_not.1 hsource).symm, NameSet.eq_of_missingFrom hremoved hadded⟩
  · rintro ⟨hsource, rfl⟩
    simp [hsource]

/-- With the text of the record, the first crate that the record lacks is named. -/
theorem Staleness.ofRecord_eq_added {f : Fragments} {s : SignalShape} {crates : NameSet} {r : CompileRecord}
    (hsource : r.source = unitText f s r.artifactName) {added : String} {rest : List String}
    (hadded : crates.missingFrom r.crates = added :: rest) : ofRecord f s crates r = .auxiliaryAdded added := by
  rw [ofRecord, if_neg (not_not_intro hsource.symm), hadded]

/-- A block is fresh just if its record has the text and the crates that the block has now. -/
theorem Block.staleness_eq_fresh_iff {b : Block} :
    b.staleness = .fresh ↔ ∃ r, b.state.record? = some r ∧
      r.source = unitText b.fragments b.shape r.artifactName ∧ r.crates = b.crates := by
  unfold Block.staleness Staleness.check
  cases b.state.record? with
  | none => simp
  | some r => simp [Staleness.ofRecord_eq_fresh_iff]

/-! ## Records without a text -/

/-- No unit is the empty text: its first lines stand in every unit. -/
theorem unitText_ne_empty (f : Fragments) (s : SignalShape) (name : String) : unitText f s name ≠ "" := by
  intro h
  have hchars := congrArg String.toList h
  rw [unitText, SourceUnit.assemble, String.toList_ofList, String.toList_empty, List.flatMap_eq_nil_iff] at hchars
  have hline : Piece.line "" ∈ template name s := by simp [template, Template.header]
  exact absurd (hchars _ hline) (List.cons_ne_nil _ _)

/-- A block whose record has no text is stale, whatever it is made of. -/
theorem Block.staleness_of_no_source {b : Block} {r : CompileRecord} (hr : b.state.record? = some r)
    (hsource : r.source = "") : b.staleness = .sourceChanged := by
  have hne : unitText b.fragments b.shape r.artifactName ≠ r.source := by
    rw [hsource]
    exact unitText_ne_empty _ _ _
  simp only [Block.staleness, Staleness.check, hr, Staleness.ofRecord]
  exact if_pos hne

end CircuitBlocks
