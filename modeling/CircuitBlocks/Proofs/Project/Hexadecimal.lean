import CircuitBlocks.Proofs.Project.Damage

/-!
# Stored artifacts in hexadecimal — which texts are taken for bytes

The artifacts of a block are stored as hexadecimal text. A text that names no bytes is told apart from bytes that
hold no artifacts: the block is loaded without artifacts either way, and the warning gives the reason. A plus sign
that begins a pair is taken for a zero, so that some texts name bytes which are not hexadecimal.

* `BlockRecord.store?_eq_notHexadecimal_iff` — when a stored text is refused as not hexadecimal.
* **`Hex.decode?_exact`** — which texts name bytes, and what becomes of a block with any other.
* `Hex.not_decode?_iff_valid` — a text that is not hexadecimal names bytes.
-/

namespace CircuitBlocks

namespace BlockRecord

variable {r : BlockRecord} {text : String} {toolchain : Option String}

/-- A blob is refused as not hexadecimal just if it is not. -/
theorem store?_eq_notHexadecimal_iff (hblob : r.blob = some text) :
    r.store? toolchain = .error .notHexadecimal ↔ Hex.decode? text = none := by
  rw [store?, hblob]
  cases hbytes : Hex.decode? text with
  | none => simp [hbytes]
  | some bytes => cases hstore : ArtifactStore.ofBlob bytes r.artifactName toolchain <;> simp [hbytes, hstore]

/-- A text is looked at if the record tells of a compile, and the artifacts are those of the block. -/
theorem state_eq_notHexadecimal_iff (hblob : r.blob = some text) (hname : r.artifactName = r.id.artifactName)
    (hstatus : r.status = 1 ∨ r.status = 2) :
    r.state toolchain = .error .notHexadecimal ↔ Hex.decode? text = none := by
  rw [← @store?_eq_notHexadecimal_iff r text toolchain hblob]
  -- whether the record is one of a success or of a failure, the store is read first
  have hstateOf : ∀ failed,
      r.stateOf failed toolchain = .error .notHexadecimal ↔ r.store? toolchain = .error .notHexadecimal := by
    intro failed
    rw [stateOf, if_neg (not_not_intro hname)]
    cases hstore : r.store? toolchain with
    | error reason => simp
    | ok s =>
      simp only
      split
      · simp
      · split <;> simp
  rw [state_eq]
  rcases hstatus with hsuccess | herror
  · rw [if_pos hsuccess]
    exact hstateOf false
  · rw [if_neg (by omega), if_pos herror]
    exact hstateOf true

/-- A block is told to be without artifacts for some reason just if its state is lost for it. -/
theorem artifactsDiscarded_mem_iff {registry : Registry} {reason : DiscardReason} :
    .artifactsDiscarded r.id reason ∈ (r.restore registry toolchain).2.2 ↔ r.state toolchain = .error reason := by
  have hlinked : ∀ linked, .artifactsDiscarded r.id reason ∉ linkWarnings linked := by
    intro linked hmem
    cases (isDiscard_linkWarnings linked _ hmem).1
  rw [warnings_restore, List.mem_append, or_iff_right (hlinked _)]
  cases r.state toolchain <;> simp [stateWarnings, eq_comm]

end BlockRecord

/-- **What is taken for hexadecimal.** A text names bytes just if it has an even number of digits, where a plus sign
that begins a pair counts as a zero; then writing the bytes gives these digits in lower case. What is written names
the bytes that were written. It makes no difference whether a text is cut into characters or into their bytes. A
stored text that names no bytes is refused as not hexadecimal, and no other is. -/
theorem Hex.decode?_exact (text : String) :
    (∀ bytes, decode? text = some bytes ↔ Valid (unsigned text) ∧ encode bytes = (unsigned text).toLower) ∧
    ('+' ∉ text.toList → unsigned text = text) ∧
    (∀ bytes, encode bytes = text → decode? text = some bytes) ∧
    decode? text = decodeChars? ((Text.Utf8.encode text).map fun b => Char.ofNat b.toNat) ∧
    ∀ (r : BlockRecord) (registry : Registry) (toolchain : Option String), r.blob = some text →
      r.artifactName = r.id.artifactName → r.status = 1 ∨ r.status = 2 →
      (.artifactsDiscarded r.id .notHexadecimal ∈ (r.restore registry toolchain).2.2 ↔ ¬ Valid (unsigned text)) := by
  refine ⟨fun _ => decode?_eq_some_iff, unsigned_of_not_mem, fun bytes hbytes => hbytes ▸ decode?_encode bytes,
    decode?_eq_of_bytes text, fun r registry toolchain hblob hname hstatus => ?_⟩
  rw [BlockRecord.artifactsDiscarded_mem_iff, BlockRecord.state_eq_notHexadecimal_iff hblob hname hstatus,
    ← isSome_decode?_iff_unsigned, Option.not_isSome_iff_eq_none]

/-- A block with a text of other letters is refused, and what is written for three bytes is read. -/
theorem Hex.decode?_exact_letters :
    .artifactsDiscarded "b" .notHexadecimal ∈ ((BlockRecord.storing (some "zz")).restore .empty none).2.2 ∧
    decode? "00fF7a" = some [0x00, 0xff, 0x7a] ∧ decode? "00ff7a" = some [0x00, 0xff, 0x7a] ∧
    unsigned "00fF7a" = "00fF7a" ∧ decode? "+f" = some [0x0f] := by
  have hname : "unit_b" = BlockId.artifactName "b" := by decide
  obtain ⟨-, -, -, -, hrefused⟩ := decode?_exact "zz"
  obtain ⟨hbytes, hunsigned, -⟩ := decode?_exact "00fF7a"
  obtain ⟨-, -, hwritten, -⟩ := decode?_exact "00ff7a"
  obtain ⟨hplus, -⟩ := decode?_exact "+f"
  exact ⟨(hrefused (.storing (some "zz")) .empty none rfl hname (.inl rfl)).2 (by decide),
    (hbytes _).2 ⟨by decide, (by decide : _ = String.ofList _).trans (toLower_eq _).symm⟩, hwritten _ (by decide),
    hunsigned (by decide), (hplus _).2 ⟨by decide, (by decide : _ = String.ofList _).trans (toLower_eq _).symm⟩⟩

/-- A plus sign is no digit, and yet it begins the name of a byte. -/
theorem Hex.not_decode?_iff_valid :
    ¬ ∀ text bytes, decode? text = some bytes ↔ Valid text ∧ encode bytes = text.toLower := by
  intro h
  have hread : decode? "+0" = some [0] := by decide
  have hinvalid : ¬ Valid "+0" := by decide
  exact hinvalid ((h "+0" [0]).1 hread).1

end CircuitBlocks
