import CircuitBlocks.Proofs.Artifact.Blob
import CircuitBlocks.Proofs.MessagePack.Sizes
import CircuitBlocks.Proofs.SortedMap

/-!
# Artifact blobs — whatever a store was built from

Only a size of more than four bytes keeps a store from being written. What is put into a store is what a caller has,
and what is read from bytes is short, whichever form the bytes have: a size that was read from four bytes can be
written in as many. So the history of a store does not matter to its blob, and neither does the primary name, which
only bytes of the older form are read with.

* `ArtifactStore.Built` — the stores that come of empty ones by putting, replacing and reading.
* `ArtifactStore.hasShort_of_ofBytes` — what is read from any bytes is short.
* **`ArtifactStore.ofBlob_toBlob`** — a blob holds its store, for every toolchain but another one.
-/

namespace CircuitBlocks

open BigEndian (capacity)
open Text (Utf8.encode)

/-! ## What is read is short -/

/-- An artifact that is read out of short values can be stored again. -/
theorem Artifact.storable_of_ofPacked? {v : MessagePack} {e : String × Artifact} (hv : v.Short)
    (h : Artifact.ofPacked? v = some e) : e.2.Storable e.1 := by
  obtain ⟨f, hf, h⟩ := Option.bind_eq_some_iff.1 h
  obtain ⟨name, hname, h⟩ := Option.bind_eq_some_iff.1 h
  obtain ⟨kind, -, h⟩ := Option.bind_eq_some_iff.1 h
  obtain ⟨payload, hpayload, h⟩ := Option.bind_eq_some_iff.1 h
  obtain ⟨source, hsource, h⟩ := Option.bind_eq_some_iff.1 h
  cases h
  have hfields := hv.fields? hf
  obtain ⟨u, hu, hname⟩ := MessagePack.exists_of_required hfields hname
  obtain ⟨w, hw, hpayload⟩ := MessagePack.exists_of_required hfields hpayload
  obtain ⟨z, hz, hsource⟩ := MessagePack.exists_of_required hfields hsource
  exact ⟨hu.readText hname, hw.readBytes hpayload, hz.readText hsource⟩

namespace ArtifactStore

/-- The texts and payloads of a store have sizes that take at most four bytes. -/
structure HasShort (s : ArtifactStore) : Prop where
  toolchain : ∀ t, s.toolchain = some t → (Utf8.encode t).length < capacity 4
  artifacts : ∀ e ∈ s.artifacts.entries, e.2.Storable e.1

/-- What is read out of short values is short. -/
theorem hasShort_of_ofEnvelope? {v : MessagePack} {format : Nat} {s : ArtifactStore} (hv : v.Short)
    (h : ofEnvelope? v = some (format, s)) : s.HasShort := by
  obtain ⟨f, hf, h⟩ := Option.bind_eq_some_iff.1 h
  obtain ⟨format, -, h⟩ := Option.bind_eq_some_iff.1 h
  obtain ⟨toolchain, htoolchain, h⟩ := Option.bind_eq_some_iff.1 h
  obtain ⟨artifacts, hartifacts, h⟩ := Option.bind_eq_some_iff.1 h
  cases h
  -- each field is one of the values of the map
  have hfields := hv.fields? hf
  constructor
  · rintro t rfl
    obtain ⟨u, hu, htext⟩ := MessagePack.exists_of_nullable hfields htoolchain
    exact hu.readText htext
  · intro e he
    obtain ⟨u, hu, hlist⟩ := MessagePack.exists_of_required hfields hartifacts
    obtain ⟨w, hw, hread⟩ := hu.readList hlist (SortedMap.mem_of_mem_ofList he)
    exact Artifact.storable_of_ofPacked? hw hread

/-- The same of a bare map of payloads, whose artifacts have no source. -/
theorem hasShort_of_ofPayloads? {primary : String} {v : MessagePack} {s : ArtifactStore} (hv : v.Short)
    (h : ofPayloads? primary v = some s) : s.HasShort := by
  cases hv with
  | map hsize hkeys hvalues =>
    obtain ⟨payloads, hpayloads, h⟩ := Option.bind_eq_some_iff.1 h
    cases h
    refine ⟨fun _ ht => (nomatch ht), fun e he => ?_⟩
    obtain ⟨p, hp, rfl⟩ := List.mem_map.1 (SortedMap.mem_of_mem_ofList he)
    obtain ⟨entry, hentry, hread⟩ := (mapM_eq_some hpayloads).2 p hp
    obtain ⟨name, hname, hread⟩ := Option.bind_eq_some_iff.1 hread
    obtain ⟨payload, hpayload, hread⟩ := Option.bind_eq_some_iff.1 hread
    cases hread
    exact ⟨(hkeys entry hentry).readText hname, (hvalues entry hentry).readBytes hpayload,
      show (Utf8.encode "").length < capacity 4 by decide⟩
  | _ => cases h

/-- What is read from any bytes is short. -/
theorem hasShort_of_ofBytes {bytes : List UInt8} {primary : String} {s : ArtifactStore}
    (h : ofBytes bytes primary = .ok s) : s.HasShort := by
  unfold ofBytes at h
  split at h
  · cases h
  · next v rest hdecode =>
    -- bytes that decode are at most as many as a length can say
    have hv := MessagePack.short_of_decode? hdecode
    split at h
    · next format s' henvelope =>
      split at h
      · cases h
      · cases h
        exact hasShort_of_ofEnvelope? hv henvelope
    · split at h
      · next s' hpayloads =>
        cases h
        exact hasShort_of_ofPayloads? hv hpayloads
      · cases h

/-- A store that is read from a blob is the one that its bytes hold. -/
theorem ofBytes_of_ofBlob {bytes : List UInt8} {primary : String} {current : Option String} {s : ArtifactStore}
    (h : ofBlob bytes primary current = .ok s) : ofBytes bytes primary = .ok s := by
  unfold ofBlob at h
  split at h
  · cases h
  · next s' hbytes =>
    rw [hbytes, builtBy_eq_ok h]

/-! ## Histories -/

/-- A store that takes the place of a whole set. -/
def replaceAll (_ other : ArtifactStore) : ArtifactStore := other

/-- The stores that come of empty ones by putting artifacts of short names, sources and payloads, by replacing the
whole set, and by reading blobs. What bytes are read, and for which toolchain, does not matter. -/
inductive Built : ArtifactStore → Prop where
  | empty {toolchain} (h : ∀ t, toolchain = some t → (Utf8.encode t).length < capacity 4) :
      Built (.empty toolchain)
  | put {s name a} (hs : Built s) (ha : a.Storable name) : Built (s.put name a)
  | replaceAll {s other} (hs : Built s) (hother : Built other) : Built (s.replaceAll other)
  | ofBlob {bytes primary current s} (h : ofBlob bytes primary current = .ok s) : Built s

theorem HasShort.put {s : ArtifactStore} (hs : s.HasShort) {name : String} {a : Artifact} (ha : a.Storable name) :
    (s.put name a).HasShort := by
  refine ⟨hs.toolchain, fun e he => ?_⟩
  rcases SortedMap.mem_insertEntry he with rfl | he
  · exact ha
  · exact hs.artifacts e he

/-- All artifacts that the library builds are short. -/
theorem Built.hasShort {s : ArtifactStore} (h : s.Built) : s.HasShort := by
  induction h with
  | empty h => exact ⟨h, List.forall_mem_nil _⟩
  | put _ ha ih => exact ih.put ha
  | replaceAll _ _ _ ih => exact ih
  | ofBlob h => exact hasShort_of_ofBytes (ofBytes_of_ofBlob h)

/-! ## Round trips -/

/-- **Blobs round-trip.** A store that was built of short texts and payloads, or read from whatever bytes, can be
stored unless it has too many artifacts. The blob of a store that can be stored holds exactly that store, whatever
the primary name: it is read unless it is known to be for another toolchain than the current one, and then both
are named. -/
theorem ofBlob_toBlob :
    (∀ s : ArtifactStore, s.Built → s.artifacts.size < capacity 4 → s.Storable) ∧
    ∀ s : ArtifactStore, s.Storable → ∀ (primary : String) (current : Option String),
      (∀ stored now, s.toolchain = some stored → current = some now → stored ≠ now →
        ofBlob s.toBlob primary current = .error (.otherToolchain stored now)) ∧
      ((∀ stored now, s.toolchain = some stored → current = some now → stored = now) →
        ofBlob s.toBlob primary current = .ok s) := by
  refine ⟨fun s hs hsize => ⟨hsize, hs.hasShort.toolchain, hs.hasShort.artifacts⟩, fun s hs primary current => ?_⟩
  -- the bytes always come back; what is left is the gate for the toolchain
  have hblob : ofBlob s.toBlob primary current = s.builtBy current := by
    rw [ofBlob, ofBytes_toBlob hs]
  rw [hblob]
  constructor
  · intro stored now hstored hnow hne
    simp only [builtBy, hstored, hnow]
    exact if_neg hne
  · intro heq
    unfold builtBy
    split
    · next stored now hstored => exact if_pos (heq stored now hstored rfl)
    · rfl

/-- A store of one artifact, built by hand and read again, is refused for another toolchain only. -/
theorem ofBlob_toBlob_single :
    ∃ s : ArtifactStore, s = (empty (some "rustc 1.80.0")).put "unit_a" ⟨.primary, [0, 255], "fn main() \x7b\x7d"⟩ ∧
      s.Built ∧ s.Storable ∧ ofBlob s.toBlob "b" none = .ok s ∧
      ofBlob s.toBlob "unit_a" (some "rustc 1.80.0") = .ok s ∧
      ofBlob s.toBlob "unit_a" (some "rustc 1.99.0")
        = .error (.otherToolchain "rustc 1.80.0" "rustc 1.99.0") := by
  -- one artifact put into an empty store of a known toolchain
  have hbuilt : ((empty (some "rustc 1.80.0")).put "unit_a" ⟨.primary, [0, 255], "fn main() \x7b\x7d"⟩).Built :=
    .put (.empty (by rintro t ⟨⟩; decide)) ⟨by decide, by decide, by decide⟩
  have hstorable := ofBlob_toBlob.1 _ hbuilt (show 1 < capacity 4 by decide)
  have hread := ofBlob_toBlob.2 _ hstorable
  refine ⟨_, rfl, hbuilt, hstorable, (hread _ _).2 ?_, (hread _ _).2 ?_, (hread _ _).1 _ _ rfl rfl (by decide)⟩
  · rintro stored now - ⟨⟩
  · rintro stored now ⟨⟩ ⟨⟩
    rfl

end ArtifactStore

end CircuitBlocks
