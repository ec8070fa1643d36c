import CircuitBlocks.Artifact.Blob
import CircuitBlocks.Proofs.MessagePack.Record
import CircuitBlocks.Proofs.MessagePack.RoundTrip

/-!
# Artifact blobs — a store reads back

A size of more than four bytes has no format, so a store is written faithfully if its names, sources and
payloads are shorter than that, and if it has fewer artifacts.

* `ArtifactStore.Storable` — the stores whose sizes have a format.
* **`ArtifactStore.ofBytes_toBlob`** — the bytes of a store hold that store.
-/

namespace CircuitBlocks

open BigEndian (capacity)
open Text (Utf8.encode)

/-- An artifact under a name, whose sizes have a format. -/
structure Artifact.Storable (name : String) (a : Artifact) : Prop where
  name : (Utf8.encode name).length < capacity 4
  payload : a.payload.length < capacity 4
  source : (Utf8.encode a.source).length < capacity 4

/-- A store whose sizes have a format. -/
structure ArtifactStore.Storable (s : ArtifactStore) : Prop where
  size : s.artifacts.entries.length < capacity 4
  toolchain : ∀ t, s.toolchain = some t → (Utf8.encode t).length < capacity 4
  artifacts : ∀ e ∈ s.artifacts.entries, e.2.Storable e.1

/-! ## Artifacts -/

theorem ArtifactKind.ofPacked?_storedName (kind : ArtifactKind) :
    ofPacked? (.text kind.storedName) = some kind := by
  have hname : MessagePack.name? storedNames (.text kind.storedName) = some (some kind.storedName) :=
    MessagePack.name?_text (by cases kind <;> decide)
  have hvariant : MessagePack.plainVariant? storedNames (.text kind.storedName)
      = some kind.storedName := by
    show (MessagePack.name? storedNames (.text kind.storedName)).join = some kind.storedName
    rw [hname]
    rfl
  rw [ofPacked?, hvariant]
  cases kind <;> rfl

namespace Artifact

/-- An artifact is read back from what it is packed into. -/
theorem ofPacked?_packed (name : String) (a : Artifact) :
    ofPacked? (a.packed name) = some (name, a) := by
  have hfields : MessagePack.fields? ["name", "kind", "payload", "source_text"] (a.packed name)
      = some [("name", .text name), ("kind", .text a.kind.storedName), ("payload", .binary a.payload),
        ("source_text", .text a.source)] :=
    MessagePack.fields?_record (by simp)
      (show ["name", "kind", "payload", "source_text"].Nodup by decide)
  rw [ofPacked?, hfields]
  simp [MessagePack.required, List.lookup_cons, ArtifactKind.ofPacked?_storedName,
    MessagePack.readBytes]

/-- A packed artifact that can be stored fits the format. -/
theorem Storable.fits {name : String} {a : Artifact} (h : a.Storable name) (depth : Nat) :
    MessagePack.Fits (depth + 1) (a.packed name) := by
  have hkind : (Utf8.encode a.kind.storedName).length < capacity 4 := by
    cases a.kind <;> decide
  refine .map (by show 4 < capacity 4; decide) ?_ ?_
  · simp only [List.forall_mem_map, List.forall_mem_cons]
    refine ⟨.string ?_, .string ?_, .string ?_, .string ?_, fun _ h => nomatch h⟩ <;> decide
  · simp only [List.forall_mem_map, List.forall_mem_cons]
    exact ⟨.string h.name, .string hkind, .binary h.payload, .string h.source, fun _ h => nomatch h⟩

end Artifact

/-! ## Stores -/

namespace ArtifactStore

/-- So does the envelope of artifacts that can all be stored. -/
theorem Storable.fits {s : ArtifactStore} (h : s.Storable) : MessagePack.Fits 3 s.envelope := by
  -- the envelope, its list, and each artifact in it hold parts
  refine .map (by show 3 < capacity 4; decide) ?_ ?_
  · simp only [List.forall_mem_map, List.forall_mem_cons]
    refine ⟨.string ?_, .string ?_, .string ?_, fun _ h => nomatch h⟩ <;> decide
  · simp only [List.forall_mem_map, List.forall_mem_cons]
    refine ⟨.natural (by decide), ?_, .array ?_ ?_, fun _ h => nomatch h⟩
    · cases ht : s.toolchain with
      | none => exact .nil
      | some t => exact .string (h.toolchain t ht)
    · rw [List.length_map]
      exact h.size
    · simp only [List.forall_mem_map]
      exact fun e he => (h.artifacts e he).fits 0

/-- An envelope is read as the artifacts that were put into it. -/
theorem ofEnvelope?_envelope (s : ArtifactStore) : ofEnvelope? s.envelope = some (blobFormat, s) := by
  obtain ⟨artifacts, toolchain⟩ := s
  -- whether a toolchain is named or not, its field has a value that is read as it is
  obtain ⟨packed, hpacked, hfields⟩ : ∃ packed,
      MessagePack.readNullable MessagePack.readText packed = some toolchain ∧
      MessagePack.fields? ["format", "toolchain", "artifacts"] (envelope ⟨artifacts, toolchain⟩)
        = some [("format", .natural blobFormat), ("toolchain", packed),
          ("artifacts", .array (artifacts.entries.map fun e => e.2.packed e.1))] := by
    refine ⟨_, ?_, MessagePack.fields?_record (by simp)
      (show ["format", "toolchain", "artifacts"].Nodup by decide)⟩
    cases toolchain with
    | none => rfl
    | some t => exact MessagePack.readNullable_text t
  have hartifacts : (artifacts.entries.map fun e => e.2.packed e.1).mapM Artifact.ofPacked?
      = some artifacts.entries := mapM_map_eq_some fun e _ => Artifact.ofPacked?_packed e.1 e.2
  have hformat : MessagePack.readNatural (capacity 4 - 1) (.natural blobFormat) = some blobFormat := by
    decide
  rw [ofEnvelope?, hfields]
  simp [MessagePack.required, MessagePack.nullable, List.lookup_cons, hpacked, MessagePack.readList,
    hartifacts, hformat]

/-- The bytes of a store hold that store, whatever the primary name. -/
theorem ofBytes_toBlob {s : ArtifactStore} (h : s.Storable) (primary : String) :
    ofBytes s.toBlob primary = .ok s := by
  have hfits : MessagePack.Fits MessagePack.depthLimit s.envelope := h.fits.mono (by decide)
  have hdecode := MessagePack.decode?_encode hfits []
  rw [List.append_nil] at hdecode
  simp only [ofBytes, toBlob, hdecode, ofEnvelope?_envelope, Nat.lt_irrefl, if_false]

/-- A store that passes the check of its toolchain is left as it is. -/
theorem builtBy_eq_ok {current : Option String} {s s' : ArtifactStore} (h : s.builtBy current = .ok s') :
    s' = s := by
  unfold builtBy at h
  split at h
  · split at h
    · cases h
      rfl
    · cases h
  · cases h
    rfl

end ArtifactStore

end CircuitBlocks
