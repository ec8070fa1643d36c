import CircuitBlocks.Proofs.Artifact.Blob
import CircuitBlocks.Proofs.SortedMap
import CircuitBlocks.Proofs.Text.Lines

/-!
# Maps of payloads — the older form of a blob

Before there were envelopes, a blob was a map from names to payloads. The two forms are told apart by reading an
envelope first, so a map must not be taken for one, not even if its names are those of an envelope's fields. It
never is, since the number of the format would be a payload.

* `MessagePack.payloads` — a map of payloads, and `HoldsMap` the bytes that hold one.
* `ArtifactStore.ofEnvelope?_payloads` — a map of payloads is no envelope.
* `ArtifactStore.HasPayloads` — the stores of a map of payloads.
* **`ArtifactStore.exists_ofBlob_of_holdsMap`** — a map of payloads is read without loss.
-/

namespace CircuitBlocks

open BigEndian (capacity)
open Text (Utf8.encode)

/-- A map from names to payloads. -/
def MessagePack.payloads (entries : List (String × List UInt8)) : MessagePack :=
  .map (entries.map fun e => (.text e.1, .binary e.2))

/-- Bytes that begin with a map from names to payloads, whichever formats its sizes are told in. -/
def HoldsMap (bytes : List UInt8) (entries : List (String × List UInt8)) : Prop :=
  ∃ rest, MessagePack.decode? bytes = some (.payloads entries, rest)

variable {entries : List (String × List UInt8)}

/-- A map of payloads whose sizes have a format is written as bytes that hold it, whatever follows. -/
theorem holdsMap_encode (hsize : entries.length < capacity 4)
    (hshort : ∀ e ∈ entries, (Utf8.encode e.1).length < capacity 4 ∧ e.2.length < capacity 4) (rest : List UInt8) :
    HoldsMap ((MessagePack.payloads entries).encode ++ rest) entries := by
  have hfits : MessagePack.Fits MessagePack.depthLimit (.payloads entries) := by
    refine .map (by rwa [List.length_map]) ?_ ?_ <;> rw [List.forall_mem_map]
    · exact fun e he => .string (hshort e he).1
    · exact fun e he => .binary (hshort e he).2
  exact ⟨rest, MessagePack.decode?_encode hfits rest⟩

namespace ArtifactStore

/-- A map of payloads is no envelope, whatever its names are. -/
theorem ofEnvelope?_payloads (entries : List (String × List UInt8)) : ofEnvelope? (.payloads entries) = none := by
  rw [Option.eq_none_iff_forall_ne_some]
  rintro ⟨format, s⟩ h
  obtain ⟨f, hf, h⟩ := Option.bind_eq_some_iff.1 h
  obtain ⟨format, hformat, -⟩ := Option.bind_eq_some_iff.1 h
  have hbinary : ∀ field ∈ f, ∃ payload, field.2 = .binary payload := by
    refine MessagePack.forall_of_declaredEntries? (P := fun v => ∃ payload, v = .binary payload) ?_ hf
    rw [List.forall_mem_map]
    exact fun e _ => ⟨e.2, rfl⟩
  -- the number of the format is missing, or is a payload
  obtain ⟨v, ⟨payload, rfl⟩, hread⟩ :=
    MessagePack.exists_of_required (P := fun v => ∃ payload, v = .binary payload) hbinary hformat
  cases hread

/-- The artifact of a payload: of no known source, and primary if its name begins with the primary name. -/
def payloadArtifact (primary : String) (e : String × List UInt8) : Artifact where
  kind := if Text.startsWith e.1 primary then .primary else .auxiliary
  payload := e.2
  source := ""

/-- A bare map of payloads is read as an artifact for each of them. -/
theorem ofPayloads?_payloads (primary : String) (entries : List (String × List UInt8)) :
    ofPayloads? primary (.payloads entries)
      = some ⟨.ofList (entries.map fun e => (e.1, payloadArtifact primary e)), none⟩ := by
  have hread : (entries.map fun e => (MessagePack.text e.1, MessagePack.binary e.2)).mapM payloadEntry?
      = some entries :=
    mapM_map_eq_some fun e _ => by simp [ payloadEntry?, MessagePack.readBytes]
  simp only [ofPayloads?, MessagePack.payloads, hread]
  rfl

/-- What bytes that hold a map of payloads are read as. -/
theorem ofBlob_of_holdsMap {bytes : List UInt8} (h : HoldsMap bytes entries) (primary : String)
    (current : Option String) : ofBlob bytes primary current
      = .ok ⟨.ofList (entries.map fun e => (e.1, payloadArtifact primary e)), none⟩ := by
  obtain ⟨rest, hdecode⟩ := h
  simp only [ofBlob, ofBytes, hdecode, ofEnvelope?_payloads, ofPayloads?_payloads]
  rfl

/-- A store that has the artifacts of a map of payloads and no others: each under its name, primary just if that
begins with the primary name, and of no source. It is for no known toolchain. -/
structure HasPayloads (s : ArtifactStore) (primary : String) (entries : List (String × List UInt8)) : Prop where
  toolchain : s.toolchain = none
  artifacts : ∀ name a, s.get? name = some a ↔ (name, a.payload) ∈ entries ∧
    (a.kind = .primary ↔ primary.toList <+: name.toList) ∧ a.source = ""

/-- Of a payload alone, the kind is told by its name, and the source is not known. -/
theorem eq_payloadArtifact_iff {primary : String} {e : String × List UInt8} {a : Artifact} :
    a = payloadArtifact primary e ↔
      a.payload = e.2 ∧ (a.kind = .primary ↔ primary.toList <+: e.1.toList) ∧ a.source = "" := by
  obtain ⟨kind, payload, source⟩ := a
  rw [payloadArtifact, Artifact.mk.injEq, ← Text.startsWith_iff]
  cases kind <;> cases Text.startsWith e.1 primary <;> simp

/-- A map of payloads is read without loss, for every primary name and every toolchain. -/
theorem exists_ofBlob_of_holdsMap (hnodup : (entries.map (·.1)).Nodup) {bytes : List UInt8}
    (h : HoldsMap bytes entries) (primary : String) (current : Option String) :
    ∃ s, ofBlob bytes primary current = .ok s ∧ s.HasPayloads primary entries := by
  refine ⟨_, ofBlob_of_holdsMap h primary current, rfl, fun name a => ?_⟩
  -- no name occurs twice, so none of the payloads is overwritten
  have hkeys : ((entries.map fun e => (e.1, payloadArtifact primary e)).map (·.1)).Nodup := by
    rwa [List.map_map]
  refine (SortedMap.get?_ofList hkeys).trans ?_
  rw [List.mem_map]
  constructor
  · rintro ⟨e, he, heq⟩
    obtain ⟨rfl, rfl⟩ := Prod.mk.inj heq
    exact ⟨he, (eq_payloadArtifact_iff.1 rfl).2⟩
  · rintro ⟨he, hrest⟩
    exact ⟨(name, a.payload), he, Prod.ext rfl (eq_payloadArtifact_iff.2 ⟨rfl, hrest⟩).symm⟩

end ArtifactStore

end CircuitBlocks
