import CircuitBlocks.Artifact.Store
import CircuitBlocks.MessagePack.Parser
import CircuitBlocks.MessagePack.Printer
import CircuitBlocks.MessagePack.Record

/-!
# Artifact blobs — stores as bytes

A store is written as an envelope: a MessagePack record of the format's number, the toolchain and the
list of artifacts. Bytes that hold no envelope may hold an older form without number, a map from names
to payloads; it knows neither sources nor toolchain, and tells primary artifacts by the beginning of
their names.

* `toBlob` writes a store and `ofBlob` reads one.
* Artifacts of another toolchain than the current one are refused.
-/

namespace CircuitBlocks

/-- The number of the format that is written. -/
def blobFormat : Nat := 2

/-- Why bytes were not taken for a store. -/
inductive BlobError where
  | unreadable
  | newerFormat (format : Nat)
  | otherToolchain (stored current : String)
  deriving DecidableEq, Repr

/-- The wording of a refusal. What makes bytes unreadable is not told apart. -/
def BlobError.message : BlobError → String
  | unreadable => "unreadable artifact blob: neither an envelope nor a map of payloads"
  | newerFormat format =>
    s!"artifact blob format {format} is newer than supported format {blobFormat}"
  | otherToolchain stored current =>
    s!"artifacts were built by '{stored}', current toolchain is '{current}'"

/-! ## Kinds -/

/-- The stored name of a kind. -/
def ArtifactKind.storedName : ArtifactKind → String
  | primary => "Primary"
  | auxiliary => "Auxiliary"

/-- The stored names of the kinds, in their order. -/
def ArtifactKind.storedNames : List String := [primary, auxiliary].map storedName

/-- The kind that a value names. -/
def ArtifactKind.ofPacked? (v : MessagePack) : Option ArtifactKind := do
  match ← MessagePack.plainVariant? storedNames v with
  | "Primary" => some .primary
  | "Auxiliary" => some .auxiliary
  | _ => none

/-! ## Artifacts -/

/-- An artifact and its name as a record. -/
def Artifact.packed (name : String) (a : Artifact) : MessagePack :=
  .record [("name", .text name), ("kind", .text a.kind.storedName), ("payload", .binary a.payload),
    ("source_text", .text a.source)]

/-- The artifact of a record, and its name. -/
def Artifact.ofPacked? (v : MessagePack) : Option (String × Artifact) := do
  let f ← MessagePack.fields? ["name", "kind", "payload", "source_text"] v
  let name ← MessagePack.required f "name" MessagePack.readText
  return (name, {
    kind := ← MessagePack.required f "kind" ArtifactKind.ofPacked?
    payload := ← MessagePack.required f "payload" MessagePack.readBytes
    source := ← MessagePack.required f "source_text" MessagePack.readText })

/-! ## Envelopes -/

namespace ArtifactStore

/-- A store as an envelope. -/
def envelope (s : ArtifactStore) : MessagePack :=
  .record [("format", .natural blobFormat),
    ("toolchain", match s.toolchain with
      | none => .nil
      | some t => .text t),
    ("artifacts", .array (s.artifacts.entries.map fun e => e.2.packed e.1))]

/-- A store as bytes. -/
def toBlob (s : ArtifactStore) : List UInt8 := s.envelope.encode

/-- The format's number in an envelope, and the store. Of two artifacts with one name the later
counts. -/
def ofEnvelope? (v : MessagePack) : Option (Nat × ArtifactStore) := do
  let f ← MessagePack.fields? ["format", "toolchain", "artifacts"] v
  let format ← MessagePack.required f "format" (MessagePack.readNatural (BigEndian.capacity 4 - 1))
  let toolchain ← MessagePack.nullable f "toolchain" MessagePack.readText
  let artifacts ← MessagePack.required f "artifacts" (MessagePack.readList Artifact.ofPacked?)
  return (format, ⟨.ofList artifacts, toolchain⟩)

/-- An entry of a map of payloads. -/
def payloadEntry? (entry : MessagePack × MessagePack) : Option (String × List UInt8) := do
  return (← MessagePack.readText entry.1, ← MessagePack.readBytes entry.2)

/-- The store of a map of payloads. Artifacts whose names begin with the primary name are
primary. -/
def ofPayloads? (primary : String) : MessagePack → Option ArtifactStore
  | .map entries => do
    let payloads ← entries.mapM payloadEntry?
    let artifacts := payloads.map fun e =>
      (e.1, ⟨if Text.startsWith e.1 primary then .primary else .auxiliary, e.2, ""⟩)
    return ⟨.ofList artifacts, none⟩
  | _ => none

/-- The store that bytes hold, whatever toolchain it is for. What follows the first value does not
count. -/
def ofBytes (bytes : List UInt8) (primary : String) : Except BlobError ArtifactStore :=
  match MessagePack.decode? bytes with
  | none => .error .unreadable
  | some (v, _) =>
    match ofEnvelope? v with
    | some (format, s) => if blobFormat < format then .error (.newerFormat format) else .ok s
    | none =>
      match ofPayloads? primary v with
      | some s => .ok s
      | none => .error .unreadable

/-- A store, unless it is known to be for another toolchain than the current one. -/
def builtBy (current : Option String) (s : ArtifactStore) : Except BlobError ArtifactStore :=
  match s.toolchain, current with
  | some stored, some current =>
    if stored = current then .ok s else .error (.otherToolchain stored current)
  | _, _ => .ok s

/-- The store that bytes hold for the current toolchain, if that is known. -/
def ofBlob (bytes : List UInt8) (primary : String) (current : Option String) :
    Except BlobError ArtifactStore :=
  match ofBytes bytes primary with
  | .error e => .error e
  | .ok s => builtBy current s

end ArtifactStore

end CircuitBlocks
