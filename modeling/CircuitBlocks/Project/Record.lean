import CircuitBlocks.Artifact.Blob
import CircuitBlocks.Hex
import CircuitBlocks.Json.Record
import CircuitBlocks.Project.Basic
import CircuitBlocks.Shape.Document

/-!
# Block records — what a project file stores of a block

A record holds a block's code and ports, the hashes of its files, its status and its artifacts as a
hexadecimal blob. What the last attempt was made from is not stored; `restore?` takes it from the
artifacts. Where they cannot be restored the block counts as not compiled, and a warning says why.
-/

namespace CircuitBlocks

/-! ## Warnings -/

/-- Why artifacts were not restored. -/
inductive DiscardReason where
  /-- They are stored under another name than the block's. -/
  | otherBlock (stored expected : String)
  | nothingStored
  | notHexadecimal
  | blob (e : BlobError)
  /-- The primary artifact is not among them. -/
  | primaryMissing (name : String)
  deriving DecidableEq, Repr

/-- The wording of a reason. -/
def DiscardReason.text : DiscardReason → String
  | otherBlock stored expected =>
    s!"artifact '{stored}' does not belong to this block ('{expected}')"
  | nothingStored => "no compiled artifacts stored"
  | notHexadecimal => "artifact blob is not valid hex"
  | blob e => e.message
  | primaryMissing name => s!"artifact blob lacks '{name}'"

/-- What was left out while a project was loaded. -/
inductive LoadWarning where
  | missingFiles (e : RegistryError)
  | fileSkipped (e : RegistryError)
  | artifactsDiscarded (block : BlockId) (reason : DiscardReason)
  deriving DecidableEq, Repr

/-- The wording of a warning. -/
def LoadWarning.message : LoadWarning → String
  | missingFiles e => e.message
  | fileSkipped e => e.message ++ "; file skipped"
  | artifactsDiscarded block reason =>
    s!"compiled code of block {block} discarded: " ++ reason.text

/-! ## Records -/

/-- What is stored of a block. -/
structure BlockRecord where
  id : BlockId
  fragments : Fragments
  hashes : List FileHash
  artifactName : String
  /-- The number of the status. -/
  status : Nat
  /-- The artifacts in hexadecimal. -/
  blob : Option String
  shape : SignalShape
  deriving DecidableEq

namespace BlockRecord

/-- The record of a block. -/
def ofBlock (b : Block) : BlockRecord where
  id := b.id
  fragments := b.fragments
  hashes := b.hashes
  artifactName := b.artifactName
  status := b.status.ordinal
  blob := b.state.store?.map fun s => Hex.encode s.toBlob
  shape := b.shape

/-- A record as a document. -/
def document (r : BlockRecord) : Json :=
  .record ([("id", .text r.id), ("sourceCode", .text r.fragments.body),
      ("importsCode", .text r.fragments.imports), ("initCode", .text r.fragments.init),
      ("variablesCode", .text r.fragments.fields),
      ("extraSourceFiles", .array (r.hashes.map Json.text)), ("className", .text r.artifactName),
      ("CompileStatus", .natural r.status)] ++
    (r.blob.map fun blob => ("classMapBytes", Json.text blob)).toList ++
    [("signalShape", r.shape.document)])

/-- The stored names of the fields. -/
def fieldNames : List String :=
  ["id", "sourceCode", "importsCode", "initCode", "variablesCode", "extraSourceFiles", "className",
    "CompileStatus", "classMapBytes", "signalShape"]

/-- The record of a document. -/
def ofDocument? (v : Json) : Option BlockRecord := do
  let f ← v.fields? fieldNames
  return {
    id := ← f.required "id" Json.readText
    fragments := {
      body := ← f.withDefault "sourceCode" "" Json.readText
      imports := ← f.withDefault "importsCode" "" Json.readText
      init := ← f.withDefault "initCode" "" Json.readText
      fields := ← f.withDefault "variablesCode" "" Json.readText }
    hashes := ← f.withDefault "extraSourceFiles" [] (Json.readList Json.readText)
    artifactName := ← f.withDefault "className" "" Json.readText
    status := ← f.withDefault "CompileStatus" 0 (Json.readNatural Json.limit32)
    blob := ← f.withDefault "classMapBytes" none (Json.Fields.readNullable Json.readText)
    shape := ← f.withDefault "signalShape" .standard SignalShape.ofDocument? }

/-! ## Blocks -/

/-- The store in a record's blob, for the block's artifact and the current toolchain. -/
def store? (r : BlockRecord) (toolchain : Option String) : Except DiscardReason ArtifactStore :=
  match r.blob with
  | none => .error .nothingStored
  | some text =>
    match Hex.decode? text with
    | none => .error .notHexadecimal
    | some bytes =>
      match ArtifactStore.ofBlob bytes r.artifactName toolchain with
      | .error e => .error (.blob e)
      | .ok s => .ok s

/-- What a stored artifact was made from: its source, and the auxiliary artifacts beside it. -/
def attempt (name source : String) (s : ArtifactStore) : CompileRecord where
  artifactName := name
  source := source
  crates := s.auxiliaryNames name
  message := ""

/-- The compile state of a status with artifacts. -/
def stateOf (r : BlockRecord) (failed : Bool) (toolchain : Option String) :
    Except DiscardReason CompileState :=
  if r.artifactName ≠ r.id.artifactName then
    .error (.otherBlock r.artifactName r.id.artifactName)
  else match r.store? toolchain with
    | .error reason => .error reason
    | .ok s =>
      match s.get? r.artifactName with
      | none => .error (.primaryMissing r.artifactName)
      | some primary =>
        let record := attempt r.artifactName primary.source s
        if failed then .ok (.failed { record with message := errorTrailer } [] (some s))
        else .ok (.compiled record s)

/-- The compile state that a record stores. A number that is no status means not compiled. -/
def state (r : BlockRecord) (toolchain : Option String) : Except DiscardReason CompileState :=
  match (CompileStatus.ofOrdinal? r.status).getD .notCompiled with
  | .notCompiled => .ok .uncompiled
  | .success => r.stateOf false toolchain
  | .error => r.stateOf true toolchain

/-- The block of a record, with its files attached, and the warnings. -/
def restore (r : BlockRecord) (registry : Registry) (toolchain : Option String) :
    Block × Registry × List LoadWarning :=
  let (linked, b, registry) :=
    { id := r.id, fragments := r.fragments, shape := r.shape : Block }.relink registry r.hashes
  let unlinked := match linked with
    | .ok _ => []
    | .error e => [LoadWarning.missingFiles e]
  match r.state toolchain with
  | .ok state => ({ b with state }, registry, unlinked)
  | .error reason => (b, registry, unlinked ++ [.artifactsDiscarded r.id reason])

end BlockRecord

end CircuitBlocks
