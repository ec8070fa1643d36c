import CircuitBlocks.FileTree.Access
import CircuitBlocks.Json.Parser
import CircuitBlocks.Json.Printer
import CircuitBlocks.Project.Record

/-!
# Project files — projects as JSON documents

A project file has the format's number, the auxiliary files and the block records. Files and artifacts
that cannot be restored are left out with a warning; only a text that is no project document, or one of
a newer format, is refused.

* `text` writes a project and `ofText` reads one.
* `load` and `save` do so with a file.
-/

namespace CircuitBlocks

/-- The number of the format that is written. -/
def projectFormat : Nat := 1

/-! ## Refusals -/

/-- Why a project was not loaded or saved. -/
inductive ProjectError where
  | inaccessible (path : String) (cause : SystemError)
  | malformed
  | newerFormat (format : Nat)
  deriving DecidableEq, Repr

namespace ProjectError

/-- What is said of every text that is no project document. -/
def malformedDetail : String := "not a project document"

/-- The wording of a refusal. -/
def message : ProjectError → String
  | inaccessible path cause => s!"cannot access project file '{path}': " ++ cause.message
  | malformed => "malformed project file: " ++ malformedDetail
  | newerFormat format =>
    s!"project format {format} is newer than supported format {projectFormat}"

end ProjectError

/-! ## Documents -/

/-- What a project file holds. -/
structure ProjectRecord where
  format : Nat
  files : List AuxiliaryFile
  blocks : List BlockRecord
  deriving DecidableEq

namespace AuxiliaryFile

/-- A file as a document. Its hash follows from its contents and is not stored. -/
def document (f : AuxiliaryFile) : Json :=
  .record [("name", .text f.name), ("contents", .text f.contents)]

/-- The file of a document. -/
def ofDocument? (v : Json) : Option AuxiliaryFile := do
  let f ← v.fields? ["name", "contents"]
  return ⟨← f.required "name" Json.readText, ← f.required "contents" Json.readText⟩

end AuxiliaryFile

namespace ProjectRecord

/-- What is stored of a project. -/
def ofProject (p : Project) : ProjectRecord where
  format := projectFormat
  files := p.registry.files
  blocks := p.blocks.map .ofBlock

/-- A project record as a document. -/
def document (r : ProjectRecord) : Json :=
  .record [("format", .natural r.format),
    ("files", .array (r.files.map AuxiliaryFile.document)),
    ("blocks", .array (r.blocks.map BlockRecord.document))]

/-- The project record of a document. -/
def ofDocument? (v : Json) : Option ProjectRecord := do
  let f ← v.fields? ["format", "files", "blocks"]
  return {
    format := ← f.required "format" (Json.readNatural Json.limit32)
    files := ← f.withDefault "files" [] (Json.readList AuxiliaryFile.ofDocument?)
    blocks := ← f.withDefault "blocks" [] (Json.readList BlockRecord.ofDocument?) }

/-! ## Projects -/

/-- The registry with files added one after another, and the warnings of those left out. -/
def registerAll (r : Registry) : List AuxiliaryFile → Registry × List LoadWarning
  | [] => (r, [])
  | f :: rest =>
    match r.insert f with
    | .ok (_, r) => registerAll r rest
    | .error e =>
      let (r, warnings) := registerAll r rest
      (r, .fileSkipped e :: warnings)

/-- The blocks of records, in order, and the warnings. -/
def restoreAll (r : Registry) (toolchain : Option String) :
    List BlockRecord → List Block × Registry × List LoadWarning
  | [] => ([], r, [])
  | b :: rest =>
    let (block, r, here) := b.restore r toolchain
    let (blocks, r, there) := restoreAll r toolchain rest
    (block :: blocks, r, here ++ there)

/-- The project of a record, and the warnings. -/
def project (r : ProjectRecord) (toolchain : Option String) : Project × List LoadWarning :=
  let (registry, skipped) := registerAll .empty r.files
  let (blocks, registry, warnings) := restoreAll registry toolchain r.blocks
  (⟨registry, blocks⟩, skipped ++ warnings)

end ProjectRecord

/-! ## Texts and files -/

namespace Project

/-- A project as text. -/
def text (p : Project) : String := (ProjectRecord.ofProject p).document.pretty

/-- The project of a text for the current toolchain, if that is known, and the warnings. -/
def ofText (text : String) (toolchain : Option String) :
    Except ProjectError (Project × List LoadWarning) :=
  match (Json.parse? text).bind ProjectRecord.ofDocument? with
  | none => .error .malformed
  | some r =>
    if projectFormat < r.format then .error (.newerFormat r.format)
    else .ok (r.project toolchain)

/-- The project in a file. -/
def load (path : String) (toolchain : Option String) (here : Location) (files : FileTree) :
    Except ProjectError (Project × List LoadWarning) :=
  match files.readText here path with
  | .error e => .error (.inaccessible path e)
  | .ok text => ofText text toolchain

/-- The files after a project was saved. -/
def save (p : Project) (path : String) (here : Location) (files : FileTree) :
    Except ProjectError FileTree :=
  match files.write here path (Text.Utf8.encode p.text) with
  | .error e => .error (.inaccessible path e)
  | .ok files => .ok files

end Project

end CircuitBlocks
