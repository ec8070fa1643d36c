import CircuitBlocks.Artifact.Store
import CircuitBlocks.FileTree.Access

/-!
# Exported libraries — an artifact written where a later session finds it
-/

namespace CircuitBlocks

/-- Why an artifact was not exported. -/
inductive ExportError where
  | noArtifact (name : String)
  | system (e : SystemError)
  deriving DecidableEq, Repr

/-- The wording of a refusal. -/
def ExportError.message : ExportError → String
  | noArtifact name => s!"no artifact named {name}"
  | system e => e.message

/-- Writes an artifact as a library file into a directory, which is created if need be. Gives the
file's path and the files after it. -/
def ArtifactStore.exportLibrary (s : ArtifactStore) (name directory : String) (here : Location)
    (files : FileTree) : Except ExportError String × FileTree :=
  match s.get? name with
  | none => (.error (.noArtifact name), files)
  | some artifact =>
    match files.createDirectories here directory with
    | (.error e, files) => (.error (.system e), files)
    | (.ok _, files) =>
      let path := Path.join directory (libraryFileName name)
      match files.write here path artifact.payload with
      | .error e => (.error (.system e), files)
      | .ok files => (.ok path, files)

end CircuitBlocks
