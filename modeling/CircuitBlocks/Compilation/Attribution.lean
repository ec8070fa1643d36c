import CircuitBlocks.Compilation.Basic

/-!
# Attribution — which source a compiled library comes from

A compiler leaves libraries behind, and their file names tell what they are. A library with the name of
an auxiliary crate comes from that file, even if the name begins like the primary one; any other
library whose name begins with the primary name comes from the primary unit, and the rest is dropped.
-/

namespace CircuitBlocks

/-- A compiled library before it is known where it comes from. -/
structure ProducedLibrary where
  name : String
  payload : List UInt8
  deriving DecidableEq, Repr

namespace ProducedLibrary

/-- How the name of a crate's library file ends. -/
def crateEnd : String := ".rlib"

/-- The name of the artifact in a library file. Files that are no libraries hold none. -/
def artifactName? (fileName : String) : Option String := do
  let stem ← Text.stripEnd? fileName crateEnd <|> Text.stripEnd? fileName libraryEnd
  return (Text.stripStart? stem libraryStart).getD stem

/-- The library in a file. -/
def ofFile? (file : String × List UInt8) : Option ProducedLibrary :=
  (artifactName? file.1).map fun name => ⟨name, file.2⟩

/-- The libraries among files, ordered by name; those with one name stay in order. -/
def ofFiles (files : List (String × List UInt8)) : List ProducedLibrary :=
  (files.filterMap ofFile?).mergeSort fun a b => a.name ≤ b.name

/-- The artifact that a library is for a request, if it comes from one of the request's sources. -/
def attribute? (r : CompileRequest) (p : ProducedLibrary) : Option Artifact :=
  match r.auxiliary? p.name with
  | some f => some ⟨.auxiliary, p.payload, f.contents⟩
  | none =>
    if Text.startsWith p.name r.primaryName then some ⟨.primary, p.payload, r.primarySource⟩
    else none

end ProducedLibrary

/-- The store with a library added, if it comes from one of the request's sources. -/
def ArtifactStore.addProduced (r : CompileRequest) (s : ArtifactStore) (p : ProducedLibrary) :
    ArtifactStore :=
  match p.attribute? r with
  | none => s
  | some artifact => s.put p.name artifact

/-- The store of the libraries that were produced for a request. -/
def CompileRequest.attribute (r : CompileRequest) (produced : List ProducedLibrary)
    (toolchain : Option String) : ArtifactStore :=
  produced.foldl (ArtifactStore.addProduced r) (.empty toolchain)

example : ProducedLibrary.artifactName? "liba.rlib" = some "a" ∧
    ProducedLibrary.artifactName? "a.so" = some "a" ∧
    ProducedLibrary.artifactName? "liba.so.d" = none := by decide

end CircuitBlocks
