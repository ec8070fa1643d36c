import CircuitBlocks.SortedMap
import CircuitBlocks.Text.Lines

/-!
# Artifact stores — what a block was compiled to

A store keeps compiled artifacts by name, each with the text that it was compiled from, and the
fingerprint of the toolchain that built them. The set is replaced as a whole after a successful
compile.
-/

namespace CircuitBlocks

/-- What an artifact is linked as. -/
inductive ArtifactKind where
  /-- A loadable library with a procedure table. -/
  | primary
  /-- A crate built from an auxiliary file and linked into the primary library. -/
  | auxiliary
  deriving DecidableEq, Repr

/-- A compiled artifact, without its name. -/
structure Artifact where
  kind : ArtifactKind
  payload : List UInt8
  source : String
  deriving DecidableEq, Repr

/-- The artifacts of a block by name. -/
structure ArtifactStore where
  artifacts : SortedMap String Artifact
  /-- The fingerprint of the toolchain that built them, if it is known. -/
  toolchain : Option String
  deriving DecidableEq

namespace ArtifactStore

/-- The store without artifacts. -/
def empty (toolchain : Option String) : ArtifactStore := ⟨∅, toolchain⟩

/-- The artifact of a name. -/
def get? (s : ArtifactStore) (name : String) : Option Artifact := s.artifacts.get? name

/-- The store with an artifact under a name, in place of what was there. -/
def put (s : ArtifactStore) (name : String) (artifact : Artifact) : ArtifactStore :=
  { s with artifacts := s.artifacts.insert name artifact }

/-- The names of all artifacts, in order. -/
def names (s : ArtifactStore) : List String := s.artifacts.keys

/-- The names of the artifacts that were built from auxiliary files, but for the given one. -/
def auxiliaryNames (s : ArtifactStore) (primary : String) : NameSet :=
  .ofList ((s.artifacts.entries.filter fun e => e.1 ≠ primary && e.2.kind = .auxiliary).map (·.1))

@[simp] theorem get?_put (s : ArtifactStore) (name other : String) (a : Artifact) :
    (s.put name a).get? other = if other = name then some a else s.get? other := by
  simp [put, get?]

end ArtifactStore

/-! ## Library files -/

/-- How the name of a library file begins. -/
def libraryStart : String := "lib"

/-- How the name of a loadable library file ends. -/
def libraryEnd : String := ".so"

/-- The file name of a loadable library. -/
def libraryFileName (name : String) : String := libraryStart ++ name ++ libraryEnd

end CircuitBlocks
