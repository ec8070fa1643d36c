import CircuitBlocks.Artifact.Store
import CircuitBlocks.Machine
import CircuitBlocks.Shape.Basic

/-!
# Loading — from the name of an artifact to a library that runs

A name is looked for in tiers: in artifact stores, and in directories of exported libraries. The first
tier that knows the name decides. What it holds must open, export a procedure table of this host's
contract, and have the shape that is asked for.

* `resolve` finds and opens the library of a name, and `loadUnit` also checks its shape.
* `LoadError.isIncompatible` tells an artifact for another contract from a broken one.
-/

namespace CircuitBlocks

/-! ## Refusals -/

/-- Why a library was not loaded. -/
inductive LoadError where
  | missing (name : String)
  | notLoadable (name : String)
  | unopened (name detail : String)
  | tableMissing (name detail : String)
  | otherContract (name : String) (found : Nat)
  | otherShape (name : String) (tag : Nat) (expected : ProcedureShape)
  | createFailed (name : String)
  | unstaged (name : String) (cause : SystemError)
  deriving DecidableEq, Repr

namespace LoadError

/-- The wording of a tag that a table gives for its shape. -/
def tagText (tag : Nat) : String :=
  match ProcedureShape.ofTag? tag with
  | some shape => shape.name
  | none => s!"unknown ({tag})"

/-- The wording of a refusal. -/
def message : LoadError → String
  | missing name => s!"no artifact named '{name}' in memory or in the project directory"
  | notLoadable name => s!"artifact '{name}' is not a loadable library"
  | unopened name detail => s!"failed to open library '{name}': {detail}"
  | tableMissing name detail =>
    s!"library '{name}' does not export the procedure table: {detail}"
  | otherContract name found =>
    s!"library '{name}' has procedure ABI v{found}, host expects v{contractVersion}"
  | otherShape name tag expected =>
    s!"library '{name}' implements the " ++ tagText tag ++
      " procedure shape, block expects " ++ expected.name
  | createFailed name => s!"procedure in '{name}' could not be instantiated"
  | unstaged name cause => s!"failed to stage library '{name}': " ++ cause.message

/-- Whether the artifact was built for another contract, so that it is to be built anew. -/
def isIncompatible : LoadError → Bool
  | otherContract .. | otherShape .. | tableMissing .. => true
  | _ => false

end LoadError

/-! ## Libraries -/

/-- An opened library of this host's contract. -/
structure LibraryUnit where
  name : String
  table : ProcedureTable

/-- The shape that a library gives, if there is one of its tag. -/
def LibraryUnit.shape? (u : LibraryUnit) : Option ProcedureShape :=
  ProcedureShape.ofTag? u.table.shapeTag

/-- The library of an image. -/
def LibraryImage.open (name : String) : LibraryImage → Except LoadError LibraryUnit
  | .unreadable detail => .error (.unopened name detail)
  | .tableMissing detail => .error (.tableMissing name detail)
  | .procedure table =>
    if table.contractVersion = contractVersion then .ok ⟨name, table⟩
    else .error (.otherContract name table.contractVersion)

/-- The memory of a new instance. -/
def LibraryUnit.instantiate (u : LibraryUnit) : Except LoadError Memory :=
  match u.table.create with
  | none => .error (.createFailed u.name)
  | some memory => .ok memory

/-! ## Tiers -/

/-- A place where libraries are looked for. -/
inductive LibraryTier where
  | store (s : ArtifactStore)
  | directory (path : String)

/-- How many bytes a temporary file's name has besides the name of the library in it. -/
def stagingOverhead : Nat := 13

/-- Why a library cannot be put into a temporary file for the platform's loader, if it cannot. The
name of the file contains that of the library. -/
def stagingError? (name : String) : Option SystemError :=
  if '\x00' ∈ name.toList then some .nulInPath
  else if '/' ∈ name.toList then some .notFound
  else if Path.nameLimit < name.utf8ByteSize + stagingOverhead then some .nameTooLong
  else none

/-- The library of an artifact of a store. -/
def Artifact.open (a : Artifact) (name : String) (m : Machine) : Except LoadError LibraryUnit :=
  if a.kind ≠ .primary then .error (.notLoadable name)
  else match stagingError? name with
    | some e => .error (.unstaged name e)
    | none => (m.loader a.payload).open name

/-- The files of a directory that may hold a library, the preferred one first. -/
def libraryPaths (directory name : String) : List String :=
  [Path.join directory (libraryFileName name), Path.join directory (name ++ libraryEnd)]

/-- The library in a file. -/
def Machine.openLibrary (m : Machine) (name path : String) : Except LoadError LibraryUnit :=
  match m.files.read m.here path with
  | .error e => .error (.unopened name e.message)
  | .ok bytes => (m.loader bytes).open name

/-- What a tier has for a name, if it knows the name. -/
def LibraryTier.resolve? (m : Machine) (name : String) :
    LibraryTier → Option (Except LoadError LibraryUnit)
  | store s => (s.get? name).map fun a => a.open name m
  | directory path =>
    ((libraryPaths path name).find? (m.files.isFile m.here)).map (m.openLibrary name)

/-- The library of a name: that of the first tier that knows it. -/
def resolve (m : Machine) (tiers : List LibraryTier) (name : String) :
    Except LoadError LibraryUnit :=
  (tiers.findSome? (·.resolve? m name)).getD (.error (.missing name))

/-- The library of a name, with the given shape. -/
def loadUnit (m : Machine) (tiers : List LibraryTier) (name : String) (expected : ProcedureShape) :
    Except LoadError LibraryUnit :=
  match resolve m tiers name with
  | .error e => .error e
  | .ok u =>
    if u.shape? = some expected then .ok u
    else .error (.otherShape name u.table.shapeTag expected)

end CircuitBlocks
