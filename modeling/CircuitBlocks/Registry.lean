import CircuitBlocks.AuxiliaryFile
import CircuitBlocks.BlockId
import CircuitBlocks.SortedMap

/-!
# The registry — auxiliary files and the blocks that use them

The registry keeps every auxiliary file of a project under the hash of its contents, together with the
set of blocks that use it. Two names for the same contents are refused, since a file is its contents.

* `insert` adds a file, `addUser` and `removeUser` keep the sets of users.
* `prune` drops the files without users.
-/

namespace CircuitBlocks

/-! ## Refusals -/

/-- Why the registry refused something. -/
inductive RegistryError where
  | unknownFile (hash : FileHash)
  | missingFiles (block : BlockId) (count : Nat)
  | invalidName (name : String)
  | duplicateContents (name existing : String)
  deriving DecidableEq, Repr

/-- The wording of a refusal. -/
def RegistryError.message : RegistryError → String
  | unknownFile hash => s!"unknown auxiliary file {hash}"
  | missingFiles block count =>
    s!"{count} additional source file(s) missing for block {block}"
  | invalidName name => s!"auxiliary file '{name}' does not map to a valid crate name"
  | duplicateContents name existing =>
    s!"auxiliary file '{name}' has the same contents as '{existing}'"

/-! ## The registry -/

/-- A registered file and the blocks that use it. -/
structure RegistryEntry where
  file : AuxiliaryFile
  users : NameSet
  deriving DecidableEq

/-- The auxiliary files of a project, by hash. -/
structure Registry where
  entries : SortedMap FileHash RegistryEntry
  deriving DecidableEq

namespace Registry

/-- The registry without files. -/
def empty : Registry := ⟨∅⟩

instance : Inhabited Registry := ⟨empty⟩

/-- The files, in the order of their hashes. -/
def files (r : Registry) : List AuxiliaryFile := r.entries.values.map (·.file)

/-- How many files there are. -/
def size (r : Registry) : Nat := r.entries.size

/-- The file under a hash. -/
def get (r : Registry) (hash : FileHash) : Except RegistryError AuxiliaryFile :=
  match r.entries.get? hash with
  | none => .error (.unknownFile hash)
  | some entry => .ok entry.file

/-- The registry with a file added, and the file's hash. A file that is there already stays as it
is. -/
def insert (r : Registry) (file : AuxiliaryFile) : Except RegistryError (FileHash × Registry) :=
  if !isCrateName file.crate then .error (.invalidName file.name)
  else match r.entries.get? file.hash with
    | some entry =>
      if entry.file.name = file.name then .ok (file.hash, r)
      else .error (.duplicateContents file.name entry.file.name)
    | none => .ok (file.hash, ⟨r.entries.insert file.hash ⟨file, ∅⟩⟩)

/-- The registry with the users of one file changed. -/
def changeUsers (r : Registry) (hash : FileHash) (change : NameSet → NameSet) :
    Except RegistryError Registry :=
  match r.entries.get? hash with
  | none => .error (.unknownFile hash)
  | some entry => .ok ⟨r.entries.insert hash { entry with users := change entry.users }⟩

/-- The registry with a block among the users of a file. -/
def addUser (r : Registry) (hash : FileHash) (block : BlockId) : Except RegistryError Registry :=
  r.changeUsers hash fun users => users.insert block ()

/-- The registry with a block no longer among the users of a file. -/
def removeUser (r : Registry) (hash : FileHash) (block : BlockId) : Except RegistryError Registry :=
  r.changeUsers hash fun users => users.erase block

/-- How many blocks use a file. -/
def userCount (r : Registry) (hash : FileHash) : Nat :=
  match r.entries.get? hash with
  | none => 0
  | some entry => entry.users.size

/-- The registry without the files that no block uses. -/
def prune (r : Registry) : Registry := ⟨r.entries.filter fun _ entry => entry.users.size ≠ 0⟩

end Registry

end CircuitBlocks
