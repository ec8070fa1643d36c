import CircuitBlocks.Compiler
import CircuitBlocks.Path

/-!
# File trees — the files of a machine

A tree is a directory whose entries are files, compilers and further directories. A path is walked
part by part from the root, and every part but the last must lead to a directory that is there. A
`Position` is a point of such a walk: it remembers the directories that were passed, so that `..`
leads back to where the walk came from.

* `FileTree.install` puts something at a location and makes directories on the way to it.
* `FileTree.locate` gives the position that a path leads to, or why it leads nowhere.
* `node?_install` says that what was installed is there.
-/

namespace CircuitBlocks

/-! ## Trees -/

/-- What a location holds. -/
inductive Node where
  | file (contents : List UInt8)
  | directory (entries : List (String × Node))
  | program (compiler : Compiler)

/-- What a directory holds, by name. -/
abbrev Entries := List (String × Node)

namespace Node

/-- The entries of a node. Only a directory has some. -/
def entries : Node → Entries
  | .directory entries => entries
  | _ => []

/-- What is at a location below a node. -/
def node? (n : Node) : Location → Option Node
  | [] => some n
  | name :: rest => (n.entries.lookup name).bind (·.node? rest)

/-- Entries with one more, in place of what had its name. -/
def put (entries : Entries) (name : String) (n : Node) : Entries :=
  (name, n) :: entries.filter fun e => e.1 ≠ name

/-- What `around` becomes when `n` is put at a location below it. Only the entries of a directory on
the way are kept. -/
def install (n : Node) : Location → Option Node → Node
  | [], _ => n
  | name :: rest, around =>
    let entries := (around.map (·.entries)).getD []
    .directory (put entries name (n.install rest (entries.lookup name)))

mutual

/-- All that is below a node at a location, each directory before what it holds. -/
def descendants (here : Location) : Node → List (Location × Node)
  | .directory entries => descendantsIn here entries
  | _ => []

/-- All that some entries of a location hold. -/
def descendantsIn (here : Location) : Entries → List (Location × Node)
  | [] => []
  | (name, n) :: rest =>
    (here ++ [name], n) :: n.descendants (here ++ [name]) ++ descendantsIn here rest

end

end Node

/-- The files of a machine. -/
structure FileTree where
  entries : Entries

namespace FileTree

/-- The tree without files. -/
def empty : FileTree := ⟨[]⟩

/-- The root directory. -/
def root (tree : FileTree) : Node := .directory tree.entries

/-- What is at a location. -/
def node? (tree : FileTree) (place : Location) : Option Node := tree.root.node? place

/-- The tree with something put at a location, and directories on the way to it. The root stays. -/
def install (tree : FileTree) (place : Location) (n : Node) : FileTree :=
  if place = [] then tree else ⟨(n.install place (some tree.root)).entries⟩

/-- The tree with a directory at a location. One that is there already keeps what it holds. -/
def installDirectory (tree : FileTree) (place : Location) : FileTree :=
  match tree.node? place with
  | some (.directory _) => tree
  | _ => tree.install place (.directory [])

/-- All that is in the tree, each directory before what it holds. -/
def toList (tree : FileTree) : List (Location × Node) := tree.root.descendants []

end FileTree

@[simp] theorem Node.entries_directory (entries : Entries) :
    (Node.directory entries).entries = entries := rfl

@[simp] theorem Node.lookup_put (entries : Entries) (name : String) (n : Node) :
    (Node.put entries name n).lookup name = some n := by
  simp [Node.put]

/-- What was put at a location is there. -/
theorem Node.node?_install (n : Node) (place : Location) (around : Option Node) :
    (n.install place around).node? place = some n := by
  induction place generalizing around with
  | nil => rfl
  | cons name rest ih => simp [Node.install, Node.node?, ih]

/-- What is installed at a place is found there. -/
@[simp] theorem FileTree.node?_install (tree : FileTree) {place : Location} (h : place ≠ [])
    (n : Node) : (tree.install place n).node? place = some n := by
  have := Node.node?_install n place (some tree.root)
  cases place with
  | nil => contradiction
  | cons name rest =>
    simpa [FileTree.install, FileTree.node?, FileTree.root, Node.install, Node.node?] using this

/-! ## Walks -/

/-- Where a walk is. -/
structure Position where
  /-- The steps from the root, the latest first: each name, and the directory that has it. -/
  trail : List (String × Node)
  /-- What is there. -/
  node? : Option Node

namespace Position

/-- The location of a position. -/
def place (p : Position) : Location := (p.trail.map (·.1)).reverse

/-- The position of the directory around. The root is its own. -/
def up (p : Position) : Position :=
  match p.trail with
  | [] => p
  | (_, around) :: trail => ⟨trail, some around⟩

/-- The position that one piece of a path leads to. -/
def step (p : Position) (piece : String) : Except SystemError Position :=
  match p.node? with
  | none => .error .notFound
  | some (.directory entries) =>
    if piece = "" ∨ piece = "." then .ok p
    else if piece = ".." then .ok p.up
    else if Path.nameLimit < piece.utf8ByteSize then .error .nameTooLong
    else .ok ⟨(piece, .directory entries) :: p.trail, entries.lookup piece⟩
  | some _ => .error .notDirectory

end Position

/-- Whether a text may be a path at all. -/
def Path.check (path : String) : Except SystemError Unit :=
  if '\x00' ∈ path.toList then .error .nulInPath
  else if path = "" then .error .notFound
  else if Path.limit < path.utf8ByteSize then .error .nameTooLong
  else .ok ()

/-- The pieces of a path on the way from the root, seen from the current directory. -/
def Path.fromRoot (here : Location) (path : String) : List String :=
  (if Path.isAbsolute path then [] else here) ++ Path.pieces path

namespace FileTree

/-- The position that the pieces of a path lead to from the root. -/
def walk (tree : FileTree) (pieces : List String) : Except SystemError Position :=
  pieces.foldlM Position.step ⟨[], some tree.root⟩

/-- The position that a path leads to from the current directory. -/
def locate (tree : FileTree) (here : Location) (path : String) : Except SystemError Position := do
  Path.check path
  tree.walk (Path.fromRoot here path)

end FileTree

end CircuitBlocks
