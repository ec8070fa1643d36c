import CircuitBlocks.FileTree.Basic
import CircuitBlocks.Text.Utf8

/-!
# File trees — reading and writing by path

`read`, `write` and `createDirectories` walk to what a path names and answer as the system does. Each
gives the first reason against it that the walk meets. A refusal changes nothing, but for the
directories that `createDirectories` made before it.
-/

namespace CircuitBlocks.FileTree

/-- What is read from the file of a program. Its bytes matter to nobody, but they are no text. -/
def programBytes : List UInt8 := [0x7F, 0x45, 0x4C, 0x46, 0xFF]

/-- The bytes of a file. -/
def read (tree : FileTree) (here : Location) (path : String) : Except SystemError (List UInt8) := do
  match (← tree.locate here path).node? with
  | none => throw .notFound
  | some (.directory _) => throw .isDirectory
  | some (.program _) => return programBytes
  | some (.file contents) => return contents

/-- The text of a file. -/
def readText (tree : FileTree) (here : Location) (path : String) : Except SystemError String := do
  match Text.Utf8.decode? (← tree.read here path) with
  | none => throw .notText
  | some s => return s

/-- A path without slashes at its end. -/
def withoutEndSlashes (path : String) : String :=
  let cs := (path.toList.reverse.dropWhile (· = '/')).reverse
  if cs = [] ∧ Path.isAbsolute path then "/" else String.ofList cs

/-- The tree with a file written, in a directory that is there. A path that ends in a slash names no
file. -/
def write (tree : FileTree) (here : Location) (path : String) (contents : List UInt8) :
    Except SystemError FileTree := do
  Path.check path
  let pieces := Path.fromRoot here (withoutEndSlashes path)
  if withoutEndSlashes path ≠ path then
    -- Whatever the last name is, the directory around it must be there.
    let _ ← tree.walk (pieces.dropLast ++ ["."])
    throw .isDirectory
  let there ← tree.walk pieces
  match there.node? with
  | some (.directory _) => throw .isDirectory
  | some (.program _) => throw .permissionDenied
  | _ => return tree.install there.place (.file contents)

/-- Whether a path names a file. -/
def isFile (tree : FileTree) (here : Location) (path : String) : Bool :=
  match tree.locate here path with
  | .error _ => false
  | .ok there =>
    match there.node? with
    | some (.file _) | some (.program _) => true
    | _ => false

/-- Whether a path names a directory. -/
def isDirectory (tree : FileTree) (here : Location) (path : String) : Bool :=
  match tree.locate here path with
  | .error _ => false
  | .ok there =>
    match there.node? with
    | some (.directory _) => true
    | _ => false

/-- The tree with one directory more, in a directory that is there. -/
def createDirectory (tree : FileTree) (here : Location) (path : String) :
    Except SystemError FileTree := do
  Path.check path
  let there ← tree.walk (Path.fromRoot here (withoutEndSlashes path))
  match there.node? with
  | some _ => throw .alreadyExists
  | none => return tree.install there.place (.directory [])

/-- Creates a directory and those around it; each may be there already. Directories that were created
before a refusal stay. `fuel` bounds how many are missing. -/
def createMissing (tree : FileTree) (here : Location) : (fuel : Nat) → String →
    Except SystemError Unit × FileTree
  | 0, _ => (.error .notFound, tree)
  | fuel + 1, path =>
    if path = "" then (.ok (), tree)
    else match tree.createDirectory here path with
      | .ok tree => (.ok (), tree)
      | .error e =>
        if e = .notFound then
          match Path.parent? path with
          | none => (.error .notFound, tree)
          | some around =>
            match tree.createMissing here fuel around with
            | (.error e, tree) => (.error e, tree)
            | (.ok _, tree) =>
              match tree.createDirectory here path with
              | .ok tree => (.ok (), tree)
              | .error e => (if tree.isDirectory here path then .ok () else .error e, tree)
        else (if tree.isDirectory here path then .ok () else .error e, tree)

/-- Creates a directory and those around it, and gives the tree after it. -/
def createDirectories (tree : FileTree) (here : Location) (path : String) :
    Except SystemError Unit × FileTree :=
  tree.createMissing here (path.length + 1) path

end CircuitBlocks.FileTree
