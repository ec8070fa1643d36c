import CircuitBlocks.Text.Lines

/-!
# Paths — texts that name files

A path is its parts between slashes. Empty parts and parts `.` name nothing and are left out, but for
a `.` that begins a path which does not begin at the root.
-/

namespace CircuitBlocks.Path

/-- How many bytes a path may have. -/
def limit : Nat := 4095

/-- How many bytes a name may have. -/
def nameLimit : Nat := 255

/-- Whether the path begins at the root. -/
def isAbsolute (path : String) : Bool := Text.startsWith path "/"

/-- All that stands between slashes. -/
def pieces (path : String) : List String :=
  (Text.splitAtChar '/' path.toList).map String.ofList

/-- The parts that name something. -/
def parts (path : String) : List String :=
  let named := fun p : String => p ≠ "" ∧ p ≠ "."
  match pieces path with
  | "." :: rest => "." :: rest.filter named
  | all => all.filter named

/-- The path of some parts. -/
def ofParts (absolute : Bool) (parts : List String) : String :=
  (if absolute then "/" else "") ++ String.intercalate "/" parts

/-- The path without its last part, if it has one. -/
def parent? (path : String) : Option String :=
  match parts path with
  | [] => none
  | ps => some (ofParts (isAbsolute path) ps.dropLast)

/-- The last part, if it is a name. -/
def fileName? (path : String) : Option String :=
  match (parts path).getLast? with
  | some name => if name = "." ∨ name = ".." then none else some name
  | none => none

/-- What precedes the last dot of a name. A dot that begins the name does not count. -/
def stemOfChars (name : List Char) : List Char :=
  let afterDot := name.reverse.takeWhile (· ≠ '.')
  let beforeDot := name.take (name.length - afterDot.length - 1)
  if afterDot.length = name.length ∨ beforeDot = [] then name else beforeDot

/-- The file name without its extension. -/
def fileStem? (path : String) : Option String :=
  (fileName? path).map fun name => String.ofList (stemOfChars name.toList)

/-- A path inside of a directory. An absolute path stays as it is. -/
def join (directory path : String) : String :=
  if isAbsolute path ∨ directory = "" then path
  else if directory.toList.getLast? = some '/' then directory ++ path
  else directory ++ "/" ++ path

/-- The names on the way from the root to a path, seen from a directory that is given by such names. -/
def names (directory : List String) (path : String) : List String :=
  (pieces path).foldl (fun here piece =>
    if piece = "" ∨ piece = "." then here
    else if piece = ".." then here.dropLast
    else here ++ [piece]) (if isAbsolute path then [] else directory)

example : names ["a", "b"] "../c/./d" = ["a", "c", "d"] ∧ names ["a"] "/b" = ["b"] := by decide
example : parent? "p.json" = some "" ∧ parent? "./p.json" = some "." ∧ parent? "/p" = some "/" ∧
    parent? "/" = none := by decide
example : fileStem? "a.b.rs" = some "a.b" ∧ fileStem? ".rs" = some ".rs" ∧
    fileStem? "a/b.rs/" = some "b" ∧ fileStem? "a/.." = none ∧ fileStem? "a." = some "a" := by decide

end CircuitBlocks.Path
