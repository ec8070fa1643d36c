import CircuitBlocks.FileTree.Access
import CircuitBlocks.Library.Basic

/-!
# Machines — the world that the engine works in

A machine has files, a current directory, a search path for commands, a loader for library files and a
scratch directory for each compilation. It remembers the compiler calls that were made.
-/

namespace CircuitBlocks

/-- The outside of the engine. -/
structure Machine where
  files : FileTree
  /-- The current directory. -/
  here : Location
  /-- Where commands without a slash are looked for. -/
  searchPath : List String
  /-- What the loader makes of a library file. -/
  loader : List UInt8 → LibraryImage
  /-- The path of the private directory that compilers write to. -/
  scratch : String
  /-- The compiler calls so far. -/
  calls : List CompilerCall
  /-- The directory of the libraries that come with the program, if there is one. -/
  bundledLibraries : Option String := none

namespace Machine

/-- The compiler at a position, if it may be run. -/
def programOf (found : Position) : Except SystemError Compiler :=
  match found.node? with
  | some (.program c) => .ok c
  | some _ => .error .permissionDenied
  | none => .error .notFound

/-- The compiler at a path. -/
def programAt (m : Machine) (here : Location) (path : String) : Except SystemError Compiler := do
  programOf (← m.files.locate here path)

/-- The compiler with a name in a directory of the search path; the empty directory is the current one.
Of a name that is too long, one byte too many is enough to refuse it. -/
def programIn (m : Machine) (here : Location) (name directory : String) :
    Except SystemError Compiler := do
  let path := if directory = "" then name else directory ++ "/" ++ name
  let excess := name.utf8ByteSize - (Path.nameLimit + 1)
  if Path.limit < path.utf8ByteSize - excess then throw .nameTooLong
  programOf (← m.files.walk (Path.fromRoot here path))

/-- The compiler in the first directory that has it, by what each directory answers. A directory without
it or that is no directory is passed over, and so is a file that may not be run; any other refusal ends the
search. If nothing is found, a file that may not be run is the reason if there was one (`refused`), and
else it is the latest one (`reason`). -/
def search (answer : String → Except SystemError Compiler) (refused : Bool) (reason : SystemError) :
    (directories : List String) → Except SystemError Compiler
  | [] => .error (if refused then .permissionDenied else reason)
  | directory :: rest =>
    match answer directory with
    | .ok c => .ok c
    | .error .permissionDenied => search answer true reason rest
    | .error .notFound => search answer refused .notFound rest
    | .error .notDirectory => search answer refused .notDirectory rest
    | .error e => .error e

/-- The compiler that a command names. A command with a slash is a path; any other is looked for in
the directories of the search path. -/
def command (m : Machine) (here : Location) (name : String) : Except SystemError Compiler :=
  if '/' ∈ name.toList then m.programAt here name
  else if name = "" then .error .notFound
  else search (m.programIn here name) false .notFound m.searchPath

/-- The directories of a search path, which colons separate. One that is too long for a path counts as
the current directory, and at the end as nothing. -/
def searchDirectories (text : String) : List String :=
  let directories := (Text.splitAtChar ':' text.toList).map String.ofList
  let fits := fun directory : String => directory.utf8ByteSize ≤ Path.limit
  (directories.dropLast.map fun directory => if fits directory then directory else "") ++
    directories.getLast?.toList.filter fits

example : searchDirectories "a::/b" = ["a", "", "/b"] ∧ searchDirectories "" = [""] := by decide

/-- The directory that a program started in `directory` runs in; without one, the current
directory. -/
def enter (m : Machine) (directory : Option String) : Except SystemError Location :=
  match directory with
  | none => .ok m.here
  | some path => do
    let there ← m.files.locate m.here path
    match there.node? with
    | some (.directory _) => return there.place
    | some _ => throw .notDirectory
    | none => throw .notFound

/-- The compiler that a command names when it is started in `directory`, and the directory that it
runs in. The directory is entered first. -/
def spawn (m : Machine) (name : String) (arguments : List String) (directory : Option String) :
    Except SystemError (Compiler × Location) := do
  if (name :: arguments ++ directory.toList).any fun a => '\x00' ∈ a.toList then
    throw .nulInCommand
  let there ← m.enter directory
  return (← m.command there name, there)

end Machine

end CircuitBlocks
