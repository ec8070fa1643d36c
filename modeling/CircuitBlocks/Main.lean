import CircuitBlocks.CommandLine.Basic
import CircuitBlocks.Library.Sample

/-!
# The program — a command line run on the files that it names

The machine of the program has the files and directories that the words of the command line name. It
starts no programs, and of libraries it opens sample ones. What the command changed is written back
when it is done.
-/

namespace CircuitBlocks

/-- The paths that a word may be: the word itself, and what follows an equals sign in it. -/
def pathsInWord (word : String) : List String :=
  [word, String.ofList ((word.toList.dropWhile (· ≠ '=')).drop 1)]

/-- The machine of the program. -/
def machineOfFiles (files : FileTree) (here : Location) (bundledLibraries : Option String) : Machine where
  files := files
  here := here
  searchPath := []
  loader := SampleLibrary.load
  scratch := "/tmp"
  calls := []
  bundledLibraries := bundledLibraries

/-- What is said to a command line that cannot be understood, or that asks for help. -/
def usageText : String :=
  "usage: codeblock PROJECT [-b BLOCK] [--emit source|status|compile|run|export]\n" ++
  "  [--inputs VALUES] [--steps N] [--dt STEP] [--force] [--cc COMPILER] [-L DIR]...\n" ++
  "  [--toolchain FILE] [--out-dir DIR] [--verbose]\n"

end CircuitBlocks

open CircuitBlocks

/-- Runs the command line. -/
def main (words : List String) : IO UInt32 := do
  let directory ← IO.currentDir
  let here := Path.names [] directory.toString
  let mut files := FileTree.empty.installDirectory here
  for path in words.flatMap pathsInWord do
    let file := directory / path
    let place := Path.names here path
    if ← file.isDir then files := files.installDirectory place
    else if ← file.pathExists then
      files := files.install place (.file (← IO.FS.readBinFile file).toList)
  let mut environment := []
  for name in [compilerVariable, libraryVariable, searchVariable] do
    if let some value ← IO.getEnv name then environment := environment ++ [(name, value)]
  let mut bundledLibraries := none
  if let some directory := (← IO.appPath).parent then
    if ← (directory / "lib").isDir then bundledLibraries := some (directory / "lib").toString
  let (result, machine) := runCommand words environment (machineOfFiles files here bundledLibraries)
  for (place, node) in machine.files.toList do
    let path := Path.ofParts true place
    match node with
    | .directory _ => if !(files.node? place).isSome then IO.FS.createDirAll path
    | .file contents =>
      match files.node? place with
      | some (.file before) =>
        if before ≠ contents then IO.FS.writeBinFile path ⟨contents.toArray⟩
      | _ => IO.FS.writeBinFile path ⟨contents.toArray⟩
    | .program _ => pure ()
  match result with
  | .finished code stdout stderr =>
    IO.print stdout
    IO.eprint stderr
    return UInt32.ofNat code
  | .misused =>
    IO.eprint usageText
    return UInt32.ofNat failureCode
  | .help =>
    IO.print usageText
    return 0
