import CircuitBlocks.BigEndian
import CircuitBlocks.Decimal.Parser
import CircuitBlocks.Text.Lines

/-!
# Arguments — what a command line asks for

A command line names a project file and settings. A setting is written by its long name or by a letter;
its value follows as the next word, after an equals sign, or right after the letter. The next word is a
value only if it does not look like a setting. After `--` every word is a file. No setting may be given
twice, but for library directories. Words are taken one by one, and the first one that cannot be taken
decides, as does a request for the version.

`Arguments.parse` reads a command line; where a setting is left out, its environment variable or its
default counts.
-/

namespace CircuitBlocks

/-! ## What can be asked for -/

/-- What is to be done with the blocks. -/
inductive Stage where
  /-- Print the text of each unit. -/
  | source
  /-- Print each status, and whether a compile is needed. -/
  | status
  /-- Compile stale blocks and save the project. -/
  | compile
  /-- Run one block. -/
  | run
  /-- Write compiled libraries into a directory. -/
  | exportLibraries
  deriving DecidableEq, Repr

/-- The stage of a name. -/
def Stage.ofName? (name : String) : Option Stage :=
  [("source", source), ("status", status), ("compile", compile), ("run", run),
    ("export", exportLibraries)].lookup name

/-- What a command line asks for. -/
structure Arguments where
  project : String
  block : Option String
  stage : Stage
  /-- The input values of each step. -/
  inputs : String
  steps : Nat
  dt : Float
  /-- Whether fresh blocks are compiled as well. -/
  force : Bool
  compiler : Option String
  libraryPaths : List String
  /-- The file of the toolchain's configuration. -/
  toolchain : Option String
  outputDirectory : Option String
  verbose : Bool

/-- Why a command line gives no arguments. -/
inductive ArgumentsStop where
  /-- It cannot be understood. -/
  | misused
  /-- It asks for help. -/
  | help
  /-- It asks for the version. -/
  | version
  deriving DecidableEq, Repr

/-! ## Settings -/

/-- A setting. -/
inductive Setting where
  | block
  | emit
  | inputs
  | steps
  | dt
  | force
  | cc
  | libDir
  | toolchain
  | outDir
  | verbose
  | help
  | version
  deriving DecidableEq, Repr

namespace Setting

/-- The setting of a long name. -/
def ofLong? (name : String) : Option Setting :=
  [("block", block), ("emit", emit), ("inputs", inputs), ("steps", steps), ("dt", dt),
    ("force", force), ("cc", cc), ("lib-dir", libDir), ("toolchain", toolchain),
    ("out-dir", outDir), ("verbose", verbose), ("help", help), ("version", version)].lookup name

/-- The setting of a letter. -/
def ofLetter? (letter : Char) : Option Setting :=
  [('b', block), ('L', libDir), ('h', help), ('V', version)].lookup letter

/-- Whether the setting has a value. -/
def hasValue : Setting → Bool
  | force | verbose | help | version => false
  | _ => true

end Setting

/-! ## Values -/

/-- What was given so far. -/
structure GivenArguments where
  project : Option String := none
  block : Option String := none
  stage : Option Stage := none
  inputs : Option String := none
  steps : Option Nat := none
  dt : Option Float := none
  force : Bool := false
  compiler : Option String := none
  libraryPaths : List String := []
  toolchain : Option String := none
  outputDirectory : Option String := none
  verbose : Bool := false

/-- A path, which is not empty. -/
def pathValue? (s : String) : Option String := if s = "" then none else some s

/-- A natural of at most eight bytes; a plus sign may precede it. -/
def naturalValue? (s : String) : Option Nat :=
  let digits := match s.toList with
    | '+' :: cs => cs
    | cs => cs
  if digits = [] ∨ !digits.all Char.isDigit then none
  else
    let n := Decimal.naturalOfDigits digits
    if n < BigEndian.capacity 8 then some n else none

/-- A value that takes an empty place, if there is a value. -/
def place {α : Type} (taken : Option α) (value : Option α) : Except ArgumentsStop (Option α) :=
  match taken, value with
  | none, some v => .ok (some v)
  | _, _ => .error .misused

namespace GivenArguments

/-- Gives the project file. -/
def setProject (g : GivenArguments) (s : String) : Except ArgumentsStop GivenArguments := do
  return { g with project := ← place g.project (pathValue? s) }

/-- Gives the value of a setting. -/
def setValue (g : GivenArguments) (s : String) : Setting → Except ArgumentsStop GivenArguments
  | .block => do return { g with block := ← place g.block (some s) }
  | .emit => do return { g with stage := ← place g.stage (Stage.ofName? s) }
  | .inputs => do return { g with inputs := ← place g.inputs (some s) }
  | .steps => do return { g with steps := ← place g.steps (naturalValue? s) }
  | .dt => do return { g with dt := ← place g.dt (Decimal.parse? s) }
  | .cc => do return { g with compiler := ← place g.compiler (pathValue? s) }
  | .libDir =>
    match pathValue? s with
    | none => .error .misused
    | some path => .ok { g with libraryPaths := g.libraryPaths ++ [path] }
  | .toolchain => do return { g with toolchain := ← place g.toolchain (pathValue? s) }
  | .outDir => do return { g with outputDirectory := ← place g.outputDirectory (pathValue? s) }
  | .force | .verbose | .help | .version => .error .misused

/-- Gives a setting without value. -/
def setFlag (g : GivenArguments) : Setting → Except ArgumentsStop GivenArguments
  | .force => if g.force then .error .misused else .ok { g with force := true }
  | .verbose => if g.verbose then .error .misused else .ok { g with verbose := true }
  | .help => .error .help
  | .version => .error .version
  | _ => .error .misused

end GivenArguments

/-! ## Words -/

/-- How far a command line has been read. -/
structure ArgumentsReader where
  given : GivenArguments := {}
  /-- The setting whose value comes next. -/
  awaited : Option Setting := none
  /-- Whether all words are files from here on. -/
  filesOnly : Bool := false

namespace ArgumentsReader

/-- Takes a setting with the value that is attached to it, if there is one. -/
def takeSetting (r : ArgumentsReader) (setting : Setting) (attached : Option String) :
    Except ArgumentsStop ArgumentsReader :=
  match setting.hasValue, attached with
  | true, some s => do return { r with given := ← r.given.setValue s setting }
  | true, none => .ok { r with awaited := some setting }
  | false, none => do return { r with given := ← r.given.setFlag setting }
  | false, some _ => .error .misused

/-- Takes a setting by its long name, without the two dashes. -/
def takeLong (r : ArgumentsReader) (cs : List Char) : Except ArgumentsStop ArgumentsReader :=
  let name := cs.takeWhile (· ≠ '=')
  let attached := match cs.dropWhile (· ≠ '=') with
    | [] => none
    | _ :: value => some (String.ofList value)
  match Setting.ofLong? (String.ofList name) with
  | none => .error .misused
  | some setting => r.takeSetting setting attached

/-- The value that follows a letter in one word. -/
def valueAfterLetter : List Char → Option String
  | [] => none
  | '=' :: cs => some (String.ofList cs)
  | cs => some (String.ofList cs)

/-- Takes settings by their letters, without the dash. The first one with a value has the rest for its
value. -/
def takeLetters (r : ArgumentsReader) : List Char → Except ArgumentsStop ArgumentsReader
  | [] => .ok r
  | letter :: cs =>
    match Setting.ofLetter? letter with
    | none => .error .misused
    | some setting =>
      if setting.hasValue then r.takeSetting setting (valueAfterLetter cs)
      else do (← r.takeSetting setting none).takeLetters cs

/-- Takes a word that is no setting. -/
def takePlain (r : ArgumentsReader) (word : String) : Except ArgumentsStop ArgumentsReader := do
  match r.awaited with
  | some setting => return { r with given := ← r.given.setValue word setting, awaited := none }
  | none => return { r with given := ← r.given.setProject word }

/-- Takes one word. -/
def take (r : ArgumentsReader) (word : String) : Except ArgumentsStop ArgumentsReader :=
  if r.filesOnly then r.takePlain word
  else match word.toList with
    | '-' :: c :: cs =>
      if r.awaited.isSome then .error .misused
      else if c ≠ '-' then r.takeLetters (c :: cs)
      else if cs = [] then .ok { r with filesOnly := true }
      else r.takeLong cs
    | _ => r.takePlain word

end ArgumentsReader

/-! ## Command lines -/

/-- The environment variable for the compiler. -/
def compilerVariable : String := "RUSTC"

/-- The environment variable for a library directory. -/
def libraryVariable : String := "CODEBLOCK_LIB_DIR"

/-- The environment variable for the directories that commands are looked for in. -/
def searchVariable : String := "PATH"

/-- The path in an environment variable, if the variable is set. -/
def variablePath (environment : List (String × String)) (name : String) :
    Except ArgumentsStop (Option String) :=
  match environment.lookup name with
  | none => .ok none
  | some value =>
    match pathValue? value with
    | none => .error .misused
    | some path => .ok (some path)

/-- What is given, or else the path in an environment variable. -/
def orVariable (given : Option String) (environment : List (String × String)) (name : String) :
    Except ArgumentsStop (Option String) :=
  match given with
  | some path => .ok (some path)
  | none => variablePath environment name

/-- The arguments of what is given, with environment variables and defaults for the rest. -/
def Arguments.ofGiven (g : GivenArguments) (environment : List (String × String)) :
    Except ArgumentsStop Arguments := do
  let compiler ← orVariable g.compiler environment compilerVariable
  let libraryPaths ←
    if g.libraryPaths = [] then
      Option.toList <$> variablePath environment libraryVariable
    else pure g.libraryPaths
  match g.project with
  | none => throw .misused
  | some project =>
    return {
      project, compiler, libraryPaths
      block := g.block
      stage := g.stage.getD .status
      inputs := g.inputs.getD ""
      steps := g.steps.getD 1
      dt := g.dt.getD 1e-6
      force := g.force
      toolchain := g.toolchain
      outputDirectory := g.outputDirectory
      verbose := g.verbose }

/-- The arguments of a command line's words. -/
def Arguments.parse (words : List String) (environment : List (String × String)) :
    Except ArgumentsStop Arguments := do
  let r ← words.foldlM ArgumentsReader.take {}
  if r.awaited.isSome then throw .misused
  ofGiven r.given environment

end CircuitBlocks
