import CircuitBlocks.Block.Run
import CircuitBlocks.CommandLine.Arguments
import CircuitBlocks.CommandLine.Failure

/-!
# Commands — a command line run on a machine

A command reads the configuration, asks the compiler for its version where that matters, loads the
project, picks the blocks and then goes through the stage that was asked for. The project file is
written in one place only, after all blocks of a `compile` stage were compiled.

* `Arguments.run` runs the stage and gives the exit code, or the failure that ended it.
* `runCommand` runs a command line's words and gives all that the caller sees.
-/

namespace CircuitBlocks

/-! ## Output -/

/-- A machine, and what was printed. -/
structure Console where
  machine : Machine
  stdout : String := ""
  stderr : String := ""

namespace Console

/-- Prints to the output. -/
def print (c : Console) (s : String) : Console := { c with stdout := c.stdout ++ s }

/-- Prints to the error output. -/
def printError (c : Console) (s : String) : Console := { c with stderr := c.stderr ++ s }

end Console

/-! ## Preparation -/

/-- The configuration in a file. -/
def ToolchainConfig.read (path : String) (m : Machine) : Except CommandFailure ToolchainConfig :=
  match m.files.readText m.here path with
  | .error e => .error (.configUnread path e)
  | .ok text =>
    match (Json.parse? text).bind ToolchainConfig.ofDocument? with
    | none => .error (.configMalformed path)
    | some config => .ok config

namespace Arguments

/-- A configuration with what the arguments change in it. Without a working directory, compilers run
where the project file is. -/
def configure (a : Arguments) (config : ToolchainConfig) : ToolchainConfig :=
  { config with
    compiler := a.compiler.getD config.compiler
    libraryPaths := config.libraryPaths ++ a.libraryPaths
    workingDirectory := config.workingDirectory <|> Path.parent? a.project }

/-- The configuration that the arguments come to. -/
def config (a : Arguments) (m : Machine) : Except CommandFailure ToolchainConfig :=
  match a.toolchain with
  | none => .ok (a.configure (.ofHost m.bundledLibraries))
  | some path => (ToolchainConfig.read path m).map a.configure

/-- The places of the blocks to work on. -/
def selection (a : Arguments) (p : Project) : Except CommandFailure (List Nat) :=
  match a.block with
  | none => .ok (List.range p.blocks.length)
  | some id =>
    match p.blocks.findIdx? fun b => b.id = id with
    | none => .error (.unknownBlock id)
    | some i => .ok [i]

end Arguments

/-- The blocks at the given places. -/
def Project.pick (p : Project) (places : List Nat) : List Block :=
  places.filterMap fun i => p.blocks[i]?

/-! ## Printing stages -/

/-- The lines that tell the status of a block. -/
def Block.statusText (b : Block) : String :=
  s!"{b.id}: " ++ b.status.text ++ " (" ++ b.staleness.text ++ ")\n" ++ b.state.message

/-! ## Compiling -/

/-- Compiles a block, by force or if it is stale. -/
def Block.bringUpToDate (b : Block) (force : Bool) (t : Toolchain) (m : Machine) :
    Except ToolchainError Unit × Block × Machine :=
  if force || b.staleness.recompileRequired then b.compileNow t m else (.ok (), b, m)

/-- Compiles the blocks at the given places. Gives whether any of them ended in an error. -/
def compileBlocks (t : Toolchain) (force : Bool) : (places : List Nat) → Project → Console →
    Except CommandFailure Bool × Project × Console
  | [], p, c => (.ok false, p, c)
  | i :: rest, p, c =>
    match p.blocks[i]? with
    | none => compileBlocks t force rest p c
    | some b =>
      match b.bringUpToDate force t c.machine with
      | (.error e, _, m) => (.error (.uncompiled e), p, { c with machine := m })
      | (.ok _, b, m) =>
        let c := { c with machine := m }.printError (s!"{b.id}: " ++ b.state.message)
        match compileBlocks t force rest { p with blocks := p.blocks.set i b } c with
        | (.error e, p, c) => (.error e, p, c)
        | (.ok failed, p, c) => (.ok (b.status = .error || failed), p, c)

/-- Compiles blocks and saves the project. Gives the exit code. -/
def compileStage (a : Arguments) (config : ToolchainConfig) (p : Project) (places : List Nat)
    (c : Console) : Except CommandFailure Nat × Console :=
  match Toolchain.probe config c.machine with
  | .error e => (.error (.compilerUnusable config.compiler e), c)
  | .ok t =>
    match compileBlocks t a.force places p c with
    | (.error e, _, c) => (.error e, c)
    | (.ok failed, p, c) =>
      match p.save a.project c.machine.here c.machine.files with
      | .error e => (.error (.unsaved a.project e), c)
      | .ok files =>
        (.ok (if failed then 1 else 0), { c with machine := { c.machine with files } })

/-! ## Exporting -/

/-- Writes the libraries of blocks into a directory and prints their paths. -/
def exportBlocks (directory : String) : List Block → Console →
    Except CommandFailure Nat × Console
  | [], c => (.ok 0, c)
  | b :: rest, c =>
    match b.state.store? with
    | none => (.error (.noArtifacts b.id), c)
    | some store =>
      let m := c.machine
      match store.exportLibrary b.artifactName directory m.here m.files with
      | (.error e, files) =>
        (.error (.unexported b.id e), { c with machine := { m with files } })
      | (.ok path, files) =>
        exportBlocks directory rest
          ({ c with machine := { m with files } }.print (path ++ "\n"))

/-! ## Running -/

/-- The values of a list that commas separate. Empty places are left out. -/
def inputValues (s : List Char) : Except CommandFailure (List Float) :=
  let pieces := (Text.splitAtChar ',' s).map fun piece => Text.trim (String.ofList piece)
  (pieces.filter (· ≠ "")).mapM fun piece =>
    match Decimal.parse? piece with
    | none => .error (.badValue piece)
    | some x => .ok x

/-- The signals that a text gives for a shape: one list for single shape, and one list for each port,
separated by semicolons, for matrix shape. -/
def inputSignals (s : String) : ProcedureShape → Except CommandFailure Signals
  | .single => (inputValues s.toList).map .single
  | .matrix => ((Text.splitAtChar ';' s.toList).mapM inputValues).map .matrix

/-- Signals as text. -/
def Signals.text : Signals → String
  | single values => Decimal.Layout.value.printList values
  | matrix ports =>
    "[" ++ String.intercalate ", " (ports.map Decimal.Layout.value.printList) ++ "]"

/-- Makes `count` steps from the step `k` on and prints the outputs. Gives the exit code. -/
def runSteps (dt : Float) (inputs : Signals) : (count k : Nat) → Block → Console → Nat × Console
  | 0, _, _, c => (0, c)
  | count + 1, k, b, c =>
    let time := Float.ofNat k * dt
    match b.step time dt inputs with
    | (.ok outputs, b) =>
      runSteps dt inputs count (k + 1) b
        (c.print (Decimal.Layout.scientific.print time ++ "\t" ++ outputs.text ++ "\n"))
    | (.error e, b) => (1, c.printError ("codeblock: " ++ e.message b.id ++ "\n"))

/-- Runs a block for a number of steps. Gives the exit code. -/
def Block.runFor (b : Block) (context : StartContext) (inputs : Signals) (steps : Nat) (dt : Float)
    (c : Console) : Nat × Console :=
  match b.start context dt c.machine with
  | (.error e, b, m) =>
    (1, { c with machine := m }.printError
      ("codeblock: " ++ e.message b.id ++ "\n" ++ b.state.message))
  | (.ok _, b, m) => runSteps dt inputs steps 0 b { c with machine := m }

/-- The context of a run. -/
def Arguments.context (a : Arguments) (config : ToolchainConfig) (m : Machine) : StartContext :=
  let found : StartContext := match Toolchain.probe config m with
    | .ok t => .ofToolchain t
    | .error _ => {}
  { found with directory := a.outputDirectory <|> found.directory }

/-- Runs the only block among those that are picked. Gives the exit code. -/
def runStage (a : Arguments) (config : ToolchainConfig) (blocks : List Block) (c : Console) :
    Except CommandFailure Nat × Console :=
  match blocks with
  | [b] =>
    match inputSignals a.inputs b.shape.shape with
    | .error e => (.error e, c)
    | .ok inputs =>
      let (code, c) := b.runFor (a.context config c.machine) inputs a.steps a.dt c
      (.ok code, c)
  | _ => (.error .severalBlocks, c)

/-! ## Commands -/

namespace Arguments

/-- The fingerprint of the current toolchain. Stages that compile nothing do not ask for it. -/
def fingerprint (a : Arguments) (config : ToolchainConfig) (m : Machine) : Option String :=
  match a.stage with
  | .source | .exportLibraries => none
  | _ => (Toolchain.probe config m).toOption.map (·.fingerprint)

/-- What is said of a project that was loaded. -/
def loadingText (a : Arguments) (p : Project) (warnings : List LoadWarning) : String :=
  String.join (warnings.map fun w => "codeblock: warning: " ++ w.message ++ "\n") ++
    if a.verbose then
      s!"codeblock: {p.blocks.length} block(s), {p.registry.size} auxiliary file(s)\n"
    else ""

/-- Goes through the stage on a loaded project. Gives the exit code. -/
def runOn (a : Arguments) (config : ToolchainConfig) (p : Project) (places : List Nat)
    (c : Console) : Except CommandFailure Nat × Console :=
  let blocks := p.pick places
  match a.stage with
  | .source => (.ok 0, c.print (String.join (blocks.map Block.source)))
  | .status => (.ok 0, c.print (String.join (blocks.map Block.statusText)))
  | .compile => compileStage a config p places c
  | .exportLibraries =>
    match a.outputDirectory with
    | none => (.error .noDirectory, c)
    | some directory => exportBlocks directory blocks c
  | .run => runStage a config blocks c

/-- Runs what the arguments ask for. Gives the exit code. -/
def run (a : Arguments) (c : Console) : Except CommandFailure Nat × Console :=
  match a.config c.machine with
  | .error e => (.error e, c)
  | .ok config =>
    let m := c.machine
    match Project.load a.project (a.fingerprint config m) m.here m.files with
    | .error e => (.error (.unloaded a.project e), c)
    | .ok (p, warnings) =>
      let c := c.printError (a.loadingText p warnings)
      match a.selection p with
      | .error e => (.error e, c)
      | .ok places => a.runOn config p places c

end Arguments

/-- What the caller of a command sees. -/
inductive CommandResult where
  | finished (code : Nat) (stdout stderr : String)
  /-- The command line cannot be understood. -/
  | misused
  | help
  deriving DecidableEq, Repr

/-- The name and version of the command. -/
def versionText : String := "codeblock 0.3.0\n"

/-- The exit code of a command that ended early. -/
def failureCode : Nat := 2

/-- The machine with the search path of an environment, if there is one in it. -/
def Machine.inEnvironment (m : Machine) (environment : List (String × String)) : Machine :=
  match environment.lookup searchVariable with
  | none => m
  | some text => { m with searchPath := Machine.searchDirectories text }

/-- Runs a command line's words. -/
def runCommand (words : List String) (environment : List (String × String)) (m : Machine) :
    CommandResult × Machine :=
  match Arguments.parse words environment with
  | .error .misused => (.misused, m)
  | .error .help => (.help, m)
  | .error .version => (.finished 0 versionText "", m)
  | .ok a =>
    match a.run { machine := m.inEnvironment environment } with
    | (.ok code, c) => (.finished code c.stdout c.stderr, c.machine)
    | (.error e, c) => (.finished failureCode c.stdout (c.stderr ++ e.line), c.machine)

end CircuitBlocks
