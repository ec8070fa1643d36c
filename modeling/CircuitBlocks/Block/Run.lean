import CircuitBlocks.Block.Compile
import CircuitBlocks.Decimal.Printer
import CircuitBlocks.Loading
import CircuitBlocks.Signals

/-!
# Runs — a block computes step after step

A run starts with a fresh instance of the block's procedure. Starting compiles a stale block first, if a
toolchain is at hand. A step feeds the instance with inputs that fit the block's ports and gives the
outputs, all of them numbers; a panic, an unknown status or a NaN ends the run.

* `start` begins a run, `step` makes one step and `endRun` ends the run.
* `firstNaN?` finds the place of the first NaN among the outputs.
-/

namespace CircuitBlocks

/-! ## Refusals -/

/-- When the user's code panicked. -/
inductive RunPhase where
  | init
  | compute
  deriving DecidableEq, Repr

/-- The name of a phase. -/
def RunPhase.name : RunPhase → String
  | init => "init"
  | compute => "compute"

/-- Why inputs were refused. -/
inductive InputFault where
  /-- They do not fit the ports. -/
  | misfit (expectedPorts : Nat) (expectedShape : ProcedureShape) (ports : Nat)
      (shape : ProcedureShape)
  /-- The procedure refused them. -/
  | rejected
  deriving DecidableEq, Repr

/-- The wording of a refusal of inputs. -/
def InputFault.text : InputFault → String
  | misfit expectedPorts expectedShape ports shape =>
    s!"expected {expectedPorts} " ++ expectedShape.name ++ s!" input port(s), got {ports} " ++
      shape.name
  | rejected => "rejected by procedure"

/-- Why a run did not start or go on. -/
inductive RunFault where
  | notCompiled
  | noToolchain
  | toolchain (e : ToolchainError)
  | load (e : LoadError)
  | notInitialized
  | badInput (fault : InputFault)
  | notANumber (port channel : Nat) (time : Float)
  | panicked (phase : RunPhase)
  | unknownStatus (code : Int)

/-- The wording of a fault of a block. -/
def RunFault.message (block : BlockId) : RunFault → String
  | notCompiled => s!"block {block} is not compiled"
  | noToolchain => s!"block {block} needs compiling but no toolchain is configured"
  | toolchain e => e.message
  | load e => e.message
  | notInitialized => s!"block {block} was not initialized for this run"
  | badInput fault =>
    s!"block {block}: inputs do not match the procedure shape (" ++ fault.text ++ ")"
  | notANumber port channel time =>
    s!"block {block}: NaN at output port {port}, channel {channel}, t = " ++
      Decimal.Layout.plain.print time
  | panicked phase => s!"block {block}: user code panicked during " ++ phase.name
  | unknownStatus code => s!"block {block}: procedure returned unknown status {code}"

/-! ## Calls -/

/-- The arguments of the computation that makes one step of a run. -/
def ActiveRun.arguments (run : ActiveRun) (inputs : Signals) (time dt : Float) : Step where
  inputs := inputs.flatten
  inputWidths := inputs.widths
  time := time
  dt := dt
  outputWidths := run.outputWidths

/-! ## Start -/

/-- What a start may use besides the block. -/
structure StartContext where
  toolchain : Option Toolchain := none
  /-- Where libraries are looked for that the block does not hold. -/
  directory : Option String := none

/-- The context of a toolchain: its working directory is searched for libraries. -/
def StartContext.ofToolchain (t : Toolchain) : StartContext :=
  ⟨some t, t.config.workingDirectory⟩

namespace Block

/-- The tiers in which a block's library is looked for: its own store, then the directory. -/
def tiers (b : Block) (directory : Option String) : List LibraryTier :=
  (b.state.store?.map LibraryTier.store).toList ++ (directory.map LibraryTier.directory).toList

/-- Notes that the library did not load. An artifact for another contract is forgotten, so that the
next start builds it anew; anything else fails the block. -/
def recordLoadFailure (b : Block) (e : LoadError) : Block :=
  if e.isIncompatible then b.reset
  else match b.state.record? with
    | none => b
    | some record =>
      let diagnostic : Diagnostic :=
        { subject := record.artifactName, severity := .error, message := e.message }
      let record := { record with message := e.message ++ "\n" ++ errorTrailer }
      { b with state := b.state.fail record [diagnostic] }

/-- Makes sure that what was compiled describes the block: with a toolchain by a compile if need be,
without one by a refusal. -/
def prepare (b : Block) (toolchain : Option Toolchain) (m : Machine) :
    Except RunFault Unit × Block × Machine :=
  match toolchain with
  | some t =>
    match b.compileIfRequired t m with
    | (.error e, b, m) => (.error (.toolchain e), b, m)
    | (.ok _, b, m) => (.ok (), b, m)
  | none =>
    if b.staleness.recompileRequired then (.error .noToolchain, b, m) else (.ok (), b, m)

/-- A new instance of the block's library. -/
def load (b : Block) (directory : Option String) (m : Machine) :
    Except LoadError (ProcedureTable × Memory) :=
  match loadUnit m (b.tiers directory) b.artifactName b.shape.shape with
  | .error e => .error e
  | .ok u =>
    match u.instantiate with
    | .error e => .error e
    | .ok memory => .ok (u.table, memory)

/-- Begins a run with a new instance that is still to be initialised. -/
def initialise (b : Block) (table : ProcedureTable) (memory : Memory) (dt : Float) :
    Except RunFault Unit × Block :=
  let (memory, code) := table.init memory
  match CallStatus.ofCode code with
  | .ok => (.ok (), { b with run := some ⟨table, memory, b.shape.outputWidths, dt⟩ })
  | .panicked | .badInput => (.error (.panicked .init), b)
  | .unknown code => (.error (.unknownStatus code), b)

/-- Begins a run in place of the one that is going on. -/
def start (b : Block) (context : StartContext) (dt : Float) (m : Machine) :
    Except RunFault Unit × Block × Machine :=
  match { b with run := none }.prepare context.toolchain m with
  | (.error e, b, m) => (.error e, b, m)
  | (.ok _, b, m) =>
    if b.status = .error then (.error .notCompiled, b, m)
    else match b.load context.directory m with
      | .error e => (.error (.load e), b.recordLoadFailure e, m)
      | .ok (table, memory) =>
        let (result, b) := b.initialise table memory dt
        (result, b, m)

/-! ## Steps -/

/-- Ends the run. -/
def endRun (b : Block) : Block := { b with run := none }

/-- The port and channel of an index into values that are laid out by widths. -/
def placeOf? : (widths : List Nat) → (index : Nat) → Option (Nat × Nat)
  | [], _ => none
  | w :: ws, index =>
    if index < w then some (0, index)
    else (placeOf? ws (index - w)).map fun (port, channel) => (port + 1, channel)

/-- The port and channel of the first value that is not a number. -/
def firstNaN? (values : List Float) (widths : List Nat) : Option (Nat × Nat) :=
  (values.findIdx? Float.isNaN).bind (placeOf? widths)

/-- The outputs of a computation, or the fault that ends it. -/
def outputs (shape : ProcedureShape) (widths : List Nat) (time : Float) (reply : StepReply) :
    Except RunFault Signals :=
  match CallStatus.ofCode reply.code with
  | .badInput => .error (.badInput .rejected)
  | .panicked => .error (.panicked .compute)
  | .unknown code => .error (.unknownStatus code)
  | .ok =>
    let values := reply.buffer (Signals.totalWidth widths)
    match firstNaN? values widths with
    | some (port, channel) => .error (.notANumber port channel time)
    | none => .ok (.ofFlat shape values widths)

/-- Whether a run goes on after a result. Inputs that were refused do not end it. -/
def goesOn : Except RunFault Signals → Bool
  | .ok _ => true
  | .error (.badInput _) => true
  | .error _ => false

/-- Makes one step of the run. -/
def step (b : Block) (time dt : Float) (inputs : Signals) : Except RunFault Signals × Block :=
  if !inputs.fits b.shape then
    (.error (.badInput
      (.misfit b.shape.inputPorts b.shape.shape inputs.portCount inputs.shape)), b)
  else match b.run with
    | none => (.error .notInitialized, b)
    | some run =>
      let reply := run.table.compute run.memory (run.arguments inputs time dt)
      let result := outputs b.shape.shape run.outputWidths time reply
      (result,
        { b with run := if goesOn result then some { run with memory := reply.memory } else none })

end Block

end CircuitBlocks
