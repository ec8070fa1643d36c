import CircuitBlocks.Library.Basic
import CircuitBlocks.Registry
import CircuitBlocks.Staleness

/-!
# Blocks — code, ports, auxiliary files and compile state

A block owns its fragments, its ports, the auxiliary files that are attached to it, its compile state
and its run, if one is going on. Edits leave the compile state alone, so that a later look at the
staleness tells whether it still describes the block; only another number of output ports forgets it.

* `setFragment`, `setOutputPorts`, … edit a block.
* `attach`, `detach` and `relink` keep the registry's users in step with the files of a block.
* `toVariant` exchanges the shape and forgets what was compiled.
-/

namespace CircuitBlocks

/-- A run: the instance of the procedure, and the layout of its outputs. -/
structure ActiveRun where
  table : ProcedureTable
  memory : Memory
  outputWidths : List Nat
  /-- The step size that the run was started with. -/
  dt : Float

/-- A block. -/
structure Block where
  id : BlockId
  fragments : Fragments
  shape : SignalShape
  /-- The attached files, in the order in which they were attached. -/
  files : List AuxiliaryFile := []
  state : CompileState := .uncompiled
  run : Option ActiveRun := none

namespace Block

/-! ## Views -/

/-- The name of the artifact that the block compiles to. -/
def artifactName (b : Block) : String := b.id.artifactName

/-- The hashes of the attached files. -/
def hashes (b : Block) : List FileHash := b.files.map (·.hash)

/-- The crates of the attached files. -/
def crates (b : Block) : NameSet := crateNames b.files

/-- The status that is shown. -/
def status (b : Block) : CompileStatus := b.state.status

/-- The text of the unit that the block compiles. -/
def source (b : Block) : String := unitText b.fragments b.shape b.artifactName

/-- Whether the last attempt still describes the block. -/
def staleness (b : Block) : Staleness := .check b.fragments b.shape b.crates b.state

/-- Whether a run is going on. -/
def isRunning (b : Block) : Bool := b.run.isSome

/-- The step size of the run that is going on. -/
def runStep? (b : Block) : Option Float := b.run.map (·.dt)

/-- Whether the block could start a run without a compile. -/
def isReady (b : Block) : Bool :=
  b.status = .success && !b.staleness.recompileRequired

/-! ## Edits -/

/-- Replaces one fragment. -/
def setFragment (b : Block) (kind : FragmentKind) (text : String) : Block :=
  { b with fragments := b.fragments.set kind text }

/-- Forgets what was compiled, and ends the run. -/
def reset (b : Block) : Block := { b with state := .uncompiled, run := none }

/-- Sets the number of output ports. If it changes, what was compiled is forgotten. -/
def setOutputPorts (b : Block) (ports : Nat) : Block :=
  if b.shape.outputPorts = ports then b
  else { b with shape := { b.shape with outputPorts := ports } }.reset

/-- Sets the number of input ports. What was compiled does not depend on it. -/
def setInputPorts (b : Block) (ports : Nat) : Block :=
  { b with shape := { b.shape with inputPorts := ports } }

/-- Sets the bus. -/
def setBus (b : Block) (bus : BusWidth) : Block := { b with shape := { b.shape with bus } }

/-- Sets the width of one output port. -/
def setPortWidth (b : Block) (port width : Nat) : Block :=
  { b with shape := b.shape.setPortWidth port width }

/-- The block for the other kind of procedure: nothing is compiled, and no run goes on. -/
def toVariant (b : Block) (shape : ProcedureShape) : Block :=
  { b with shape := b.shape.withShape shape }.reset

/-- The block with its shape exchanged for the other one. -/
def toggleVariant (b : Block) : Block := b.toVariant b.shape.shape.other

/-! ## Auxiliary files -/

/-- Attaches a registered file, unless it is attached already. -/
def attach (b : Block) (r : Registry) (hash : FileHash) :
    Except RegistryError (Block × Registry) :=
  if hash ∈ b.hashes then .ok (b, r)
  else do
    let file ← r.get hash
    let r ← r.addUser hash b.id
    return ({ b with files := b.files ++ [file] }, r)

/-- Detaches a file. The registry refuses a file that it does not have; the block lets go of it all the
same. -/
def detach (b : Block) (r : Registry) (hash : FileHash) :
    Except RegistryError Unit × Block × Registry :=
  let b := { b with files := b.files.filter fun f => f.hash ≠ hash }
  match r.removeUser hash b.id with
  | .error e => (.error e, b, r)
  | .ok r => (.ok (), b, r)

/-- Attaches those of the files that are registered. Gives how many are not. -/
def relinkEach (b : Block) (r : Registry) : List FileHash → Nat × Block × Registry
  | [] => (0, b, r)
  | hash :: rest =>
    match b.attach r hash with
    | .ok (b, r) => b.relinkEach r rest
    | .error _ =>
      let (missing, b, r) := b.relinkEach r rest
      (missing + 1, b, r)

/-- Attaches those of the files that are registered. The others are counted in the refusal. -/
def relink (b : Block) (r : Registry) (hashes : List FileHash) :
    Except RegistryError Unit × Block × Registry :=
  let (missing, b, r) := b.relinkEach r hashes
  (if missing = 0 then .ok () else .error (.missingFiles b.id missing), b, r)

end Block

end CircuitBlocks
