import CircuitBlocks.Block.Basic
import CircuitBlocks.Compilation.Run

/-!
# Compiling blocks

A block hands out a job that describes its inputs at that moment. The outcome comes back later, and is
taken only if the job still describes the block.

* `job` makes a job and `apply` takes its outcome.
* `compileIfRequired` compiles a stale block at once, and `compile` any block.
-/

namespace CircuitBlocks.Block

/-! ## Jobs -/

/-- The job that compiles the block as it is now. -/
def job (b : Block) : CompileJob where
  block := b.id
  fragments := b.fragments
  shape := b.shape
  hashes := b.hashes
  request := ⟨b.artifactName, b.source, b.files⟩

/-- Whether a job describes the block as it is now. -/
def matchesJob (b : Block) (j : CompileJob) : Bool :=
  j.block = b.id && j.fragments = b.fragments && j.shape = b.shape && j.hashes = b.hashes

/-- Takes the outcome of a job that still describes the block. Gives whether it was taken. -/
def apply (b : Block) (j : CompileJob) (outcome : CompileOutcome) : Bool × Block :=
  if b.matchesJob j then (true, { b with state := b.state.settle j outcome }) else (false, b)

/-- Replaces all fragments, and gives a job if the block has to be compiled again. -/
def requestRecompile (b : Block) (fragments : Fragments) : Option CompileJob × Block :=
  let b := { b with fragments }
  (if b.staleness.recompileRequired then some b.job else none, b)

/-! ## Compiles at once -/

/-- Compiles the block. An error of the toolchain leaves it as it was. -/
def compileNow (b : Block) (t : Toolchain) (m : Machine) :
    Except ToolchainError Unit × Block × Machine :=
  match b.job.run t m with
  | (.error e, m) => (.error e, b, m)
  | (.ok outcome, m) => (.ok (), (b.apply b.job outcome).2, m)

/-- Compiles the block and gives its status. -/
def compile (b : Block) (t : Toolchain) (m : Machine) :
    Except ToolchainError CompileStatus × Block × Machine :=
  match b.compileNow t m with
  | (.error e, b, m) => (.error e, b, m)
  | (.ok _, b, m) => (.ok b.status, b, m)

/-- Compiles the block if it is stale, and gives the staleness that it had. -/
def compileIfRequired (b : Block) (t : Toolchain) (m : Machine) :
    Except ToolchainError Staleness × Block × Machine :=
  let staleness := b.staleness
  if staleness.recompileRequired then
    match b.compileNow t m with
    | (.error e, b, m) => (.error e, b, m)
    | (.ok _, b, m) => (.ok staleness, b, m)
  else (.ok staleness, b, m)

end CircuitBlocks.Block
