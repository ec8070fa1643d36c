import CircuitBlocks.Block.Compile
import CircuitBlocks.Service.Basic

/-!
# Draining a service — every job compiled, every event delivered

One worker that takes its steps without interruption compiles the jobs first in, first out. An event is
delivered to the block that its job was made from, which takes the outcome if the job still describes
it.
-/

namespace CircuitBlocks

/-- Hands the result of a job to its block. Gives whether the block took it. -/
def CompileEvent.applyTo (e : CompileEvent) (b : Block) : Except ToolchainError Bool × Block :=
  match e.result with
  | .error error => (.error error, b)
  | .ok outcome =>
    let (taken, b) := b.apply e.ticket.job outcome
    (.ok taken, b)

namespace Service

/-- The first worker compiles the first job of the queue and publishes its event. -/
def turn? (s : Service) (t : Toolchain) (m : Machine) : Option (Service × Machine) := do
  let ticket ← s.queue.head?
  let s ← s.receive? 0
  let (result, m) := ticket.job.run t m
  let s ← s.settle? 0 result
  let s ← s.publish? 0
  return ((s.resend? 0).getD s, m)

/-- How many jobs are still to be compiled. -/
def outstanding (s : Service) : Nat :=
  s.queue.length + (s.slots.values.filter Option.isSome).length

/-- The service after so many turns, or fewer if the queue becomes empty. -/
def turns (t : Toolchain) : (count : Nat) → Service → Machine → Service × Machine
  | 0, s, m => (s, m)
  | count + 1, s, m =>
    match s.turn? t m with
    | none => (s, m)
    | some (s, m) => turns t count s m

/-- The service after all jobs were compiled. -/
def drain (s : Service) (t : Toolchain) (m : Machine) : Service × Machine :=
  turns t s.outstanding s m

end Service

end CircuitBlocks
