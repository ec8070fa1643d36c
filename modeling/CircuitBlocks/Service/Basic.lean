import CircuitBlocks.Compilation.Basic
import CircuitBlocks.Toolchain.Basic

/-!
# The compile service — jobs on their way through the workers

Workers compile jobs in the background. At most one job of a block is under way; its slot marks the
block as busy and holds the job to compile next, and a job submitted while one is waiting there takes
its place. A worker that is done with a job first settles the slot, then publishes the event, and then
sends the job that was waiting back to the queue.

Each of these is one step: `submit` on the client's side, and `receive`, `settle`, `publish` and
`resend` of a worker. Between the steps of one worker any step of the others may happen.
-/

namespace CircuitBlocks

/-! ## State -/

/-- A submitted job under its number. Later jobs have greater numbers. -/
structure Ticket where
  number : Nat
  job : CompileJob
  deriving DecidableEq

/-- A job that was compiled, and what came of it. -/
structure CompileEvent where
  ticket : Ticket
  result : Except ToolchainError CompileOutcome

/-- What a worker is doing. -/
inductive Worker where
  | idle
  | running (ticket : Ticket)
  /-- The slot is settled, and the event is still to be published. -/
  | settled (event : CompileEvent) (next : Option Ticket)
  /-- The event is published, and the next job is still to be sent back. -/
  | holding (next : Ticket)

/-- The jobs and workers of a service. -/
structure Service where
  /-- How many jobs were submitted. -/
  submitted : Nat
  /-- The blocks that are busy, each with the job that waits for its turn. -/
  slots : SortedMap BlockId (Option Ticket)
  /-- The jobs to compile, the first one first. -/
  queue : List Ticket
  workers : List Worker
  /-- All events, in the order in which they were published. -/
  events : List CompileEvent

/-- What became of a submitted job. -/
inductive Submission where
  /-- It was sent to the queue. -/
  | started
  /-- It waits for the job that is under way. -/
  | queued
  /-- It took the place of a job that was waiting. -/
  | coalesced
  deriving DecidableEq, Repr

namespace Ticket

/-- The block that a job is for. -/
def block (t : Ticket) : BlockId := t.job.block

end Ticket

namespace Service

/-- A service with idle workers, one at least. -/
def new (workers : Nat) : Service := ⟨0, ∅, [], List.replicate (max workers 1) .idle, []⟩

/-- Whether a job of a block is under way. -/
def isBusy (s : Service) (block : BlockId) : Bool := s.slots.contains block

/-! ## Steps -/

/-- A client submits a job. -/
def submit (s : Service) (job : CompileJob) : Submission × Service :=
  let ticket : Ticket := ⟨s.submitted, job⟩
  let s := { s with submitted := s.submitted + 1 }
  match s.slots.get? ticket.block with
  | some waiting =>
    (if waiting.isSome then .coalesced else .queued,
      { s with slots := s.slots.insert ticket.block (some ticket) })
  | none =>
    (.started,
      { s with
        slots := s.slots.insert ticket.block none
        queue := s.queue ++ [ticket] })

/-- An idle worker takes the first job of the queue. -/
def receive? (s : Service) (worker : Nat) : Option Service :=
  match s.workers[worker]?, s.queue with
  | some .idle, ticket :: rest =>
    some { s with queue := rest, workers := s.workers.set worker (.running ticket) }
  | _, _ => none

/-- The slots after a job of a block is done, and the job that waited. -/
def settleSlot (slots : SortedMap BlockId (Option Ticket)) (block : BlockId) :
    Option Ticket × SortedMap BlockId (Option Ticket) :=
  match slots.get? block with
  | some (some next) => (some next, slots.insert block none)
  | _ => (none, slots.erase block)

/-- A worker is done with its job and settles the slot of the block. -/
def settle? (s : Service) (worker : Nat) (result : Except ToolchainError CompileOutcome) :
    Option Service :=
  match s.workers[worker]? with
  | some (.running ticket) =>
    let (next, slots) := settleSlot s.slots ticket.block
    some { s with slots, workers := s.workers.set worker (.settled ⟨ticket, result⟩ next) }
  | _ => none

/-- A worker publishes its event. -/
def publish? (s : Service) (worker : Nat) : Option Service :=
  match s.workers[worker]? with
  | some (.settled event next) =>
    let after := match next with
      | none => .idle
      | some ticket => .holding ticket
    some { s with events := s.events ++ [event], workers := s.workers.set worker after }
  | _ => none

/-- A worker sends the job that waited to the queue. -/
def resend? (s : Service) (worker : Nat) : Option Service :=
  match s.workers[worker]? with
  | some (.holding ticket) =>
    some { s with queue := s.queue ++ [ticket], workers := s.workers.set worker .idle }
  | _ => none

/-- One step of a service, whoever makes it. -/
inductive Step : Service → Service → Prop where
  | submit {s} (job : CompileJob) : Step s (s.submit job).2
  | receive {s t} (worker : Nat) (h : s.receive? worker = some t) : Step s t
  | settle {s t} (worker : Nat) (result : Except ToolchainError CompileOutcome)
      (h : s.settle? worker result = some t) : Step s t
  | publish {s t} (worker : Nat) (h : s.publish? worker = some t) : Step s t
  | resend {s t} (worker : Nat) (h : s.resend? worker = some t) : Step s t

/-- The services that come out of steps in any order. -/
inductive Reachable (workers : Nat) : Service → Prop where
  | new : Reachable workers (.new workers)
  | step {s t} : Reachable workers s → Step s t → Reachable workers t

end Service

end CircuitBlocks
