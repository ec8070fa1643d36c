import CircuitBlocks.Proofs.Counting
import CircuitBlocks.Service.Basic

/-!
# Slots — one job of a block under way

The slot of a block stands for one job of it that is under way: in the queue, being compiled, or in the
hands of a worker that is about to send it back. The job moves between these places outside of any lock,
and the slot stays; only when a worker settles a slot in which nothing waits do both go.

* `Worker.compiling`, `Worker.sendingBack` and `Worker.publishing` — what a worker has in hand.
* `receive?_eq_some`, `settle?_eq_some`, `publish?_eq_some` and `resend?_eq_some` — all that a step of
  a worker can do, its guards included. No later proof opens a step.
* **`Orderly`** — as many jobs of a block are under way as it has slots, and only its own jobs wait in
  its slot; **`Reachable.orderly`** has it for every service.
-/

namespace CircuitBlocks

/-! ## What a worker has in hand -/

namespace Worker

/-- The job that a worker compiles. -/
def compiling : Worker → List Ticket
  | .running ticket => [ticket]
  | _ => []

/-- The job that a worker is about to send back to the queue. -/
def sendingBack : Worker → List Ticket
  | .settled _ next => next.toList
  | .holding next => [next]
  | _ => []

/-- The job whose event a worker is about to publish. -/
def publishing : Worker → List Ticket
  | .settled event _ => [event.ticket]
  | _ => []

/-- A worker that has published its event. -/
def afterEvent : (next : Option Ticket) → Worker
  | none => .idle
  | some next => .holding next

@[simp] theorem compiling_afterEvent (next : Option Ticket) : (afterEvent next).compiling = [] := by
  cases next <;> rfl

@[simp] theorem sendingBack_afterEvent (next : Option Ticket) :
    (afterEvent next).sendingBack = next.toList := by
  cases next <;> rfl

@[simp] theorem publishing_afterEvent (next : Option Ticket) :
    (afterEvent next).publishing = [] := by
  cases next <;> rfl

end Worker

namespace Service

/-! ## What a step of a worker can do -/

/-- An idle worker takes the first of the queue. -/
theorem receive?_eq_some {s t : Service} {worker : Nat} (h : s.receive? worker = some t) :
    ∃ ticket rest, s.workers[worker]? = some .idle ∧ s.queue = ticket :: rest ∧
      t = { s with queue := rest, workers := s.workers.set worker (.running ticket) } := by
  unfold receive? at h
  split at h
  · next ticket rest hw hq => exact ⟨ticket, rest, hw, hq, (Option.some.inj h).symm⟩
  · cases h

/-- A worker that runs a job settles it, and its slot. -/
theorem settle?_eq_some {s t : Service} {worker : Nat}
    {result : Except ToolchainError CompileOutcome} (h : s.settle? worker result = some t) :
    ∃ ticket, s.workers[worker]? = some (.running ticket) ∧
      t = { s with
        slots := (settleSlot s.slots ticket.block).2
        workers := s.workers.set worker
          (.settled ⟨ticket, result⟩ (settleSlot s.slots ticket.block).1) } := by
  unfold settle? at h
  split at h
  · next ticket hw => exact ⟨ticket, hw, (Option.some.inj h).symm⟩
  · cases h

/-- A worker that has settled a job publishes its event. -/
theorem publish?_eq_some {s t : Service} {worker : Nat} (h : s.publish? worker = some t) :
    ∃ event next, s.workers[worker]? = some (.settled event next) ∧
      t = { s with
        events := s.events ++ [event]
        workers := s.workers.set worker (Worker.afterEvent next) } := by
  unfold publish? at h
  split at h
  · next event next hw =>
    refine ⟨event, next, hw, ?_⟩
    cases next <;> exact (Option.some.inj h).symm
  · cases h

/-- A worker that holds a job sends it back. -/
theorem resend?_eq_some {s t : Service} {worker : Nat} (h : s.resend? worker = some t) :
    ∃ ticket, s.workers[worker]? = some (.holding ticket) ∧
      t = { s with
        queue := s.queue ++ [ticket]
        workers := s.workers.set worker .idle } := by
  unfold resend? at h
  split at h
  · next ticket hw => exact ⟨ticket, hw, (Option.some.inj h).symm⟩
  · cases h

/-- A slot is settled in one of two ways: the job that waits in it comes out, or the slot goes. -/
theorem settleSlot_cases (slots : SortedMap BlockId (Option Ticket)) (block : BlockId) :
    (∃ next, slots.get? block = some (some next) ∧
      settleSlot slots block = (some next, slots.insert block none)) ∨
    ((∀ next, slots.get? block ≠ some (some next)) ∧
      settleSlot slots block = (none, slots.erase block)) := by
  unfold settleSlot
  split
  · next next hget => exact .inl ⟨next, hget, rfl⟩
  · next hget => exact .inr ⟨fun next h => hget next h, rfl⟩

/-! ## Jobs and their places -/

/-- The jobs that are in the queue, compiled, or about to be sent back. -/
def underWay (s : Service) : List Ticket :=
  s.queue ++ s.workers.flatMap Worker.compiling ++ s.workers.flatMap Worker.sendingBack

/-- The jobs that wait in a slot. -/
def waiting (s : Service) : List Ticket := s.slots.values.flatMap Option.toList

/-- The job that waits in the slot of a block. -/
def waitingFor (s : Service) (block : BlockId) : List Ticket :=
  SortedMap.listOf Option.toList (s.slots.get? block)

/-- The jobs that were compiled, and whose events are about to be published. -/
def publishing (s : Service) : List Ticket := s.workers.flatMap Worker.publishing

/-- The jobs whose events were published. -/
def published (s : Service) : List Ticket := s.events.map (·.ticket)

/-- The workers of a new service have nothing in hand. -/
theorem flatMap_workers_new (workers : Nat) {f : Worker → List Ticket} (hf : f .idle = []) :
    (Service.new workers).workers.flatMap f = [] := by
  rw [List.flatMap_eq_nil_iff]
  intro w hw
  rw [List.eq_of_mem_replicate hw, hf]

/-! ## What a submission can do -/

/-- The number that the next submission of a job gets, and the job. -/
def nextTicket (s : Service) (job : CompileJob) : Ticket := ⟨s.submitted, job⟩

/-- A submitted job starts its block's slot, or waits in it, or takes the place of one that waits. -/
theorem submit_cases (s : Service) (job : CompileJob) :
    (s.slots.get? job.block = none ∧
      s.submit job = (.started, { s with
        submitted := s.submitted + 1
        slots := s.slots.insert job.block none
        queue := s.queue ++ [s.nextTicket job] })) ∨
    (s.slots.get? job.block = some none ∧
      s.submit job = (.queued, { s with
        submitted := s.submitted + 1
        slots := s.slots.insert job.block (some (s.nextTicket job)) })) ∨
    (∃ old, s.slots.get? job.block = some (some old) ∧
      s.submit job = (.coalesced, { s with
        submitted := s.submitted + 1
        slots := s.slots.insert job.block (some (s.nextTicket job)) })) := by
  -- the slot of the block decides: free, taken, or taken with a job that waits
  cases hget : s.slots.get? job.block with
  | none => exact .inl ⟨rfl, by simp only [submit, Ticket.block, hget, nextTicket]⟩
  | some waits =>
    cases waits with
    | none =>
      refine .inr (.inl ⟨rfl, ?_⟩)
      simp [submit, Ticket.block, hget, nextTicket]
    | some old =>
      refine .inr (.inr ⟨old, rfl, ?_⟩)
      simp [submit, Ticket.block, hget, nextTicket]

theorem events_submit (s : Service) (job : CompileJob) : (s.submit job).2.events = s.events := by
  rcases submit_cases s job with ⟨-, h⟩ | ⟨-, h⟩ | ⟨-, -, h⟩ <;> rw [h]

theorem workers_submit (s : Service) (job : CompileJob) : (s.submit job).2.workers = s.workers := by
  rcases submit_cases s job with ⟨-, h⟩ | ⟨-, h⟩ | ⟨-, -, h⟩ <;> rw [h]

theorem submitted_submit (s : Service) (job : CompileJob) :
    (s.submit job).2.submitted = s.submitted + 1 := by
  rcases submit_cases s job with ⟨-, h⟩ | ⟨-, h⟩ | ⟨-, -, h⟩ <;> rw [h]

/-! ## Counts -/

section Counts

variable (p : Ticket → Bool) {s t : Service} {worker : Nat}

/-- What waits for a block is in its slot. -/
theorem mem_waitingFor {ticket : Ticket} {block : BlockId} :
    ticket ∈ s.waitingFor block ↔ s.slots.get? block = some (some ticket) := by
  unfold waitingFor SortedMap.listOf
  cases s.slots.get? block with
  | none => simp
  | some waits => cases waits <;> simp [eq_comm]

theorem waitingFor_subset (s : Service) (block : BlockId) : s.waitingFor block ⊆ s.waiting := by
  intro ticket h
  have hmem := SortedMap.mem_values_of_get? (mem_waitingFor.1 h)
  exact List.mem_flatMap.2 ⟨_, hmem, by simp⟩

theorem countP_underWay (s : Service) :
    s.underWay.countP p = s.queue.countP p + (s.workers.flatMap Worker.compiling).countP p +
      (s.workers.flatMap Worker.sendingBack).countP p := by
  rw [underWay, List.countP_append, List.countP_append]

/-- A worker that takes a job keeps it under way. -/
theorem countP_receive? (h : s.receive? worker = some t) :
    t.underWay.countP p = s.underWay.countP p ∧ t.publishing.countP p = s.publishing.countP p ∧
      t.slots = s.slots ∧ t.events = s.events := by
  obtain ⟨ticket, rest, hw, hq, rfl⟩ := receive?_eq_some h
  -- each kind of place is counted on its own: only this worker's share of it is exchanged
  have hc := countP_flatMap_set p Worker.compiling hw (.running ticket)
  have hb := countP_flatMap_set p Worker.sendingBack hw (.running ticket)
  have hp := countP_flatMap_set p Worker.publishing hw (.running ticket)
  refine ⟨?_, ?_, rfl, rfl⟩
  · simp only [countP_underWay, hq, List.countP_cons, Worker.compiling, Worker.sendingBack,
      List.countP_nil] at hc hb ⊢
    omega
  · simpa [publishing, Worker.publishing] using hp

/-- A worker that settles a slot trades its job for the one that waited there, and has an event to
publish. -/
theorem countP_settle? {result : Except ToolchainError CompileOutcome}
    (h : s.settle? worker result = some t) :
    ∃ ticket, ticket ∈ s.workers.flatMap Worker.compiling ∧
      let settled := settleSlot s.slots ticket.block
      t.underWay.countP p + [ticket].countP p = s.underWay.countP p + settled.1.toList.countP p ∧
      t.publishing.countP p = s.publishing.countP p + [ticket].countP p ∧
      t.slots = settled.2 ∧ t.events = s.events := by
  obtain ⟨ticket, hw, rfl⟩ := settle?_eq_some h
  -- the worker that settles is counted at each of its places, before and after
  have hc := countP_flatMap_set p Worker.compiling hw
    (.settled ⟨ticket, result⟩ (settleSlot s.slots ticket.block).1)
  have hb := countP_flatMap_set p Worker.sendingBack hw
    (.settled ⟨ticket, result⟩ (settleSlot s.slots ticket.block).1)
  have hp := countP_flatMap_set p Worker.publishing hw
    (.settled ⟨ticket, result⟩ (settleSlot s.slots ticket.block).1)
  refine ⟨ticket, ?_, ?_, ?_, rfl, rfl⟩
  · exact List.mem_flatMap.2 ⟨_, List.mem_of_getElem? hw, List.mem_singleton_self ticket⟩
  · simp only [countP_underWay, Worker.compiling, Worker.sendingBack, List.countP_nil] at hc hb ⊢
    omega
  · simpa [publishing, Worker.publishing] using hp

/-- A worker that publishes its event moves the event's job on, and keeps what it is to send back. -/
theorem countP_publish? (h : s.publish? worker = some t) :
    t.underWay.countP p = s.underWay.countP p ∧
      t.publishing.countP p + t.published.countP p
        = s.publishing.countP p + s.published.countP p ∧ t.slots = s.slots := by
  obtain ⟨event, next, hw, rfl⟩ := publish?_eq_some h
  have hc := countP_flatMap_set p Worker.compiling hw (Worker.afterEvent next)
  have hb := countP_flatMap_set p Worker.sendingBack hw (Worker.afterEvent next)
  have hp := countP_flatMap_set p Worker.publishing hw (Worker.afterEvent next)
  rw [Worker.compiling_afterEvent] at hc
  rw [Worker.sendingBack_afterEvent] at hb
  rw [Worker.publishing_afterEvent] at hp
  -- the event that it publishes leaves the one list for the other
  refine ⟨?_, ?_, rfl⟩
  · simp only [countP_underWay, Worker.compiling, Worker.sendingBack, List.countP_nil] at hc hb ⊢
    omega
  · simp only [publishing, published, Worker.publishing, List.countP_nil, List.map_append,
      List.map_cons, List.map_nil, List.countP_append] at hp ⊢
    omega

/-- A worker that sends a job back keeps it under way. -/
theorem countP_resend? (h : s.resend? worker = some t) :
    t.underWay.countP p = s.underWay.countP p ∧ t.publishing.countP p = s.publishing.countP p ∧
      t.slots = s.slots ∧ t.events = s.events := by
  obtain ⟨ticket, hw, rfl⟩ := resend?_eq_some h
  have hc := countP_flatMap_set p Worker.compiling hw .idle
  have hb := countP_flatMap_set p Worker.sendingBack hw .idle
  have hp := countP_flatMap_set p Worker.publishing hw .idle
  refine ⟨?_, ?_, rfl, rfl⟩
  · simp only [countP_underWay, Worker.compiling, Worker.sendingBack, List.countP_append,
      List.countP_nil] at hc hb ⊢
    omega
  · simpa [publishing, Worker.publishing] using hp

/-- A submitted job is under way or waits; only a job that waited in its place is gone. -/
theorem countP_submit (job : CompileJob) :
    let t := (s.submit job).2
    t.underWay.countP p + t.waiting.countP p + (s.waitingFor job.block).countP p
      = s.underWay.countP p + s.waiting.countP p + [s.nextTicket job].countP p := by
  rcases submit_cases s job with ⟨hget, h⟩ | ⟨hget, h⟩ | ⟨old, hget, h⟩
  all_goals
    rw [h]
    simp only [countP_underWay, waiting, waitingFor, hget]
  -- the job goes to the queue in the first case, and into the slot in the others
  · have hw := SortedMap.countP_insert p Option.toList s.slots job.block none
    rw [hget] at hw
    simp only [SortedMap.listOf, Option.map_none, Option.getD_none, Option.toList_none,
      List.countP_nil, List.countP_append] at hw ⊢
    omega
  · have hw := SortedMap.countP_insert p Option.toList s.slots job.block (some (s.nextTicket job))
    rw [hget] at hw
    simp only [Option.toList_some] at hw ⊢
    omega
  · have hw := SortedMap.countP_insert p Option.toList s.slots job.block (some (s.nextTicket job))
    rw [hget] at hw
    simp only [Option.toList_some] at hw ⊢
    omega

/-- Settling a slot takes out what waited in it. -/
theorem countP_settleSlot (s : Service) (block : BlockId) :
    ((settleSlot s.slots block).2.values.flatMap Option.toList).countP p
        + (settleSlot s.slots block).1.toList.countP p = s.waiting.countP p := by
  rcases settleSlot_cases s.slots block with ⟨next, hget, h⟩ | ⟨hget, h⟩
  · have hw := SortedMap.countP_insert p Option.toList s.slots block none
    rw [hget] at hw
    rw [h]
    simp only [waiting, SortedMap.listOf, Option.map_some, Option.getD_some, Option.toList_some,
      Option.toList_none, List.countP_nil] at hw ⊢
    omega
  · have hw := SortedMap.countP_erase p Option.toList s.slots block
    -- a slot in which nothing waits counts for nothing, like a slot that is not there
    have hnone : SortedMap.listOf Option.toList (s.slots.get? block) = [] := by
      cases hslot : s.slots.get? block with
      | none => rfl
      | some waits =>
        cases waits with
        | none => rfl
        | some next => exact absurd hslot (hget next)
    rw [hnone] at hw
    rw [h]
    simpa [waiting] using hw

end Counts

/-! ## Slots stand for jobs under way -/

/-- How many jobs of a block are under way. -/
def underWayFor (s : Service) (block : BlockId) : Nat :=
  s.underWay.countP fun t => t.block = block

/-- A service whose slots stand for the jobs that are under way. -/
structure Orderly (s : Service) : Prop where
  underWay : ∀ block, s.underWayFor block = (s.slots.contains block).toNat
  waiting : ∀ block ticket, s.slots.get? block = some (some ticket) → ticket.block = block

namespace Orderly

theorem new (workers : Nat) : Orderly (Service.new workers) := by
  constructor
  · intro block
    have h : (Service.new workers).underWay = [] := by
      rw [Service.underWay, flatMap_workers_new workers rfl, flatMap_workers_new workers rfl]
      rfl
    rw [underWayFor, h]
    rfl
  · intro block ticket h
    cases h

/-- A step that leaves the slots and the number of jobs under way leaves the service orderly. -/
theorem of_eq {s t : Service} (h : Orderly s) (hslots : t.slots = s.slots)
    (hcount : ∀ p, t.underWay.countP p = s.underWay.countP p) : Orderly t := by
  constructor
  · intro block
    rw [underWayFor, hcount, hslots]
    exact h.underWay block
  · intro block ticket hget
    rw [hslots] at hget
    exact h.waiting block ticket hget

/-- How many jobs of a block are under way after a submission. -/
theorem underWayFor_submit (s : Service) (job : CompileJob) (block : BlockId) :
    (s.submit job).2.underWayFor block = s.underWayFor block +
      if block = job.block ∧ s.slots.get? job.block = none then 1 else 0 := by
  have hblock : (s.nextTicket job).block = job.block := rfl
  simp only [underWayFor, countP_underWay]
  rcases submit_cases s job with ⟨hget, hs⟩ | ⟨hget, hs⟩ | ⟨old, hget, hs⟩
  · rw [hs]
    simp only [List.countP_append, List.countP_singleton, hblock, hget, and_true,
      decide_eq_true_eq]
    -- the free slot of the job's own block takes one
    by_cases hb : block = job.block
    · rw [if_pos hb, if_pos hb.symm]
      omega
    · rw [if_neg hb, if_neg (Ne.symm hb)]
      omega
  all_goals
    rw [hs]
    simp [hget]

/-- A submit keeps the slots in order. -/
theorem submit {s : Service} (h : Orderly s) (job : CompileJob) : Orderly (s.submit job).2 := by
  -- whatever the answer, a slot of the block is left, and what waits in it is of the block
  have hslots : ∃ waits, (s.submit job).2.slots = s.slots.insert job.block waits ∧
      ∀ ticket, waits = some ticket → ticket.block = job.block := by
    rcases submit_cases s job with ⟨-, hs⟩ | ⟨-, hs⟩ | ⟨-, -, hs⟩
    · exact ⟨none, by rw [hs], fun _ hw => by cases hw⟩
    · exact ⟨_, by rw [hs], fun _ hw => by rw [← Option.some.inj hw]; rfl⟩
    · exact ⟨_, by rw [hs], fun _ hw => by rw [← Option.some.inj hw]; rfl⟩
  obtain ⟨waits, hslots, hwaits⟩ := hslots
  constructor
  · intro block
    rw [underWayFor_submit, hslots, SortedMap.contains_insert, h.underWay block]
    by_cases hb : block = job.block
    · -- a free block had nothing under way; a busy one keeps what it had
      subst hb
      cases hget : s.slots.get? job.block <;> simp [SortedMap.contains, hget]
    · simp [hb]
  · intro block ticket ht
    rw [hslots, SortedMap.get?_insert] at ht
    split at ht
    · next hb => rw [hwaits ticket (Option.some.inj ht), hb]
    · exact h.waiting block ticket ht

/-- A job that is being compiled has the slot of its block. -/
theorem contains_of_compiling {s : Service} (h : Orderly s) {ticket : Ticket}
    (ht : ticket ∈ s.workers.flatMap Worker.compiling) :
    s.slots.contains ticket.block = true := by
  -- the job itself is under way, so the count that the slot stands for is not zero
  have hpos : 0 < s.underWayFor ticket.block := by
    rw [underWayFor, List.countP_pos_iff]
    refine ⟨ticket, ?_, decide_eq_true rfl⟩
    exact List.mem_append_left _ (List.mem_append_right _ ht)
  rw [h.underWay] at hpos
  cases hc : s.slots.contains ticket.block with
  | true => rfl
  | false => simp [hc] at hpos

/-- When a compile is settled, each block has a job under way just if its slot is taken. -/
theorem settle_underWay {s t : Service} (h : Orderly s) {worker : Nat}
    {result : Except ToolchainError CompileOutcome} (hs : s.settle? worker result = some t)
    (block : BlockId) : t.underWayFor block = (t.slots.contains block).toNat := by
  obtain ⟨ticket, hmem, hcount, -, hslots, -⟩ :=
    countP_settle? (fun t => t.block = block) hs
  have hbusy := h.contains_of_compiling hmem
  have hone := h.underWay block
  rw [underWayFor] at hone ⊢
  rw [hslots]
  rcases settleSlot_cases s.slots ticket.block with ⟨next, hget, hcase⟩ | ⟨-, hcase⟩
  · -- the job that waited is of the same block, so one job stays under way
    have hnext := h.waiting _ _ hget
    rw [hcase] at hcount ⊢
    simp only [Option.toList_some, List.countP_singleton, hnext] at hcount
    rw [SortedMap.contains_insert]
    by_cases hb : block = ticket.block
    · rw [hb, hbusy] at hone
      rw [hb, decide_eq_true rfl, Bool.true_or]
      rw [hb] at hcount
      omega
    · rw [decide_eq_false hb, Bool.false_or]
      omega
  · -- nothing waited, and the slot goes together with the only job that was under way
    rw [hcase] at hcount ⊢
    simp only [Option.toList_none, List.countP_singleton, List.countP_nil] at hcount
    rw [SortedMap.contains_erase]
    by_cases hb : block = ticket.block
    · rw [hb, hbusy, Bool.toNat_true] at hone
      rw [hb, decide_eq_true rfl, if_pos rfl] at hcount
      rw [hb, decide_eq_false (not_not_intro rfl), Bool.false_and, Bool.toNat_false]
      omega
    · rw [decide_eq_false (Ne.symm hb), if_neg Bool.false_ne_true] at hcount
      rw [decide_eq_true hb, Bool.true_and]
      omega

/-- Settling puts no job into a slot, so what waits has waited before. -/
theorem settle_waiting {s t : Service} (h : Orderly s) {worker : Nat}
    {result : Except ToolchainError CompileOutcome} (hs : s.settle? worker result = some t)
    {block : BlockId} {next : Ticket} (ht : t.slots.get? block = some (some next)) :
    next.block = block := by
  obtain ⟨ticket, -, -, -, hslots, -⟩ := countP_settle? (fun _ => true) hs
  rw [hslots] at ht
  -- the slot of the ticket's block holds nothing that waits any longer
  rcases settleSlot_cases s.slots ticket.block with ⟨_, -, hcase⟩ | ⟨-, hcase⟩
  · rw [hcase, SortedMap.get?_insert] at ht
    split at ht
    · cases ht
    · exact h.waiting block next ht
  · rw [hcase, SortedMap.get?_erase] at ht
    split at ht
    · cases ht
    · exact h.waiting block next ht

theorem settle {s t : Service} (h : Orderly s) {worker : Nat}
    {result : Except ToolchainError CompileOutcome} (hs : s.settle? worker result = some t) :
    Orderly t :=
  ⟨h.settle_underWay hs, fun _ _ ht => h.settle_waiting hs ht⟩

/-- Every step of a service keeps it orderly. -/
theorem step {s t : Service} (h : Orderly s) (hs : Step s t) : Orderly t := by
  cases hs with
  | submit job => exact h.submit job
  | receive worker hr =>
    exact h.of_eq (countP_receive? (fun _ => true) hr).2.2.1 fun p => (countP_receive? p hr).1
  | settle worker result hr => exact h.settle hr
  | publish worker hr =>
    exact h.of_eq (countP_publish? (fun _ => true) hr).2.2 fun p => (countP_publish? p hr).1
  | resend worker hr =>
    exact h.of_eq (countP_resend? (fun _ => true) hr).2.2.1 fun p => (countP_resend? p hr).1

end Orderly

/-- **Slots stand for jobs under way**, in every service that comes out of steps in any order. -/
theorem Reachable.orderly {workers : Nat} {s : Service} (h : Reachable workers s) :
    Orderly s := by
  induction h with
  | new => exact Orderly.new workers
  | step _ hs ih => exact ih.step hs

end Service

end CircuitBlocks
