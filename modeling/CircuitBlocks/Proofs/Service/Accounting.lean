import CircuitBlocks.Proofs.Service.Slots
import Mathlib.Data.List.Permutation

/-!
# Accounting — every submitted job has one place

A run of a service is told with its history: the answer that each submission got, and the jobs that were
replaced while they waited. Whatever the order of the steps, a submitted job is at exactly one stage of
its way, and the counts of jobs and of answers balance.

* `Run` — the services that come out of steps in any order, each with its history.
* `Run.balance` — of the jobs with any property, as many were submitted as there are at all stages.
* **`Run.accounts`** — no job is lost or compiled twice, and when a block has come to rest, the last job
  that was submitted for it has been published.
-/

namespace CircuitBlocks.Service

/-! ## Histories -/

/-- What became of the submissions to a service. -/
structure History where
  /-- Each submitted job with its answer, the first one first. -/
  submissions : List (Ticket × Submission)
  /-- Each job that was replaced while it waited, with the job that took its place. -/
  replacements : List (Ticket × Ticket)

namespace History

/-- The history before the first submission. -/
def empty : History := ⟨[], []⟩

/-- The submitted jobs, in order. -/
def tickets (h : History) : List Ticket := h.submissions.map (·.1)

/-- The jobs that were replaced. -/
def replaced (h : History) : List Ticket := h.replacements.map (·.1)

/-- The history after a job is submitted to a service. -/
def submit (h : History) (s : Service) (job : CompileJob) : History where
  submissions := h.submissions ++ [(s.nextTicket job, (s.submit job).1)]
  replacements := h.replacements ++
    (s.waitingFor job.block).map fun old => (old, s.nextTicket job)

theorem tickets_submit (h : History) (s : Service) (job : CompileJob) :
    (h.submit s job).tickets = h.tickets ++ [s.nextTicket job] := by
  rw [tickets, submit, List.map_append]
  rfl

theorem replaced_submit (h : History) (s : Service) (job : CompileJob) :
    (h.submit s job).replaced = h.replaced ++ s.waitingFor job.block := by
  rw [replaced, submit, List.map_append, List.map_map]
  exact congrArg (h.replaced ++ ·) (List.map_id _)

/-- How many submissions for a block got an answer. -/
def answers (h : History) (block : BlockId) (answer : Submission) : Nat :=
  h.submissions.countP fun e => e.1.block = block ∧ e.2 = answer

/-- The last job that was submitted for a block. -/
def last? (h : History) (block : BlockId) : Option Ticket :=
  (h.tickets.filter fun t => t.block = block).getLast?

theorem mem_of_last? {h : History} {block : BlockId} {t : Ticket} (hlast : h.last? block = some t) :
    t ∈ h.tickets ∧ t.block = block := by
  have hfilter : t ∈ h.tickets.filter fun t => t.block = block := List.mem_of_getLast? hlast
  obtain ⟨ht, hblock⟩ := List.mem_filter.1 hfilter
  exact ⟨ht, of_decide_eq_true hblock⟩

end History

/-- The services that come out of steps in any order, each with its history. -/
inductive Run (workers : Nat) : History → Service → Prop where
  | new : Run workers .empty (.new workers)
  | submit {h s} (job : CompileJob) : Run workers h s →
      Run workers (h.submit s job) (s.submit job).2
  | receive {h s t} (worker : Nat) : Run workers h s → s.receive? worker = some t →
      Run workers h t
  | settle {h s t} (worker : Nat) (result : Except ToolchainError CompileOutcome) :
      Run workers h s → s.settle? worker result = some t → Run workers h t
  | publish {h s t} (worker : Nat) : Run workers h s → s.publish? worker = some t →
      Run workers h t
  | resend {h s t} (worker : Nat) : Run workers h s → s.resend? worker = some t →
      Run workers h t

/-- What a run comes to is reachable. -/
theorem Run.reachable {workers : Nat} {h : History} {s : Service} (run : Run workers h s) :
    Reachable workers s := by
  induction run with
  | new => exact .new
  | submit job _ ih => exact .step ih (.submit job)
  | receive worker _ hs ih => exact .step ih (.receive worker hs)
  | settle worker result _ hs ih => exact .step ih (.settle worker result hs)
  | publish worker _ hs ih => exact .step ih (.publish worker hs)
  | resend worker _ hs ih => exact .step ih (.resend worker hs)

/-- Every reachable service has a history. -/
theorem Reachable.exists_run {workers : Nat} {s : Service} (hs : Reachable workers s) :
    ∃ h, Run workers h s := by
  induction hs with
  | new => exact ⟨_, .new⟩
  | step _ step ih =>
    obtain ⟨h, run⟩ := ih
    cases step with
    | submit job => exact ⟨_, run.submit job⟩
    | receive worker hs => exact ⟨h, run.receive worker hs⟩
    | settle worker result hs => exact ⟨h, run.settle worker result hs⟩
    | publish worker hs => exact ⟨h, run.publish worker hs⟩
    | resend worker hs => exact ⟨h, run.resend worker hs⟩

/-! ## Stages -/

/-- The stages of a submitted job. -/
inductive Stage where
  | queued
  | running
  /-- In the slot of its block. -/
  | waiting
  /-- In the hands of a worker that is about to send it back to the queue. -/
  | held
  /-- Compiled, and its event about to be published. -/
  | settled
  | published
  /-- Dropped for a later job of its block while it waited. -/
  | replaced
  deriving DecidableEq, Repr

/-- The jobs that are at a stage. -/
def jobsAt (h : History) (s : Service) : Stage → List Ticket
  | .queued => s.queue
  | .running => s.workers.flatMap Worker.compiling
  | .waiting => s.waiting
  | .held => s.workers.flatMap Worker.sendingBack
  | .settled => s.publishing
  | .published => s.published
  | .replaced => h.replaced

/-- Seven counts that add up to one leave one of them at one, and the others at zero. -/
theorem exists_stage_of_sum_eq_one (count : Stage → Nat)
    (h : count .queued + count .running + count .held + count .waiting + count .settled +
      count .published + count .replaced = 1) :
    ∃ stage, count stage = 1 ∧ ∀ other, other ≠ stage → count other = 0 := by
  have hcases : count .queued = 1 ∨ count .running = 1 ∨ count .held = 1 ∨ count .waiting = 1 ∨
      count .settled = 1 ∨ count .published = 1 ∨ count .replaced = 1 := by omega
  rcases hcases with hc | hc | hc | hc | hc | hc | hc
  all_goals
    -- a second count above zero would bring the sum above one
    refine ⟨_, hc, fun other hne => ?_⟩
    cases other <;> first | exact absurd rfl hne | omega

/-! ## Balance -/

namespace Run

variable {workers : Nat} {h : History} {s : Service}

/-- **Balance.** Of the jobs with any property, as many were submitted as there are under way, waiting,
about to be published, published and replaced. -/
theorem balance (run : Run workers h s) (p : Ticket → Bool) :
    s.underWay.countP p + s.waiting.countP p + s.publishing.countP p + s.published.countP p +
      h.replaced.countP p = h.tickets.countP p := by
  -- a worker's step moves counts from one summand to another; only a submission changes the sum
  induction run with
  | new =>
    rw [countP_underWay, publishing, flatMap_workers_new workers rfl,
      flatMap_workers_new workers rfl, flatMap_workers_new workers rfl]
    rfl
  | @submit h s job run ih =>
    have hcount := countP_submit p (s := s) job
    rw [publishing, workers_submit, published, events_submit, History.replaced_submit,
      History.tickets_submit, List.countP_append, List.countP_append]
    rw [publishing, published] at ih
    omega
  | receive worker run hs ih =>
    obtain ⟨hcount, hpublishing, hslots, hevents⟩ := countP_receive? p hs
    rw [hcount, hpublishing, waiting, hslots, published, hevents]
    exact ih
  | @settle h s t worker result run hs ih =>
    obtain ⟨ticket, -, hcount, hpublishing, hslots, hevents⟩ := countP_settle? p hs
    have hwaiting := countP_settleSlot p s ticket.block
    rw [hpublishing, waiting, hslots, published, hevents]
    rw [published] at ih
    omega
  | publish worker run hs ih =>
    obtain ⟨hcount, hpublishing, hslots⟩ := countP_publish? p hs
    rw [hcount, waiting, hslots]
    rw [waiting] at ih
    omega
  | resend worker run hs ih =>
    obtain ⟨hcount, hpublishing, hslots, hevents⟩ := countP_resend? p hs
    rw [hcount, hpublishing, waiting, hslots, published, hevents]
    exact ih

/-! ## Numbers -/

/-- Jobs are numbered in the order of their submissions. -/
theorem numbers (run : Run workers h s) : h.tickets.map (·.number) = List.range s.submitted := by
  -- only a submission draws a number, and it draws the next one
  induction run with
  | new => rfl
  | @submit h s job run ih =>
    rw [submitted_submit, List.range_succ, ← ih, History.tickets_submit, List.map_append]
    rfl
  | receive worker run hs ih =>
    obtain ⟨-, -, -, -, rfl⟩ := receive?_eq_some hs
    exact ih
  | settle worker result run hs ih =>
    obtain ⟨-, -, rfl⟩ := settle?_eq_some hs
    exact ih
  | publish worker run hs ih =>
    obtain ⟨-, -, -, rfl⟩ := publish?_eq_some hs
    exact ih
  | resend worker run hs ih =>
    obtain ⟨-, -, rfl⟩ := resend?_eq_some hs
    exact ih

/-- Tickets are numbered in the order of their submissions. -/
theorem tickets_pairwise (run : Run workers h s) :
    h.tickets.Pairwise fun t u => t.number < u.number := by
  have hrange : (h.tickets.map (·.number)).Pairwise (· < ·) := by
    rw [run.numbers]
    exact List.pairwise_lt_range
  exact List.pairwise_map.1 hrange

theorem number_lt (run : Run workers h s) {t : Ticket} (ht : t ∈ h.tickets) :
    t.number < s.submitted := by
  have hmem : t.number ∈ h.tickets.map (·.number) := List.mem_map_of_mem ht
  rw [run.numbers] at hmem
  exact List.mem_range.1 hmem

/-- A job is submitted once. -/
theorem count_tickets (run : Run workers h s) {t : Ticket} (ht : t ∈ h.tickets) :
    h.tickets.count t = 1 := by
  have hnodup : h.tickets.Nodup := run.tickets_pairwise.imp fun hlt heq => by
    rw [heq] at hlt
    exact Nat.lt_irrefl _ hlt
  rw [hnodup.count, if_pos ht]

/-! ## Stages of one job -/

/-- The counts of one job at all stages add up to its count among the submitted ones. -/
theorem sum_jobsAt (run : Run workers h s) (t : Ticket) :
    (jobsAt h s .queued).count t + (jobsAt h s .running).count t + (jobsAt h s .held).count t +
      (jobsAt h s .waiting).count t + (jobsAt h s .settled).count t +
      (jobsAt h s .published).count t + (jobsAt h s .replaced).count t = h.tickets.count t := by
  have hbalance := run.balance (· == t)
  rw [countP_underWay] at hbalance
  exact hbalance

/-- Whatever is at a stage was submitted. -/
theorem mem_tickets (run : Run workers h s) {t : Ticket} (stage : Stage)
    (ht : t ∈ jobsAt h s stage) : t ∈ h.tickets := by
  -- the count at the stage is one of the summands, so the sum is not zero either
  have hpos : 0 < (jobsAt h s stage).count t := List.count_pos_iff.2 ht
  have hsum := run.sum_jobsAt t
  refine List.count_pos_iff.1 ?_
  cases stage <;> omega

/-- A ticket is at one stage, and there once. -/
theorem exists_unique_stage (run : Run workers h s) {t : Ticket} (ht : t ∈ h.tickets) :
    ∃ stage, (jobsAt h s stage).count t = 1 ∧
      ∀ other, other ≠ stage → t ∉ jobsAt h s other := by
  have hsum := run.sum_jobsAt t
  rw [run.count_tickets ht] at hsum
  obtain ⟨stage, hone, hzero⟩ := exists_stage_of_sum_eq_one (fun i => (jobsAt h s i).count t) hsum
  exact ⟨stage, hone, fun other hne => List.count_eq_zero.1 (hzero other hne)⟩

/-! ## Replaced jobs -/

/-- A job is replaced by a later one of its block. -/
theorem replacements (run : Run workers h s) {e : Ticket × Ticket} (he : e ∈ h.replacements) :
    e.2 ∈ h.tickets ∧ e.1.block = e.2.block ∧ e.1.number < e.2.number := by
  induction run with
  | new => cases he
  | @submit h s job run ih =>
    rw [History.tickets_submit]
    rcases List.mem_append.1 he with he | he
    · obtain ⟨hmem, hblock, hlt⟩ := ih he
      exact ⟨List.mem_append_left _ hmem, hblock, hlt⟩
    · -- what waits was submitted earlier, so its number is below the next one
      obtain ⟨old, hold, rfl⟩ := List.mem_map.1 he
      have hwaits : old ∈ jobsAt h s .waiting := waitingFor_subset s job.block hold
      refine ⟨List.mem_append_right _ (List.mem_singleton_self _), ?_, ?_⟩
      · exact run.reachable.orderly.waiting _ _ (mem_waitingFor.1 hold)
      · exact run.number_lt (run.mem_tickets _ hwaits)
  | receive worker run hs ih => exact ih he
  | settle worker result run hs ih => exact ih he
  | publish worker run hs ih => exact ih he
  | resend worker run hs ih => exact ih he

/-- A block's submissions were answered with `coalesced` as often as one of its jobs was replaced. -/
theorem answers_coalesced (run : Run workers h s) (block : BlockId) :
    h.answers block .coalesced = h.replaced.countP fun t => t.block = block := by
  induction run with
  | new => rfl
  | @submit h s job run ih =>
    have horderly := run.reachable.orderly
    rw [History.replaced_submit, List.countP_append, ← ih]
    simp only [History.answers, History.submit, List.countP_append, List.countP_singleton]
    congr 1
    have hblock : (s.nextTicket job).block = job.block := rfl
    -- only where a ticket waits is it replaced, and the answer says so
    rcases submit_cases s job with ⟨hget, hs⟩ | ⟨hget, hs⟩ | ⟨old, hget, hs⟩
    · simp [hs, waitingFor, hget, SortedMap.listOf]
    · simp [hs, waitingFor, hget, SortedMap.listOf]
    · have hold := horderly.waiting _ _ hget
      simp [hs, waitingFor, hget, SortedMap.listOf, List.countP_singleton, hblock, hold]
  | receive worker run hs ih => exact ih
  | settle worker result run hs ih => exact ih
  | publish worker run hs ih => exact ih
  | resend worker run hs ih => exact ih

end Run

/-- Every submission gets one of the three answers. -/
theorem History.countP_tickets (h : History) (block : BlockId) :
    (h.tickets.countP fun t => t.block = block)
      = h.answers block .started + h.answers block .queued + h.answers block .coalesced := by
  unfold History.tickets History.answers
  induction h.submissions with
  | nil => rfl
  | cons e rest ih =>
    obtain ⟨t, answer⟩ := e
    simp only [List.map_cons, List.countP_cons, ih]
    by_cases hb : t.block = block
    · cases answer <;> simp [hb] <;> omega
    · simp [hb]

/-! ## Blocks at rest -/

/-- Of the elements with a property, the last one is related to all others. -/
theorem eq_or_rel_of_getLast? {α : Type} {R : α → α → Prop} {l : List α} (h : l.Pairwise R) {p : α → Bool}
    {a last : α} (hlast : (l.filter p).getLast? = some last) (ha : a ∈ l) (hp : p a = true) :
    a = last ∨ R a last := by
  obtain ⟨before, hbefore⟩ := List.getLast?_eq_some_iff.1 hlast
  have hfiltered := h.filter p
  have hmem := List.mem_filter.2 ⟨ha, hp⟩
  rw [hbefore] at hfiltered hmem
  rcases List.mem_append.1 hmem with hmem | hmem
  · exact .inr ((List.pairwise_append.1 hfiltered).2.2 a hmem last (List.mem_singleton_self last))
  · exact .inl (List.mem_singleton.1 hmem)

namespace Run

variable {workers : Nat} {h : History} {s : Service}

/-- A block without a slot has no job under way and none that waits. -/
theorem not_mem_of_free (run : Run workers h s) {block : BlockId}
    (hfree : s.slots.contains block = false) {t : Ticket} (hblock : t.block = block) :
    t ∉ s.underWay ∧ t ∉ s.waiting := by
  have horderly := run.reachable.orderly
  constructor
  · intro ht
    have hpos : 0 < s.underWayFor block :=
      List.countP_pos_iff.2 ⟨t, ht, decide_eq_true hblock⟩
    rw [horderly.underWay, hfree] at hpos
    exact Nat.lt_irrefl 0 hpos
  · intro ht
    -- a job waits in the slot of its own block, and there is no such slot
    obtain ⟨waits, hwaits, hmem⟩ := List.mem_flatMap.1 ht
    obtain ⟨key, hget⟩ := SortedMap.exists_get?_of_mem_values hwaits
    obtain rfl : waits = some t := by
      cases waits with
      | none => cases hmem
      | some u => rw [List.mem_singleton.1 hmem]
    have hkey : t.block = key := horderly.waiting key t hget
    rw [← hblock, hkey, SortedMap.contains, hget] at hfree
    cases hfree

/-- No job of a block was submitted after the last one. -/
theorem number_le_of_last (run : Run workers h s) {block : BlockId} {t u : Ticket}
    (hlast : h.last? block = some t) (hu : u ∈ h.tickets) (hblock : u.block = block) :
    u.number ≤ t.number := by
  rcases eq_or_rel_of_getLast? run.tickets_pairwise hlast hu (decide_eq_true hblock) with rfl | hlt
  · exact Nat.le_refl u.number
  · exact Nat.le_of_lt hlt

/-- When a block has come to rest, the last job that was submitted for it has been published: it
cannot have been replaced, since only a later one would have taken its place. -/
theorem last_published (run : Run workers h s) {block : BlockId}
    (hfree : s.slots.contains block = false) (hrest : ∀ t ∈ s.publishing, t.block ≠ block)
    {t : Ticket} (hlast : h.last? block = some t) : t ∈ s.published := by
  obtain ⟨ht, hblock⟩ := History.mem_of_last? hlast
  obtain ⟨hway, hwait⟩ := run.not_mem_of_free hfree hblock
  obtain ⟨stage, hone, -⟩ := run.exists_unique_stage ht
  have hmem : t ∈ jobsAt h s stage := List.count_pos_iff.1 (hone ▸ Nat.one_pos)
  cases stage with
  | queued => exact absurd (List.mem_append_left _ (List.mem_append_left _ hmem)) hway
  | running => exact absurd (List.mem_append_left _ (List.mem_append_right _ hmem)) hway
  | held => exact absurd (List.mem_append_right _ hmem) hway
  | waiting => exact absurd hmem hwait
  | settled => exact absurd hblock (hrest t hmem)
  | published => exact hmem
  | replaced =>
    -- the job that took its place would have been submitted after the last one
    obtain ⟨⟨old, new⟩, he, rfl⟩ := List.mem_map.1 hmem
    obtain ⟨hnew, hsame, hlt⟩ := run.replacements he
    have hle := run.number_le_of_last hlast hnew (hsame.symm.trans hblock)
    exact absurd hlt (Nat.not_lt.2 hle)

/-- The events of a block at rest are as many as its submissions that were not coalesced. -/
theorem countP_published (run : Run workers h s) {block : BlockId}
    (hfree : s.slots.contains block = false) (hrest : ∀ t ∈ s.publishing, t.block ≠ block) :
    (s.published.countP fun t => t.block = block)
      = h.answers block .started + h.answers block .queued := by
  have hbalance := run.balance fun t => t.block = block
  have htickets := h.countP_tickets block
  have hreplaced := run.answers_coalesced block
  have hway : s.underWay.countP (fun t => t.block = block) = 0 :=
    List.countP_eq_zero.2 fun t ht hb => (run.not_mem_of_free hfree (of_decide_eq_true hb)).1 ht
  have hwait : s.waiting.countP (fun t => t.block = block) = 0 :=
    List.countP_eq_zero.2 fun t ht hb => (run.not_mem_of_free hfree (of_decide_eq_true hb)).2 ht
  have hsettled : s.publishing.countP (fun t => t.block = block) = 0 :=
    List.countP_eq_zero.2 fun t ht hb => hrest t ht (of_decide_eq_true hb)
  -- of the balance, only the published and the replaced jobs are left
  omega

/-- **Accounting.** In every run of a service, with any number of workers and in any order of steps:
submissions have numbers of their own, each submitted job is at exactly one stage and there once, and
nothing else is at any stage; a job is replaced only by a later one of its block. A block without a
slot and without an event that is about to be published has had its last job published, and as many
events as submissions that were started or queued; those that were coalesced are as many as its
replaced jobs. -/
theorem accounts (run : Run workers h s) :
    h.tickets.map (·.number) = List.range s.submitted ∧
    (∀ t ∈ h.tickets, ∃ stage, (jobsAt h s stage).count t = 1 ∧
      ∀ other, other ≠ stage → t ∉ jobsAt h s other) ∧
    (∀ stage, ∀ t ∈ jobsAt h s stage, t ∈ h.tickets) ∧
    (∀ e ∈ h.replacements, e.2 ∈ h.tickets ∧ e.1.block = e.2.block ∧ e.1.number < e.2.number) ∧
    (∀ block, s.slots.contains block = false → (∀ t ∈ s.publishing, t.block ≠ block) →
      (∀ t, h.last? block = some t → t ∈ s.published) ∧
      (s.published.countP fun t => t.block = block)
        = h.answers block .started + h.answers block .queued) ∧
    (∀ block, h.answers block .coalesced = h.replaced.countP fun t => t.block = block) := by
  refine ⟨run.numbers, fun t ht => run.exists_unique_stage ht, fun stage t ht => run.mem_tickets stage ht,
    fun e he => run.replacements he, fun block hfree hrest => ⟨fun t hlast => ?_, ?_⟩,
    run.answers_coalesced⟩
  · -- a block at rest has its last submission published, and all that were not replaced
    exact run.last_published hfree hrest hlast
  · exact run.countP_published hfree hrest

/-- Three jobs of one block: the first is compiled, the second waits for it, and the third takes the
second one's place. At rest, the first and the third have been published. -/
theorem accounts_three_submissions :
    ∃ h s, Run 1 h s ∧ h.submissions.map (·.2) = [.started, .queued, .coalesced] ∧
      s.slots.contains "b" = false ∧ (∀ t ∈ s.publishing, t.block ≠ "b") ∧
      (∀ t, h.last? "b" = some t → t ∈ s.published) ∧
      (s.published.countP fun t => t.block = "b") = 2 := by
  let job : CompileJob := ⟨"b", {}, .standard, [], ⟨"unit_b", "", []⟩⟩
  let busy : SortedMap BlockId (Option Ticket) := SortedMap.insert ∅ "b" none
  let first : CompileEvent := ⟨⟨0, job⟩, .ok (.fail [])⟩
  let third : CompileEvent := ⟨⟨2, job⟩, .ok (.fail [])⟩
  -- one run of the only worker, with the service written out after every few steps
  have hreceived : Run 1 _ ⟨1, busy, [], [.running first.ticket], []⟩ :=
    (Run.new.submit job).receive 0 rfl
  have hsettled : Run 1 _ ⟨3, busy, [], [.settled first (some third.ticket)], []⟩ :=
    ((hreceived.submit job).submit job).settle 0 first.result (by cbv)
  have hresent : Run 1 _ ⟨3, busy, [third.ticket], [.idle], [first]⟩ :=
    (hsettled.publish 0 rfl).resend 0 rfl
  have hdone : Run 1 _ ⟨3, ∅, [], [.settled third none], [first]⟩ :=
    (hresent.receive 0 rfl).settle 0 third.result rfl
  have hrun : Run 1 _ ⟨3, ∅, [], [.idle], [first, third]⟩ := hdone.publish 0 rfl
  have hrest := hrun.accounts.2.2.2.2.1 "b" rfl (by decide)
  exact ⟨_, _, hrun, by cbv, rfl, by decide, hrest.1, hrest.2.trans (by cbv)⟩

end Run

end CircuitBlocks.Service
