import CircuitBlocks.Proofs.Block.Compile
import CircuitBlocks.Proofs.Block.Edit
import CircuitBlocks.Proofs.Service.Accounting
import CircuitBlocks.Service.Drain

/-!
# Delivery — a block whose jobs a service compiles

A client edits a block, submits the job that describes it at that moment, and hands the block the events
of the service in the order in which they were published. The steps of the workers and the jobs of other
blocks come in between, in any order. Results of older jobs may arrive late, and a change of the output
ports forgets what was taken; a block takes a result only if its job has the inputs of that moment.

* `Exchange` — a service, a block, and how far the events are delivered; `Exchange.Reachable` has its
  steps.
* `Exchange.Sound` — what every step preserves: since the last edit, the last job submitted for the
  block is the one that describes it, and once its result is delivered, the state comes from a job with
  these inputs.
* **`Exchange.Reachable.delivered_edits`** — no edit is lost.
-/

namespace CircuitBlocks

/-! ## Results -/

/-- The result of a job with other inputs leaves the block as it was. -/
theorem CompileEvent.applyTo_of_not_matches {e : CompileEvent} {b : Block}
    (h : b.matchesJob e.ticket.job = false) : (e.applyTo b).2 = b := by
  unfold CompileEvent.applyTo
  cases e.result with
  | error error => rfl
  | ok outcome => simp [Block.apply, h]

/-- A block takes the outcome of a job with its inputs. -/
theorem CompileEvent.applyTo_of_matches {e : CompileEvent} {b : Block} {outcome : CompileOutcome}
    (h : b.matchesJob e.ticket.job = true) (hresult : e.result = .ok outcome) :
    (e.applyTo b).2 = { b with state := b.state.settle e.ticket.job outcome } := by
  simp [CompileEvent.applyTo, hresult, Block.apply, h]

/-- An event changes nothing of a block but its state. -/
theorem CompileEvent.applyTo_eq (e : CompileEvent) (b : Block) :
    (e.applyTo b).2 = { b with state := (e.applyTo b).2.state } := by
  cases hm : b.matchesJob e.ticket.job with
  | false => rw [applyTo_of_not_matches hm]
  | true =>
    cases hr : e.result with
    | error error => simp [applyTo, hr]
    | ok outcome => rw [applyTo_of_matches hm hr]

/-! ## Histories -/

namespace Service

/-- The job that is submitted is the last one of its block. -/
theorem History.last?_submit_self (h : History) (s : Service) (job : CompileJob) :
    (h.submit s job).last? job.block = some (s.nextTicket job) := by
  have hblock : (s.nextTicket job).block = job.block := rfl
  simp [History.last?, History.tickets_submit, List.filter_append, hblock]

/-- A job of another block leaves the last job of a block as it was. -/
theorem History.last?_submit_of_ne (h : History) (s : Service) {job : CompileJob} {block : BlockId}
    (hne : job.block ≠ block) : (h.submit s job).last? block = h.last? block := by
  have hblock : (s.nextTicket job).block ≠ block := hne
  simp [History.last?, History.tickets_submit, List.filter_append, hblock]

theorem History.mem_tickets_submit {h : History} {s : Service} {job : CompileJob} {t : Ticket} :
    t ∈ (h.submit s job).tickets ↔ t ∈ h.tickets ∨ t = s.nextTicket job := by
  rw [History.tickets_submit, List.mem_append, List.mem_singleton]

/-- A step of a worker. -/
inductive Work : Service → Service → Prop where
  | receive {s t} (worker : Nat) (h : s.receive? worker = some t) : Work s t
  | settle {s t} (worker : Nat) (result : Except ToolchainError CompileOutcome)
      (h : s.settle? worker result = some t) : Work s t
  | publish {s t} (worker : Nat) (h : s.publish? worker = some t) : Work s t
  | resend {s t} (worker : Nat) (h : s.resend? worker = some t) : Work s t

/-- The service works without a submission. -/
theorem Run.work {workers : Nat} {h : History} {s t : Service} (run : Run workers h s)
    (work : Work s t) : Run workers h t := by
  cases work with
  | receive worker hs => exact run.receive worker hs
  | settle worker result hs => exact run.settle worker result hs
  | publish worker hs => exact run.publish worker hs
  | resend worker hs => exact run.resend worker hs

/-- The steps of the workers add events after those that there are. -/
theorem Work.events {s t : Service} (work : Work s t) : s.events <+: t.events := by
  cases work with
  | receive worker hs =>
    obtain ⟨-, -, -, -, rfl⟩ := receive?_eq_some hs
    exact List.prefix_rfl
  | settle worker result hs =>
    obtain ⟨-, -, rfl⟩ := settle?_eq_some hs
    exact List.prefix_rfl
  -- only to publish adds an event
  | publish worker hs =>
    obtain ⟨event, -, -, rfl⟩ := publish?_eq_some hs
    exact List.prefix_append _ _
  | resend worker hs =>
    obtain ⟨-, -, rfl⟩ := resend?_eq_some hs
    exact List.prefix_rfl

end Service

/-! ## The exchange -/

open Service (History Run Work)

/-- A service, and a block whose jobs it compiles. -/
structure Exchange where
  history : History
  service : Service
  block : Block
  /-- How many events were delivered, the first ones first. -/
  delivered : Nat
  /-- Whether the block was submitted after its last edit. -/
  submitted : Bool

namespace Exchange

/-- A block and a service that has no jobs yet. -/
def start (workers : Nat) (b : Block) : Exchange := ⟨.empty, .new workers, b, 0, false⟩

/-- The client edits the block. -/
def edit (x : Exchange) (edit : Edit) : Exchange :=
  { x with block := x.block.edit edit, submitted := false }

/-- A client submits a job. -/
def submit (x : Exchange) (job : CompileJob) : Exchange :=
  { x with history := x.history.submit x.service job, service := (x.service.submit job).2 }

/-- The client submits the job that describes the block as it is now. -/
def submitBlock (x : Exchange) : Exchange := { x.submit x.block.job with submitted := true }

/-- The client hands the block an event. The block leaves the events of other blocks alone. -/
def deliver (x : Exchange) (e : CompileEvent) : Exchange :=
  { x with block := (e.applyTo x.block).2, delivered := x.delivered + 1 }

/-- The events that were delivered. -/
def deliveries (x : Exchange) : List CompileEvent := x.service.events.take x.delivered

/-- The exchanges that come out of steps in any order. -/
inductive Reachable (workers : Nat) : Exchange → Prop where
  | start (b : Block) : Reachable workers (.start workers b)
  | edit {x} (edit : Edit) : Reachable workers x → Reachable workers (x.edit edit)
  | submitBlock {x} : Reachable workers x → Reachable workers x.submitBlock
  | submitOther {x} (job : CompileJob) : Reachable workers x → job.block ≠ x.block.id →
      Reachable workers (x.submit job)
  | work {x} {s : Service} : Reachable workers x → Work x.service s →
      Reachable workers { x with service := s }
  | deliver {x} {e : CompileEvent} : Reachable workers x → x.service.events[x.delivered]? = some e →
      Reachable workers (x.deliver e)

/-! ## What every step preserves -/

/-- The state of the block is the outcome of a delivered job with the inputs of the block. -/
def Taken (x : Exchange) : Prop :=
  ∃ e ∈ x.deliveries, ∃ outcome, e.result = .ok outcome ∧ x.block.matchesJob e.ticket.job = true ∧
    ∃ earlier : CompileState, x.block.state = earlier.settle e.ticket.job outcome

theorem Taken.of_eq {x y : Exchange} (h : x.Taken) (hblock : y.block = x.block)
    (hdeliveries : y.deliveries = x.deliveries) : y.Taken := by
  unfold Taken
  rw [hblock, hdeliveries]
  exact h

/-- What holds of an exchange after every step. -/
structure Sound (workers : Nat) (x : Exchange) : Prop where
  run : Run workers x.history x.service
  delivered_le : x.delivered ≤ x.service.events.length
  /-- A job of the block asks for the unit of the inputs that it was made from. -/
  request : ∀ t ∈ x.history.tickets, t.block = x.block.id →
    t.job.request = ⟨x.block.artifactName,
      unitText t.job.fragments t.job.shape x.block.artifactName, x.block.files⟩
  /-- Since the last edit, the last job is the one that describes the block. -/
  last : x.submitted = true → ∃ t, x.history.last? x.block.id = some t ∧ t.job = x.block.job
  /-- Once the outcome of the last job is delivered, the block has one with its inputs. -/
  taken : x.submitted = true → ∀ e ∈ x.deliveries, x.history.last? x.block.id = some e.ticket →
    ∀ outcome, e.result = .ok outcome → x.Taken

theorem Sound.start (workers : Nat) (b : Block) : (start workers b).Sound workers where
  run := .new
  delivered_le := Nat.le_refl _
  request := fun _ ht => by cases ht
  last := fun h => by cases h
  taken := fun h => by cases h

section Steps

variable {workers : Nat} {x : Exchange}

/-- An edit makes what was taken before another block's source, and leaves the rest of the story. -/
theorem Sound.edit (hx : x.Sound workers) (edit : Edit) : (x.edit edit).Sound workers where
  run := hx.run
  delivered_le := hx.delivered_le
  request := by
    -- the name and the files of the block are not edited
    intro t ht hblock
    have hid : (x.block.edit edit).id = x.block.id := x.block.id_edit edit
    have hname : (x.block.edit edit).artifactName = x.block.artifactName := Block.artifactName_eq hid
    show t.job.request = ⟨(x.block.edit edit).artifactName,
      unitText t.job.fragments t.job.shape (x.block.edit edit).artifactName,
      (x.block.edit edit).files⟩
    rw [hname, Block.files_edit]
    exact hx.request t ht (hblock.trans hid)
  last := fun h => by cases h
  taken := fun h => by cases h

/-- The events that were delivered have been there before a submission, so none of them is of the job
that is submitted. -/
theorem Sound.ne_nextTicket (hx : x.Sound workers) {e : CompileEvent} (he : e ∈ x.deliveries)
    (job : CompileJob) : e.ticket ≠ x.service.nextTicket job := by
  intro heq
  have hpublished : e.ticket ∈ x.service.published := List.mem_map_of_mem (List.mem_of_mem_take he)
  have hlt := hx.run.number_lt (hx.run.mem_tickets .published hpublished)
  rw [heq] at hlt
  exact Nat.lt_irrefl _ hlt

/-- The block's own job is the last that was submitted for it. -/
theorem Sound.submitBlock (hx : x.Sound workers) : x.submitBlock.Sound workers where
  run := hx.run.submit x.block.job
  delivered_le := by
    show x.delivered ≤ (x.service.submit x.block.job).2.events.length
    rw [Service.events_submit]
    exact hx.delivered_le
  request := by
    intro t ht hblock
    rcases History.mem_tickets_submit.1 ht with ht | rfl
    · exact hx.request t ht hblock
    · rfl
  last := fun _ => ⟨_, x.history.last?_submit_self x.service x.block.job, rfl⟩
  taken := by
    -- the last job is now the new one, and nothing of it was delivered yet
    intro _ e he hlast
    have he : e ∈ x.deliveries := by
      rw [deliveries, Exchange.submitBlock, Exchange.submit, Service.events_submit] at he
      exact he
    have hself := x.history.last?_submit_self x.service x.block.job
    have heq : e.ticket = x.service.nextTicket x.block.job :=
      (Option.some.inj (hself.symm.trans hlast)).symm
    exact absurd heq (hx.ne_nextTicket he x.block.job)

/-- A job of another block changes nothing for this one. -/
theorem Sound.submitOther (hx : x.Sound workers) {job : CompileJob} (hne : job.block ≠ x.block.id) :
    (x.submit job).Sound workers := by
  -- a submit publishes nothing, and the last job of the block stays the last one of it
  have hdeliveries : (x.submit job).deliveries = x.deliveries := by
    rw [deliveries, Exchange.submit, Service.events_submit]
    rfl
  have hlast := x.history.last?_submit_of_ne x.service hne
  exact {
    run := hx.run.submit job
    delivered_le := by
      show x.delivered ≤ (x.service.submit job).2.events.length
      rw [Service.events_submit]
      exact hx.delivered_le
    request := by
      intro t ht hblock
      rcases History.mem_tickets_submit.1 ht with ht | rfl
      · exact hx.request t ht hblock
      · exact absurd hblock hne
    last := by
      intro hsubmitted
      obtain ⟨t, ht, hjob⟩ := hx.last hsubmitted
      exact ⟨t, hlast.trans ht, hjob⟩
    taken := by
      intro hsubmitted e he hticket outcome hresult
      rw [hdeliveries] at he
      have htaken := hx.taken hsubmitted e he (hlast.symm.trans hticket) outcome hresult
      exact htaken.of_eq rfl hdeliveries }

/-- What the workers do is not seen by the block. -/
theorem Sound.work (hx : x.Sound workers) {s : Service} (work : Work x.service s) :
    Sound workers { x with service := s } := by
  have hprefix := work.events
  -- events are only added behind those that were delivered
  have hdeliveries : deliveries { x with service := s } = x.deliveries := by
    obtain ⟨later, hlater⟩ := hprefix
    show s.events.take x.delivered = x.service.events.take x.delivered
    rw [← hlater, List.take_append_of_le_length hx.delivered_le]
  exact {
    run := hx.run.work work
    delivered_le := Nat.le_trans hx.delivered_le hprefix.length_le
    request := hx.request
    last := hx.last
    taken := by
      intro hsubmitted e he hticket outcome hresult
      rw [hdeliveries] at he
      exact (hx.taken hsubmitted e he hticket outcome hresult).of_eq rfl hdeliveries }

theorem deliveries_deliver {e : CompileEvent} (he : x.service.events[x.delivered]? = some e) :
    (x.deliver e).deliveries = x.deliveries ++ [e] := by
  show x.service.events.take (x.delivered + 1) = x.service.events.take x.delivered ++ [e]
  rw [List.take_add_one, he]
  rfl

/-- The outcome of a job with the inputs of the block is taken. -/
theorem taken_of_matches {e : CompileEvent} (he : x.service.events[x.delivered]? = some e)
    {outcome : CompileOutcome} (hresult : e.result = .ok outcome)
    (hmatch : x.block.matchesJob e.ticket.job = true) : (x.deliver e).Taken := by
  have hblock : (x.deliver e).block =
      { x.block with state := x.block.state.settle e.ticket.job outcome } :=
    CompileEvent.applyTo_of_matches hmatch hresult
  refine ⟨e, ?_, outcome, hresult, ?_, x.block.state, ?_⟩
  · rw [deliveries_deliver he]
    exact List.mem_append_right _ (List.mem_singleton_self e)
  · rw [hblock]
    exact hmatch
  · rw [hblock]

/-- A later event either brings an outcome for the inputs of the block, or changes nothing. -/
theorem Taken.deliver (htaken : x.Taken) {e : CompileEvent}
    (he : x.service.events[x.delivered]? = some e) : (x.deliver e).Taken := by
  -- an event that changes nothing leaves the delivered job that the state comes from
  have hkept : (e.applyTo x.block).2 = x.block → (x.deliver e).Taken := by
    intro hblock
    obtain ⟨e', he', outcome, hresult, hmatch, earlier, hstate⟩ := htaken
    refine ⟨e', ?_, outcome, hresult, ?_, earlier, ?_⟩
    · rw [deliveries_deliver he]
      exact List.mem_append_left _ he'
    · rw [Exchange.deliver, hblock]
      exact hmatch
    · rw [Exchange.deliver, hblock]
      exact hstate
  cases hmatch : x.block.matchesJob e.ticket.job with
  | false => exact hkept (CompileEvent.applyTo_of_not_matches hmatch)
  | true =>
    cases hresult : e.result with
    | ok outcome => exact taken_of_matches he hresult hmatch
    | error error => exact hkept (by rw [CompileEvent.applyTo, hresult])

/-- To deliver the next event keeps an exchange sound. -/
theorem Sound.deliver (hx : x.Sound workers) {e : CompileEvent}
    (he : x.service.events[x.delivered]? = some e) : (x.deliver e).Sound workers := by
  -- an event changes the compile state of the block, and nothing that its jobs are compared with
  have hblock := CompileEvent.applyTo_eq e x.block
  have hid : (e.applyTo x.block).2.id = x.block.id := by rw [hblock]
  exact {
    run := hx.run
    delivered_le := by
      obtain ⟨hlt, -⟩ := List.getElem?_eq_some_iff.1 he
      exact hlt
    request := by
      intro t ht htb
      have hrequest := hx.request t ht (htb.trans hid)
      rw [Exchange.deliver, hblock]
      exact hrequest
    last := by
      intro hsubmitted
      obtain ⟨t, ht, hjob⟩ := hx.last hsubmitted
      refine ⟨t, ?_, ?_⟩
      · rw [Exchange.deliver, hid]
        exact ht
      · rw [Exchange.deliver, hblock]
        exact hjob
    taken := by
      intro hsubmitted e' he' hticket outcome hresult
      rw [Exchange.deliver, hid] at hticket
      rw [deliveries_deliver he] at he'
      rcases List.mem_append.1 he' with he' | he'
      · exact (hx.taken hsubmitted e' he' hticket outcome hresult).deliver he
      · -- the event of the last job arrives, and that job describes the block
        obtain rfl : e' = e := List.mem_singleton.1 he'
        obtain ⟨t, ht, hjob⟩ := hx.last hsubmitted
        obtain rfl : t = e'.ticket := Option.some.inj (ht.symm.trans hticket)
        have hmatch : x.block.matchesJob e'.ticket.job = true := by
          rw [hjob]
          exact x.block.matchesJob_job
        exact taken_of_matches he hresult hmatch }

end Steps

/-- Whatever is exchanged, the story of the block is sound. -/
theorem Reachable.sound {workers : Nat} {x : Exchange} (hx : Reachable workers x) :
    x.Sound workers := by
  induction hx with
  | start b => exact .start workers b
  | edit edit _ ih => exact ih.edit edit
  | submitBlock _ ih => exact ih.submitBlock
  | submitOther job _ hne ih => exact ih.submitOther hne
  | work _ work ih => exact ih.work work
  | deliver _ he ih => exact ih.deliver he

/-! ## No edit is lost -/

/-- A block whose state is the outcome of a job with its inputs is fresh. -/
theorem Taken.fresh {workers : Nat} {x : Exchange} (hx : x.Sound workers) (htaken : x.Taken) :
    x.block.staleness = .fresh := by
  obtain ⟨e, he, outcome, -, hmatch, earlier, hstate⟩ := htaken
  obtain ⟨hid, hfragments, hshape, -⟩ := Block.matchesJob_iff.1 hmatch
  have hpublished : e.ticket ∈ x.service.published := List.mem_map_of_mem (List.mem_of_mem_take he)
  have hticket := hx.run.mem_tickets .published hpublished
  have hrequest := hx.request e.ticket hticket hid
  refine Block.staleness_eq_fresh_iff.2 ⟨e.ticket.job.record outcome.message, ?_, ?_, ?_⟩
  · rw [hstate, CompileState.record?_settle]
  · simp only [CompileJob.record, hrequest, hfragments, hshape]
  · simp only [CompileJob.record, hrequest]
    rfl

/-- **No edit is lost.** Whatever the order of edits, submissions, steps of the workers and deliveries:
once a block that was submitted after its last edit has no slot and all its events are delivered, it is
fresh and its state is the outcome of a submitted job with its inputs, unless the compile of its last
job gave no outcome. The result of a job with other inputs never changes the block. -/
theorem Reachable.delivered_edits {workers : Nat} {x : Exchange} (hx : Reachable workers x) :
    (x.submitted = true → x.service.slots.contains x.block.id = false →
      (∀ t ∈ x.service.publishing, t.block ≠ x.block.id) →
      (∀ e ∈ x.service.events.drop x.delivered, e.ticket.block ≠ x.block.id) →
      (∀ e ∈ x.service.events, x.history.last? x.block.id = some e.ticket →
        ∃ outcome, e.result = .ok outcome) →
      x.block.staleness = .fresh ∧
      ∃ e ∈ x.service.events, ∃ outcome earlier, e.ticket ∈ x.history.tickets ∧
        e.result = .ok outcome ∧ x.block.state = CompileState.settle earlier e.ticket.job outcome ∧
        e.ticket.job.block = x.block.id ∧ e.ticket.job.fragments = x.block.fragments ∧
        e.ticket.job.shape = x.block.shape ∧ e.ticket.job.hashes = x.block.hashes) ∧
    (∀ e : CompileEvent, ¬(e.ticket.job.block = x.block.id ∧
        e.ticket.job.fragments = x.block.fragments ∧ e.ticket.job.shape = x.block.shape ∧
        e.ticket.job.hashes = x.block.hashes) → (e.applyTo x.block).2 = x.block) := by
  have hsound := hx.sound
  constructor
  · intro hsubmitted hfree hrest hdelivered houtcome
    -- the last job was published since the block is at rest, and all its events are delivered
    obtain ⟨t, hlast, -⟩ := hsound.last hsubmitted
    obtain ⟨e, he, rfl⟩ := List.mem_map.1 (hsound.run.last_published hfree hrest hlast)
    obtain ⟨outcome, hresult⟩ := houtcome e he hlast
    have htaken : x.Taken := by
      refine hsound.taken hsubmitted e ?_ hlast outcome hresult
      rw [← List.take_append_drop x.delivered x.service.events] at he
      rcases List.mem_append.1 he with he | he
      · exact he
      · exact absurd (History.mem_of_last? hlast).2 (hdelivered e he)
    refine ⟨htaken.fresh hsound, ?_⟩
    obtain ⟨e', he', outcome', hresult', hmatch, earlier, hstate⟩ := htaken
    have he' : e' ∈ x.service.events := List.mem_of_mem_take he'
    have hpublished : e'.ticket ∈ x.service.published := List.mem_map_of_mem he'
    exact ⟨e', he', outcome', earlier, hsound.run.mem_tickets .published hpublished,
      hresult', hstate, Block.matchesJob_iff.1 hmatch⟩
  · intro e hne
    refine CompileEvent.applyTo_of_not_matches ?_
    rw [← Bool.not_eq_true]
    exact fun hmatch => hne (Block.matchesJob_iff.1 hmatch)

/-- A block is submitted, edited while its job is compiled, and submitted again. The late result is not
taken, and the block ends with the outcome of its second job. -/
theorem delivered_edits_of_late_result :
    ∃ x, Reachable 1 x ∧ x.submitted = true ∧ x.service.events.length = 2 ∧ x.delivered = 2 ∧
      x.block.staleness = .fresh := by
  let b : Block := { id := "b", fragments := {}, shape := .standard }
  let edited : Block := b.edit (.fragment .body "0.0")
  let busy : SortedMap BlockId (Option Ticket) := SortedMap.insert ∅ "b" none
  let first : CompileEvent := ⟨⟨0, b.job⟩, .ok (.fail [])⟩
  let second : CompileEvent := ⟨⟨1, edited.job⟩, .ok (.fail [])⟩
  -- for any two jobs of the block, so that the texts of their units stay out of the evaluation
  have hsettle : ∀ j k : CompileJob, j.block = "b" → k.block = "b" →
      ((⟨1, busy, [], [.running ⟨0, j⟩], []⟩ : Service).submit k).2.settle? 0 first.result =
        some ⟨2, busy, [], [.settled ⟨⟨0, j⟩, first.result⟩ (some ⟨1, k⟩)], []⟩ := by
    rintro ⟨_, _, _, _, _⟩ ⟨_, _, _, _, _⟩ rfl hk
    subst hk
    cbv
  obtain ⟨h, hreceived⟩ : ∃ h, Reachable 1
      ⟨h, ⟨1, busy, [], [.running first.ticket], []⟩, b, 0, true⟩ :=
    ⟨_, .work (Reachable.start b).submitBlock (.receive 0 rfl)⟩
  have hsettled : Reachable 1 ⟨h.submit _ edited.job,
      ⟨2, busy, [], [.settled first (some second.ticket)], []⟩, edited, 0, true⟩ :=
    (hreceived.edit (.fragment .body "0.0")).submitBlock.work
      (.settle 0 first.result (hsettle b.job edited.job rfl rfl))
  have hresent : Reachable 1
      ⟨_, ⟨2, busy, [second.ticket], [.idle], [first]⟩, edited, 0, true⟩ :=
    (hsettled.work (.publish 0 rfl)).work (.resend 0 rfl)
  have hlate : Reachable 1 ⟨_, _, (first.applyTo edited).2, 1, true⟩ := hresent.deliver rfl
  have hdone : Reachable 1 ⟨_, ⟨2, ∅, [], [.idle], [first, second]⟩, _, 1, true⟩ :=
    ((hlate.work (.receive 0 rfl)).work (.settle 0 second.result rfl)).work (.publish 0 rfl)
  have hall := hdone.deliver (e := second) rfl
  have hfresh := hall.delivered_edits.1 rfl rfl (by intro t ht; cases ht) (by intro e he; cases he)
    (fun e he _ => by
      rcases List.mem_cons.1 he with rfl | he
      · exact ⟨_, rfl⟩
      · exact ⟨_, congrArg CompileEvent.result (List.mem_singleton.1 he)⟩)
  exact ⟨_, hall, rfl, rfl, rfl, hfresh.1⟩

end Exchange

end CircuitBlocks
