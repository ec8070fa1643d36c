import CircuitBlocks.Proofs.Service.Accounting
import CircuitBlocks.Proofs.Service.Exclusion
import Mathlib.Logic.Relation

/-!
# Order — events in the order of the submissions

The events of a block come in the order in which its jobs were submitted, but for one gap: a worker that settles
a slot in which nothing waits has still to publish its event. A job of the block that is submitted in this gap is
started at once, and if another worker takes it, its event can come first. Nothing else overtakes. What waits in a
slot is sent back to the queue only after the event of the job before it is published.

* `StartedBehind` — a job was started in the gap before an event.
* `InOrder` — what every step preserves: jobs under way come after those that were compiled, and jobs that wait
  come after both.
* **`Reachable.events_in_order`** — an event that comes before that of an earlier job has come through the gap.
-/

namespace CircuitBlocks.Service

/-- While the event of `t` was about to be published, a job of its block was submitted and started, no later than
`u` was submitted. -/
def StartedBehind (workers : Nat) (s : Service) (t u : Ticket) : Prop :=
  ∃ earlier job, Reachable workers earlier ∧ t ∈ earlier.publishing ∧ job.block = t.block ∧
    (earlier.submit job).1 = .started ∧ earlier.submitted ≤ u.number ∧
    Relation.ReflTransGen Step (earlier.submit job).2 s

section StartedBehind

variable {workers : Nat} {s s' : Service} {t u v : Ticket}

theorem StartedBehind.step (h : StartedBehind workers s t u) (hs : Step s s') : StartedBehind workers s' t u := by
  obtain ⟨earlier, job, hreachable, ht, hjob, hstarted, hle, hsteps⟩ := h
  exact ⟨earlier, job, hreachable, ht, hjob, hstarted, hle, hsteps.tail hs⟩

theorem StartedBehind.mono (h : StartedBehind workers s t u) (huv : u.number ≤ v.number) :
    StartedBehind workers s t v := by
  obtain ⟨earlier, job, hreachable, ht, hjob, hstarted, hle, hsteps⟩ := h
  exact ⟨earlier, job, hreachable, ht, hjob, hstarted, hle.trans huv, hsteps⟩

end StartedBehind

/-- The jobs that were compiled. -/
def compiled (s : Service) : List Ticket := s.publishing ++ s.published

/-- A service in which jobs of one block follow each other in the order of their submissions. -/
structure InOrder (workers : Nat) (s : Service) : Prop where
  underWay : ∀ t ∈ s.underWay, ∀ u ∈ s.compiled, u.block = t.block → u.number < t.number
  waiting : ∀ t ∈ s.waiting, ∀ u ∈ s.underWay ++ s.compiled, u.block = t.block → u.number < t.number
  /-- A job that is under way before the event of an earlier one was started behind it, or is still in the hands of
  the worker that has the event. -/
  following : ∀ t ∈ s.publishing, ∀ u ∈ s.underWay, u.block = t.block →
    StartedBehind workers s t u ∨ ∃ w ∈ s.workers, t ∈ w.publishing ∧ u ∈ w.sendingBack
  publishing : ∀ t ∈ s.publishing, ∀ u ∈ s.compiled, u.block = t.block → t.number < u.number →
    2 ≤ workers ∧ StartedBehind workers s t u
  events : s.events.Pairwise fun e f => e.ticket.block = f.ticket.block → f.ticket.number < e.ticket.number →
    2 ≤ workers ∧ StartedBehind workers s f.ticket e.ticket

/-! ## Lists and places -/

section Places

variable {workers : Nat} {s s' : Service} {t u : Ticket}

/-- Lists with the same counts have the same elements. -/
theorem mem_iff_of_countP {l l' : List Ticket} (h : ∀ p : Ticket → Bool, l.countP p = l'.countP p) :
    t ∈ l ↔ t ∈ l' := by
  rw [← List.count_pos_iff, ← List.count_pos_iff, List.count_eq_countP, List.count_eq_countP, h]

theorem mem_compiled : t ∈ s.compiled ↔ t ∈ s.publishing ∨ t ∈ s.published := List.mem_append

theorem Orderly.mem_waiting_iff (h : Orderly s) : t ∈ s.waiting ↔ s.slots.get? t.block = some (some t) :=
  ⟨h.get?_of_waiting, fun hget => waitingFor_subset s t.block (mem_waitingFor.2 hget)⟩

/-- Only one job of a block is under way. -/
theorem Orderly.eq_of_underWay (h : Orderly s) (ht : t ∈ s.underWay) (hu : u ∈ s.underWay)
    (hblock : u.block = t.block) : u = t := by
  refine Decidable.not_not.1 fun hne => ?_
  have hpair : [u, t] ⊆ s.underWay.filter fun v => v.block = t.block := by
    simp [ht, hu, hblock]
  have htwo := (List.subperm_of_subset (by simp [hne]) hpair).length_le
  have hcount := h.underWayFor_eq t.block
  rw [underWayFor, List.countP_eq_length_filter] at hcount
  simp only [List.length_cons, List.length_nil] at htwo
  split at hcount <;> omega

/-- A job that is compiled is in nobody else's hands, and no other job of its block is. -/
theorem Orderly.not_sendingBack (h : Orderly s) (ht : t ∈ s.workers.flatMap Worker.compiling) {w : Worker}
    (hw : w ∈ s.workers) (hu : u ∈ w.sendingBack) : u.block ≠ t.block := by
  intro hblock
  have hone := h.underWayFor_eq t.block
  have hcompiling : 0 < (s.workers.flatMap Worker.compiling).countP fun v => v.block = t.block :=
    List.countP_pos_iff.2 ⟨t, ht, decide_eq_true rfl⟩
  have hsending : 0 < (s.workers.flatMap Worker.sendingBack).countP fun v => v.block = t.block :=
    List.countP_pos_iff.2 ⟨u, List.mem_flatMap.2 ⟨w, hw, hu⟩, decide_eq_true hblock⟩
  rw [underWayFor, countP_underWay] at hone
  split at hone <;> omega

/-- The jobs that were published are different. -/
theorem Run.nodup_published {h : History} (run : Run workers h s) :
    (s.published.map (·.number)).Nodup := by
  have htickets : ∀ {t}, t ∈ s.published → t ∈ h.tickets := fun ht => run.mem_tickets .published ht
  refine List.Nodup.map_on (fun t ht u hu hnumber => ?_) (List.nodup_iff_count_le_one.2 fun t => ?_)
  · have hnodup : (h.tickets.map (·.number)).Nodup := run.numbers ▸ List.nodup_range
    exact List.inj_on_of_nodup_map hnodup (htickets ht) (htickets hu) hnumber
  · -- a ticket is in one place only, and there once
    by_cases ht : t ∈ s.published
    · have hsum := run.sum_jobsAt t
      rw [run.count_tickets (htickets ht)] at hsum
      have hpublished : (jobsAt h s .published).count t = s.published.count t := rfl
      omega
    · rw [List.count_eq_zero.2 ht]
      exact Nat.zero_le 1

/-- The event of a job is published once. -/
theorem Run.not_published {h : History} (run : Run workers h s) (ht : t ∈ s.publishing) : t ∉ s.published := by
  obtain ⟨stage, -, hother⟩ := run.exists_unique_stage (run.mem_tickets .settled ht)
  cases stage with
  | settled => exact hother .published (by decide)
  | queued | running | waiting | held | published | replaced => exact absurd ht (hother .settled (by decide))

/-- Steps leave the number of workers as it is. -/
theorem Reachable.length_workers (h : Reachable workers s) : s.workers.length = max workers 1 := by
  induction h with
  | new => exact List.length_replicate
  | step _ hs ih =>
    cases hs with
    | submit job => rw [workers_submit, ih]
    -- a worker that moves is replaced in its place
    | receive worker hs =>
      obtain ⟨-, -, -, -, rfl⟩ := receive?_eq_some hs
      exact List.length_set.trans ih
    | settle worker result hs =>
      obtain ⟨-, -, rfl⟩ := settle?_eq_some hs
      exact List.length_set.trans ih
    | publish worker hs =>
      obtain ⟨-, -, -, rfl⟩ := publish?_eq_some hs
      exact List.length_set.trans ih
    | resend worker hs =>
      obtain ⟨-, -, rfl⟩ := resend?_eq_some hs
      exact List.length_set.trans ih

/-- A worker that compiles and one that is about to publish are two. -/
theorem Reachable.two_le_workers (h : Reachable workers s) {worker : Nat} {running : Ticket}
    (hw : s.workers[worker]? = some (.running running)) (ht : t ∈ s.publishing) : 2 ≤ workers := by
  obtain ⟨w, hmem, ht⟩ := List.mem_flatMap.1 ht
  obtain ⟨other, hother⟩ := List.mem_iff_getElem?.1 hmem
  have hne : worker ≠ other := by
    rintro rfl
    obtain rfl := Option.some.inj (hw.symm.trans hother)
    cases ht
  obtain ⟨hlt, -⟩ := List.getElem?_eq_some_iff.1 hw
  obtain ⟨hlt', -⟩ := List.getElem?_eq_some_iff.1 hother
  rw [h.length_workers] at hlt hlt'
  omega

/-- A worker that has an event is there after the step of another one. -/
theorem mem_set_of_publishing {worker : Nat} {w busy after : Worker} (hbusy : s.workers[worker]? = some busy)
    (hw : w ∈ s.workers) (ht : t ∈ w.publishing) (hnot : t ∉ busy.publishing) :
    w ∈ s.workers.set worker after := by
  obtain ⟨place, hplace⟩ := List.mem_iff_getElem?.1 hw
  have hne : worker ≠ place := by
    rintro rfl
    obtain rfl := Option.some.inj (hbusy.symm.trans hplace)
    exact hnot ht
  exact List.mem_iff_getElem?.2 ⟨place, (List.getElem?_set_ne hne).trans hplace⟩

/-- A job that is submitted is under way at once just if it is started. -/
theorem mem_underWay_submit {job : CompileJob} (h : u ∈ (s.submit job).2.underWay) :
    u ∈ s.underWay ∨ u = s.nextTicket job ∧ (s.submit job).1 = .started := by
  rcases submit_cases s job with ⟨-, hs⟩ | ⟨-, hs⟩ | ⟨-, -, hs⟩
  · rw [hs] at h ⊢
    simp only [underWay, List.mem_append, List.mem_singleton] at h ⊢
    tauto
  · rw [hs] at h
    exact .inl h
  · rw [hs] at h
    exact .inl h

/-- Of the block of a job that is submitted, no other job waits. -/
theorem Orderly.mem_waiting_submit (h : Orderly s) {job : CompileJob} (ht : t ∈ (s.submit job).2.waiting) :
    t ∈ s.waiting ∧ t.block ≠ job.block ∨ t = s.nextTicket job ∧ (s.submit job).1 ≠ .started := by
  have hget := (h.submit job).get?_of_waiting ht
  have hother : ∀ {waits}, (s.slots.insert job.block waits).get? t.block = some (some t) →
      t ∈ s.waiting ∧ t.block ≠ job.block ∨ waits = some t := by
    intro waits hget
    rw [SortedMap.get?_insert] at hget
    split at hget
    · exact .inr (Option.some.inj hget)
    · next hne => exact .inl ⟨h.mem_waiting_iff.2 hget, hne⟩
  -- nothing waits in a new slot, and the new job in one that is taken
  rcases submit_cases s job with ⟨-, hs⟩ | ⟨-, hs⟩ | ⟨-, -, hs⟩
  all_goals
    rw [hs] at hget ⊢
    rcases hother hget with hwaits | hnew
    · exact .inl hwaits
  · cases hnew
  · exact .inr ⟨(Option.some.inj hnew).symm, by simp⟩
  · exact .inr ⟨(Option.some.inj hnew).symm, by simp⟩

/-- A job that is submitted has a number above all others. -/
theorem Run.number_lt_nextTicket {h : History} (run : Run workers h s) (job : CompileJob)
    (hu : u ∈ s.underWay ++ s.compiled) : u.number < (s.nextTicket job).number := by
  refine run.number_lt ?_
  simp only [underWay, compiled, List.mem_append] at hu
  rcases hu with ((hu | hu) | hu) | (hu | hu)
  · exact run.mem_tickets .queued hu
  · exact run.mem_tickets .running hu
  · exact run.mem_tickets .held hu
  · exact run.mem_tickets .settled hu
  · exact run.mem_tickets .published hu

/-- A worker settles the slot of the job that it compiles. -/
theorem eq_of_settle? {worker : Nat} {result : Except ToolchainError CompileOutcome}
    (hs : s.settle? worker result = some s') (hworker : s.workers[worker]? = some (.running t)) :
    s' = { s with
      slots := (settleSlot s.slots t.block).2
      workers := s.workers.set worker (.settled ⟨t, result⟩ (settleSlot s.slots t.block).1) } := by
  obtain ⟨running, hrunning, rfl⟩ := settle?_eq_some hs
  obtain rfl : t = running := Worker.running.inj (Option.some.inj (hworker.symm.trans hrunning))
  rfl

/-- A worker that settles a slot has nothing under way but what waited there. -/
theorem mem_underWay_settle {worker : Nat} {result : Except ToolchainError CompileOutcome}
    (hs : s.settle? worker result = some s') (hworker : s.workers[worker]? = some (.running t))
    (hu : u ∈ s'.underWay) : u ∈ s.underWay ∨ s.slots.get? t.block = some (some u) := by
  -- the queue is as before but for a job that waited, and the worker that is settled has no job any more
  obtain rfl := eq_of_settle? hs hworker
  rcases List.mem_append.1 hu with hu | hu
  · rcases List.mem_append.1 hu with hu | hu
    · exact .inl (List.mem_append_left _ (List.mem_append_left _ hu))
    · obtain ⟨w, hw, huw⟩ := List.mem_flatMap.1 hu
      rcases List.mem_or_eq_of_mem_set hw with hw | rfl
      · exact .inl (List.mem_append_left _ (List.mem_append_right _ (List.mem_flatMap.2 ⟨w, hw, huw⟩)))
      · cases huw
  · obtain ⟨w, hw, huw⟩ := List.mem_flatMap.1 hu
    rcases List.mem_or_eq_of_mem_set hw with hw | rfl
    · exact .inl (List.mem_append_right _ (List.mem_flatMap.2 ⟨w, hw, huw⟩))
    · right
      rcases settleSlot_cases s.slots t.block with ⟨next, hget, hcase⟩ | ⟨-, hcase⟩
      · rw [hcase] at huw
        obtain rfl : next = u := Option.some.inj (Option.mem_toList.1 huw)
        exact hget
      · rw [hcase] at huw
        cases huw

/-- After a worker has settled a slot, its job is not under way, and of its block only the one that waited is. -/
theorem Orderly.mem_underWay_settle (h : Orderly s) {worker : Nat}
    {result : Except ToolchainError CompileOutcome} (hs : s.settle? worker result = some s')
    (hworker : s.workers[worker]? = some (.running t)) (hu : u ∈ s'.underWay) :
    u ∈ s.underWay ∧ u.block ≠ t.block ∨
      u ∈ s.waiting ∧ u.block = t.block ∧ ∃ w ∈ s'.workers, t ∈ w.publishing ∧ u ∈ w.sendingBack := by
  have horderly := h.settle hs
  have hplaces := Service.mem_underWay_settle hs hworker hu
  obtain rfl := eq_of_settle? hs hworker
  obtain ⟨hlt, -⟩ := List.getElem?_eq_some_iff.1 hworker
  have hsettled := List.mem_set hlt (.settled ⟨t, result⟩ (settleSlot s.slots t.block).1)
  by_cases hblock : u.block = t.block
  · right
    rcases settleSlot_cases s.slots t.block with ⟨next, hget, hcase⟩ | ⟨-, hcase⟩
    · have hnext : next ∈ (Worker.settled ⟨t, result⟩ (settleSlot s.slots t.block).1).sendingBack := by
        rw [hcase]
        exact List.mem_singleton_self next
      have hsame : next.block = t.block := h.waiting _ _ hget
      -- two jobs of the block that are under way are the same one
      obtain rfl := horderly.eq_of_underWay (List.mem_append_right _ (List.mem_flatMap.2 ⟨_, hsettled, hnext⟩)) hu
        (hblock.trans hsame.symm)
      exact ⟨waitingFor_subset s t.block (mem_waitingFor.2 hget), hblock, _, hsettled,
        List.mem_singleton_self t, hnext⟩
    · -- the slot is gone, and with it all that was under way
      have hnone : (settleSlot s.slots t.block).2.get? u.block = none := by
        rw [hcase, SortedMap.get?_erase, if_pos hblock]
      have hzero := horderly.underWayFor_eq_zero_iff.2 hnone
      exact absurd (decide_eq_true rfl) (List.countP_eq_zero.1 hzero u hu)
  · left
    rcases hplaces with hu | hget
    · exact ⟨hu, hblock⟩
    · exact absurd (h.waiting _ _ hget) hblock

/-- After a worker has settled a slot, no job of its block waits. -/
theorem Orderly.mem_waiting_settle (h : Orderly s) {worker : Nat}
    {result : Except ToolchainError CompileOutcome} (hs : s.settle? worker result = some s')
    (hworker : s.workers[worker]? = some (.running t)) (hu : u ∈ s'.waiting) :
    u ∈ s.waiting ∧ u.block ≠ t.block := by
  have hget := (h.settle hs).get?_of_waiting hu
  obtain rfl := eq_of_settle? hs hworker
  -- the slot of the block is emptied or given up, so nothing waits for it
  rcases settleSlot_cases s.slots t.block with ⟨next, -, hcase⟩ | ⟨-, hcase⟩
  · rw [hcase, SortedMap.get?_insert] at hget
    split at hget
    · cases hget
    · next hne => exact ⟨h.mem_waiting_iff.2 hget, hne⟩
  · rw [hcase, SortedMap.get?_erase] at hget
    split at hget
    · cases hget
    · next hne => exact ⟨h.mem_waiting_iff.2 hget, hne⟩

/-- A worker that settles a slot is about to publish the event of the job that it has compiled. -/
theorem mem_publishing_settle {worker : Nat} {result : Except ToolchainError CompileOutcome}
    (hs : s.settle? worker result = some s') (hworker : s.workers[worker]? = some (.running t))
    (hu : u ∈ s'.publishing) : u ∈ s.publishing ∨ u = t := by
  obtain rfl := eq_of_settle? hs hworker
  obtain ⟨w, hw, huw⟩ := List.mem_flatMap.1 hu
  rcases List.mem_or_eq_of_mem_set hw with hw | rfl
  · exact .inl (List.mem_flatMap.2 ⟨w, hw, huw⟩)
  · exact .inr (List.mem_singleton.1 huw)

/-- That job is the only one that is compiled now and was not before. -/
theorem mem_compiled_settle {worker : Nat} {result : Except ToolchainError CompileOutcome}
    (hs : s.settle? worker result = some s') (hworker : s.workers[worker]? = some (.running t))
    (hu : u ∈ s'.compiled) : u ∈ s.compiled ∨ u = t := by
  rcases mem_compiled.1 hu with hu | hu
  · exact (mem_publishing_settle hs hworker hu).imp_left fun hu => mem_compiled.2 (.inl hu)
  · rw [published, eq_of_settle? hs hworker] at hu
    exact .inl (mem_compiled.2 (.inr hu))

theorem mem_compiling_of_running {worker : Nat} (hworker : s.workers[worker]? = some (.running t)) :
    t ∈ s.workers.flatMap Worker.compiling :=
  List.mem_flatMap.2 ⟨_, List.mem_of_getElem? hworker, List.mem_singleton_self t⟩

theorem mem_underWay_of_running {worker : Nat} (hworker : s.workers[worker]? = some (.running t)) :
    t ∈ s.underWay := List.mem_append_left _ (List.mem_append_right _ (mem_compiling_of_running hworker))

theorem publishing_submit (s : Service) (job : CompileJob) : (s.submit job).2.publishing = s.publishing := by
  rw [publishing, workers_submit, publishing]

theorem compiled_submit (s : Service) (job : CompileJob) : (s.submit job).2.compiled = s.compiled := by
  rw [compiled, publishing_submit, published, events_submit]
  rfl

end Places

/-! ## What every step preserves -/

namespace InOrder

variable {workers : Nat} {s s' : Service} {worker : Nat} {t u v : Ticket} {job : CompileJob}
  {result : Except ToolchainError CompileOutcome}

/-- A new service has nothing that could be out of order. -/
theorem new (workers : Nat) : InOrder workers (Service.new workers) := by
  have hway : (Service.new workers).underWay = [] := by
    rw [Service.underWay, flatMap_workers_new workers rfl, flatMap_workers_new workers rfl]
    rfl
  have hpublishing : (Service.new workers).publishing = [] := flatMap_workers_new workers rfl
  exact {
    underWay := by simp [hway]
    waiting := by
      intro t ht
      cases ht
    following := by simp [hpublishing]
    publishing := by simp [hpublishing]
    events := .nil }

theorem events_step (h : InOrder workers s) (hs : Step s s') :
    s.events.Pairwise fun e f => e.ticket.block = f.ticket.block → f.ticket.number < e.ticket.number →
      2 ≤ workers ∧ StartedBehind workers s' f.ticket e.ticket := by
  refine h.events.imp fun hpair hblock hlt => ?_
  obtain ⟨htwo, hbehind⟩ := hpair hblock hlt
  exact ⟨htwo, hbehind.step hs⟩

/-- A step that moves no job from one kind of place to another keeps the jobs in order, if it does so with the
events. -/
theorem of_mem (h : InOrder workers s) (hs : Step s s') (hslots : s'.slots = s.slots)
    (hway : ∀ t, t ∈ s'.underWay ↔ t ∈ s.underWay) (hcompiled : ∀ t, t ∈ s'.compiled ↔ t ∈ s.compiled)
    (hpublishing : s'.publishing ⊆ s.publishing)
    (hworkers : ∀ t ∈ s'.publishing, ∀ w ∈ s.workers, t ∈ w.publishing → w ∈ s'.workers)
    (hevents : s'.events.Pairwise fun e f => e.ticket.block = f.ticket.block →
      f.ticket.number < e.ticket.number → 2 ≤ workers ∧ StartedBehind workers s' f.ticket e.ticket) :
    InOrder workers s' where
  underWay t ht u hu := h.underWay t ((hway t).1 ht) u ((hcompiled u).1 hu)
  waiting := by
    intro t ht u hu
    rw [Service.waiting, hslots] at ht
    rw [List.mem_append, hway, hcompiled, ← List.mem_append] at hu
    exact h.waiting t ht u hu
  following := by
    -- what is compiled follows as before: behind, or in the same worker
    intro t ht u hu hblock
    rcases h.following t (hpublishing ht) u ((hway u).1 hu) hblock with hbehind | ⟨w, hw, htw, huw⟩
    · exact .inl (hbehind.step hs)
    · exact .inr ⟨w, hworkers t ht w hw htw, htw, huw⟩
  publishing := by
    intro t ht u hu hblock hlt
    obtain ⟨htwo, hbehind⟩ := h.publishing t (hpublishing ht) u ((hcompiled u).1 hu) hblock hlt
    exact ⟨htwo, hbehind.step hs⟩
  events := hevents

/-- A job that moves between the queue and the hands of a worker stays under way. -/
theorem of_countP (h : InOrder workers s) (hs : Step s s')
    (hcounts : ∀ p : Ticket → Bool, s'.underWay.countP p = s.underWay.countP p ∧
      s'.publishing.countP p = s.publishing.countP p ∧ s'.slots = s.slots ∧ s'.events = s.events)
    (hworkers : ∀ t, ∀ w ∈ s.workers, t ∈ w.publishing → w ∈ s'.workers) : InOrder workers s' := by
  obtain ⟨-, -, hslots, hevents⟩ := hcounts fun _ => true
  have hpublishing : ∀ t, t ∈ s'.publishing ↔ t ∈ s.publishing :=
    fun t => mem_iff_of_countP fun p => (hcounts p).2.1
  refine h.of_mem hs hslots (fun t => mem_iff_of_countP fun p => (hcounts p).1) (fun t => ?_)
    (fun t => (hpublishing t).1) (fun t _ => hworkers t) (hevents ▸ h.events_step hs)
  rw [mem_compiled, mem_compiled, hpublishing, published, published, hevents]

theorem receive (h : InOrder workers s) (hs : s.receive? worker = some s') : InOrder workers s' := by
  refine h.of_countP (.receive worker hs) (fun p => countP_receive? p hs) ?_
  obtain ⟨ticket, rest, hidle, -, rfl⟩ := receive?_eq_some hs
  exact fun t w hw ht => mem_set_of_publishing hidle hw ht List.not_mem_nil

theorem resend (h : InOrder workers s) (hs : s.resend? worker = some s') : InOrder workers s' := by
  refine h.of_countP (.resend worker hs) (fun p => countP_resend? p hs) ?_
  obtain ⟨ticket, hholding, rfl⟩ := resend?_eq_some hs
  exact fun t w hw ht => mem_set_of_publishing hholding hw ht List.not_mem_nil

/-- A worker publishes its event. What was published before is of earlier jobs, or came through the gap. -/
theorem publish (h : InOrder workers s) (hreachable : Reachable workers s) (hs : s.publish? worker = some s') :
    InOrder workers s' := by
  have hstep : Step s s' := .publish worker hs
  have hcounts := fun p => countP_publish? p hs
  obtain ⟨history, run⟩ := (hreachable.step hstep).exists_run
  have hcompiled : ∀ t, t ∈ s'.compiled ↔ t ∈ s.compiled := fun t => mem_iff_of_countP fun p => by
    rw [compiled, compiled, List.countP_append, List.countP_append, (hcounts p).2.1]
  obtain ⟨-, -, hslots⟩ := hcounts fun _ => true
  have hway : ∀ t, t ∈ s'.underWay ↔ t ∈ s.underWay := fun t => mem_iff_of_countP fun p => (hcounts p).1
  obtain ⟨event, next, hworker, rfl⟩ := publish?_eq_some hs
  have hevent : event.ticket ∈ s.publishing :=
    List.mem_flatMap.2 ⟨_, List.mem_of_getElem? hworker, List.mem_singleton_self _⟩
  refine h.of_mem hstep hslots hway hcompiled (fun t ht => ?_) (fun t ht w hw htw => ?_) ?_
  · obtain ⟨w, hw, htw⟩ := List.mem_flatMap.1 ht
    rcases List.mem_or_eq_of_mem_set hw with hw | rfl
    · exact List.mem_flatMap.2 ⟨w, hw, htw⟩
    · rw [Worker.publishing_afterEvent] at htw
      cases htw
  · refine mem_set_of_publishing hworker hw htw fun hown => ?_
    -- the event of this worker is published now, so it is nobody's to publish
    obtain rfl : t = event.ticket := List.mem_singleton.1 hown
    exact run.not_published ht (List.mem_map_of_mem (List.mem_append_right _ (List.mem_singleton_self event)))
  · refine List.pairwise_append.2 ⟨h.events_step hstep, List.pairwise_singleton _ _, fun e he f hf => ?_⟩
    obtain rfl : f = event := List.mem_singleton.1 hf
    intro hblock hlt
    have hpublished : e.ticket ∈ s.compiled := mem_compiled.2 (.inr (List.mem_map_of_mem he))
    obtain ⟨htwo, hbehind⟩ := h.publishing _ hevent _ hpublished hblock hlt
    exact ⟨htwo, hbehind.step hstep⟩

/-! One clause after the other, first for a job that is submitted -/

/-- Only the new job can come to be under way, and it has the greatest number. -/
theorem underWay_submit (h : InOrder workers s) (hreachable : Reachable workers s)
    (ht : t ∈ (s.submit job).2.underWay) (hu : u ∈ s.compiled) (hblock : u.block = t.block) :
    u.number < t.number := by
  obtain ⟨history, run⟩ := hreachable.exists_run
  rcases mem_underWay_submit ht with ht | ⟨rfl, -⟩
  · exact h.underWay t ht u hu hblock
  · exact run.number_lt_nextTicket job (List.mem_append_right _ hu)

/-- The new job waits if it is not started, and no other job of its block waits then. -/
theorem waiting_submit (h : InOrder workers s) (hreachable : Reachable workers s)
    (ht : t ∈ (s.submit job).2.waiting) (hu : u ∈ (s.submit job).2.underWay ++ s.compiled)
    (hblock : u.block = t.block) : u.number < t.number := by
  obtain ⟨history, run⟩ := hreachable.exists_run
  have hplaces : u ∈ s.underWay ++ s.compiled ∨ u = s.nextTicket job ∧ (s.submit job).1 = .started := by
    rcases List.mem_append.1 hu with hu | hu
    · exact (mem_underWay_submit hu).imp_left (List.mem_append_left _)
    · exact .inl (List.mem_append_right _ hu)
  rcases hreachable.orderly.mem_waiting_submit ht with ⟨ht, hne⟩ | ⟨rfl, hnot⟩
  · -- what was waiting already is of another block than the new job
    rcases hplaces with hu | ⟨rfl, -⟩
    · exact h.waiting t ht u hu hblock
    · exact absurd hblock.symm hne
  · -- the new job waits, so it is the one that was submitted last
    rcases hplaces with hu | ⟨-, hstarted⟩
    · exact run.number_lt_nextTicket job hu
    · exact absurd hstarted hnot

/-- A job that is started while an event of its block is about to be published is started behind it: the gap is
opened here, and nowhere else. -/
theorem following_submit (h : InOrder workers s) (hreachable : Reachable workers s) (ht : t ∈ s.publishing)
    (hu : u ∈ (s.submit job).2.underWay) (hblock : u.block = t.block) :
    StartedBehind workers (s.submit job).2 t u ∨
      ∃ w ∈ (s.submit job).2.workers, t ∈ w.publishing ∧ u ∈ w.sendingBack := by
  rcases mem_underWay_submit hu with hu | ⟨rfl, hstarted⟩
  · rw [workers_submit]
    exact (h.following t ht u hu hblock).imp_left fun hbehind => hbehind.step (.submit job)
  · exact .inl ⟨s, job, hreachable, ht, hblock, hstarted, Nat.le_refl _, .refl⟩

/-- A job that is submitted comes after all others. -/
theorem submit (h : InOrder workers s) (hreachable : Reachable workers s) (job : CompileJob) :
    InOrder workers (s.submit job).2 where
  -- one lemma for each place where the new ticket may be
  underWay t ht u hu hblock := h.underWay_submit hreachable ht (compiled_submit s job ▸ hu) hblock
  waiting t ht u hu hblock := by
    rw [compiled_submit] at hu
    exact h.waiting_submit hreachable ht hu hblock
  following t ht u hu hblock := h.following_submit hreachable (publishing_submit s job ▸ ht) hu hblock
  publishing := by
    rw [publishing_submit, compiled_submit]
    intro t ht u hu hblock hlt
    exact (h.publishing t ht u hu hblock hlt).imp_right fun hbehind => hbehind.step (.submit job)
  events := by
    rw [events_submit]
    exact h.events_step (.submit job)

/-! Then for a worker that settles the slot of the job that it compiles -/

/-- An event of the block that is still to be published has been left behind before: no other worker has a job of the
block in its hands. -/
theorem startedBehind_of_running (h : InOrder workers s) (hreachable : Reachable workers s)
    (hworker : s.workers[worker]? = some (.running t)) (hu : u ∈ s.publishing) (hblock : t.block = u.block) :
    StartedBehind workers s u t := by
  rcases h.following u hu t (mem_underWay_of_running hworker) hblock with hbehind | ⟨w, hw, -, hsending⟩
  · exact hbehind
  · exact absurd rfl (hreachable.orderly.not_sendingBack (mem_compiling_of_running hworker) hw hsending)

/-- What was under way stays after what was compiled, and what waited comes to be under way after the job that was. -/
theorem underWay_settle (h : InOrder workers s) (hreachable : Reachable workers s)
    (hs : s.settle? worker result = some s') (hworker : s.workers[worker]? = some (.running t))
    (hv : v ∈ s'.underWay) (hu : u ∈ s'.compiled) (hblock : u.block = v.block) : u.number < v.number := by
  have hcompiled := mem_compiled_settle hs hworker hu
  rcases hreachable.orderly.mem_underWay_settle hs hworker hv with ⟨hv, hne⟩ | ⟨hv, hsame, -⟩
  · rcases hcompiled with hu | rfl
    · exact h.underWay v hv u hu hblock
    · exact absurd hblock.symm hne
  · rcases hcompiled with hu | rfl
    · exact h.waiting v hv u (List.mem_append_right _ hu) hblock
    · exact h.waiting v hv u (List.mem_append_left _ (mem_underWay_of_running hworker)) hblock

/-- What waits now is of another block, and nothing of that block has moved. -/
theorem waiting_settle (h : InOrder workers s) (hreachable : Reachable workers s)
    (hs : s.settle? worker result = some s') (hworker : s.workers[worker]? = some (.running t))
    (hv : v ∈ s'.waiting) (hu : u ∈ s'.underWay ++ s'.compiled) (hblock : u.block = v.block) :
    u.number < v.number := by
  obtain ⟨hv, hne⟩ := hreachable.orderly.mem_waiting_settle hs hworker hv
  refine h.waiting v hv u ?_ hblock
  -- the settled ticket itself is of the block whose slot was emptied
  rcases List.mem_append.1 hu with hu | hu
  · rcases hreachable.orderly.mem_underWay_settle hs hworker hu with ⟨hu, -⟩ | ⟨-, hsame, -⟩
    · exact List.mem_append_left _ hu
    · exact absurd (hblock.symm.trans hsame) hne
  · rcases mem_compiled_settle hs hworker hu with hu | rfl
    · exact List.mem_append_right _ hu
    · exact absurd hblock.symm hne

/-- The job that waited is in the hands of the worker that has the event, and behind all that the job before it was
behind. -/
theorem following_settle (h : InOrder workers s) (hreachable : Reachable workers s)
    (hs : s.settle? worker result = some s') (hworker : s.workers[worker]? = some (.running t))
    (hv : v ∈ s'.publishing) (hu : u ∈ s'.underWay) (hblock : u.block = v.block) :
    StartedBehind workers s' v u ∨ ∃ w ∈ s'.workers, v ∈ w.publishing ∧ u ∈ w.sendingBack := by
  have hstep : Step s s' := .settle worker result hs
  rcases hreachable.orderly.mem_underWay_settle hs hworker hu with ⟨hu, hne⟩ | ⟨hu, hsame, hheld⟩
  · -- a ticket of another block; below, the one that is taken out of the slot of the block
    rcases mem_publishing_settle hs hworker hv with hv | rfl
    · rcases h.following v hv u hu hblock with hbehind | ⟨w, hw, hvw, huw⟩
      · exact .inl (hbehind.step hstep)
      · refine .inr ⟨w, ?_, hvw, huw⟩
        rw [eq_of_settle? hs hworker]
        exact mem_set_of_publishing hworker hw hvw List.not_mem_nil
    · exact absurd hblock hne
  · rcases mem_publishing_settle hs hworker hv with hv | rfl
    · have hbehind := h.startedBehind_of_running hreachable hworker hv (hsame.symm.trans hblock)
      have hlt := h.waiting u hu t (List.mem_append_left _ (mem_underWay_of_running hworker)) hsame.symm
      exact .inl ((hbehind.mono (Nat.le_of_lt hlt)).step hstep)
    · exact .inr hheld

/-- If the job that is compiled now is behind an event that is still to be published, another worker has that one. -/
theorem publishing_settle (h : InOrder workers s) (hreachable : Reachable workers s)
    (hs : s.settle? worker result = some s') (hworker : s.workers[worker]? = some (.running t))
    (hv : v ∈ s'.publishing) (hu : u ∈ s'.compiled) (hblock : u.block = v.block) (hlt : v.number < u.number) :
    2 ≤ workers ∧ StartedBehind workers s' v u := by
  have hstep : Step s s' := .settle worker result hs
  have hcompiled := mem_compiled_settle hs hworker hu
  rcases mem_publishing_settle hs hworker hv with hv | rfl
  · rcases hcompiled with hu | rfl
    · exact (h.publishing v hv u hu hblock hlt).imp_right fun hbehind => hbehind.step hstep
    · -- one worker publishes while another one settles
      exact ⟨hreachable.two_le_workers hworker hv,
        (h.startedBehind_of_running hreachable hworker hv hblock).step hstep⟩
  · rcases hcompiled with hu | rfl
    · -- the settled ticket comes behind all that were compiled
      exact absurd hlt (Nat.lt_asymm (h.underWay _ (mem_underWay_of_running hworker) u hu hblock))
    · exact absurd hlt (Nat.lt_irrefl _)

/-- A worker settles the slot of its block. Its own job comes after all that were compiled, and the job that waited
comes after it. -/
theorem settle (h : InOrder workers s) (hreachable : Reachable workers s)
    (hs : s.settle? worker result = some s') : InOrder workers s' := by
  obtain ⟨t, hworker, -⟩ := settle?_eq_some hs
  have hevents : s'.events = s.events := by rw [eq_of_settle? hs hworker]
  exact {
    underWay := fun v hv u hu => h.underWay_settle hreachable hs hworker hv hu
    waiting := fun v hv u hu => h.waiting_settle hreachable hs hworker hv hu
    following := fun v hv u hu => h.following_settle hreachable hs hworker hv hu
    publishing := fun v hv u hu => h.publishing_settle hreachable hs hworker hv hu
    events := by
      rw [hevents]
      exact h.events_step (.settle worker result hs) }

end InOrder

/-- Every service has its jobs in order. -/
theorem Reachable.inOrder {workers : Nat} {s : Service} (h : Reachable workers s) : InOrder workers s := by
  induction h with
  | new => exact .new workers
  | step hreachable hs ih =>
    cases hs with
    | submit job => exact ih.submit hreachable job
    | receive worker hs => exact ih.receive hs
    | settle worker result hs => exact ih.settle hreachable hs
    | publish worker hs => exact ih.publish hreachable hs
    | resend worker hs => exact ih.resend hs

/-- **Events in order.** However many workers there are, and in whatever order they and the clients take their
steps: of two events of one block, the one of the job that was submitted earlier was published first, unless
there are two workers and a job of the block was started while this event was still to be published. So with one
worker all events come in order. Under the same condition, the last event of a block is that of the newest job. -/
theorem Reachable.events_in_order {workers : Nat} {s : Service} (h : Reachable workers s) :
    (s.events.Pairwise fun e f => e.ticket.block = f.ticket.block →
      e.ticket.number < f.ticket.number ∨ 2 ≤ workers ∧ StartedBehind workers s f.ticket e.ticket) ∧
    ∀ block last, (s.events.filter fun e => e.ticket.block = block).getLast? = some last →
      ∀ e ∈ s.events, e.ticket.block = block →
        e.ticket.number ≤ last.ticket.number ∨ 2 ≤ workers ∧ StartedBehind workers s last.ticket e.ticket := by
  obtain ⟨history, run⟩ := h.exists_run
  -- no job is published twice, so two events have different numbers
  have hdifferent : s.events.Pairwise fun e f => e.ticket.number ≠ f.ticket.number := by
    have hnodup := run.nodup_published
    rw [published, List.map_map] at hnodup
    exact List.pairwise_map.1 hnodup
  have hpairs : s.events.Pairwise fun e f => e.ticket.block = f.ticket.block →
      e.ticket.number < f.ticket.number ∨ 2 ≤ workers ∧ StartedBehind workers s f.ticket e.ticket := by
    refine (hdifferent.and h.inOrder.events).imp fun hpair hblock => ?_
    rcases Nat.lt_or_gt_of_ne hpair.1 with hlt | hlt
    · exact .inl hlt
    · exact .inr (hpair.2 hblock hlt)
  -- the last event of a block comes behind every other one of it
  refine ⟨hpairs, fun block last hlast e he hblock => ?_⟩
  have hlastBlock : last.ticket.block = block :=
    of_decide_eq_true (List.mem_filter.1 (List.mem_of_getLast? hlast)).2
  rcases eq_or_rel_of_getLast? hpairs hlast he (decide_eq_true hblock) with rfl | hpair
  · exact .inl (Nat.le_refl _)
  · exact (hpair (hblock.trans hlastBlock.symm)).imp_left Nat.le_of_lt

/-! ## Two jobs of one block -/

/-- A job of the block `b`. -/
def jobOfB : CompileJob := ⟨"b", {}, .standard, [], ⟨"unit_b", "", []⟩⟩

/-- The event of a job of that block. -/
def eventOfB (number : Nat) : CompileEvent := ⟨⟨number, jobOfB⟩, .ok (.fail [])⟩

/-- One worker publishes the events of two jobs, one of which has waited for the other. -/
theorem events_in_order_of_one_worker : ∃ s e f, Reachable 1 s ∧ s.events = [e, f] ∧
    e.ticket.block = f.ticket.block ∧ e.ticket.number < f.ticket.number := by
  let busy : SortedMap BlockId (Option Ticket) := SortedMap.insert ∅ "b" none
  -- the second job waits until the worker has settled the first, and is sent back to it
  have hreceived : Reachable 1 ⟨1, busy, [], [.running ⟨0, jobOfB⟩], []⟩ :=
    (Reachable.new.step (.submit jobOfB)).step (.receive 0 rfl)
  have hsettled : Reachable 1 ⟨2, busy, [], [.settled (eventOfB 0) (some ⟨1, jobOfB⟩)], []⟩ :=
    (hreceived.step (.submit jobOfB)).step (.settle 0 (.ok (.fail [])) (by cbv))
  have hresent : Reachable 1 ⟨2, busy, [⟨1, jobOfB⟩], [.idle], [eventOfB 0]⟩ :=
    (hsettled.step (.publish 0 rfl)).step (.resend 0 rfl)
  have hdone : Reachable 1 ⟨2, ∅, [], [.settled (eventOfB 1) none], [eventOfB 0]⟩ :=
    (hresent.step (.receive 0 rfl)).step (.settle 0 (.ok (.fail [])) rfl)
  have hboth : Reachable 1 ⟨2, ∅, [], [.idle], [eventOfB 0, eventOfB 1]⟩ := hdone.step (.publish 0 rfl)
  have hpair := List.pairwise_pair.1 hboth.events_in_order.1
  refine ⟨_, _, _, hboth, rfl, rfl, ?_⟩
  exact (hpair rfl).resolve_right fun h => absurd h.1 (by decide)

/-- A worker has settled the slot of the first job. Before it publishes its event, a second job is submitted, and
another worker takes it, compiles it and publishes its event first. -/
theorem exists_overtaken : ∃ s e f, Reachable 2 s ∧ s.events = [e, f] ∧
    e.ticket.block = f.ticket.block ∧ f.ticket.number < e.ticket.number := by
  let busy : SortedMap BlockId (Option Ticket) := SortedMap.insert ∅ "b" none
  have hsettled : Reachable 2 ⟨1, ∅, [], [.settled (eventOfB 0) none, .idle], []⟩ :=
    ((Reachable.new.step (.submit jobOfB)).step (.receive 0 rfl)).step (.settle 0 (.ok (.fail [])) rfl)
  have hstarted : Reachable 2 ⟨2, busy, [], [.settled (eventOfB 0) none, .running ⟨1, jobOfB⟩], []⟩ :=
    (hsettled.step (.submit jobOfB)).step (.receive 1 rfl)
  have hboth : Reachable 2 ⟨2, ∅, [], [.settled (eventOfB 0) none, .settled (eventOfB 1) none], []⟩ :=
    hstarted.step (.settle 1 (.ok (.fail [])) rfl)
  have hpublished : Reachable 2 ⟨2, ∅, [], [.idle, .idle], [eventOfB 1, eventOfB 0]⟩ :=
    (hboth.step (.publish 1 rfl)).step (.publish 0 rfl)
  exact ⟨_, _, _, hpublished, rfl, rfl, by decide⟩

end CircuitBlocks.Service
