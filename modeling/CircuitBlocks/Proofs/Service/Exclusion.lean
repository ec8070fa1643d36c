import CircuitBlocks.Proofs.Service.Slots

/-!
# Exclusion — one job of a block under way

The slot of a block is given away once: to the job that the queue gets, and from there to the worker that
compiles it. Whoever submits a job of a busy block leaves it in the slot. So no block is compiled by two
workers at once, and looking for the slot tells whether a job of the block is under way.

* `two_le_underWayFor` — two workers that compile for one block would have two jobs of it under way.
* **`Reachable.one_under_way`** — at most one job of a block is under way, and `isBusy` tells whether one is.
-/

namespace CircuitBlocks.Service

variable {workers : Nat} {s : Service} {block : BlockId}

/-- Two workers that compile for one block would have two jobs of it under way. -/
theorem two_le_underWayFor {i j : Nat} {t u : Ticket} (hij : i ≠ j)
    (hi : s.workers[i]? = some (.running t)) (hj : s.workers[j]? = some (.running u))
    (ht : t.block = block) (hu : u.block = block) : 2 ≤ s.underWayFor block := by
  have htwo := add_countP_le_flatMap (fun t : Ticket => t.block = block) Worker.compiling hij hi hj
  simp only [Worker.compiling, List.countP_singleton, ht, hu, decide_true, if_true] at htwo
  rw [underWayFor, countP_underWay]
  omega

namespace Orderly

/-- The number of jobs under way is told by the slot. -/
theorem underWayFor_eq (h : Orderly s) (block : BlockId) :
    s.underWayFor block = if s.isBusy block then 1 else 0 := by
  rw [h.underWay, isBusy]
  cases s.slots.contains block <;> rfl

theorem underWayFor_eq_zero_iff (h : Orderly s) :
    s.underWayFor block = 0 ↔ s.slots.get? block = none := by
  rw [h.underWayFor_eq, isBusy, SortedMap.contains]
  cases s.slots.get? block <;> simp

/-- A job that waits is in the slot of its block. -/
theorem get?_of_waiting (h : Orderly s) {t : Ticket} (ht : t ∈ s.waiting) :
    s.slots.get? t.block = some (some t) := by
  obtain ⟨waits, hwaits, hmem⟩ := List.mem_flatMap.1 ht
  obtain ⟨key, hget⟩ := SortedMap.exists_get?_of_mem_values hwaits
  obtain rfl : waits = some t := Option.mem_toList.1 hmem
  rw [h.waiting key t hget]
  exact hget

end Orderly

/-- A submitted job is started just if its block has no slot. -/
theorem started_iff (s : Service) (job : CompileJob) :
    (s.submit job).1 = .started ↔ s.slots.get? job.block = none := by
  rcases submit_cases s job with ⟨hget, hs⟩ | ⟨hget, hs⟩ | ⟨old, hget, hs⟩ <;> simp [hs, hget]

/-- **One job under way.** However many workers there are, and in whatever order they and the clients take
their steps: the jobs of a block that are in the queue, being compiled or about to be sent back are one if the
block is busy, and none if it is not. A job that waits does so in the slot of its block, which has a job under
way. No two workers compile for the block, and a job that is submitted for it is started just if none was
under way. -/
theorem Reachable.one_under_way (h : Reachable workers s) (block : BlockId) :
    s.underWayFor block = (if s.isBusy block then 1 else 0) ∧
    (∀ t ∈ s.waiting, t.block = block →
      s.slots.get? block = some (some t) ∧ s.underWayFor block = 1) ∧
    (∀ (i j : Nat) (t u : Ticket), s.workers[i]? = some (.running t) →
      s.workers[j]? = some (.running u) → t.block = block → u.block = block → i = j) ∧
    (∀ job, job.block = block → ((s.submit job).1 = .started ↔ s.underWayFor block = 0)) := by
  have horderly := h.orderly
  refine ⟨horderly.underWayFor_eq block, ?_, ?_, ?_⟩
  · rintro t ht rfl
    have hslot := horderly.get?_of_waiting ht
    refine ⟨hslot, ?_⟩
    rw [horderly.underWay, SortedMap.contains, hslot]
    rfl
  · intro i j t u hi hj ht hu
    -- two workers with jobs of the block would be two under way
    refine Decidable.not_not.1 fun hij => ?_
    have htwo := two_le_underWayFor hij hi hj ht hu
    rw [horderly.underWayFor_eq] at htwo
    split at htwo <;> omega
  · rintro job rfl
    rw [started_iff, horderly.underWayFor_eq_zero_iff]

/-- The second of two workers compiles for a block, and another job of that block waits. The first worker
compiles for another block. -/
theorem Reachable.one_under_way_of_two_workers : ∃ s t u v, Reachable 2 s ∧
    s.workers = [.running u, .running t] ∧ u.block = "c" ∧ t.block = "b" ∧ v ∈ s.waiting ∧ v.block = "b" ∧
    s.underWayFor "b" = 1 ∧ s.slots.get? "b" = some (some v) ∧
    (∀ i, s.workers[i]? = some (.running t) → i = 1) ∧
    s.underWayFor "d" = 0 ∧ ∀ job : CompileJob, job.block = "d" → (s.submit job).1 = .started := by
  let job (block : BlockId) : CompileJob := ⟨block, {}, .standard, [], ⟨"unit", "", []⟩⟩
  let u : Ticket := ⟨0, job "c"⟩
  let t : Ticket := ⟨1, job "b"⟩
  let v : Ticket := ⟨2, job "b"⟩
  let busy : SortedMap BlockId (Option Ticket) := SortedMap.insert (SortedMap.insert ∅ "c" none) "b" none
  have hsubmitted : Reachable 2 ⟨2, busy, [u, t], [.idle, .idle], []⟩ :=
    (Reachable.new.step (.submit (job "c"))).step (.submit (job "b"))
  have hreceived : Reachable 2 ⟨2, busy, [], [.running u, .running t], []⟩ :=
    (hsubmitted.step (.receive 0 rfl)).step (.receive 1 rfl)
  have hwaiting : Reachable 2 ⟨3, busy.insert "b" (some v), [], [.running u, .running t], []⟩ :=
    hreceived.step (.submit (job "b"))
  -- what is said of the busy block, and of one without a job
  obtain ⟨-, hslot, halone, -⟩ := hwaiting.one_under_way "b"
  obtain ⟨hfree, -, -, hstarted⟩ := hwaiting.one_under_way "d"
  have hmem : v ∈ waiting ⟨3, busy.insert "b" (some v), [], [.running u, .running t], []⟩ := by decide
  obtain ⟨hget, hone⟩ := hslot v hmem rfl
  refine ⟨_, t, u, v, hwaiting, rfl, rfl, rfl, hmem, rfl, hone, hget, fun i hi => ?_, hfree, fun job hjob => ?_⟩
  · exact halone i 1 t t hi rfl rfl rfl
  · exact (hstarted job hjob).2 hfree

end CircuitBlocks.Service
