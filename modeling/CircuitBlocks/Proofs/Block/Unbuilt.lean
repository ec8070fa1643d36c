import CircuitBlocks.Proofs.Block.Faults

/-!
# Unbuilt blocks — nothing is run whose source is not known

A block may hold artifacts of which it is not known what they were made from. The text of its record is empty then,
and no unit is that text, so the block is stale whatever becomes of its code. It takes an accepted compile that
succeeded to run it: one that fails leaves the old artifacts where they are, but then the block has an error.

* `StoreEvent.Accepts` — whether a success was accepted among events.
* `CompileState.Unbuilt` and `Block.Unbuilt` — there is no success of a known source, and nothing runs.
* `Block.Unbuilt.perform` — one operation without an accepted success.
* **`Block.Unbuilt.exists_accepted`** — a run is begun after an accepted success only.
-/

namespace CircuitBlocks

/-! ## Events -/

namespace StoreEvent

/-- Whether the artifacts of a success were accepted. -/
def Accepts (events : List StoreEvent) : Prop := ∃ s, .accepted s ∈ events

theorem accepts_append {es fs : List StoreEvent} : Accepts (es ++ fs) ↔ Accepts es ∨ Accepts fs := by
  simp only [Accepts, List.mem_append, exists_or]

end StoreEvent

open StoreEvent (Accepts ofOutcome)

/-! ## States -/

/-- If this is the state after a success, it is not known what that was made from. -/
def CompileState.Unbuilt (state : CompileState) : Prop :=
  ∀ record s, state = .compiled record s → record.source = ""

theorem CompileState.unbuilt_of_status {state : CompileState} (h : state.status ≠ .success) : state.Unbuilt := by
  rintro record s rfl
  exact absurd rfl h

theorem CompileState.Unbuilt.settle (state : CompileState) (j : CompileJob) {outcome : CompileOutcome}
    (hnone : ¬ Accepts (ofOutcome (some outcome))) : (state.settle j outcome).Unbuilt := by
  cases outcome with
  | success s diagnostics message => exact absurd ⟨s, List.mem_singleton_self _⟩ hnone
  | failed diagnostics message => exact unbuilt_of_status CompileStatus.noConfusion

namespace Block

/-- A block that does not run and that has no success of a known source. -/
structure Unbuilt (b : Block) : Prop where
  idle : b.run = none
  state : b.state.Unbuilt

variable {b : Block}

theorem unbuilt_settleOwn (h : b.state.Unbuilt) {outcome : Option CompileOutcome}
    (hnone : ¬ Accepts (ofOutcome outcome)) : (b.settleOwn outcome).state.Unbuilt := by
  cases outcome with
  | none => exact h
  | some outcome => exact .settle b.state b.job hnone

/-- What is left of a state is no success that was not there before. -/
theorem unbuilt_of_state {c : Block} (h : b.state.Unbuilt)
    (hstate : c.state = b.state ∨ c.state = .uncompiled) : c.state.Unbuilt := by
  rcases hstate with hstate | hstate
  · rw [hstate]
    exact h
  · rw [hstate]
    exact CompileState.unbuilt_of_status CompileStatus.noConfusion

/-- To fail to load does not build anything. -/
theorem unbuilt_recordLoadFailure (h : b.state.Unbuilt) (e : LoadError) :
    (b.recordLoadFailure e).state.Unbuilt := by
  unfold recordLoadFailure
  split
  · exact CompileState.unbuilt_of_status CompileStatus.noConfusion
  · split
    · exact h
    · exact CompileState.unbuilt_of_status CompileStatus.noConfusion

/-- Such a success is stale, whatever the block is made of. -/
theorem staleness_of_unbuilt (h : b.state.Unbuilt) (hstatus : b.status = .success) :
    b.staleness = .sourceChanged := by
  rw [Block.status] at hstatus
  cases hstate : b.state with
  | compiled record s => exact staleness_of_no_source (by rw [hstate]; rfl) (h record s hstate)
  | uncompiled | failed =>
    rw [hstate] at hstatus
    cases hstatus

/-! ## Starts -/

namespace Unbuilt

theorem state_prepared (h : b.Unbuilt) {context : StartContext} {m : Machine}
    (hnone : ¬ Accepts (ofOutcome ({ b with run := none }.compiles? context.toolchain m))) :
    (b.prepared context m).state.Unbuilt :=
  unbuilt_settleOwn (b := { b with run := none }) h.state hnone

/-- A start needs a success of a known source. -/
theorem start_ne_ok (h : b.Unbuilt) {context : StartContext} {dt : Float} {m : Machine}
    (hnone : ¬ Accepts (ofOutcome ({ b with run := none }.compiles? context.toolchain m))) :
    (b.start context dt m).1 ≠ .ok () := by
  intro hok
  have hstart : b.start context dt m = (.ok (), (b.start context dt m).2.1, (b.start context dt m).2.2) :=
    Prod.ext hok rfl
  obtain ⟨hfresh, hstatus, -⟩ := start_ok hstart
  obtain ⟨record, hrecord, hsource, -⟩ := staleness_eq_fresh_iff.1 hfresh
  -- the record of the block that is loaded would have no text, and yet that of its unit
  have hprepared := h.state_prepared hnone
  rw [Block.status] at hstatus
  cases hstate : (b.prepared context m).state with
  | uncompiled =>
    rw [hstate] at hrecord
    cases hrecord
  | compiled record' s =>
    rw [hstate] at hrecord
    cases hrecord
    exact unitText_ne_empty _ _ _ (hsource.symm.trans (hprepared record s hstate))
  | failed =>
    rw [hstate] at hstatus
    exact hstatus rfl

/-- A start that succeeds has compiled the block. -/
theorem exists_success_of_start (h : b.Unbuilt) {context : StartContext} {dt : Float} {m : Machine}
    (hok : (b.start context dt m).1 = .ok ()) : ∃ t s diagnostics message, context.toolchain = some t ∧
      (b.job.run t m).1 = .ok (.success s diagnostics message) := by
  -- without an accepted success the start would have failed
  obtain ⟨s, hs⟩ := Classical.not_not.1 fun hnone => h.start_ne_ok hnone hok
  cases hcompiles : { b with run := none }.compiles? context.toolchain m with
  | none =>
    rw [hcompiles] at hs
    cases hs
  | some outcome =>
    rw [hcompiles] at hs
    unfold compiles? at hcompiles
    split at hcompiles
    · obtain ⟨t, ht, houtcome⟩ := Option.bind_eq_some_iff.1 hcompiles
      obtain ⟨m', hrun⟩ := outcome?_eq_some houtcome
      cases outcome with
      | success s diagnostics message => exact ⟨t, s, diagnostics, message, ht, congrArg (·.1) hrun⟩
      | failed => cases hs
    · cases hcompiles

/-- A start that accepts no compile builds nothing. -/
theorem state_start (h : b.Unbuilt) {context : StartContext} {dt : Float} {m : Machine}
    (hnone : ¬ Accepts (ofOutcome ({ b with run := none }.compiles? context.toolchain m))) :
    (b.start context dt m).2.1.state.Unbuilt := by
  have hprepared := h.state_prepared hnone
  rcases b.start_cases context dt m with ⟨run, hrun⟩ | ⟨e, he⟩
  · rw [hrun]
    exact hprepared
  · rw [he]
    exact unbuilt_recordLoadFailure hprepared e

/-! ## Operations -/

/-- Nor does any other operation that accepts none. -/
theorem state_perform (h : b.Unbuilt) (r : Registry) {op : Operation} (hnone : ¬ Accepts (op.events b)) :
    (b.perform r op).1.state.Unbuilt := by
  cases op with
  | apply j outcome =>
    by_cases hmatches : b.matchesJob j = true
    · simp only [Operation.events, Block.perform, Block.apply, hmatches, if_true] at hnone ⊢
      exact .settle b.state j hnone
    · simp only [Block.perform, Block.apply, if_neg hmatches]
      exact h.state
  | compile t m =>
    rw [perform_compile]
    exact unbuilt_settleOwn h.state hnone
  | compileIfRequired t m =>
    rw [perform_compileIfRequired]
    exact unbuilt_settleOwn h.state hnone
  | start context dt m => exact h.state_start fun haccepts => hnone (StoreEvent.accepts_append.2 (.inl haccepts))
  | _ => exact unbuilt_of_state h.state (b.state_perform r rfl)

/-- Without an accepted success a block stays as it is in this respect. -/
theorem perform (h : b.Unbuilt) (r : Registry) {op : Operation} (hnone : ¬ Accepts (op.events b)) :
    (b.perform r op).1.Unbuilt := by
  refine ⟨run_perform h.idle r fun context dt m hop => ?_, h.state_perform r hnone⟩
  subst hop
  exact h.start_ne_ok fun haccepts => hnone (StoreEvent.accepts_append.2 (.inl haccepts))

theorem performAll (h : b.Unbuilt) (ops : List (Registry × Operation)) (hnone : ¬ Accepts (b.history ops)) :
    (b.performAll ops).Unbuilt := by
  induction ops generalizing b with
  | nil => exact h
  | cons first rest ih =>
    obtain ⟨r, op⟩ := first
    rw [history, StoreEvent.accepts_append, not_or] at hnone
    exact ih (h.perform r hnone.1) hnone.2

/-- A run is begun after an accepted success only. -/
theorem exists_accepted (h : b.Unbuilt) {ops : List (Registry × Operation)} (hrun : (b.performAll ops).run ≠ none) :
    Accepts (b.history ops) :=
  Classical.not_not.1 fun hnone => hrun (h.performAll ops hnone).idle

end Unbuilt

end Block

end CircuitBlocks
