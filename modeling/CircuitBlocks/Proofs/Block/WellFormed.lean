import CircuitBlocks.Proofs.Block.History
import CircuitBlocks.Proofs.Compilation.Attribution

/-!
# Well-formed blocks — what every operation on a block preserves

No block has a file twice, and what a block holds was compiled under the block's own name. A job that comes
back was made from some block, so an outcome that is taken keeps this up too.

* **`Block.WellFormed`** — what holds of every block.
* `Block.Operation.Genuine` — the operations as the library offers them.
* `Block.WellFormed.perform` — every operation leaves a well-formed block behind.
* `Block.WellFormed.start_runs` — a start that succeeds runs an artifact of the block's own.
-/

namespace CircuitBlocks.Block

/-- What holds of every block. -/
structure WellFormed (b : Block) : Prop where
  /-- No file is attached twice. -/
  hashes : b.hashes.Nodup
  /-- Held artifacts have one with the name of the block's. -/
  primary : ∀ s, b.state.store? = some s → ∃ primary, s.get? b.artifactName = some primary
  /-- The last attempt was made under that name. -/
  named : ∀ record, b.state.record? = some record → record.artifactName = b.artifactName

/-- An operation as the library offers it: an outcome that comes back is that of a job, which was made from
some block and was run. -/
def Operation.Genuine : Operation → Prop
  | .apply j outcome => ∃ (b : Block) (t : Toolchain) (m m' : Machine), j = b.job ∧ j.run t m = (.ok outcome, m')
  | _ => True

namespace WellFormed

variable {b c : Block} {r : Registry}

theorem create (id : BlockId) (fragments : Fragments) (shape : SignalShape) :
    WellFormed { id, fragments, shape } :=
  ⟨List.Pairwise.nil, (fun _ h => nomatch h), fun _ h => nomatch h⟩

theorem continues (h : b.WellFormed) (hc : b.Continues c) (hhashes : c.hashes.Nodup) : c.WellFormed := by
  have hname : c.artifactName = b.artifactName := artifactName_eq hc.id
  refine ⟨hhashes, fun s hs => ?_, fun record hrecord => ?_⟩
  · rw [hname]
    exact h.primary s (hc.state.store? hs)
  · obtain ⟨earlier, hearlier, heq⟩ := hc.state.record? hrecord
    rw [hname, ← h.named earlier hearlier, heq]

theorem continues_of_files (h : b.WellFormed) (hc : b.Continues c) (hfiles : c.files = b.files) :
    c.WellFormed := by
  refine h.continues hc ?_
  rw [Block.hashes, hfiles]
  exact h.hashes

/-! ### Compiles -/

/-- An outcome of a job for the block leaves it with the artifact that it is named after. -/
theorem settle (h : b.WellFormed) {j : CompileJob} {t : Toolchain} {m m' : Machine}
    {outcome : CompileOutcome} (hname : j.request.primaryName = b.artifactName)
    (hrun : j.run t m = (.ok outcome, m')) :
    WellFormed { b with state := b.state.settle j outcome } := by
  refine ⟨h.hashes, fun s hs => ?_, fun record hrecord => ?_⟩
  · cases outcome with
    | success stored diagnostics message =>
      obtain rfl : stored = s := Option.some.inj hs
      obtain ⟨-, primary, hprimary⟩ := CompileRequest.success_of_run hrun
      exact ⟨primary, hname ▸ hprimary⟩
    | failed diagnostics message => exact h.primary s hs
  · rw [CompileState.record?_settle] at hrecord
    cases hrecord
    exact hname

/-- In particular the outcome of its own job. -/
theorem settleOwn (h : b.WellFormed) {outcome : Option CompileOutcome}
    (hrun : ∀ o, outcome = some o → ∃ t m m', b.job.run t m = (.ok o, m')) :
    (b.settleOwn outcome).WellFormed := by
  cases outcome with
  | none => exact h
  | some o =>
    obtain ⟨t, m, m', hrun⟩ := hrun o rfl
    exact h.settle rfl hrun

theorem settleIfStale (h : b.WellFormed) (toolchain : Option Toolchain) (m : Machine) :
    (b.settleOwn (b.compiles? toolchain m)).WellFormed := h.settleOwn fun o ho => by
  obtain ⟨t, m', hrun⟩ := compiles?_eq_some ho
  exact ⟨t, m, m', hrun⟩

theorem apply (h : b.WellFormed) {j : CompileJob} {outcome : CompileOutcome}
    (hgenuine : (Operation.apply j outcome).Genuine) : (b.apply j outcome).2.WellFormed := by
  obtain ⟨origin, t, m, m', rfl, hrun⟩ := hgenuine
  unfold Block.apply
  split
  · next hmatch =>
    -- a job that still describes the block has its identity
    obtain ⟨hid, -⟩ := matchesJob_iff.1 hmatch
    exact h.settle (artifactName_eq hid) hrun
  · exact h

/-- However it goes, a start leaves a well-formed block. -/
theorem start (h : b.WellFormed) (context : StartContext) (dt : Float) (m : Machine) :
    (b.start context dt m).2.1.WellFormed := by
  have hidle : WellFormed { b with run := none } := h.continues_of_files ⟨rfl, .same⟩ rfl
  have hprepared : (b.prepared context m).WellFormed := hidle.settleIfStale context.toolchain m
  rcases b.start_cases context dt m with ⟨run, hrun⟩ | ⟨e, hrecorded⟩
  · rw [hrun]
    exact hprepared.continues_of_files ⟨rfl, .same⟩ rfl
  · rw [hrecorded]
    exact hprepared.continues_of_files (continues_recordLoadFailure _ e)
      (sameInputs_recordLoadFailure _ e).files

/-! ### Starts -/

variable {toolchain : Option Toolchain} {context : StartContext} {dt : Float} {m m' : Machine}

theorem prepares (h : b.WellFormed) {result : Except RunFault Unit}
    (hprepares : { b with run := none }.Prepares toolchain m result c m') : c.WellFormed := by
  have hidle : WellFormed { b with run := none } := h.continues_of_files ⟨rfl, .same⟩ rfl
  rw [hprepares.eq_settleOwn]
  exact hidle.settleIfStale toolchain m

/-- A start that succeeds runs the code of an artifact that the block holds. -/
theorem start_runs (h : b.WellFormed) {b' : Block} (hstart : b.start context dt m = (.ok (), b', m')) :
    ∃ record s primary run, b'.state = .compiled record s ∧ s.get? b'.artifactName = some primary ∧
      primary.kind = .primary ∧ b'.run = some run ∧ m'.loader primary.payload = .procedure run.table := by
  have hstarts := b.start_starts context dt m
  rw [hstart] at hstarts
  cases hstarts with
  | @started c m' record s table memory hprepares hstate hload =>
    have hstore : c.state.store? = some s := by rw [hstate]; rfl
    obtain ⟨primary, hprimary⟩ := (h.prepares hprepares).primary s hstore
    obtain ⟨hkind, hloader⟩ := loader_of_load hstore hprimary hload
    exact ⟨record, s, primary, _, hstate, hprimary, hkind, rfl, hloader⟩

/-! ### Operations -/

end WellFormed

/-- No operation attaches a file twice. -/
theorem nodup_perform {b : Block} {r : Registry} (hr : r.Keyed) (hb : b.hashes.Nodup) (op : Operation) :
    (b.perform r op).1.hashes.Nodup := by
  cases op with
  | attach hash =>
    simp only [perform]
    cases hattach : b.attach r hash with
    | error e => exact hb
    | ok attached => exact nodup_attach hr hb hattach
  | detach hash => exact nodup_detach hb r hash
  | relink hashes => exact nodup_relinkEach hr hb hashes
  | _ =>
    rw [hashes, (b.id_and_files_perform r rfl).2]
    exact hb

/-- Every operation leaves a well-formed block behind. -/
theorem WellFormed.perform {b : Block} {r : Registry} (h : b.WellFormed) (hr : r.Keyed) {op : Operation}
    (hop : op.Genuine) : (b.perform r op).1.WellFormed := by
  have hhashes := nodup_perform hr h.hashes op
  cases op with
  | apply j outcome => exact h.apply hop
  | compile t m =>
    rw [perform_compile]
    exact h.settleOwn fun o ho => ⟨t, m, outcome?_eq_some ho⟩
  | compileIfRequired t m =>
    rw [perform_compileIfRequired]
    exact h.settleIfStale (some t) m
  | start context dt m => exact h.start context dt m
  | _ => exact h.continues (b.continues_perform r rfl) hhashes

/-- An operation on a block leaves the files of the registry alone. -/
theorem file?_perform (b : Block) (r : Registry) (op : Operation) (hash : FileHash) :
    (b.perform r op).2.file? hash = r.file? hash := by
  cases op with
  | attach added =>
    simp only [perform]
    cases hattach : b.attach r added with
    | error e => rfl
    | ok attached => exact file?_attach hattach hash
  | detach removed => exact b.file?_detach r removed hash
  | relink hashes => exact b.file?_relinkEach r hashes hash
  | _ => rfl

end CircuitBlocks.Block
