import CircuitBlocks.Proofs.Block.Running
import CircuitBlocks.Proofs.Project.Reachable
import CircuitBlocks.Proofs.SourceUnit.Reading

/-!
# Layouts — host and unit agree on the outputs

The layout of the outputs is computed twice: it is written into the text of a unit, and a start computes it
from the ports of the block. A start runs a library whose recorded source is the block's text, so the two
agree.

* `Block.Settled` — a block with the outcome of a compile that was made for it;
  `Block.exists_settled` says that nothing else makes artifacts.
* `Block.Attributed` — the artifact of a block has the source of the block's record.
* **`Project.Reachable.start_layout`** — the widths of a run are those that the recorded source denotes.
-/

namespace CircuitBlocks

namespace Block

variable {b c : Block}

/-! ## Outcomes that a block takes -/

/-- A block, or a block with the outcome of a compile of its unit, whatever its run is. -/
inductive Settled (b : Block) : Block → Prop
  | same (run : Option ActiveRun) : b.Settled { b with run }
  | taken {j : CompileJob} {t : Toolchain} {m m' : Machine} {outcome : CompileOutcome}
      (hname : j.request.primaryName = b.artifactName) (hrun : j.run t m = (.ok outcome, m'))
      (run : Option ActiveRun) : b.Settled { b with state := b.state.settle j outcome, run }

/-- A block takes the outcome of its own job. -/
theorem settled_settleOwn (run : Option ActiveRun) {outcome : Option CompileOutcome}
    (h : ∀ o, outcome = some o → ∃ t m m', b.job.run t m = (.ok o, m')) :
    b.Settled ({ b with run }.settleOwn outcome) := by
  cases outcome with
  | none => exact .same run
  | some o =>
    obtain ⟨t, m, m', hrun⟩ := h o rfl
    exact .taken rfl hrun run

theorem settled_compiles? (b : Block) (run : Option ActiveRun) (toolchain : Option Toolchain) (m : Machine) :
    b.Settled ({ b with run }.settleOwn ({ b with run }.compiles? toolchain m)) :=
  settled_settleOwn run fun o ho => by
    obtain ⟨t, m', hrun⟩ := compiles?_eq_some ho
    exact ⟨t, m, m', hrun⟩

/-- After an operation, the state of a block is that of an outcome which the block took, or what is left of
it. -/
theorem exists_settled (b : Block) (r : Registry) {op : Operation} (hop : op.Genuine) :
    ∃ c, b.Settled c ∧ c.Continues (b.perform r op).1 := by
  -- an operation first sets the state, if it compiles or takes an outcome, and then may only drop it again
  cases op with
  | apply j outcome =>
    obtain ⟨origin, t, m, m', rfl, hrun⟩ := hop
    simp only [perform, apply]
    split
    · next hmatch =>
      obtain ⟨hid, -⟩ := matchesJob_iff.1 hmatch
      exact ⟨_, .taken (artifactName_eq hid) hrun b.run, rfl, .same⟩
    · exact ⟨b, .same b.run, rfl, .same⟩
  | compile t m =>
    rw [perform_compile]
    exact ⟨_, settled_settleOwn b.run fun o ho => ⟨t, m, outcome?_eq_some ho⟩, rfl, .same⟩
  | compileIfRequired t m =>
    rw [perform_compileIfRequired]
    exact ⟨_, b.settled_compiles? b.run (some t) m, rfl, .same⟩
  | start context dt m =>
    refine ⟨b.prepared context m, b.settled_compiles? none context.toolchain m, ?_⟩
    rcases b.start_cases context dt m with ⟨run, hrun⟩ | ⟨e, hrecorded⟩
    · simp only [perform, hrun]
      exact ⟨rfl, .same⟩
    · simp only [perform, hrecorded]
      exact continues_recordLoadFailure _ e
  | _ => exact ⟨b, .same b.run, b.continues_perform r rfl⟩

/-! ## Sources -/

/-- The artifact of the block's own, if it is loadable, has the source of the block's record. -/
def Attributed (b : Block) : Prop :=
  ∀ record s primary, b.state = .compiled record s → s.get? b.artifactName = some primary →
    primary.kind = .primary → primary.source = record.source

namespace Attributed

/-- What is left of a state is attributed as before. -/
theorem continues (h : b.Attributed) (hc : b.Continues c) : c.Attributed := by
  intro record s primary hstate hprimary hkind
  have hleaves := hc.state
  rw [hstate] at hleaves
  rw [artifactName_eq hc.id] at hprimary
  exact h record s primary hleaves.compiled hprimary hkind

/-- A compile that succeeds leaves the artifact with the source that it was given. -/
theorem settled (h : b.Attributed) (hc : b.Settled c) : c.Attributed := by
  cases hc with
  | same run => exact h
  | @taken j t m m' outcome hname hrun run =>
    intro record s primary hstate hprimary hkind
    cases outcome with
    | success store diagnostics message =>
      cases hstate
      exact (CompileRequest.sourced_of_run hrun).source_of_primary hprimary hkind
    | failed diagnostics message => cases hstate

/-- A block that is restored takes its record's source from the artifact itself. -/
theorem restore (r : BlockRecord) (registry : Registry) (toolchain : Option String) :
    (r.restore registry toolchain).1.Attributed := by
  obtain ⟨files, state, heq, hrestored⟩ := r.exists_restore_eq registry toolchain
  rw [heq]
  intro record s primary hstate hprimary _
  obtain rfl : state = .compiled record s := hstate
  rcases hrestored with hnone | ⟨s', primary', message, hprimary', hstore, hrecord⟩
  · cases hnone
  · obtain rfl : s = s' := Option.some.inj hstore
    obtain rfl : primary = primary' := Option.some.inj (hprimary.symm.trans hprimary')
    rw [Option.some.inj hrecord]
    rfl

end Attributed

end Block

/-! ## Layouts -/

namespace Project

variable {p : Project} {b : Block}

/-- Whatever the library has made of a block, its artifact has the source of its record. -/
theorem Reachable.attributed (h : p.Reachable) : ∀ b ∈ p.blocks, b.Attributed := by
  refine h.forall_blocks (fun _ _ _ _ _ _ hstate => nomatch hstate)
    (fun r registry toolchain => .restore r registry toolchain) (fun _ _ _ _ _ hstate => nomatch hstate)
    (fun b r op _ hop ih => ?_)
  obtain ⟨c, hsettled, hcontinues⟩ := b.exists_settled r hop
  exact (ih.settled hsettled).continues hcontinues

/-- A block that a start leaves is attributed. -/
theorem Reachable.attributed_start (h : p.Reachable) (hb : b ∈ p.blocks) {context : StartContext}
    {dt : Float} {m m' : Machine} {b' : Block} (hstart : b.start context dt m = (.ok (), b', m')) :
    b'.Attributed := by
  have hgenuine : Block.Operation.Genuine (.start context dt m) := trivial
  obtain ⟨c, hsettled, hcontinues⟩ := b.exists_settled p.registry hgenuine
  simp only [Block.perform, hstart] at hcontinues
  exact ((h.attributed b hb).settled hsettled).continues hcontinues

/-- **One layout of the outputs.** For every block that the library has made and every start that succeeds:
the run is of a loadable artifact of the block's own, whose recorded source allocates an output buffer, and
the widths of the run are those that the expression of this buffer denotes. -/
theorem Reachable.start_layout (h : p.Reachable) (hb : b ∈ p.blocks) {context : StartContext} {dt : Float}
    {m m' : Machine} {b' : Block} (hstart : b.start context dt m = (.ok (), b', m')) :
    ∃ record s primary run expression, b'.state = .compiled record s ∧
      s.get? b'.artifactName = some primary ∧ primary.source = record.source ∧
      b'.run = some run ∧ m'.loader primary.payload = .procedure run.table ∧
      SourceUnit.bufferExpression? b'.shape.shape primary.source = some expression ∧
      ∀ widths, Template.Denotes b'.shape.shape expression widths ↔ widths = run.outputWidths := by
  obtain ⟨record, s, primary, run, hstate, hprimary, hkind, hrun, hloader⟩ :=
    (h.wellFormed.blocks b hb).start_runs hstart
  -- the block that was started is attributed and fresh, so the source of its artifact is its text
  have hsource : primary.source = record.source :=
    h.attributed_start hb hstart record s primary hstate hprimary hkind
  have hafter := (b.start_starts context dt m).stateAfter
  rw [hstart] at hafter
  obtain ⟨record', hrecord', htext, -⟩ := Block.staleness_eq_fresh_iff.1 hafter.2
  obtain rfl : record' = record := by
    rw [hstate] at hrecord'
    exact (Option.some.inj hrecord').symm
  refine ⟨record', s, primary, run, Template.bufferExpression b'.shape, hstate, hprimary, hsource, hrun,
    hloader, ?_, fun widths => ?_⟩
  · rw [hsource, htext]
    exact SourceUnit.bufferExpression?_unitText _ _ _
  · rw [Block.outputWidths_of_start hstart hrun]
    exact Template.denotes_bufferExpression_iff _ widths

/-- A block of the standard shape is compiled and started. -/
theorem start_layout_standard : ∃ (p : Project) (b b' : Block) (m' : Machine), p.Reachable ∧ b ∈ p.blocks ∧
    b.start {} 0.5 (.willing []) = (.ok (), b', m') ∧
    ∃ record s primary run expression, b'.state = .compiled record s ∧
      s.get? b'.artifactName = some primary ∧ primary.source = record.source ∧
      b'.run = some run ∧ m'.loader primary.payload = .procedure run.table ∧
      SourceUnit.bufferExpression? b'.shape.shape primary.source = some expression ∧
      ∀ widths, Template.Denotes b'.shape.shape expression widths ↔ widths = run.outputWidths := by
  obtain ⟨b, b', hp, -, hstart⟩ := exists_started_bare none 0.5
  have hb := List.mem_singleton_self b
  exact ⟨_, b, b', _, hp, hb, hstart, hp.start_layout hb hstart⟩

end Project

end CircuitBlocks
