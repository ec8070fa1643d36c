import CircuitBlocks.Proofs.Block.Start
import CircuitBlocks.Proofs.Compilation.Run

/-!
# Outcomes of a start — what each refusal leaves of a block

A start has many exits, and each has its own duty towards the run and the compile state. The inputs of the
block are left alone by all of them.

* `Block.SameInputs` — the blocks with the same identity, code, ports and files.
* `Block.recordLoadFailure_of_compiled` — a library that does not load fails the block and keeps its store.
* `Block.Prepares.isReady_iff` — a block that goes on to load its library was ready just if no compiler was
  called for it.
* **`Block.start_outcome`** — the outcome of a start.
-/

namespace CircuitBlocks

/-- Whether a start was refused before a library was looked for. -/
def RunFault.beforeLoading : RunFault → Bool
  | notCompiled | noToolchain | toolchain _ => true
  | _ => false

namespace Block

variable {b c : Block}

/-! ## Inputs -/

/-- Blocks that differ in their compile states and runs alone. -/
structure SameInputs (b c : Block) : Prop where
  id : c.id = b.id
  fragments : c.fragments = b.fragments
  shape : c.shape = b.shape
  files : c.files = b.files

theorem SameInputs.trans {d : Block} (hbc : b.SameInputs c) (hcd : c.SameInputs d) : b.SameInputs d :=
  ⟨hcd.id.trans hbc.id, hcd.fragments.trans hbc.fragments, hcd.shape.trans hbc.shape,
    hcd.files.trans hbc.files⟩

theorem sameInputs_settleOwn (b : Block) (outcome : Option CompileOutcome) :
    b.SameInputs (b.settleOwn outcome) := by
  cases outcome <;> exact ⟨rfl, rfl, rfl, rfl⟩

theorem sameInputs_recordLoadFailure (b : Block) (e : LoadError) :
    b.SameInputs (b.recordLoadFailure e) := by
  unfold recordLoadFailure
  split
  · exact ⟨rfl, rfl, rfl, rfl⟩
  · split <;> exact ⟨rfl, rfl, rfl, rfl⟩

/-! ## Libraries that do not load -/

theorem recordLoadFailure_of_incompatible {e : LoadError} (he : e.isIncompatible = true) (b : Block) :
    b.recordLoadFailure e = b.reset := by
  rw [recordLoadFailure, if_pos he]

/-- A library that does not load leaves its message in the state. -/
theorem recordLoadFailure_of_compiled {e : LoadError} (he : e.isIncompatible = false)
    {record : CompileRecord} {s : ArtifactStore} (hstate : b.state = .compiled record s) :
    b.recordLoadFailure e = { b with
      state := .failed { record with message := e.message ++ "\n" ++ errorTrailer }
        [{ subject := record.artifactName, severity := .error, message := e.message }] (some s) } := by
  simp [recordLoadFailure, he, hstate, CompileState.record?, CompileState.fail, CompileState.store?]

theorem run_recordLoadFailure (hrun : b.run = none) (e : LoadError) :
    (b.recordLoadFailure e).run = none := by
  unfold recordLoadFailure
  split
  · rfl
  · split <;> exact hrun

/-- What decides on freshness is kept by a failure that only exchanges the message of the record. -/
theorem staleness_failed {record : CompileRecord} {s : ArtifactStore}
    (hstate : b.state = .compiled record s) (hfresh : b.staleness = .fresh) (message : String)
    (diagnostics : List Diagnostic) (retained : Option ArtifactStore) :
    staleness { b with state := .failed { record with message } diagnostics retained } = .fresh := by
  obtain ⟨r, hr, hsource, hcrates⟩ := staleness_eq_fresh_iff.1 hfresh
  rw [hstate] at hr
  cases hr
  exact staleness_eq_fresh_iff.2 ⟨_, rfl, hsource, hcrates⟩

/-! ## Preparations -/

theorem isReady_iff : b.isReady = true ↔ b.status = .success ∧ b.staleness = .fresh := by
  simp [isReady, Staleness.recompileRequired]

namespace Prepares

variable {toolchain : Option Toolchain} {m m' : Machine} {result : Except RunFault Unit}

theorem sameInputs (h : b.Prepares toolchain m result c m') : b.SameInputs c := by
  rw [h.eq_settleOwn]
  exact b.sameInputs_settleOwn _

theorem run (h : b.Prepares toolchain m result c m') : c.run = b.run := by
  rw [h.eq_settleOwn]
  cases b.compiles? toolchain m <;> rfl

/-- A block that was refused was stale. -/
theorem stale_of_error {fault : RunFault} (h : b.Prepares toolchain m (.error fault) c m') :
    b.staleness ≠ .fresh := by
  cases h <;> assumption

/-- A block that goes on to load its library was ready just if no compiler was called for it. -/
theorem isReady_iff {record : CompileRecord} {s : ArtifactStore}
    (h : b.Prepares toolchain m (.ok ()) c m') (hstate : c.state = .compiled record s) :
    b.isReady = true ↔ m'.calls = m.calls := by
  rw [Block.isReady_iff]
  cases h with
  | fresh hfresh => exact ⟨fun _ => rfl, fun _ => ⟨by rw [Block.status, hstate]; rfl, hfresh⟩⟩
  | @compiled t m' outcome ht hstale hrun =>
    refine ⟨fun hready => absurd hready.2 hstale, fun hcalls => ?_⟩
    -- a failure would not have left the state of a success
    cases outcome with
    | failed diagnostics message => cases hstate
    | success s diagnostics message => exact absurd hcalls (CompileRequest.calls_of_run hrun)

end Prepares

/-! ## Starts -/

/-- What a start leaves of a block's compile state, by its result. No other faults come of a start. -/
def StateAfter (b : Block) (context : StartContext) (m : Machine) (b' : Block) :
    Except RunFault Unit → Prop
  | .ok () => b'.status = .success ∧ b'.staleness = .fresh
  | .error .noToolchain => b'.state = b.state
  | .error (.toolchain _) => b'.state = b.state
  | .error .notCompiled => b'.status = .error ∧ b'.staleness = .fresh
  | .error (.load e) =>
    if e.isIncompatible then b'.status = .notCompiled ∧ b'.state.store? = none
    else b'.status = .error ∧ b'.staleness = .fresh ∧
      (∃ d, b'.state.diagnostics = [d] ∧ d.severity = .error ∧ d.message = e.message) ∧
      b'.state.message = e.message ++ "\n" ++ errorTrailer ∧
      -- the store that the library was looked for in, before the directory
      ∃ s, (b.prepared context m).tiers context.directory
          = .store s :: (context.directory.map LibraryTier.directory).toList ∧
        b'.state.store? = some s
  | .error (.panicked .init) =>
    b'.state = (b.prepared context m).state ∧ b'.status = .success
  | .error (.unknownStatus _) =>
    b'.state = (b.prepared context m).state ∧ b'.status = .success
  | .error _ => False

theorem tiers_of_compiled {record : CompileRecord} {s : ArtifactStore}
    (hstate : b.state = .compiled record s) (directory : Option String) :
    b.tiers directory = .store s :: (directory.map LibraryTier.directory).toList := by
  rw [tiers, hstate]
  rfl

theorem status_of_compiled {record : CompileRecord} {s : ArtifactStore}
    (hstate : b.state = .compiled record s) : b.status = .success := by
  rw [Block.status, hstate]
  rfl

namespace Starts

variable {context : StartContext} {dt : Float} {m m' : Machine} {result : Except RunFault Unit}
  {b' : Block}

/-- However it goes, a start leaves the inputs of the block alone. -/
theorem sameInputs (h : b.Starts context dt m result b' m') : b.SameInputs b' := by
  have hrun : b.SameInputs { b with run := none } := ⟨rfl, rfl, rfl, rfl⟩
  refine hrun.trans ?_
  cases h with
  | refused h => exact h.sameInputs
  | notCompiled h => exact h.sameInputs
  | notLoaded h => exact h.sameInputs.trans (sameInputs_recordLoadFailure _ _)
  | notInitialised h => exact h.sameInputs
  | started h => exact h.sameInputs.trans ⟨rfl, rfl, rfl, rfl⟩

/-- A block runs after a start just if the start succeeded. -/
theorem isRunning_iff (h : b.Starts context dt m result b' m') :
    b'.isRunning = true ↔ result = .ok () := by
  -- a block is prepared without a run, and only a start that succeeds gives it one
  have hnone : ∀ {c : Block} {fault : RunFault}, c.run = none →
      (c.isRunning = true ↔ (.error fault : Except RunFault Unit) = .ok ()) := by
    intro c fault hc
    rw [isRunning, hc]
    constructor <;> exact fun h => nomatch h
  cases h with
  | refused h => exact hnone h.run
  | notCompiled h => exact hnone h.run
  | notLoaded h => exact hnone (run_recordLoadFailure h.run _)
  | notInitialised h => exact hnone h.run
  | started => exact ⟨fun _ => rfl, fun _ => rfl⟩

/-- Each way that a start can go leaves the compile state that its result tells. -/
theorem stateAfter (h : b.Starts context dt m result b' m') : b.StateAfter context m b' result := by
  cases h with
  | refused h => cases h <;> rfl
  | notCompiled h hstatus => exact ⟨hstatus, h.staleness⟩
  | @notLoaded c m' record s e h hstate hload =>
    -- an artifact of another contract is forgotten, and with any other failure the store is kept
    cases he : e.isIncompatible with
    | true =>
      rw [recordLoadFailure_of_incompatible he]
      simp only [StateAfter, he, if_true]
      exact ⟨rfl, rfl⟩
    | false =>
      have htiers := tiers_of_compiled hstate context.directory
      rw [h.eq_settleOwn] at htiers
      have hfresh := staleness_failed hstate h.staleness (e.message ++ "\n" ++ errorTrailer)
        [{ subject := record.artifactName, severity := .error, message := e.message }] (some s)
      rw [recordLoadFailure_of_compiled he hstate]
      simp only [StateAfter, he]
      exact ⟨rfl, hfresh, ⟨_, rfl, rfl, rfl⟩, rfl, s, htiers, rfl⟩
  | notInitialised h hstate hload hfault =>
    have hprepared : b'.state = (b.prepared context m).state := congrArg Block.state h.eq_settleOwn
    rcases hfault with rfl | ⟨code, rfl⟩ <;> exact ⟨hprepared, status_of_compiled hstate⟩
  | started h hstate hload => exact ⟨status_of_compiled hstate, h.staleness⟩

/-- The block was ready just if the start got to loading without a call. -/
theorem isReady_iff (h : b.Starts context dt m result b' m') :
    b.isReady = true ↔
      m'.calls = m.calls ∧ ∀ fault, result = .error fault → fault.beforeLoading = false := by
  have hready : b.isReady = true ↔ b.status = .success ∧ b.staleness = .fresh := Block.isReady_iff
  cases h with
  | refused h =>
    refine ⟨fun hb => absurd (hready.1 hb).2 h.stale_of_error, fun ⟨_, hlater⟩ => ?_⟩
    have hbefore := hlater _ rfl
    cases h <;> cases hbefore
  -- a fresh success is not refused as an error
  | notCompiled h hstatus =>
    refine ⟨fun hb => ?_, fun ⟨_, hlater⟩ => nomatch hlater _ rfl⟩
    obtain ⟨hsuccess, hfresh⟩ := hready.1 hb
    cases h with
    | fresh => exact nomatch hsuccess.symm.trans hstatus
    | compiled ht hstale => exact absurd hfresh hstale
  | notLoaded h hstate hload =>
    exact (h.isReady_iff hstate).trans ⟨fun hcalls => ⟨hcalls, fun _ he => by cases he; rfl⟩, And.left⟩
  | notInitialised h hstate hload hfault =>
    refine (h.isReady_iff hstate).trans ⟨fun hcalls => ⟨hcalls, fun _ he => ?_⟩, And.left⟩
    cases he
    rcases hfault with rfl | ⟨code, rfl⟩ <;> rfl
  | started h hstate hload =>
    exact (h.isReady_iff hstate).trans ⟨fun hcalls => ⟨hcalls, fun _ he => nomatch he⟩, And.left⟩

end Starts

/-- **The outcome of a start.** Whatever the context: the inputs of the block are left alone, it runs
afterwards just if the start succeeded, each result tells what has become of the compile state, and the
block was ready just if no compiler was called and the start got as far as loading. -/
theorem start_outcome (b : Block) (context : StartContext) (dt : Float) (m : Machine) :
    b.SameInputs (b.start context dt m).2.1 ∧
    ((b.start context dt m).2.1.isRunning = true ↔ (b.start context dt m).1 = .ok ()) ∧
    b.StateAfter context m (b.start context dt m).2.1 (b.start context dt m).1 ∧
    (b.isReady = true ↔ (b.start context dt m).2.2.calls = m.calls ∧
      ∀ fault, (b.start context dt m).1 = .error fault → fault.beforeLoading = false) := by
  have hstarts := b.start_starts context dt m
  exact ⟨hstarts.sameInputs, hstarts.isRunning_iff, hstarts.stateAfter, hstarts.isReady_iff⟩

end Block

/-! ### A start that compiles and runs, and one that does not load -/

/-- The machine when its loader can no longer read a library. -/
def Machine.blind (m : Machine) : Machine := { m with loader := fun _ => .unreadable "no image" }

namespace Block

/-- The block that was compiled does not load then. -/
theorem load_built_blind (said : List Diagnostic) (m : Machine) :
    (built said).load none m.blind = .error (.unopened "unit_b" "no image") := by
  refine load_of_open_error rfl (get?_built said) ?_
  rw [Artifact.open, if_neg (by simp), stagingError?_built, artifactName_built]
  rfl

/-- A block that was never compiled is compiled by its start, and runs. It is ready then, and so the next start calls
no compiler; but the loader has lost the library, and what is left is an error, the store and the message. -/
theorem start_outcome_bare : ∃ b m c m', let context : StartContext := { toolchain := some .willing }
    (bare {}).start context 0.5 (.willing []) = (.ok (), b, m) ∧ m.calls ≠ [] ∧
    b.isRunning = true ∧ b.status = .success ∧ b.staleness = .fresh ∧
    b.start context 0.5 m.blind = (.error (.load (.unopened "unit_b" "no image")), c, m') ∧ m'.calls = m.calls ∧
    c.isRunning = false ∧ c.status = .error ∧ c.staleness = .fresh ∧ c.state.store? = b.state.store? ∧
    c.state.message = "failed to open library 'unit_b': no image\n" ++ errorTrailer := by
  obtain ⟨said, m, hloader, hprepare⟩ := exists_prepare_bare
  -- the first start, on the willing machine
  have hload := load_built said (m := m) (by rw [hloader]; rfl) rfl rfl rfl
  obtain ⟨b, hb⟩ : ∃ b, { built said with
      run := some ⟨.idle .single, [], (built said).shape.outputWidths, 0.5⟩ } = b := ⟨_, rfl⟩
  have hstart : (bare {}).start { toolchain := some .willing } 0.5 (.willing []) = (.ok (), b, m) := by
    rw [← hb]
    exact start_of_load hprepare rfl hload rfl
  obtain ⟨-, hrunning, hstate, hready⟩ := start_outcome (bare {}) { toolchain := some .willing } 0.5 (.willing [])
  rw [hstart] at hrunning hstate hready
  have hcalls : m.calls ≠ [] := fun hcalls =>
    Bool.false_ne_true (hready.2 ⟨hcalls, fun _ h => nomatch h⟩)
  -- the second one, with the same compiler and another loader
  have hprepare' : ({ b with run := none } : Block).prepare (some .willing) m.blind
      = (.ok (), built said, m.blind) := by
    rw [← hb]
    exact prepare_of_fresh (staleness_built said) _ _
  have hfailed : b.start { toolchain := some .willing } 0.5 m.blind
      = (.error (.load _), _, m.blind) := start_of_loadError hprepare' rfl (load_built_blind said m)
  obtain ⟨-, hrunning', hstate', -⟩ := start_outcome b { toolchain := some .willing } 0.5 m.blind
  rw [hfailed] at hrunning' hstate'
  obtain ⟨hstatus, hfresh, -, hmessage, s, htiers, hstore⟩ := hstate'
  -- nothing is compiled for it, and so the store that is kept is the one of the first start
  have hprepared : b.prepared { toolchain := some .willing } m.blind = built said := by
    have hfresh : ({ b with run := none } : Block).staleness = .fresh := hb ▸ staleness_built said
    rw [prepared, compiles?, hfresh, ← hb]
    rfl
  rw [hprepared, tiers_of_compiled rfl] at htiers
  obtain rfl := LibraryTier.store.inj (List.head_eq_of_cons_eq htiers)
  refine ⟨b, m, _, _, hstart, hcalls, hrunning.2 rfl, hstate.1, hstate.2, hfailed, rfl, ?_, hstatus, hfresh,
    ?_, hmessage⟩
  · exact Bool.eq_false_iff.2 fun h => nomatch hrunning'.1 h
  · rw [hstore, ← hb]
    rfl

end Block

end CircuitBlocks
