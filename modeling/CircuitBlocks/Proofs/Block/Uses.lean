import CircuitBlocks.Proofs.Block.Edit
import CircuitBlocks.Proofs.Block.Outcome

/-!
# Uses — a block is compiled once

A compile leaves the block fresh, be it a success or a failure, and what is done with a block between two edits
leaves it so: runs do not touch the compile state, the number of input ports is not in the text of the unit, and
a library that does not load changes nothing of the record but the message. Only a start that finds a library
for another contract forgets what was compiled. So until then no use of the block calls a compiler.

* `Use` — what is done with a block between two edits, and `Block.UsedSince` any sequence of that.
* `Block.staleness_use`, `Block.machine_use` — one use of a fresh block.
* **`Block.no_call_after_compileIfRequired`** — after a compile no use calls a compiler.
-/

namespace CircuitBlocks

/-- What is done with a block between two edits of its code. -/
inductive Use where
  | compileIfRequired (t : Toolchain)
  | start (context : StartContext) (dt : Float)
  | step (time dt : Float) (inputs : Signals)
  | endRun
  | inputPorts (ports : Nat)

namespace Block

/-- The block and the machine after a use. -/
def use (b : Block) (m : Machine) : Use → Block × Machine
  | .compileIfRequired t => (b.compileIfRequired t m).2
  | .start context dt => (b.start context dt m).2
  | .step time dt inputs => ((b.step time dt inputs).2, m)
  | .endRun => (b.endRun, m)
  | .inputPorts ports => (b.setInputPorts ports, m)

/-- Whether a use is a start that forgets what was compiled, since it is for another contract. -/
def forgets (b : Block) (m : Machine) : Use → Bool
  | .start context dt =>
    match (b.start context dt m).1 with
    | .error (.load e) => e.isIncompatible
    | _ => false
  | _ => false

/-- The blocks that come out of uses that do not forget what was compiled. Each use finds the machine as it is
then, which may have changed since the last one. -/
inductive UsedSince (b : Block) : Block → Prop where
  | same : UsedSince b b
  | use {c} (m : Machine) (u : Use) : UsedSince b c → c.forgets m u = false → UsedSince b (c.use m u).1

variable {b c : Block} {m m' : Machine}

/-! ## One use -/

/-- The text of the unit does not tell the number of input ports. -/
theorem staleness_setInputPorts (b : Block) (ports : Nat) :
    (b.setInputPorts ports).staleness = b.staleness := rfl

/-- Nothing is done to prepare a fresh block for its start. -/
theorem Prepares.of_fresh {toolchain : Option Toolchain} {result : Except RunFault Unit}
    (h : b.Prepares toolchain m result c m') (hfresh : b.staleness = .fresh) :
    result = .ok () ∧ c = b ∧ m' = m := by
  cases h with
  | fresh => exact ⟨rfl, rfl, rfl⟩
  | compiled _ hstale => exact absurd hfresh hstale
  | noToolchain _ hstale => exact absurd hfresh hstale
  | toolchain _ hstale => exact absurd hfresh hstale

theorem compileIfRequired_of_fresh (hfresh : b.staleness = .fresh) (t : Toolchain) (m : Machine) :
    b.compileIfRequired t m = (.ok .fresh, b, m) := by
  simp [compileIfRequired, hfresh, Staleness.recompileRequired]

namespace Starts

variable {context : StartContext} {dt : Float} {result : Except RunFault Unit}

/-- The start of a fresh block leaves the machine alone. -/
theorem machine_of_fresh (h : b.Starts context dt m result c m') (hfresh : b.staleness = .fresh) :
    m' = m := by
  cases h with
  | refused h => exact (h.of_fresh hfresh).2.2
  | notCompiled h => exact (h.of_fresh hfresh).2.2
  | notLoaded h => exact (h.of_fresh hfresh).2.2
  | notInitialised h => exact (h.of_fresh hfresh).2.2
  | started h => exact (h.of_fresh hfresh).2.2

/-- The start of a fresh block leaves it fresh, unless its library is for another contract. -/
theorem staleness_of_fresh (h : b.Starts context dt m result c m') (hfresh : b.staleness = .fresh)
    (hkept : ∀ e, result = .error (.load e) → e.isIncompatible = false) : c.staleness = .fresh := by
  cases h with
  | refused h => cases (h.of_fresh hfresh).1
  | notCompiled h => exact h.staleness
  | @notLoaded c m' record s e h hstate =>
    -- the note of the failure keeps all of the record but its message
    rw [recordLoadFailure_of_compiled (hkept e rfl) hstate]
    exact staleness_failed hstate h.staleness _ _ _
  | notInitialised h => exact h.staleness
  | started h => exact h.staleness

end Starts

/-- A use of a fresh block calls no compiler, and changes nothing else of the machine. -/
theorem machine_use (hfresh : b.staleness = .fresh) (m : Machine) (u : Use) : (b.use m u).2 = m := by
  cases u with
  | compileIfRequired t => rw [use, compileIfRequired_of_fresh hfresh]
  | start context dt => exact (b.start_starts context dt m).machine_of_fresh hfresh
  | step time dt inputs => rfl
  | endRun => rfl
  | inputPorts ports => rfl

/-- A use of a fresh block leaves it fresh, unless what was compiled is forgotten. -/
theorem staleness_use (hfresh : b.staleness = .fresh) {u : Use} (hkept : b.forgets m u = false) :
    (b.use m u).1.staleness = .fresh := by
  cases u with
  | compileIfRequired t =>
    rw [use, compileIfRequired_of_fresh hfresh]
    exact hfresh
  | start context dt =>
    -- only a start that forgets the artifacts could spoil it
    refine (b.start_starts context dt m).staleness_of_fresh hfresh fun e he => ?_
    rw [forgets, he] at hkept
    exact hkept
  | step time dt inputs =>
    obtain ⟨run, hrun⟩ := b.step_eq time dt inputs
    rw [use, hrun]
    exact hfresh
  | endRun => exact hfresh
  | inputPorts ports => exact (staleness_setInputPorts b ports).trans hfresh

/-! ## All uses -/

/-- A fresh block stays fresh while it is used. -/
theorem UsedSince.staleness (h : b.UsedSince c) (hfresh : b.staleness = .fresh) : c.staleness = .fresh := by
  induction h with
  | same => exact hfresh
  | use m u _ hkept ih => exact staleness_use ih hkept

/-- An error of the toolchain leaves the block as it was. -/
theorem compileIfRequired_of_error {t : Toolchain} {e : ToolchainError}
    (h : b.compileIfRequired t m = (.error e, c, m')) : c = b := by
  by_cases hstale : b.staleness.recompileRequired
  · simp only [compileIfRequired, compileNow, hstale, if_true] at h
    cases hrun : b.job.run t m with
    | mk result m'' =>
      rw [hrun] at h
      cases result with
      | error e => cases h; rfl
      | ok outcome => cases h
  · simp only [compileIfRequired, if_neg hstale] at h
    cases h

/-- The compile of a stale block gives the staleness that it had, and the block takes its outcome. -/
theorem compileIfRequired_of_run {t : Toolchain} {outcome : CompileOutcome} (hstale : b.staleness ≠ .fresh)
    (hrun : b.job.run t m = (.ok outcome, m')) :
    b.compileIfRequired t m = (.ok b.staleness, b.settleOwn (some outcome), m') := by
  simp only [compileIfRequired, compileNow, recompileRequired_iff.2 hstale, if_true, hrun, apply_job]

/-- **Compiled once.** If making sure that a block is compiled ends with an error of the toolchain, the compile
state is left alone. Otherwise the block is fresh, whether the compile has succeeded or failed, and however it
is used then, it stays fresh and no use of it calls a compiler, as long as no start finds the library to be for
another contract. -/
theorem no_call_after_compileIfRequired (b : Block) (t : Toolchain) (m : Machine) :
    (∀ e b' m', b.compileIfRequired t m = (.error e, b', m') → b'.state = b.state) ∧
    (∀ s b' m', b.compileIfRequired t m = (.ok s, b', m') → b'.staleness = .fresh ∧
      ∀ c, b'.UsedSince c → c.staleness = .fresh ∧ ∀ m u, (c.use m u).2 = m) := by
  refine ⟨fun e b' m' h => congrArg state (compileIfRequired_of_error h), fun s b' m' h => ?_⟩
  have hfresh : b'.staleness = .fresh := by
    have hafter := compileIfRequired_fresh (b := b) (t := t) (m := m) (s := s) (by rw [h])
    rw [h] at hafter
    exact hafter
  exact ⟨hfresh, fun c hused => ⟨hused.staleness hfresh, machine_use (hused.staleness hfresh)⟩⟩

/-- A failure that is then started with a willing compiler at hand: the start is refused, and after it the
compiler is not asked either. -/
theorem no_call_after_failed_compile :
    ∃ b' m', (bare {}).compileIfRequired .willing .refusing = (.ok .neverCompiled, b', m') ∧
      b'.status = .error ∧ b'.staleness = .fresh ∧
      ((b'.setInputPorts 5).start ⟨some .willing, none⟩ 0 (.willing [])).1 = .error .notCompiled ∧
      (((b'.setInputPorts 5).start ⟨some .willing, none⟩ 0 (.willing [])).2.1.compileIfRequired .willing
        (.willing [])).2.2 = .willing [] := by
  obtain ⟨b', m', hcompile, herror⟩ : ∃ b' m',
      (bare {}).compileIfRequired .willing .refusing = (.ok .neverCompiled, b', m') ∧ b'.status = .error := by
    obtain ⟨diagnostics, houtcome⟩ := exists_refused_bare {}
    obtain ⟨m', hrun⟩ := outcome?_eq_some houtcome
    exact ⟨_, m', compileIfRequired_of_run nofun hrun, rfl⟩
  obtain ⟨hfresh, huses⟩ := (no_call_after_compileIfRequired (bare {}) .willing .refusing).2 _ b' m' hcompile
  -- the ports are changed after the failure, and then the block is started by another compiler
  have hports : b'.UsedSince (b'.setInputPorts 5) := .use (.willing []) (.inputPorts 5) .same rfl
  have hstart := start_of_error (b := b'.setInputPorts 5) herror hfresh ⟨some .willing, none⟩ 0 (.willing [])
  have hstarted := hports.use (.willing []) (.start ⟨some .willing, none⟩ 0) (by rw [forgets, hstart])
  exact ⟨b', m', hcompile, herror, hfresh, congrArg Prod.fst hstart,
    (huses _ hstarted).2 (.willing []) (.compileIfRequired .willing)⟩

end Block

end CircuitBlocks
