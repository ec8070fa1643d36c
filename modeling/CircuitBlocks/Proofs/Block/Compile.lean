import CircuitBlocks.Block.Compile
import CircuitBlocks.Proofs.Compilation.Run
import CircuitBlocks.Proofs.Staleness

/-!
# Compiles — what a block makes of outcomes

A job made from a block describes it, so the block takes its outcome at once and is fresh afterwards,
whether the compile succeeded or failed.

* `Block.settleOwn` — a block with the outcome of the job that describes it.
* `Block.outcome?` and `Block.compiles?` — the outcomes of the compiles that a block makes at once.
* **`Block.compileNow_eq`**, `Block.compileIfRequired_eq` — what a compile leaves behind.
* `Block.exists_outcome_bare` and `Block.exists_refused_bare` — a block without files compiles with the compiler that
  is content with anything, and with the one that is content with nothing it does not.
-/

namespace CircuitBlocks

/-! ## Jobs -/

@[simp] theorem CompileState.record?_settle (s : CompileState) (j : CompileJob)
    (outcome : CompileOutcome) : (s.settle j outcome).record? = some (j.record outcome.message) := by
  cases outcome <;> rfl

namespace Block

theorem matchesJob_iff {b : Block} {j : CompileJob} :
    b.matchesJob j = true ↔
      j.block = b.id ∧ j.fragments = b.fragments ∧ j.shape = b.shape ∧ j.hashes = b.hashes := by
  simp [matchesJob, and_assoc]

theorem matchesJob_job (b : Block) : b.matchesJob b.job = true :=
  matchesJob_iff.2 ⟨rfl, rfl, rfl, rfl⟩

/-! ## Compiles at once -/

/-- The block with the outcome of the job that describes it, if there is one. -/
def settleOwn (b : Block) : Option CompileOutcome → Block
  | none => b
  | some outcome => { b with state := b.state.settle b.job outcome }

/-- The outcome of the compile of the block. An error of the toolchain gives none. -/
def outcome? (b : Block) (t : Toolchain) (m : Machine) : Option CompileOutcome :=
  (b.job.run t m).1.toOption

/-- An outcome comes of a run of the block's job. -/
theorem outcome?_eq_some {b : Block} {t : Toolchain} {m : Machine} {outcome : CompileOutcome}
    (h : b.outcome? t m = some outcome) : ∃ m', b.job.run t m = (.ok outcome, m') := by
  unfold outcome? at h
  cases hrun : b.job.run t m with
  | mk result m' =>
    rw [hrun] at h
    cases result with
    | error e => cases h
    | ok o =>
      cases h
      exact ⟨m', rfl⟩

/-- The outcome of the compile that is made before a start, if one is made. -/
def compiles? (b : Block) (toolchain : Option Toolchain) (m : Machine) : Option CompileOutcome :=
  if b.staleness.recompileRequired then toolchain.bind (b.outcome? · m) else none

theorem compiles?_eq_some {b : Block} {toolchain : Option Toolchain} {m : Machine}
    {outcome : CompileOutcome} (h : b.compiles? toolchain m = some outcome) :
    ∃ t m', b.job.run t m = (.ok outcome, m') := by
  unfold compiles? at h
  split at h
  · obtain ⟨t, -, ht⟩ := Option.bind_eq_some_iff.1 h
    exact ⟨t, outcome?_eq_some ht⟩
  · cases h

/-- A block takes the outcome of the job that describes it. -/
theorem apply_job (b : Block) (outcome : CompileOutcome) :
    b.apply b.job outcome = (true, b.settleOwn (some outcome)) := by
  rw [apply, if_pos b.matchesJob_job]
  rfl

/-- After it took the outcome of the job that describes it, a block is fresh. -/
theorem staleness_settleOwn (b : Block) (outcome : CompileOutcome) :
    (b.settleOwn (some outcome)).staleness = .fresh := by
  refine staleness_eq_fresh_iff.2 ⟨b.job.record outcome.message, ?_, rfl, rfl⟩
  exact CompileState.record?_settle _ _ _

/-- A compile leaves the block with the outcome of its job, if there is one. -/
theorem compileNow_eq (b : Block) (t : Toolchain) (m : Machine) :
    (b.compileNow t m).2.1 = b.settleOwn (b.outcome? t m) := by
  unfold compileNow outcome?
  split
  · next hrun =>
    rw [hrun]
    rfl
  · next outcome _ hrun =>
    rw [hrun]
    show (b.apply b.job outcome).2 = _
    rw [apply_job]
    rfl

/-- A compile that was made leaves the block fresh. -/
theorem compileNow_fresh {b : Block} {t : Toolchain} {m : Machine}
    (h : (b.compileNow t m).1 = .ok ()) : (b.compileNow t m).2.1.staleness = .fresh := by
  unfold compileNow at *
  split at h
  · cases h
  · next outcome _ _ =>
    show (b.apply b.job outcome).2.staleness = .fresh
    rw [apply_job]
    exact b.staleness_settleOwn outcome

/-- A compile on demand leaves the block with the outcome, if it was due and gave one. -/
theorem compileIfRequired_eq (b : Block) (t : Toolchain) (m : Machine) :
    (b.compileIfRequired t m).2.1 = b.settleOwn (b.compiles? (some t) m) := by
  unfold compileIfRequired compiles?
  by_cases hstale : b.staleness.recompileRequired
  · simp only [hstale, if_true]
    have heq := b.compileNow_eq t m
    split
    · next hcompile =>
      rw [hcompile] at heq
      exact heq
    · next hcompile =>
      rw [hcompile] at heq
      exact heq
  · simp only [hstale]
    rfl

/-- A compile on demand leaves the block fresh, whether it was due or not. -/
theorem compileIfRequired_fresh {b : Block} {t : Toolchain} {m : Machine} {s : Staleness}
    (h : (b.compileIfRequired t m).1 = .ok s) : (b.compileIfRequired t m).2.1.staleness = .fresh := by
  unfold compileIfRequired at *
  by_cases hstale : b.staleness.recompileRequired
  · simp only [hstale, if_true] at *
    split at h
    · cases h
    · next hcompile =>
      have hfresh := compileNow_fresh (b := b) (t := t) (m := m) (by rw [hcompile])
      rw [hcompile] at hfresh
      exact hfresh
  · simp only [hstale]
    simpa [Staleness.recompileRequired] using hstale

/-! ## Blocks without files

Such a block takes one call of the compiler, and so it is as willing or as refusing as the compiler is. -/

/-- A block without files. -/
def bare (fragments : Fragments) : Block := { id := "b", fragments, shape := .standard }

theorem artifactName_bare (fragments : Fragments) : (bare fragments).artifactName = "unit_b" := by
  have hname : BlockId.artifactName "b" = "unit_b" := by decide
  exact hname

theorem primaryTask_bare (fragments : Fragments) : (bare fragments).job.request.primaryTask []
    = ⟨"unit_b", "cdylib", (bare fragments).source, "libunit_b.so", []⟩ := by
  have hname : (bare fragments).job.request.primaryName = "unit_b" := artifactName_bare fragments
  have hlibrary : libraryFileName "unit_b" = "libunit_b.so" := by decide
  rw [CompileRequest.primaryTask, hname, hlibrary]
  rfl

theorem arguments_bare (fragments : Fragments) :
    (((bare fragments).job.request.primaryTask []).arguments Toolchain.willing.config "/s").any
      (fun a => '\x00' ∈ a.toList) = false := by
  rw [primaryTask_bare, CompileTask.arguments_mk]
  decide

theorem callAll_bare (fragments : Fragments) (p : CompileProgress) :
    Toolchain.willing.callAll (bare fragments).job.request p
      = Toolchain.willing.call ((bare fragments).job.request.primaryTask []) p :=
  Toolchain.callAll_of_auxiliaries rfl

/-- It compiles on the willing machine. -/
theorem exists_outcome_bare (fragments : Fragments) :
    ∃ diagnostics, (bare fragments).outcome? .willing (.willing [])
      = some (.succeed (.willing (bare fragments).source) diagnostics) := by
  obtain ⟨p, -, hcall, -, hscratch⟩ :=
    Toolchain.call_willing _ (p := ⟨.willing [], [], []⟩) rfl (arguments_bare fragments)
  refine ⟨p.diagnostics, ?_⟩
  show ((bare fragments).job.request.run Toolchain.willing (.willing [])).1.toOption = _
  rw [CompileRequest.run, callAll_bare, hcall]
  exact congrArg some (CompileRequest.collect_willing (artifactName_bare fragments) rfl hscratch)

/-- On the refusing machine it does not. -/
theorem exists_refused_bare (fragments : Fragments) :
    ∃ diagnostics, (bare fragments).outcome? .willing .refusing = some (.fail diagnostics) := by
  have hspawn : Machine.refusing.spawn Toolchain.willing.config.compiler
      (((bare fragments).job.request.primaryTask []).arguments Toolchain.willing.config
        Machine.refusing.scratch) Toolchain.willing.config.workingDirectory = .ok (.refusing, []) :=
    Machine.spawn_program rfl rfl (arguments_bare fragments)
  -- the compiler answers the one call with a failure
  obtain ⟨p, hcall⟩ : ∃ p, Toolchain.willing.call ((bare fragments).job.request.primaryTask [])
      ⟨.refusing, [], []⟩ = (.ok false, p) := by
    simp only [Toolchain.call, hspawn]
    exact ⟨_, rfl⟩
  refine ⟨p.diagnostics, ?_⟩
  show ((bare fragments).job.request.run Toolchain.willing .refusing).1.toOption = _
  rw [CompileRequest.run, callAll_bare, hcall]
  rfl

end Block

end CircuitBlocks
