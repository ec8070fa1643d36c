import CircuitBlocks.Proofs.Block.WellFormed

/-!
# Trials — the attempts that come to a verdict on a block

A compile is a trial once its outcome is taken, and a start that gets as far as loading the library is one.
A compiler that could not be used gives no verdict, and an outcome that comes too late is none on the block.

* `Trial` — a compile or a loading, with what it was made on and how it ended.
* `Block.Operation.trials` — the trials of an operation, told from its result.
* `Block.JudgedBy` — a block whose compile state is the verdict of a trial.
* **`Block.WellFormed.perform_tried`** — after an operation with trials the state is the verdict of the last
  of them; any other operation leaves the state alone, or forgets it.
-/

namespace CircuitBlocks

/-! ## Trials -/

/-- Why the library of a block does not load, if it does not. -/
def Block.loadError? (b : Block) (directory : Option String) (m : Machine) : Option LoadError :=
  match b.load directory m with
  | .ok _ => none
  | .error e => some e

/-- An attempt that came to a verdict on a block. -/
inductive Trial where
  /-- The job was compiled. -/
  | compile (j : CompileJob) (outcome : CompileOutcome)
  /-- The library of the block, as it was then, was loaded. -/
  | load (b : Block) (error : Option LoadError)

namespace Trial

/-- The text of the unit that was tried. -/
def source : Trial → String
  | compile j _ => j.request.primarySource
  | load b _ => b.source

/-- The crates that were tried with it. -/
def crates : Trial → NameSet
  | compile j _ => crateNames j.request.auxiliaries
  | load b _ => b.crates

/-- Whether the trial failed. -/
def failed : Trial → Bool
  | compile _ (.success ..) => false
  | compile _ (.failed ..) => true
  | load _ error => error.isSome

/-- Whether a trial can end so, with some compiler or on some machine. -/
def Made : Trial → Prop
  | compile j outcome => ∃ t m m', j.run t m = (.ok outcome, m')
  | load b error => ∃ directory m, b.loadError? directory m = error

/-- Whether a trial was made on what a block consists of. -/
def On (trial : Trial) (b : Block) : Prop := trial.source = b.source ∧ trial.crates = b.crates

/-- The trial of the compile that a block makes at once, if it makes one. -/
def ofOutcome (b : Block) (outcome : Option CompileOutcome) : List Trial :=
  (outcome.map (compile b.job)).toList

/-- The trial of the library in a start of a prepared block, told from the result. -/
def ofStart (prepared : Block) : Except RunFault Unit → List Trial
  | .ok () => [load prepared none]
  | .error (.load e) => [load prepared (some e)]
  | .error fault => if fault.beforeLoading then [] else [load prepared none]

end Trial

namespace Block

/-- The trials of an operation on a block, in their order. -/
def Operation.trials (b : Block) : Operation → List Trial
  | .apply j outcome => if (b.apply j outcome).1 then [.compile j outcome] else []
  | .compile t m => Trial.ofOutcome b (b.outcome? t m)
  | .compileIfRequired t m => Trial.ofOutcome b (b.compiles? (some t) m)
  | .start context dt m =>
    Trial.ofOutcome b ({ b with run := none }.compiles? context.toolchain m) ++
      Trial.ofStart (b.prepared context m) (b.start context dt m).1
  | _ => []

/-! ## Verdicts -/

/-- The compile state of a block is the verdict of a trial: an error is that of the trial, and the record
tells what was tried. -/
structure JudgedBy (b : Block) (trial : Trial) : Prop where
  made : trial.Made
  failed : b.status = .error → trial.failed = true
  record : ∀ r, b.state.record? = some r → r.source = trial.source ∧ r.crates = trial.crates

/-- What has become of a compile state after an operation with the given trials. -/
inductive Tried (before : CompileState) (b : Block) : List Trial → Prop where
  | untried (h : b.state = before ∨ b.state = .uncompiled) : Tried before b []
  | judged {earlier trial} (h : b.JudgedBy trial) : Tried before b (earlier ++ [trial])

variable {b c : Block}

theorem JudgedBy.tried {trial : Trial} (h : b.JudgedBy trial) (before : CompileState) :
    b.Tried before [trial] := @Tried.judged _ _ [] trial h

/-! ### Compiles -/

/-- A block with an outcome is judged by the compile that gave it. -/
theorem judgedBy_settle (b : Block) {j : CompileJob} {outcome : CompileOutcome}
    (hmade : (Trial.compile j outcome).Made) :
    JudgedBy { b with state := b.state.settle j outcome } (.compile j outcome) where
  made := hmade
  failed hstatus := by
    cases outcome with
    | success => cases hstatus
    | failed => rfl
  record r hr := by
    obtain rfl := Option.some.inj ((CompileState.record?_settle _ _ _).symm.trans hr)
    exact ⟨rfl, rfl⟩

/-- The outcome of the block's own job, if there is one, is its last trial. -/
theorem tried_settleOwn (b : Block) {outcome : Option CompileOutcome}
    (hmade : ∀ o, outcome = some o → (Trial.compile b.job o).Made) :
    (b.settleOwn outcome).Tried b.state (Trial.ofOutcome b outcome) := by
  cases outcome with
  | none => exact .untried (.inl rfl)
  | some o => exact (b.judgedBy_settle (hmade o rfl)).tried _

theorem tried_settleIfStale (b : Block) (toolchain : Option Toolchain) (m : Machine) :
    (b.settleOwn (b.compiles? toolchain m)).Tried b.state
      (Trial.ofOutcome b (b.compiles? toolchain m)) :=
  b.tried_settleOwn fun o ho => by
    obtain ⟨t, m', hrun⟩ := compiles?_eq_some ho
    exact ⟨t, m, m', hrun⟩

/-- An outcome that comes back is a trial if it is accepted. -/
theorem tried_apply (b : Block) {j : CompileJob} {outcome : CompileOutcome}
    (hop : (Operation.apply j outcome).Genuine) :
    (b.apply j outcome).2.Tried b.state (Operation.trials b (.apply j outcome)) := by
  obtain ⟨origin, t, m, m', rfl, hrun⟩ := hop
  simp only [Operation.trials, Block.apply]
  split
  · exact JudgedBy.tried (b.judgedBy_settle ⟨t, m, m', hrun⟩) _
  · exact .untried (.inl rfl)

/-! ### Starts -/

/-- A library is loaded for a fresh block. Whatever becomes of it, the record stays. -/
theorem WellFormed.judgedBy_load (h : b.WellFormed) (hfresh : b.staleness = .fresh)
    {error : Option LoadError} (hmade : (Trial.load b error).Made) (hleaves : b.state.Leaves c.state)
    (hfailed : c.status = .error → error.isSome = true) : c.JudgedBy (.load b error) where
  made := hmade
  failed := hfailed
  record r hr := by
    obtain ⟨earlier, hearlier, heq⟩ := hleaves.record? hr
    obtain ⟨r', hr', hsource, hcrates⟩ := staleness_eq_fresh_iff.1 hfresh
    obtain rfl := Option.some.inj (hearlier.symm.trans hr')
    rw [heq]
    refine ⟨?_, hcrates⟩
    rw [hsource, h.named _ hearlier]
    rfl

/-- A start may try the block twice, by a compile and by loading what it has. -/
theorem WellFormed.start_tried (h : b.WellFormed) (context : StartContext) (dt : Float) (m : Machine) :
    (b.start context dt m).2.1.Tried b.state (Operation.trials b (.start context dt m)) := by
  have hstarts := b.start_starts context dt m
  simp only [Operation.trials]
  generalize (b.start context dt m).1 = result, (b.start context dt m).2.1 = b',
    (b.start context dt m).2.2 = m' at hstarts
  -- a start that ends before the loading has the trial of its compile alone
  have hcompiled : (b.prepared context m).Tried b.state
      (Trial.ofOutcome b ({ b with run := none }.compiles? context.toolchain m) ++ []) := by
    rw [List.append_nil]
    exact tried_settleIfStale { b with run := none } context.toolchain m
  cases hstarts with
  | refused hprepares =>
    rw [hprepares.eq_settleOwn]
    cases hprepares <;> exact hcompiled
  | notCompiled hprepares =>
    rw [hprepares.eq_settleOwn]
    exact hcompiled
  | notLoaded hprepares hstate hload =>
    obtain rfl := hprepares.eq_settleOwn
    exact .judged ((h.prepares hprepares).judgedBy_load hprepares.staleness ⟨_, _, by rw [loadError?, hload]⟩
      (continues_recordLoadFailure _ _).state fun _ => rfl)
  | notInitialised hprepares hstate hload hfault =>
    obtain rfl := hprepares.eq_settleOwn
    have hjudged := (h.prepares hprepares).judgedBy_load hprepares.staleness ⟨_, _, by rw [loadError?, hload]⟩
      .same fun hstatus => nomatch (status_of_compiled hstate).symm.trans hstatus
    rcases hfault with rfl | ⟨code, rfl⟩ <;> exact .judged hjudged
  | started hprepares hstate hload =>
    obtain rfl := hprepares.eq_settleOwn
    exact .judged ((h.prepares hprepares).judgedBy_load hprepares.staleness ⟨_, _, by rw [loadError?, hload]⟩
      .same fun hstatus => nomatch (status_of_compiled hstate).symm.trans hstatus)

/-! ### Operations -/

/-- The compile state after an operation is the verdict of its last trial. Without a trial it is the old
state, or none. -/
theorem WellFormed.perform_tried (h : b.WellFormed) (r : Registry) {op : Operation} (hop : op.Genuine) :
    (b.perform r op).1.Tried b.state (op.trials b) := by
  cases op with
  | apply j outcome => exact b.tried_apply hop
  | compile t m =>
    rw [perform_compile]
    exact b.tried_settleOwn fun o ho => ⟨t, m, outcome?_eq_some ho⟩
  | compileIfRequired t m =>
    rw [perform_compileIfRequired]
    exact b.tried_settleIfStale (some t) m
  | start context dt m => exact h.start_tried context dt m
  | _ => exact .untried (b.state_perform r rfl)

end Block

end CircuitBlocks
