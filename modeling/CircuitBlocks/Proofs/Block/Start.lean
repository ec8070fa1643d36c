import CircuitBlocks.Block.Run
import CircuitBlocks.Proofs.Block.Compile
import CircuitBlocks.Proofs.Loading

/-!
# Starting — what a start makes of a block

A start first compiles the block if it is stale, and then loads its library. Afterwards the block differs
from the prepared one in its run alone, unless the library did not load.

* `Block.Prepares` and **`Block.Starts`** — how a preparation and a start can go, one case for each exit.
* `Block.prepared` — the block that a start loads a library for.
* `Block.start_cases` — what a start leaves behind.
* **`Block.start_ok`** — a start that succeeds runs a library that was loaded for a fresh block.
* `Block.start_of_error` — a fresh block with an error is not started.
* **`Block.load_own_iff`** — a block that holds an artifact of its own loads that artifact, and just if everything
  about it is in order; `Block.start_of_load` — the block starts then.
-/

namespace CircuitBlocks.Block

variable {b : Block} {toolchain : Option Toolchain} {context : StartContext} {dt : Float} {m m' : Machine}

/-! ## Preparations -/

/-- How a preparation can go, by its result and the block and the machine that it leaves. -/
inductive Prepares (b : Block) (toolchain : Option Toolchain) (m : Machine) :
    Except RunFault Unit → Block → Machine → Prop where
  | fresh (hfresh : b.staleness = .fresh) : Prepares b toolchain m (.ok ()) b m
  | compiled {t m' outcome} (ht : toolchain = some t) (hstale : b.staleness ≠ .fresh)
      (hrun : b.job.run t m = (.ok outcome, m')) :
      Prepares b toolchain m (.ok ()) (b.settleOwn (some outcome)) m'
  | noToolchain (ht : toolchain = none) (hstale : b.staleness ≠ .fresh) :
      Prepares b toolchain m (.error .noToolchain) b m
  | toolchain {t m' e} (ht : toolchain = some t) (hstale : b.staleness ≠ .fresh)
      (hrun : b.job.run t m = (.error e, m')) :
      Prepares b toolchain m (.error (.toolchain e)) b m'

theorem recompileRequired_iff {s : Staleness} : s.recompileRequired = true ↔ s ≠ .fresh := by
  simp [Staleness.recompileRequired]

/-- A preparation goes in one of these ways. -/
theorem prepare_prepares (b : Block) (toolchain : Option Toolchain) (m : Machine) :
    b.Prepares toolchain m (b.prepare toolchain m).1 (b.prepare toolchain m).2.1
      (b.prepare toolchain m).2.2 := by
  -- only a stale block looks at the toolchain
  by_cases hstale : b.staleness.recompileRequired
  · have hne := recompileRequired_iff.1 hstale
    cases toolchain with
    | none =>
      simp only [prepare, hstale, if_true]
      exact .noToolchain rfl hne
    | some t =>
      simp only [prepare, compileIfRequired, compileNow, hstale, if_true]
      cases hrun : b.job.run t m with
      | mk result m' =>
        cases result with
        | error e => exact .toolchain rfl hne hrun
        | ok outcome =>
          simp only [apply_job]
          exact .compiled rfl hne hrun
  · have hfresh : b.staleness = .fresh := Decidable.not_not.1 fun h => hstale (recompileRequired_iff.2 h)
    cases toolchain <;>
    · simp only [prepare, compileIfRequired, if_neg hstale]
      exact .fresh hfresh

/-- A fresh block is prepared as it is, with a toolchain or without one. -/
theorem prepare_of_fresh (hfresh : b.staleness = .fresh) (toolchain : Option Toolchain) (m : Machine) :
    b.prepare toolchain m = (.ok (), b, m) := by
  cases toolchain <;> simp [prepare, compileIfRequired, hfresh, Staleness.recompileRequired]

/-- A stale block is prepared by the compile of the job that describes it. -/
theorem prepare_of_run {t : Toolchain} {outcome : CompileOutcome} (hstale : b.staleness ≠ .fresh)
    (hrun : b.job.run t m = (.ok outcome, m')) :
    b.prepare (some t) m = (.ok (), b.settleOwn (some outcome), m') := by
  simp only [prepare, compileIfRequired, compileNow, recompileRequired_iff.2 hstale, if_true, hrun, apply_job]

namespace Prepares

variable {result : Except RunFault Unit} {c : Block}

/-- The block takes the outcome of the compile that is made, if one is made. -/
theorem eq_settleOwn (h : b.Prepares toolchain m result c m') :
    c = b.settleOwn (b.compiles? toolchain m) := by
  unfold compiles?
  cases h with
  -- a fresh block is not compiled, and a stale one by the toolchain that there is
  | fresh hfresh =>
    rw [hfresh]
    rfl
  | compiled ht hstale hrun =>
    rw [if_pos (recompileRequired_iff.2 hstale), ht, Option.bind_some, outcome?, hrun]
    rfl
  | noToolchain ht hstale =>
    rw [ht, Option.bind_none, ite_self]
    rfl
  | toolchain ht hstale hrun =>
    rw [if_pos (recompileRequired_iff.2 hstale), ht, Option.bind_some, outcome?, hrun]
    rfl

theorem staleness (h : b.Prepares toolchain m (.ok ()) c m') : c.staleness = .fresh := by
  cases h with
  | fresh hfresh => exact hfresh
  | compiled ht hstale hrun => exact b.staleness_settleOwn _

/-- A block that was prepared and did not fail holds artifacts. -/
theorem exists_compiled (h : b.Prepares toolchain m (.ok ()) c m') (hstatus : c.status ≠ .error) :
    ∃ record s, c.state = .compiled record s := by
  obtain ⟨r, hr, -, -⟩ := staleness_eq_fresh_iff.1 h.staleness
  cases hstate : c.state with
  | uncompiled => rw [hstate] at hr; cases hr
  | compiled record s => exact ⟨record, s, rfl⟩
  | failed record diagnostics retained =>
    rw [Block.status, hstate] at hstatus
    exact absurd rfl hstatus

end Prepares

/-- The block that a start has prepared: no run goes on, and if it was stale it is compiled. -/
def prepared (b : Block) (context : StartContext) (m : Machine) : Block :=
  { b with run := none }.settleOwn ({ b with run := none }.compiles? context.toolchain m)

theorem run_prepared (b : Block) (context : StartContext) (m : Machine) :
    (b.prepared context m).run = none := by
  unfold prepared
  cases compiles? { b with run := none } context.toolchain m <;> rfl

/-! ## Starts -/

/-- A new instance becomes the run of the block if it was initialised; otherwise the block stays as it
was. -/
theorem initialise_cases (b : Block) (table : ProcedureTable) (memory : Memory) (dt : Float) :
    b.initialise table memory dt
        = (.ok (), { b with run := some ⟨table, (table.init memory).1, b.shape.outputWidths, dt⟩ }) ∨
    ∃ fault, (fault = .panicked .init ∨ ∃ code, fault = .unknownStatus code) ∧
      b.initialise table memory dt = (.error fault, b) := by
  unfold initialise
  cases table.init memory with
  | mk memory code =>
    simp only
    cases CallStatus.ofCode code with
    | ok => exact .inl rfl
    | panicked => exact .inr ⟨.panicked .init, .inl rfl, rfl⟩
    -- a procedure that refuses to be initialised counts as one that panicked
    | badInput => exact .inr ⟨.panicked .init, .inl rfl, rfl⟩
    | unknown code => exact .inr ⟨.unknownStatus code, .inr ⟨code, rfl⟩, rfl⟩

/-- How a start can go, by its result and the block and the machine that it leaves. Whatever is loaded is
loaded for the prepared block, which is fresh then. -/
inductive Starts (b : Block) (context : StartContext) (dt : Float) (m : Machine) :
    Except RunFault Unit → Block → Machine → Prop where
  | refused {fault c m'} (h : { b with run := none }.Prepares context.toolchain m (.error fault) c m') :
      Starts b context dt m (.error fault) c m'
  | notCompiled {c m'} (h : { b with run := none }.Prepares context.toolchain m (.ok ()) c m')
      (hstatus : c.status = .error) : Starts b context dt m (.error .notCompiled) c m'
  | notLoaded {c m' record s e} (h : { b with run := none }.Prepares context.toolchain m (.ok ()) c m')
      (hstate : c.state = .compiled record s) (hload : c.load context.directory m' = .error e) :
      Starts b context dt m (.error (.load e)) (c.recordLoadFailure e) m'
  | notInitialised {c m' record s table memory fault}
      (h : { b with run := none }.Prepares context.toolchain m (.ok ()) c m')
      (hstate : c.state = .compiled record s)
      (hload : c.load context.directory m' = .ok (table, memory))
      (hfault : fault = .panicked .init ∨ ∃ code, fault = .unknownStatus code) :
      Starts b context dt m (.error fault) c m'
  | started {c m' record s table memory}
      (h : { b with run := none }.Prepares context.toolchain m (.ok ()) c m')
      (hstate : c.state = .compiled record s)
      (hload : c.load context.directory m' = .ok (table, memory)) :
      Starts b context dt m (.ok ())
        { c with run := some ⟨table, (table.init memory).1, c.shape.outputWidths, dt⟩ } m'

/-- A start goes in one of these ways. -/
theorem start_starts (b : Block) (context : StartContext) (dt : Float) (m : Machine) :
    b.Starts context dt m (b.start context dt m).1 (b.start context dt m).2.1
      (b.start context dt m).2.2 := by
  have hprepares := prepare_prepares { b with run := none } context.toolchain m
  unfold start
  split
  · next hprepare =>
    rw [hprepare] at hprepares
    exact .refused hprepares
  · next c m' hprepare =>
    rw [hprepare] at hprepares
    split
    · next hstatus => exact .notCompiled hprepares hstatus
    · next hstatus =>
      -- a fresh block without an error has compiled
      obtain ⟨record, s, hstate⟩ := hprepares.exists_compiled hstatus
      split
      · next hload => exact .notLoaded hprepares hstate hload
      · next table memory hload =>
        rcases c.initialise_cases table memory dt with hinit | ⟨fault, hfault, hinit⟩
        · rw [hinit]
          exact .started hprepares hstate hload
        · rw [hinit]
          exact .notInitialised hprepares hstate hload hfault

/-- A start leaves the prepared block behind, with a run, or with a note that the library did not
load. -/
theorem start_cases (b : Block) (context : StartContext) (dt : Float) (m : Machine) :
    (∃ run, (b.start context dt m).2.1 = { b.prepared context m with run }) ∨
    ∃ e, (b.start context dt m).2.1 = (b.prepared context m).recordLoadFailure e := by
  -- the prepared block has no run, so leaving it as it is leaves it with none
  have hsame : b.prepared context m = { b.prepared context m with run := none } := by
    rw [← b.run_prepared context m]
  have hstarts := b.start_starts context dt m
  generalize (b.start context dt m).1 = result, (b.start context dt m).2.1 = b',
    (b.start context dt m).2.2 = m' at hstarts
  cases hstarts with
  | refused h => exact .inl ⟨none, h.eq_settleOwn.trans hsame⟩
  | notCompiled h => exact .inl ⟨none, h.eq_settleOwn.trans hsame⟩
  | notLoaded h => exact .inr ⟨_, by rw [h.eq_settleOwn]; rfl⟩
  | notInitialised h => exact .inl ⟨none, h.eq_settleOwn.trans hsame⟩
  | started h => exact .inl ⟨_, by rw [h.eq_settleOwn]; rfl⟩

/-- A start that succeeds runs a library that was loaded for a fresh block. -/
theorem start_ok {b' : Block} (h : b.start context dt m = (.ok (), b', m')) :
    (b.prepared context m).staleness = .fresh ∧ (b.prepared context m).status ≠ .error ∧
    ∃ table memory, (b.prepared context m).load context.directory m' = .ok (table, memory) ∧
      b' = { b.prepared context m with
        run := some ⟨table, (table.init memory).1, (b.prepared context m).shape.outputWidths, dt⟩ } := by
  have hstarts := b.start_starts context dt m
  rw [h] at hstarts
  cases hstarts with
  | @started c m' record s table memory hprepares hstate hload =>
    obtain rfl : c = b.prepared context m := hprepares.eq_settleOwn
    refine ⟨hprepares.staleness, ?_, table, memory, hload, rfl⟩
    rw [Block.status, hstate]
    exact fun h => nomatch h

/-- Nothing is compiled or loaded for a fresh block with an error. -/
theorem start_of_error (herror : b.status = .error) (hfresh : b.staleness = .fresh)
    (context : StartContext) (dt : Float) (m : Machine) :
    b.start context dt m = (.error .notCompiled, b.endRun, m) := by
  have hprepare : { b with run := none }.prepare context.toolchain m = (.ok (), b.endRun, m) :=
    prepare_of_fresh (b := b.endRun) hfresh context.toolchain m
  have hstatus : b.endRun.status = .error := herror
  unfold start
  simp only [hprepare, hstatus, if_true]

/-! ## Libraries -/

section Libraries

variable {directory : Option String} {table : ProcedureTable} {memory : Memory} {s : ArtifactStore}
  {a : Artifact}

/-- What a block loads is a new instance of the library that is given for its name and its shape. -/
theorem load_eq_ok_iff : b.load directory m = .ok (table, memory) ↔
    ∃ u, loadUnit m (b.tiers directory) b.artifactName b.shape.shape = .ok u ∧ u.table = table ∧
      u.instantiate = .ok memory := by
  unfold load
  cases loadUnit m (b.tiers directory) b.artifactName b.shape.shape with
  | error e => exact ⟨fun h => (nomatch h), fun ⟨_, h, _⟩ => (nomatch h)⟩
  | ok u =>
    -- the library is given first, and then makes its instance
    cases hinstance : u.instantiate with
    | error e =>
      simp only [hinstance]
      refine ⟨fun h => (nomatch h), ?_⟩
      rintro ⟨u', ⟨⟩, -, hmemory⟩
      exact nomatch hinstance.symm.trans hmemory
    | ok created =>
      simp only [hinstance]
      constructor
      · rintro ⟨⟩
        exact ⟨u, rfl, rfl, hinstance⟩
      · rintro ⟨u', ⟨⟩, rfl, hmemory⟩
        cases hinstance.symm.trans hmemory
        rfl

/-- The name of a block that holds an artifact of its own resolves to that artifact. -/
theorem resolve_tiers (hstore : b.state.store? = some s) (hget : s.get? b.artifactName = some a)
    (directory : Option String) (m : Machine) :
    resolve m (b.tiers directory) b.artifactName = a.open b.artifactName m := by
  rw [tiers, hstore]
  exact resolve_store hget m _

/-- A block that holds an artifact of its own loads that artifact and no other, and just if everything about it is in
order: it is a primary one, its name can be staged, the platform finds a procedure table in it, of this contract and
of the shape of the block, and the table creates an instance. -/
theorem load_own_iff (hstore : b.state.store? = some s) (hget : s.get? b.artifactName = some a) :
    b.load directory m = .ok (table, memory) ↔
      a.kind = .primary ∧ stagingError? b.artifactName = none ∧ m.loader a.payload = .procedure table ∧
      table.contractVersion = contractVersion ∧
      ProcedureShape.ofTag? table.shapeTag = some b.shape.shape ∧ table.create = some memory := by
  simp only [load_eq_ok_iff, loadUnit_eq_ok_iff, resolve_tiers hstore hget, Artifact.open_eq_ok_iff,
    LibraryUnit.instantiate_eq_ok_iff, LibraryUnit.shape?]
  constructor
  · rintro ⟨u, ⟨⟨hkind, hstaging, hloader, hcontract, -⟩, hshape⟩, rfl, hcreate⟩
    exact ⟨hkind, hstaging, hloader, hcontract, hshape, hcreate⟩
  · rintro ⟨hkind, hstaging, hloader, hcontract, hshape, hcreate⟩
    exact ⟨⟨b.artifactName, table⟩, ⟨⟨hkind, hstaging, hloader, hcontract, rfl⟩, hshape⟩, rfl, hcreate⟩

theorem loader_of_load (hstore : b.state.store? = some s) (hget : s.get? b.artifactName = some a)
    (h : b.load directory m = .ok (table, memory)) :
    a.kind = .primary ∧ m.loader a.payload = .procedure table := by
  obtain ⟨hkind, -, hloader, -⟩ := (load_own_iff hstore hget).1 h
  exact ⟨hkind, hloader⟩

/-- The directory is no way out for a block whose own artifact does not open. -/
theorem load_of_open_error {e : LoadError} (hstore : b.state.store? = some s)
    (hget : s.get? b.artifactName = some a) (h : a.open b.artifactName m = .error e) :
    b.load directory m = .error e := by
  simp only [load, loadUnit, resolve_tiers hstore hget, h]

end Libraries

/-! ### Starts that load a library

What comes of a start is settled by its preparation and by what is loaded then. -/

section Loads

variable {c : Block} {table : ProcedureTable} {memory : Memory}

/-- A start goes on to initialise what the block has loaded. -/
theorem start_of_load (hprepare : { b with run := none }.prepare context.toolchain m = (.ok (), c, m'))
    (hstatus : c.status = .success) (hload : c.load context.directory m' = .ok (table, memory))
    (hinit : CallStatus.ofCode (table.init memory).2 = .ok) :
    b.start context dt m =
      (.ok (), { c with run := some ⟨table, (table.init memory).1, c.shape.outputWidths, dt⟩ }, m') := by
  have hloads : c.status ≠ .error := by
    rw [hstatus]
    exact fun h => nomatch h
  unfold start
  simp only [hprepare, if_neg hloads, hload, initialise, hinit]

/-- A start ends with the refusal of the library. -/
theorem start_of_loadError {e : LoadError}
    (hprepare : { b with run := none }.prepare context.toolchain m = (.ok (), c, m'))
    (hstatus : c.status = .success) (hload : c.load context.directory m' = .error e) :
    b.start context dt m = (.error (.load e), c.recordLoadFailure e, m') := by
  have hloads : c.status ≠ .error := by
    rw [hstatus]
    exact fun h => nomatch h
  unfold start
  simp only [hprepare, if_neg hloads, hload]

end Loads

/-- A fresh block that holds a loadable artifact starts on the willing machine. -/
theorem start_willing {record : CompileRecord} {s : ArtifactStore} {primary : Artifact}
    (hid : b.id = "b") (hshape : b.shape.shape = .single) (hrun : b.run = none)
    (hstate : b.state = .compiled record s) (hfresh : b.staleness = .fresh)
    (hget : s.get? "unit_b" = some primary) (hkind : primary.kind = .primary)
    (toolchain : Option Toolchain) (dt : Float) :
    ∃ b', b.start { toolchain } dt (.willing []) = (.ok (), b', .willing []) := by
  have hname : b.artifactName = "unit_b" := by
    rw [Block.artifactName, hid]
    decide
  have hstaging : stagingError? b.artifactName = none := by
    rw [hname]
    decide
  -- the block's own artifact is opened by the loader as a procedure that does nothing
  have hload : b.load none (.willing []) = .ok (.idle .single, []) := by
    refine (load_own_iff (by rw [hstate]; rfl) (by rw [hname]; exact hget)).2 ⟨hkind, hstaging, rfl, rfl, ?_, rfl⟩
    rw [hshape]
    rfl
  have hprepare : { b with run := none }.prepare toolchain (.willing []) = (.ok (), b, .willing []) := by
    rw [← hrun]
    exact prepare_of_fresh hfresh toolchain _
  have hstatus : b.status = .success := by rw [Block.status, hstate]; rfl
  exact ⟨_, start_of_load hprepare hstatus hload rfl⟩

/-! ### A block that was compiled -/

/-- The block without files, with what it is compiled to on the willing machine. -/
def built (said : List Diagnostic) : Block :=
  (bare {}).settleOwn (some (.succeed (.willing (bare {}).source) said))

theorem staleness_built (said : List Diagnostic) : (built said).staleness = .fresh :=
  staleness_settleOwn _ _

/-- It is what the block without files is prepared to there. The compile leaves the loader alone. -/
theorem exists_prepare_bare : ∃ said m', m'.loader = (Machine.willing []).loader ∧
    (bare {}).prepare (some .willing) (.willing []) = (.ok (), built said, m') := by
  obtain ⟨said, houtcome⟩ := exists_outcome_bare {}
  obtain ⟨m', hrun⟩ := outcome?_eq_some houtcome
  have hstale : (bare {}).staleness ≠ .fresh := by
    intro hfresh
    obtain ⟨record, hrecord, -⟩ := staleness_eq_fresh_iff.1 hfresh
    cases hrecord
  obtain ⟨calls, hmachine⟩ := (bare {}).job.request.machine_run .willing (.willing [])
  have hm : m' = { Machine.willing [] with calls } := (congrArg Prod.snd hrun).symm.trans hmachine
  exact ⟨said, m', by rw [hm], prepare_of_run hstale hrun⟩

theorem artifactName_built (said : List Diagnostic) : (built said).artifactName = "unit_b" :=
  artifactName_bare {}

theorem get?_built (said : List Diagnostic) :
    (ArtifactStore.willing (bare {}).source).get? (built said).artifactName
      = some ⟨.primary, [], (bare {}).source⟩ := by
  rw [artifactName_built]
  exact ArtifactStore.get?_willing _

theorem stagingError?_built (said : List Diagnostic) : stagingError? (built said).artifactName = none := by
  rw [artifactName_built]
  decide

/-- It loads what the loader finds in its artifact, if that is a procedure for single numbers. -/
theorem load_built (said : List Diagnostic) {m : Machine} {table : ProcedureTable} {memory : Memory}
    (hloader : m.loader [] = .procedure table) (hcontract : table.contractVersion = contractVersion)
    (hshape : table.shapeTag = ProcedureShape.single.tag) (hcreate : table.create = some memory) :
    (built said).load none m = .ok (table, memory) := by
  refine (load_own_iff rfl (get?_built said)).2
    ⟨rfl, stagingError?_built said, hloader, hcontract, ?_, hcreate⟩
  rw [hshape]
  rfl

end CircuitBlocks.Block
