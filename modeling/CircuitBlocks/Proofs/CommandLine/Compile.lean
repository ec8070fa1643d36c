import CircuitBlocks.Proofs.CommandLine.Export
import CircuitBlocks.Proofs.Block.Start
import Mathlib.Data.List.Nodup

/-!
# Compile commands — a project file is rewritten as a whole, or not at all

A compile command brings blocks up to date one after another, and the project is in memory all the while: what is
written are the blocks as they are after the last of them. A toolchain error at any block ends the command before.

* `Project.Processed` — blocks that were brought up to date one after another.
* `machine_compileBlocks` — compiles leave the files of a machine alone, whatever comes of them.
* `Project.Processed.compileBlocks`, `Project.processed_of_compileBlocks` — what the loop over the blocks leaves, as
  long as no compile breaks off.
* `Arguments.GoesThrough` — a command that gets as far as writing the project.
* **`runCommand_compile`** — the file after a compile command, and its exit code.
-/

namespace CircuitBlocks

/-! ## One block after another -/

/-- The project `p'` has the blocks of `p`, but for those at the given places, which were brought up to date in
their order. The machine went from `m` to `m'` meanwhile. -/
inductive Project.Processed (t : Toolchain) (force : Bool) :
    (places : List Nat) → (p : Project) → (m : Machine) → (p' : Project) → (m' : Machine) → Prop where
  | done {p m} : Processed t force [] p m p m
  | next {i places p b m b' m' p' m''} (hb : p.blocks[i]? = some b)
      (hcompile : b.bringUpToDate force t m = (.ok (), b', m'))
      (hrest : Processed t force places { p with blocks := p.blocks.set i b' } m' p' m'') :
      Processed t force (i :: places) p m p' m''

/-- Whether one of the blocks at the given places ended in an error. -/
def Project.FailedAt (p : Project) (places : List Nat) : Prop :=
  ∃ i ∈ places, ∃ b, p.blocks[i]? = some b ∧ b.status = .error

namespace Project.Processed

variable {t : Toolchain} {force : Bool} {places : List Nat} {p p' : Project} {m m' : Machine}

/-- A block at another place stays as it was. -/
theorem getElem?_of_not_mem (h : Processed t force places p m p' m') {i : Nat} (hi : i ∉ places) :
    p'.blocks[i]? = p.blocks[i]? := by
  induction h with
  | done => rfl
  | next hb hcompile hrest ih =>
    obtain ⟨hne, hrest⟩ := not_or.1 (mt List.mem_cons.2 hi)
    rw [ih hrest, List.getElem?_set_ne (Ne.symm hne)]

end Project.Processed

/-! ## Machines -/

/-- A compile changes nothing of a machine but the calls that are remembered. -/
theorem Block.machine_bringUpToDate (b : Block) (force : Bool) (t : Toolchain) (m : Machine) :
    ∃ calls, (b.bringUpToDate force t m).2.2 = { m with calls } := by
  unfold bringUpToDate
  split
  · obtain ⟨calls, hrun⟩ := b.job.request.machine_run t m
    refine ⟨calls, ?_⟩
    unfold compileNow CompileJob.run
    split
    all_goals
      next hcompile =>
        rw [hcompile] at hrun
        exact hrun
  · exact ⟨_, rfl⟩

/-- So do compiles one after another, whatever comes of them. -/
theorem machine_compileBlocks (t : Toolchain) (force : Bool) (places : List Nat) (p : Project) (c : Console) :
    ∃ calls, (compileBlocks t force places p c).2.2.machine = { c.machine with calls } := by
  induction places generalizing p c with
  | nil => exact ⟨_, rfl⟩
  | cons i rest ih =>
    -- each block adds its calls to those of the blocks before it
    unfold compileBlocks
    split
    · exact ih p c
    · next b hb =>
      obtain ⟨calls, hmachine⟩ := b.machine_bringUpToDate force t c.machine
      split
      · next hcompile =>
        rw [hcompile] at hmachine
        exact ⟨calls, hmachine⟩
      · next d m' hcompile =>
        rw [hcompile] at hmachine
        obtain ⟨calls', hrest⟩ := ih { p with blocks := p.blocks.set i d }
          ({ c with machine := m' }.printError (s!"{d.id}: " ++ d.state.message))
        refine ⟨calls', ?_⟩
        simp only
        split
        all_goals
          next hloop =>
            rw [hloop] at hrest
            exact hrest.trans (congrArg (fun m : Machine => { m with calls := calls' }) hmachine)

/-! ## The loop -/

variable {t : Toolchain} {force : Bool} {places : List Nat} {p p' : Project} {c : Console}

/-- Blocks that can all be brought up to date are, and what is said of them is whether one ended in an error. -/
theorem Project.Processed.compileBlocks {m m' : Machine} (h : Project.Processed t force places p m p' m')
    (hplaces : places.Nodup) (hc : c.machine = m) :
    ∃ failed c', CircuitBlocks.compileBlocks t force places p c = (.ok failed, p', c') ∧ c'.machine = m' ∧
      (failed = true ↔ p'.FailedAt places) := by
  induction h generalizing c with
  | done => exact ⟨false, c, rfl, hc, by simp [Project.FailedAt]⟩
  | @next i places p b m d m' p' m'' hb hcompile hrest ih =>
    obtain ⟨hi, hplaces⟩ := List.nodup_cons.1 hplaces
    -- the rest is printed after the line about this block, which changes nothing of the machine
    obtain ⟨failed, c', hloop, hc', hfailed⟩ := ih hplaces
      (c := { c with machine := m' }.printError (s!"{d.id}: " ++ d.state.message)) rfl
    refine ⟨d.status = .error || failed, c', ?_, hc', ?_⟩
    · unfold CircuitBlocks.compileBlocks
      simp only [hb, hc, hcompile, hloop]
    · -- the block keeps the status that it was left with
      have hlast : p'.blocks[i]? = some d := by
        rw [hrest.getElem?_of_not_mem hi]
        exact List.getElem?_set_self (List.getElem?_eq_some_iff.1 hb).1
      simp only [Bool.or_eq_true, decide_eq_true_eq, hfailed, Project.FailedAt, List.exists_mem_cons_iff, hlast,
        Option.some.injEq, exists_eq_left']

theorem Project.save_eq_ok {path : String} {here : Location} {files files' : FileTree} :
    p.save path here files = .ok files' ↔ files.write here path (Text.Utf8.encode p.text) = .ok files' := by
  unfold save
  cases files.write here path (Text.Utf8.encode p.text) <;> simp

namespace Arguments

/-- A selection names each place once, and there are blocks at all of them. -/
theorem selection_eq_ok {a : Arguments} (h : a.selection p = .ok places) :
    places.Nodup ∧ ∀ i ∈ places, i < p.blocks.length := by
  unfold selection at h
  split at h
  · cases h
    exact ⟨List.nodup_range, fun i hi => List.mem_range.1 hi⟩
  · split at h
    · cases h
    · next i hfind =>
      cases h
      exact ⟨List.nodup_singleton i, List.forall_mem_singleton.2 (List.findIdx?_eq_some_iff_getElem.1 hfind).1⟩

/-- A compile command goes through on a machine: the project is loaded, and the blocks at the places that are
picked are brought up to date. The project that they make up, `p'`, can be written, and `files` are the files then. -/
def GoesThrough (a : Arguments) (m : Machine) (places : List Nat) (p' : Project) (files : FileTree) : Prop :=
  ∃ config t p warnings m', a.config m = .ok config ∧ Toolchain.probe config m = .ok t ∧
    Project.load a.project (some t.fingerprint) m.here m.files = .ok (p, warnings) ∧ a.selection p = .ok places ∧
    Project.Processed t a.force places p m p' m' ∧
    m.files.write m.here a.project (Text.Utf8.encode p'.text) = .ok files

variable {a : Arguments} {files : FileTree}

/-- A command that goes through gives its exit code by what became of the blocks. -/
theorem GoesThrough.run (h : a.GoesThrough c.machine places p' files) (hstage : a.stage = .compile) :
    ∃ failed c', a.run c = (.ok (if failed then 1 else 0), c') ∧ c'.machine.files = files ∧
      (failed = true ↔ p'.FailedAt places) := by
  obtain ⟨config, t, p, warnings, m', hconfig, hprobe, hload, hselection, hprocessed, hwrite⟩ := h
  have hfingerprint : a.fingerprint config c.machine = some t.fingerprint := by
    rw [fingerprint, hstage, hprobe]
    rfl
  obtain ⟨failed, c', hloop, hmachine, hfailed⟩ := hprocessed.compileBlocks (selection_eq_ok hselection).1
    (c := c.printError (a.loadingText p warnings)) rfl
  obtain ⟨calls, hcalls⟩ := machine_compileBlocks t a.force places p (c.printError (a.loadingText p warnings))
  rw [hloop] at hcalls
  -- the calls leave the files as they are, so the project is written beside the files of the beginning
  have hsave : p'.save a.project c'.machine.here c'.machine.files = .ok files := by
    rw [hcalls]
    exact Project.save_eq_ok.2 hwrite
  refine ⟨failed, { c' with machine := { c'.machine with files } }, ?_, rfl, hfailed⟩
  have hprobe' : Toolchain.probe config (c.printError (a.loadingText p warnings)).machine = .ok t := hprobe
  simp only [Arguments.run, hconfig, hfingerprint, hload, hselection, runOn, hstage, compileStage, hprobe', hloop,
    hsave]

/-- A command gets to its stage with this configuration, this project and these places. -/
structure Reaches (a : Arguments) (m : Machine) (config : ToolchainConfig) (p : Project)
    (warnings : List LoadWarning) (places : List Nat) : Prop where
  configured : a.config m = .ok config
  loaded : Project.load a.project (a.fingerprint config m) m.here m.files = .ok (p, warnings)
  selected : a.selection p = .ok places

theorem Reaches.run {config : ToolchainConfig} {warnings : List LoadWarning}
    (h : a.Reaches c.machine config p warnings places) :
    a.run c = a.runOn config p places (c.printError (a.loadingText p warnings)) := by
  simp only [Arguments.run, h.configured, h.loaded, h.selected]

/-- No configuration is refused for a compile that went wrong. -/
theorem config_ne_uncompiled (a : Arguments) (m : Machine) (cause : ToolchainError) :
    a.config m ≠ .error (.uncompiled cause) := by
  unfold config
  split
  · exact fun h => nomatch h
  · next path _ =>
    unfold ToolchainConfig.read
    split
    · exact fun h => nomatch h
    · split <;> exact fun h => nomatch h

theorem selection_ne_uncompiled (a : Arguments) (p : Project) (cause : ToolchainError) :
    a.selection p ≠ .error (.uncompiled cause) := by
  unfold selection
  split
  · exact fun h => nomatch h
  · split <;> exact fun h => nomatch h

/-- A command either stops before its stage, and leaves the machine as it is, or gets there. -/
theorem run_or_reaches (a : Arguments) (c : Console) :
    (∃ e c', a.run c = (.error e, c') ∧ c'.machine = c.machine ∧ ∀ cause, e ≠ .uncompiled cause) ∨
      ∃ config p warnings places, a.Reaches c.machine config p warnings places := by
  unfold Arguments.run
  split
  · next e hconfig =>
    exact .inl ⟨e, _, rfl, rfl, fun cause he => a.config_ne_uncompiled _ cause (he ▸ hconfig)⟩
  · next config hconfig =>
    simp only
    split
    · exact .inl ⟨_, _, rfl, rfl, fun _ h => nomatch h⟩
    · next p warnings hload =>
      split
      · next e hselection =>
        exact .inl ⟨e, _, rfl, rfl, fun cause he => a.selection_ne_uncompiled p cause (he ▸ hselection)⟩
      · -- past all three refusals
        next places hselection => exact .inr ⟨config, p, warnings, places, hconfig, hload, hselection⟩

end Arguments

@[simp] theorem Machine.files_inEnvironment (m : Machine) (environment : List (String × String)) :
    (m.inEnvironment environment).files = m.files := by
  unfold inEnvironment
  split <;> rfl

@[simp] theorem Machine.here_inEnvironment (m : Machine) (environment : List (String × String)) :
    (m.inEnvironment environment).here = m.here := by
  unfold inEnvironment
  split <;> rfl

/-- A compiler that tells its version, and fails whatever it is given. -/
def Compiler.faulting : Compiler := { Compiler.refusing with version := ⟨true, [0x63], []⟩ }

/-- A machine with that compiler and the file of a project. -/
def Machine.faulting (p : Project) : Machine where
  files := ⟨[("p", .file (Text.Utf8.encode p.text)), ("c", .program .faulting)]⟩
  here := []
  searchPath := []
  loader _ := .procedure (.idle .single)
  scratch := "/s"
  calls := []

/-- The toolchain that a command finds there. -/
def Toolchain.faulting : Toolchain := ⟨{ compiler := "/c", workingDirectory := some "/" }, "c"⟩

theorem Toolchain.probe_faulting (p : Project) : probe Toolchain.faulting.config (.faulting p) = .ok .faulting := by
  have hspawn : (Machine.faulting p).spawn Toolchain.faulting.config.compiler ["-vV"] none
      = .ok (.faulting, []) := rfl
  have hversion : Text.Utf8.decodeLossy Compiler.faulting.version.stdout = "c" := by
    simp [Compiler.faulting, Text.Utf8.decodeLossy, Text.Utf8.decodeChars, Text.Utf8.firstChar]
  have hfingerprint : fingerprintOfVersion? "c" = some "c" := by decide
  simp only [probe, hspawn, hversion, hfingerprint]
  rfl

/-- A project is loaded from a file that holds its text. -/
theorem Project.load_of_read {path : String} {here : Location} {files : FileTree}
    (h : files.read here path = .ok (Text.Utf8.encode p.text)) (toolchain : Option String) :
    load path toolchain here files = ofText p.text toolchain := by
  have htext : files.readText here path = .ok p.text := by
    simp only [FileTree.readText, h, bind, Except.bind, Text.Utf8.decode?_encode]
    rfl
  rw [load, htext]

/-- A block that was never compiled is loaded as it was. -/
theorem Block.Reloaded.eq_bare {r : Registry} {fragments : Fragments} {b : Block}
    (h : (Block.bare fragments).Reloaded r b) : b = .bare fragments := by
  have hfiles : b.files = [] := h.same (List.forall_mem_nil _)
  have hrecord := h.noRecord rfl
  obtain ⟨id, f, shape, files, state, run⟩ := b
  obtain rfl : id = _ := h.id
  obtain rfl : f = _ := h.fragments
  obtain rfl : shape = _ := h.shape
  obtain rfl : run = none := h.run
  obtain rfl : files = [] := hfiles
  -- a block that was never compiled left no record to be restored
  cases state with
  | uncompiled => rfl
  | compiled => cases hrecord
  | failed => cases hrecord

/-- A project of one bare block is loaded as it was written. -/
theorem Project.exists_ofText_bare (fragments : Fragments) (toolchain : Option String) : ∃ registry warnings,
    ofText (text ⟨.empty, [.bare fragments]⟩) toolchain = .ok (⟨registry, [.bare fragments]⟩, warnings) := by
  have hfine : ∀ b ∈ [Block.bare fragments], b.WellFormed ∧ b.Storable ∧ b.SuitsToolchain toolchain :=
    List.forall_mem_singleton.2 ⟨⟨List.Pairwise.nil, (fun _ h => nomatch h), (fun _ h => nomatch h)⟩,
      ⟨SignalShape.storable_standard, (fun _ h => nomatch h)⟩, (fun _ _ h => nomatch h)⟩
  obtain ⟨registry, reloaded, warnings, htext, hblocks⟩ := exists_ofText_blocks hfine
  cases hblocks with
  | @cons _ b _ _ hb hnone =>
    cases hnone
    obtain rfl := hb.eq_bare
    exact ⟨registry, warnings, htext⟩

end CircuitBlocks
