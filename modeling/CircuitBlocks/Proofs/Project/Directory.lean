import CircuitBlocks.Proofs.Block.Directory
import CircuitBlocks.Proofs.Project.Reachable

/-!
# Directories of libraries — why they never decide what runs

Whatever has been done to a block, the artifacts that it holds have one with its name. So a start that
looks for the library finds the name in the block's own store, and the directory that comes after it is
never asked.

* `Block.WellFormed.loads` — a block that a library is loaded for holds an artifact of its own.
* **`Project.Reachable.start_without_directory`** — the directory and its libraries make no difference to a
  start.
-/

namespace CircuitBlocks

namespace Block

variable {b c : Block} {toolchain : Option Toolchain} {m m' : Machine}

/-- A block that a library is loaded for holds an artifact of its own. -/
theorem WellFormed.loads (h : b.WellFormed) (hloads : b.Loads toolchain m c m') :
    ∃ s a, c.state.store? = some s ∧ s.get? c.artifactName = some a := by
  obtain ⟨hprepare, hstatus⟩ := hloads
  have hprepares := prepare_prepares { b with run := none } toolchain m
  rw [hprepare] at hprepares
  obtain ⟨record, s, hstate⟩ := hprepares.exists_compiled hstatus
  have hstore : c.state.store? = some s := by rw [hstate]; rfl
  obtain ⟨a, ha⟩ := (h.prepares hprepares).primary s hstore
  exact ⟨s, a, hstore, ha⟩

/-- The library that a start looks for is there. -/
theorem WellFormed.start_ne_missing (h : b.WellFormed) (context : StartContext) (dt : Float)
    (m : Machine) (name : String) : (b.start context dt m).1 ≠ .error (.load (.missing name)) := by
  have hstarts := b.start_starts context dt m
  generalize (b.start context dt m).1 = result, (b.start context dt m).2.1 = b',
    (b.start context dt m).2.2 = m' at hstarts
  rintro rfl
  -- of the exits of a start, only the one of a failed loading could report this
  cases hstarts with
  | refused hprepares => cases hprepares
  | notLoaded hprepares hstate hload =>
    obtain ⟨a, ha⟩ := (h.prepares hprepares).primary _ (by rw [hstate]; rfl)
    exact load_ne_missing (by rw [hstate]; rfl) ha _ _ name hload
  | notInitialised hprepares hstate hload hfault =>
    rcases hfault with hfault | ⟨code, hfault⟩ <;> cases hfault

end Block

namespace Project

/-- **The directory of a start.** For every block that the library has made, another directory and other
libraries in it make no difference to a start: it gives the same result, and leaves the same block with the
same run. The library is never missing, no tier but the block's own store is asked for it, and what runs is
the code of an artifact in there. -/
theorem Reachable.start_without_directory {p : Project} (h : p.Reachable) {b : Block} (hb : b ∈ p.blocks)
    (context : StartContext) (directory : Option String) (dt : Float) {m : Machine} {files : FileTree}
    (hfiles : ∀ t, context.toolchain = some t → t.SameCompiler m files) :
    b.start { context with directory } dt { m with files }
        = ((b.start context dt m).1, (b.start context dt m).2.1,
          { (b.start context dt m).2.2 with files }) ∧
    (∀ name, (b.start context dt m).1 ≠ .error (.load (.missing name))) ∧
    (∀ c m', b.Loads context.toolchain m c m' →
      ∃ s, asked m' c.artifactName (c.tiers context.directory) = [.store s]) ∧
    (∀ b' m', b.start context dt m = (.ok (), b', m') → ∃ s primary run,
      b'.state.store? = some s ∧ s.get? b'.artifactName = some primary ∧ b'.run = some run ∧
      m'.loader primary.payload = .procedure run.table) := by
  -- a reachable block that goes on to load holds an artifact of its own
  have hwell := h.wellFormed.blocks b hb
  refine ⟨Block.start_of_store hfiles (fun c m' => hwell.loads) directory dt,
    hwell.start_ne_missing context dt m, fun c m' hloads => ?_, fun b' m' hstart => ?_⟩
  · obtain ⟨s, a, hstore, ha⟩ := hwell.loads hloads
    refine ⟨s, ?_⟩
    rw [Block.tiers, hstore]
    exact asked_store ha m' _
  · obtain ⟨record, s, primary, run, hstate, hprimary, -, hrun, hloader⟩ := hwell.start_runs hstart
    exact ⟨s, primary, run, by rw [hstate]; rfl, hprimary, hrun, hloader⟩

/-- The files of the willing machine, and a directory with a library of the block's name. -/
def impostorFiles : FileTree :=
  ⟨[("c", .program (.willing "libunit_b.so")), ("d", .directory [("libunit_b.so", .file [1])])]⟩

/-- The willing compiler is found in the same place beside these files. -/
theorem sameCompiler_impostorFiles : Toolchain.willing.SameCompiler (.willing []) impostorFiles := by
  intro arguments
  have hnul : ("/c" :: arguments ++ (none : Option String).toList).any (fun a => '\x00' ∈ a.toList)
      = arguments.any fun a => '\x00' ∈ a.toList := by
    rw [Option.toList_none, List.append_nil, List.any_cons]
    exact Bool.false_or _
  show { Machine.willing [] with files := impostorFiles }.spawn "/c" arguments none
    = (Machine.willing []).spawn "/c" arguments none
  rw [Machine.spawn, Machine.spawn, hnul]
  cases arguments.any fun a => '\x00' ∈ a.toList with
  | true => exact Eq.trans (b := .error .nulInCommand) rfl rfl
  | false => exact Eq.trans (b := .ok (.willing "libunit_b.so", [])) rfl rfl

/-- A library of the block's name in a directory is not taken. -/
theorem start_without_directory_impostor : ∃ (p : Project) (b b' : Block), p.Reachable ∧ b ∈ p.blocks ∧
    impostorFiles.isFile [] "/d/libunit_b.so" = true ∧
    Toolchain.willing.SameCompiler (.willing []) impostorFiles ∧
    b.start { toolchain := some .willing } 0.5 (.willing []) = (.ok (), b', .willing []) ∧
    b.start { toolchain := some .willing, directory := some "/d" } 0.5
        { Machine.willing [] with files := impostorFiles }
      = (.ok (), b', { Machine.willing [] with files := impostorFiles }) := by
  obtain ⟨b, b', hp, -, hstart⟩ := exists_started_bare (some .willing) 0.5
  -- the compiler is found at the same place beside the other files
  have hsame : ∀ t, some Toolchain.willing = some t → t.SameCompiler (.willing []) impostorFiles := by
    rintro t ⟨⟩
    exact sameCompiler_impostorFiles
  have hother := (hp.start_without_directory (List.mem_singleton_self b) { toolchain := some .willing }
    (some "/d") 0.5 hsame).1
  rw [hstart] at hother
  exact ⟨_, b, b', hp, List.mem_singleton_self b, by decide, sameCompiler_impostorFiles, hstart, hother⟩

end Project

end CircuitBlocks
