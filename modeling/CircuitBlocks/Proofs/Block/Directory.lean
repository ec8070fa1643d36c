import CircuitBlocks.Proofs.Block.Outcome
import CircuitBlocks.Proofs.Compilation.Files

/-!
# The directory of a start — when it makes no difference

A start looks for its library in the block's own store and then in a directory. A block that gets as far
as that holds artifacts. If one of them has the block's name, the directory and what is in it make no
difference.

* `Block.prepare_files` — a preparation among other files.
* `Block.load_of_store` — a library that the store has is loaded from there.
* **`Block.start_of_store`** — a start with another directory and among other files.
-/

namespace CircuitBlocks.Block

variable {b : Block} {files : FileTree} {m : Machine}

/-! ## Preparations -/

/-- A compiler that is the same beside other files gets the block as far as before. -/
theorem prepare_files {toolchain : Option Toolchain}
    (h : ∀ t, toolchain = some t → t.SameCompiler m files) (b : Block) :
    b.prepare toolchain { m with files }
      = ((b.prepare toolchain m).1, (b.prepare toolchain m).2.1,
        { (b.prepare toolchain m).2.2 with files }) := by
  unfold prepare
  cases toolchain with
  | none =>
    by_cases hstale : b.staleness.recompileRequired
    · simp only [hstale, if_true]
    · simp only [hstale, Bool.false_eq_true, if_false]
  | some t =>
    by_cases hstale : b.staleness.recompileRequired
    · have hrun := CompileRequest.run_files (h t rfl) b.job.request
      simp only [compileIfRequired, compileNow, CompileJob.run, hstale, if_true, hrun]
      -- the files are carried along by the run; what it answers decides the rest
      generalize b.job.request.run t m = answer
      obtain ⟨result, m'⟩ := answer
      cases result <;> rfl
    · simp only [compileIfRequired, hstale, Bool.false_eq_true, if_false]

/-! ## Libraries -/

variable {s : ArtifactStore} {a : Artifact}

/-- A block with its own artifact loads it whatever directory is named. -/
theorem load_of_store (hstore : b.state.store? = some s) (hget : s.get? b.artifactName = some a)
    (directory directory' : Option String) (m : Machine) (files : FileTree) :
    b.load directory' { m with files } = b.load directory m := by
  unfold load loadUnit
  rw [resolve_tiers hstore hget, resolve_tiers hstore hget]
  rfl

/-- A block with its own artifact does not go without a library. -/
theorem load_ne_missing (hstore : b.state.store? = some s) (hget : s.get? b.artifactName = some a)
    (directory : Option String) (m : Machine) (name : String) :
    b.load directory m ≠ .error (.missing name) := by
  have hother := a.open_ne_missing b.artifactName name m
  unfold load loadUnit LibraryUnit.instantiate
  rw [resolve_tiers hstore hget]
  -- the tiers are answered by the block itself; its artifact may be refused, but is there
  cases hopen : a.open b.artifactName m with
  | error e =>
    rw [hopen] at hother
    exact fun h => hother (congrArg Except.error (Except.error.inj h))
  | ok u =>
    by_cases hshape : u.shape? = some b.shape.shape
    · simp only [hshape, if_true]
      cases u.table.create <;> exact fun h => nomatch h
    · simp only [hshape, if_false]
      exact fun h => nomatch h

/-! ## Starts -/

/-- The blocks that a start loads a library for, and the machine that it does so on. -/
def Loads (b : Block) (toolchain : Option Toolchain) (m : Machine) (c : Block) (m' : Machine) : Prop :=
  { b with run := none }.prepare toolchain m = (.ok (), c, m') ∧ c.status ≠ .error

/-- If the store of a block that gets as far as loading has the library, then another directory and other
files make no difference to a start. -/
theorem start_of_store {context : StartContext}
    (hfiles : ∀ t, context.toolchain = some t → t.SameCompiler m files)
    (hstore : ∀ c m', b.Loads context.toolchain m c m' →
      ∃ s a, c.state.store? = some s ∧ s.get? c.artifactName = some a)
    (directory : Option String) (dt : Float) :
    b.start { context with directory } dt { m with files }
      = ((b.start context dt m).1, (b.start context dt m).2.1, { (b.start context dt m).2.2 with files }) := by
  have hprepare := prepare_files hfiles { b with run := none }
  unfold start
  simp only [hprepare]
  cases hresult : { b with run := none }.prepare context.toolchain m with
  | mk result rest =>
    obtain ⟨c, m'⟩ := rest
    cases result with
    | error e => rfl
    | ok _ =>
      simp only
      split
      · rfl
      · next hstatus =>
        -- only the loading looks at the directory, and the store comes before it
        obtain ⟨s, a, hs, ha⟩ := hstore c m' ⟨hresult, hstatus⟩
        rw [load_of_store hs ha context.directory directory m' files]
        cases c.load context.directory m' <;> rfl

end CircuitBlocks.Block
