import CircuitBlocks.Compilation.Run

/-!
# Other files — what a compile takes from the files of a machine

A compile finds its compiler among the files of the machine, and takes nothing else from them. With other
files it goes the same way, as long as the same compiler is found.

* `Toolchain.SameCompiler` — other files among which a toolchain finds the same compiler.
* **`CompileRequest.run_files`** — a compile gives the same outcome with them.
-/

namespace CircuitBlocks

/-! ## Finding a compiler -/

/-- Earlier calls make no difference to the compiler that a command names. -/
theorem Machine.spawn_calls (m : Machine) (calls : List CompilerCall) (name : String)
    (arguments : List String) (directory : Option String) :
    { m with calls }.spawn name arguments directory = m.spawn name arguments directory := by
  have hcommand : ∀ here, { m with calls }.command here name = m.command here name := by
    intro here
    have hprogram : { m with calls }.programIn here name = m.programIn here name := rfl
    unfold command
    rw [hprogram]
    rfl
  unfold spawn
  simp only [hcommand]
  rfl

namespace Toolchain

/-- Among other files, a toolchain finds the same compiler, and starts it in the same directory. -/
def SameCompiler (t : Toolchain) (m : Machine) (files : FileTree) : Prop :=
  ∀ arguments, { m with files }.spawn t.config.compiler arguments t.config.workingDirectory
    = m.spawn t.config.compiler arguments t.config.workingDirectory

variable {t : Toolchain} {m : Machine} {files : FileTree}

theorem SameCompiler.calls (h : t.SameCompiler m files) (calls : List CompilerCall) :
    t.SameCompiler { m with calls } files := by
  intro arguments
  rw [m.spawn_calls, ← h arguments]
  exact { m with files }.spawn_calls calls _ _ _

end Toolchain

/-! ## Calls -/

/-- The same progress on a machine with other files. -/
def CompileProgress.withFiles (files : FileTree) (p : CompileProgress) : CompileProgress :=
  { p with machine := { p.machine with files } }

namespace Toolchain

variable {t : Toolchain} {p : CompileProgress} {files : FileTree}

/-- A call goes the same way among other files, and the calls after it find the same compiler. -/
theorem call_withFiles (h : t.SameCompiler p.machine files) (task : CompileTask) :
    t.call task (p.withFiles files) = (t.call task p).map id (·.withFiles files) ∧
      t.SameCompiler (t.call task p).2.machine files := by
  have hspawn := h (task.arguments t.config p.machine.scratch)
  -- the files are asked for the compiler and for nothing else
  unfold call
  simp only [CompileProgress.withFiles, hspawn]
  cases p.machine.spawn t.config.compiler (task.arguments t.config p.machine.scratch)
    t.config.workingDirectory with
  | error e => exact ⟨rfl, h⟩
  | ok found =>
    obtain ⟨compiler, directory⟩ := found
    simp only
    split
    · exact ⟨rfl, h.calls _⟩
    · exact ⟨rfl, h.calls _⟩

/-- The calls for the files answer the same beside other files, as long as the compiler is the same there. -/
theorem callAuxiliaries_withFiles (h : t.SameCompiler p.machine files) (linked : List String)
    (auxiliaries : List AuxiliaryFile) :
    t.callAuxiliaries linked auxiliaries (p.withFiles files)
        = (t.callAuxiliaries linked auxiliaries p).map id (·.withFiles files) ∧
      t.SameCompiler (t.callAuxiliaries linked auxiliaries p).2.machine files := by
  -- a call adds to the record of calls, so that the same compiler is found has to be carried along
  induction auxiliaries generalizing linked p with
  | nil => exact ⟨rfl, h⟩
  | cons f rest ih =>
    obtain ⟨hcall, hnext⟩ := call_withFiles h (f.task linked)
    unfold callAuxiliaries
    split
    · exact ⟨rfl, h⟩
    · rw [hcall]
      generalize t.call (f.task linked) p = answer at hnext
      obtain ⟨result, p'⟩ := answer
      match result with
      | .ok true => exact ih hnext (linked ++ [f.crate])
      | .ok false => exact ⟨rfl, hnext⟩
      | .error e => exact ⟨rfl, hnext⟩

/-- So do all calls of a request. -/
theorem callAll_withFiles (h : t.SameCompiler p.machine files) (r : CompileRequest) :
    t.callAll r (p.withFiles files) = (t.callAll r p).map id (·.withFiles files) := by
  obtain ⟨hfiles, hnext⟩ := callAuxiliaries_withFiles h [] r.auxiliaries
  unfold callAll
  rw [hfiles]
  generalize t.callAuxiliaries [] r.auxiliaries p = answer at hnext
  obtain ⟨result, p'⟩ := answer
  match result with
  | .ok true => exact (call_withFiles hnext _).1
  | .ok false => rfl
  | .error e => rfl

end Toolchain

/-! ## Compiles -/

/-- A compile goes the same way among other files. -/
theorem CompileRequest.run_files {t : Toolchain} {m : Machine} {files : FileTree}
    (h : t.SameCompiler m files) (r : CompileRequest) :
    r.run t { m with files } = (r.run t m).map id ({ · with files }) := by
  have hall := Toolchain.callAll_withFiles (p := ⟨m, [], []⟩) h r
  unfold run
  rw [show CompileProgress.mk { m with files } [] [] = CompileProgress.withFiles files ⟨m, [], []⟩ from rfl,
    hall]
  generalize t.callAll r ⟨m, [], []⟩ = answer
  obtain ⟨result, p⟩ := answer
  match result with
  | .ok true => rfl
  | .ok false => rfl
  | .error e => rfl

end CircuitBlocks
