import CircuitBlocks.Compilation.Attribution
import CircuitBlocks.Diagnostic.Messages
import CircuitBlocks.Toolchain.Basic

/-!
# Running a compile — one compiler call per source

The auxiliary files are compiled first, in their order, and each is made known to the calls after it;
the primary unit comes last. The first call that fails ends the compile. All calls write into one
scratch directory, and the libraries found there after the last call are attributed to the sources.

`CompileRequest.run` gives the outcome, or the error of a compiler that could not be used, and the
machine with the calls that were made.
-/

namespace CircuitBlocks

/-! ## Calls -/

/-- One compiler call to make. -/
structure CompileTask where
  crate : String
  crateType : String
  source : String
  /-- The name of the file to write in the scratch directory. -/
  outputFile : String
  /-- The crates that were compiled before it. -/
  linked : List String
  deriving DecidableEq, Repr

/-- The file name of a crate's library. -/
def crateFileName (crate : String) : String :=
  libraryStart ++ crate ++ ProducedLibrary.crateEnd

/-- The call that compiles an auxiliary file. -/
def AuxiliaryFile.task (f : AuxiliaryFile) (linked : List String) : CompileTask :=
  ⟨f.crate, "rlib", f.contents, crateFileName f.crate, linked⟩

/-- The call that compiles the primary unit. -/
def CompileRequest.primaryTask (r : CompileRequest) (linked : List String) : CompileTask :=
  ⟨r.primaryName, "cdylib", r.primarySource, libraryFileName r.primaryName, linked⟩

/-- The arguments of a call with the scratch directory at a path. -/
def CompileTask.arguments (t : CompileTask) (config : ToolchainConfig) (scratch : String) :
    List String :=
  config.commonArguments ++
    ["--crate-name", t.crate, "--crate-type", t.crateType, "-o", Path.join scratch t.outputFile,
      "-L", "dependency=" ++ scratch] ++
    t.linked.flatMap (fun crate =>
      crateArguments crate (Path.join scratch (crateFileName crate))) ++
    config.extraArguments ++ ["-"]

/-! ## Progress -/

/-- How far a compile has come. -/
structure CompileProgress where
  machine : Machine
  /-- The scratch directory. -/
  scratch : Listing
  diagnostics : List Diagnostic

/-- Makes one call. Gives whether the compiler reported success. -/
def Toolchain.call (t : Toolchain) (task : CompileTask) (p : CompileProgress) :
    Except ToolchainError Bool × CompileProgress :=
  let m := p.machine
  let arguments := task.arguments t.config m.scratch
  match m.spawn t.config.compiler arguments t.config.workingDirectory with
  | .error e => (.error (.notFound t.config.compiler e), p)
  | .ok (compiler, directory) =>
    let call : CompilerCall := ⟨arguments, directory, task.source⟩
    let (answer, scratch) := compiler.compile m.calls call p.scratch
    let machine := { m with calls := m.calls ++ [call] }
    match answer with
    | .error e => (.error (.interrupted e), { p with machine, scratch })
    | .ok output =>
      let said := diagnosticsOf task.crate (Text.Utf8.decodeLossy output.stderr)
      (.ok output.success, ⟨machine, scratch, p.diagnostics ++ said⟩)

/-- What is said of a file whose name names no crate. -/
def AuxiliaryFile.nameError (f : AuxiliaryFile) : Diagnostic where
  subject := f.crate
  severity := .error
  message := s!"auxiliary file '{f.name}' does not map to a valid crate name"

/-- Compiles auxiliary files after those that are linked already. Gives whether all succeeded. -/
def Toolchain.callAuxiliaries (t : Toolchain) : (linked : List String) → List AuxiliaryFile →
    CompileProgress → Except ToolchainError Bool × CompileProgress
  | _, [], p => (.ok true, p)
  | linked, f :: rest, p =>
    if !isCrateName f.crate then
      (.ok false, { p with diagnostics := p.diagnostics ++ [f.nameError] })
    else
      match t.call (f.task linked) p with
      | (.ok true, p) => t.callAuxiliaries (linked ++ [f.crate]) rest p
      | stopped => stopped

/-- Compiles all sources of a request. Gives whether all succeeded. -/
def Toolchain.callAll (t : Toolchain) (r : CompileRequest) (p : CompileProgress) :
    Except ToolchainError Bool × CompileProgress :=
  match t.callAuxiliaries [] r.auxiliaries p with
  | (.ok true, p) => t.call (r.primaryTask (r.auxiliaries.map (·.crate))) p
  | stopped => stopped

/-! ## Outcomes -/

/-- What is said of a compile that succeeded and left no primary library. -/
def CompileRequest.noLibrary (r : CompileRequest) : Diagnostic where
  subject := r.primaryName
  severity := .error
  message := "compiler reported success but produced no loadable library"

/-- The outcome of a compile whose calls all succeeded. -/
def CompileRequest.collect (r : CompileRequest) (t : Toolchain) (p : CompileProgress) :
    CompileOutcome :=
  let store := r.attribute (ProducedLibrary.ofFiles p.scratch) (some t.fingerprint)
  match store.get? r.primaryName with
  | none => .fail (p.diagnostics ++ [r.noLibrary])
  | some _ => .succeed store p.diagnostics

/-- Compiles a request. -/
def CompileRequest.run (r : CompileRequest) (t : Toolchain) (m : Machine) :
    Except ToolchainError CompileOutcome × Machine :=
  match t.callAll r ⟨m, [], []⟩ with
  | (.error e, p) => (.error e, p.machine)
  | (.ok false, p) => (.ok (.fail p.diagnostics), p.machine)
  | (.ok true, p) => (.ok (r.collect t p), p.machine)

/-- Compiles the request of a job. -/
def CompileJob.run (j : CompileJob) (t : Toolchain) (m : Machine) :
    Except ToolchainError CompileOutcome × Machine :=
  j.request.run t m

end CircuitBlocks
