import CircuitBlocks.Compilation.Run

/-!
# Compiler calls — what a compile has done when it succeeds

A call that is answered has run a compiler with the arguments of its task, and is remembered. A compile
succeeds only after all its calls did, the one for the primary unit last.

* `Toolchain.call_eq_ok` — what an answered call has done.
* `Toolchain.calls_callAuxiliaries` — earlier calls stay remembered.
* `Toolchain.callAll_eq_ok` — the calls for the files come first, and then the one for the unit.
* `CompileRequest.machine_run` — a compile changes nothing of a machine but the calls that are remembered.
* **`CompileRequest.run_eq_success`** — what a compile has done when it succeeds.
* `Machine.willing` and `Machine.refusing` — machines whose compiler succeeds, or fails, whatever it is given.
-/

namespace CircuitBlocks

namespace Toolchain

variable {t : Toolchain} {task : CompileTask} {p p' : CompileProgress}

/-- An answered call has run a compiler, and goes on with what it said and left. -/
theorem exists_of_call {ok : Bool} (h : t.call task p = (.ok ok, p')) :
    ∃ compiler made output left,
      p.machine.spawn t.config.compiler (task.arguments t.config p.machine.scratch)
        t.config.workingDirectory = .ok (compiler, made.directory) ∧
      made.arguments = task.arguments t.config p.machine.scratch ∧ made.source = task.source ∧
      compiler.compile p.machine.calls made p.scratch = (.ok output, left) ∧ output.success = ok ∧
      p' = ⟨{ p.machine with calls := p.machine.calls ++ [made] }, left,
        p.diagnostics ++ diagnosticsOf task.crate (Text.Utf8.decodeLossy output.stderr)⟩ := by
  unfold call at h
  simp only at h
  split at h
  · cases h
  · next compiler directory hspawn =>
    split at h
    · cases h
    · next output hanswer =>
      obtain ⟨hok, hp⟩ := Prod.mk.inj h
      exact ⟨compiler, _, output, _, hspawn, rfl, rfl, Prod.ext hanswer rfl, Except.ok.inj hok, hp.symm⟩

/-- A call that is answered was spawned, with the arguments of its task. -/
theorem call_eq_ok {ok : Bool} (h : t.call task p = (.ok ok, p')) :
    ∃ compiler made output,
      p.machine.spawn t.config.compiler (task.arguments t.config p.machine.scratch)
        t.config.workingDirectory = .ok (compiler, made.directory) ∧
      made.arguments = task.arguments t.config p.machine.scratch ∧ made.source = task.source ∧
      compiler.compile p.machine.calls made p.scratch = (.ok output, p'.scratch) ∧
      output.success = ok ∧
      p'.machine = { p.machine with calls := p.machine.calls ++ [made] } := by
  obtain ⟨compiler, made, output, left, hspawn, hmade, hsource, hanswer, hok, rfl⟩ := exists_of_call h
  exact ⟨compiler, made, output, hspawn, hmade, hsource, hanswer, hok, rfl⟩

/-- A call changes nothing of a machine but the calls that are remembered. -/
theorem machine_call (t : Toolchain) (task : CompileTask) (p : CompileProgress) :
    ∃ calls, (t.call task p).2.machine = { p.machine with calls } := by
  unfold call
  simp only
  split
  · exact ⟨_, rfl⟩
  · split <;> exact ⟨_, rfl⟩

/-- The calls for the files change nothing of the machine but its record. -/
theorem machine_callAuxiliaries (t : Toolchain) (linked : List String) (files : List AuxiliaryFile)
    (p : CompileProgress) : ∃ calls, (t.callAuxiliaries linked files p).2.machine = { p.machine with calls } := by
  induction files generalizing linked p with
  | nil => exact ⟨_, rfl⟩
  | cons f rest ih =>
    obtain ⟨calls, hcall⟩ := t.machine_call (f.task linked) p
    unfold callAuxiliaries
    split
    · exact ⟨_, rfl⟩
    · split
      · next p' hok =>
        rw [hok] at hcall
        obtain ⟨calls', hrest⟩ := ih (linked ++ [f.crate]) p'
        exact ⟨calls', by rw [hrest, hcall]⟩
      · exact ⟨calls, hcall⟩

/-- All calls of a request change nothing of the machine but its record. -/
theorem machine_callAll (t : Toolchain) (r : CompileRequest) (p : CompileProgress) :
    ∃ calls, (t.callAll r p).2.machine = { p.machine with calls } := by
  obtain ⟨calls, hfiles⟩ := t.machine_callAuxiliaries [] r.auxiliaries p
  unfold callAll
  split
  · next p' hok =>
    rw [hok] at hfiles
    obtain ⟨calls', hcall⟩ := t.machine_call (r.primaryTask (r.auxiliaries.map (·.crate))) p'
    exact ⟨calls', by rw [hcall, hfiles]⟩
  · exact ⟨calls, hfiles⟩

/-- Earlier calls stay remembered, whatever comes of a call. -/
theorem calls_call (t : Toolchain) (task : CompileTask) (p : CompileProgress) :
    p.machine.calls <+: (t.call task p).2.machine.calls := by
  unfold call
  simp only
  split
  · exact List.prefix_rfl
  · split <;> exact List.prefix_append _ _

/-- The calls for the files are added to the record. -/
theorem calls_callAuxiliaries (t : Toolchain) (linked : List String) (files : List AuxiliaryFile)
    (p : CompileProgress) :
    p.machine.calls <+: (t.callAuxiliaries linked files p).2.machine.calls := by
  induction files generalizing linked p with
  | nil => exact List.prefix_rfl
  | cons f rest ih =>
    have hcall := t.calls_call (f.task linked) p
    unfold callAuxiliaries
    split
    · exact List.prefix_rfl
    · split
      · next p' hok =>
        rw [hok] at hcall
        exact hcall.trans (ih (linked ++ [f.crate]) p')
      · exact hcall

/-- All calls have succeeded if those for the files did, and then the one for the unit. -/
theorem callAll_eq_ok {r : CompileRequest} (h : t.callAll r p = (.ok true, p')) :
    ∃ p₁, t.callAuxiliaries [] r.auxiliaries p = (.ok true, p₁) ∧
      t.call (r.primaryTask (r.auxiliaries.map (·.crate))) p₁ = (.ok true, p') := by
  unfold callAll at h
  split at h
  · next p₁ hfiles => exact ⟨p₁, hfiles, h⟩
  · next hstopped => exact absurd h (hstopped p')

/-- With the files compiled, only the call for the unit is left. -/
theorem callAll_of_auxiliaries {r : CompileRequest} {p₁ : CompileProgress}
    (h : t.callAuxiliaries [] r.auxiliaries p = (.ok true, p₁)) :
    t.callAll r p = t.call (r.primaryTask (r.auxiliaries.map (·.crate))) p₁ := by
  simp only [callAll, h]

end Toolchain

namespace CompileRequest

variable {r : CompileRequest} {t : Toolchain} {m m' : Machine} {s : ArtifactStore}
  {diagnostics : List Diagnostic} {message : String}

/-- A compile changes nothing of a machine but the calls that are remembered. -/
theorem machine_run (r : CompileRequest) (t : Toolchain) (m : Machine) :
    ∃ calls, (r.run t m).2 = { m with calls } := by
  obtain ⟨calls, hall⟩ := t.machine_callAll r ⟨m, [], []⟩
  unfold run
  split
  all_goals
    next p hcalls =>
      rw [hcalls] at hall
      exact ⟨calls, hall⟩

/-- A compile that succeeds has made all its calls, and has collected its store from the libraries that were
left, the primary one among them. -/
theorem run_eq_success (h : r.run t m = (.ok (.success s diagnostics message), m')) :
    ∃ p, t.callAll r ⟨m, [], []⟩ = (.ok true, p) ∧ m' = p.machine ∧
      s = r.attribute (ProducedLibrary.ofFiles p.scratch) (some t.fingerprint) ∧
      ∃ primary, s.get? r.primaryName = some primary := by
  unfold run at h
  split at h
  · cases h
  · cases h
  · next p hall =>
    -- all calls were made, and the collector decides
    have hcollect : r.collect t p = .success s diagnostics message := Except.ok.inj (Prod.mk.inj h).1
    have hmachine : p.machine = m' := (Prod.mk.inj h).2
    simp only [collect] at hcollect
    split at hcollect
    · cases hcollect
    · next primary hprimary =>
      cases hcollect
      exact ⟨p, hall, hmachine.symm, rfl, primary, hprimary⟩

/-- A compile that succeeds has called the compiler. -/
theorem calls_of_run (h : r.run t m = (.ok (.success s diagnostics message), m')) :
    m'.calls ≠ m.calls := by
  obtain ⟨p', hall, rfl, -⟩ := run_eq_success h
  obtain ⟨p, hfiles, hunit⟩ := Toolchain.callAll_eq_ok hall
  have hearlier := t.calls_callAuxiliaries [] r.auxiliaries ⟨m, [], []⟩
  rw [hfiles] at hearlier
  obtain ⟨compiler, made, output, -, -, -, -, -, hmachine⟩ := Toolchain.call_eq_ok hunit
  intro hsame
  have hlength : m.calls.length ≤ p.machine.calls.length := hearlier.length_le
  rw [hmachine] at hsame
  have hmore := congrArg List.length hsame
  rw [List.length_append, List.length_singleton] at hmore
  omega

end CompileRequest

/-! ## A willing compiler

A compiler may succeed whatever it is given, and so it does on the machine below, where every library loads.
There a compile of a unit whose library it leaves succeeds with that library. -/

/-- A compiler that succeeds whatever it is given, and leaves one library. -/
def Compiler.willing (library : String) : Compiler where
  version := ⟨true, [], []⟩
  compile _ _ _ := (.ok ⟨true, [], []⟩, [(library, [])])

/-- A procedure that does nothing. -/
def ProcedureTable.idle (shape : ProcedureShape) : ProcedureTable where
  contractVersion := CircuitBlocks.contractVersion
  shapeTag := shape.tag
  create := some []
  init memory := (memory, CallStatus.okCode)
  compute memory _ := ⟨memory, CallStatus.okCode, []⟩

/-- A machine with nothing but such a compiler, where every library loads. -/
def Machine.willing (calls : List CompilerCall) : Machine where
  files := ⟨[("c", .program (.willing "libunit_b.so"))]⟩
  here := []
  searchPath := []
  loader _ := .procedure (.idle .single)
  scratch := "/s"
  calls := calls

/-- The toolchain of that machine. -/
def Toolchain.willing : Toolchain := ⟨{ compiler := "/c" }, "c"⟩

/-- What a unit is compiled to on that machine. -/
def ArtifactStore.willing (source : String) : ArtifactStore :=
  (ArtifactStore.empty (some "c")).put "unit_b" ⟨.primary, [], source⟩

theorem ArtifactStore.get?_willing (source : String) :
    (willing source).get? "unit_b" = some ⟨.primary, [], source⟩ := by
  rw [willing, get?_put, if_pos rfl]

theorem ArtifactStore.auxiliaryNames_willing (source name : String) :
    (willing source).auxiliaryNames name = ∅ := by
  have hentries : (willing source).artifacts.entries = [("unit_b", ⟨.primary, [], source⟩)] := rfl
  rw [auxiliaryNames, hentries, List.filter_cons_of_neg (by simp)]
  rfl

/-- Where there is one program, the command of that toolchain names it. -/
theorem Machine.spawn_program {m : Machine} {c : Compiler} (hfiles : m.files = ⟨[("c", .program c)]⟩)
    (hhere : m.here = []) {arguments : List String}
    (h : arguments.any (fun a => '\x00' ∈ a.toList) = false) :
    m.spawn "/c" arguments none = .ok (c, []) := by
  have hnul : ("/c" :: arguments ++ (none : Option String).toList).any (fun a => '\x00' ∈ a.toList)
      = false := by
    rw [Option.toList_none, List.append_nil, List.any_cons, h, Bool.or_false]
    decide
  obtain ⟨files, here, searchPath, loader, scratch, calls, bundledLibraries⟩ := m
  cases hfiles
  cases hhere
  rw [spawn, hnul]
  rfl

/-- The willing compiler takes a call without a NUL, and leaves its library. -/
theorem Toolchain.call_willing (task : CompileTask) {p : CompileProgress} {calls : List CompilerCall}
    (hp : p.machine = .willing calls)
    (h : (task.arguments Toolchain.willing.config "/s").any (fun a => '\x00' ∈ a.toList) = false) :
    ∃ p' calls', Toolchain.willing.call task p = (.ok true, p') ∧ p'.machine = .willing calls' ∧
      p'.scratch = [("libunit_b.so", [])] := by
  obtain ⟨machine, scratch, diagnostics⟩ := p
  obtain rfl : machine = .willing calls := hp
  have hspawn : (Machine.willing calls).spawn Toolchain.willing.config.compiler
      (task.arguments Toolchain.willing.config (Machine.willing calls).scratch)
      Toolchain.willing.config.workingDirectory = .ok (.willing "libunit_b.so", []) :=
    Machine.spawn_program rfl rfl h
  -- the one call that is added to the record
  let made : CompilerCall := ⟨task.arguments Toolchain.willing.config "/s", [], task.source⟩
  refine ⟨⟨.willing (calls ++ [made]), [("libunit_b.so", [])],
    diagnostics ++ diagnosticsOf task.crate (Text.Utf8.decodeLossy [])⟩, calls ++ [made], ?_, rfl, rfl⟩
  simp only [call, hspawn]
  rfl

/-- The source of a call is not among its arguments. -/
theorem CompileTask.arguments_mk (crate crateType source outputFile : String) (linked : List String) :
    (mk crate crateType source outputFile linked).arguments
      = (mk crate crateType "" outputFile linked).arguments := rfl

/-- A request for the unit of that library succeeds with it alone, when all calls did. -/
theorem CompileRequest.collect_willing {r : CompileRequest} {p : CompileProgress}
    (hname : r.primaryName = "unit_b") (hother : r.auxiliary? "unit_b" = none)
    (hp : p.scratch = [("libunit_b.so", [])]) :
    r.collect .willing p = .succeed (.willing r.primarySource) p.diagnostics := by
  have hfile : ProducedLibrary.ofFile? ("libunit_b.so", []) = some ⟨"unit_b", []⟩ := by decide
  have hproduced : ProducedLibrary.ofFiles [("libunit_b.so", [])] = [⟨"unit_b", []⟩] := by
    simp [ProducedLibrary.ofFiles, hfile]
  have hstarts : Text.startsWith "unit_b" "unit_b" = true := by decide
  -- the library is the unit's, since no file has its name
  have hstore : r.attribute (ProducedLibrary.ofFiles p.scratch) (some Toolchain.willing.fingerprint)
      = .willing r.primarySource := by
    rw [hp, hproduced]
    simp [CompileRequest.attribute, ArtifactStore.addProduced, ProducedLibrary.attribute?, hother, hname,
      hstarts, Toolchain.willing, ArtifactStore.willing]
  simp only [collect, hname, hstore, ArtifactStore.get?_willing]

/-- A compiler that fails whatever it is given. -/
def Compiler.refusing : Compiler where
  version := ⟨true, [], []⟩
  compile _ _ _ := (.ok ⟨false, [], []⟩, [])

/-- The machine with that compiler in place of the willing one. -/
def Machine.refusing : Machine := { Machine.willing [] with files := ⟨[("c", .program .refusing)]⟩ }

end CircuitBlocks
