import CircuitBlocks.Proofs.Block.Start
import CircuitBlocks.Proofs.Compilation.Completeness
import CircuitBlocks.Proofs.Compilation.Pipeline

/-!
# Where compiler calls run — and what keeps one from being made

A compile enters the working directory of its configuration for each call. So the calls that it makes run there, and
a call that is not made was refused by the words of the command, by the directory, or since no compiler has the name.

* `Machine.MadeCalls` — a machine after calls that ran in a working directory.
* `Toolchain.Refused` — a toolchain that cannot start the compiler for one of some calls.
* `CompileRequest.madeCalls_run`, `Block.madeCalls_start` — compiles and starts make calls of this kind.
* `CompileRequest.refused_of_run`, `Block.refused_of_start` — a compiler that is not found was refused.
* `Toolchain.Stuck` — a toolchain that cannot start its compiler at all; `CompileRequest.run_of_stuck` and
  `Block.start_of_stuck` tell what becomes of compiles and starts then.
* **`Machine.spawn_eq_error`** — why a command is refused.
* **`CompileTask.nulFree_arguments`** — where the words of a call come from.
-/

namespace CircuitBlocks

/-! ## Commands -/

namespace Machine

variable {m m' m'' : Machine} {name : String} {arguments : List String} {directory : Option String}

/-- A text that may be a word of a command. -/
def NulFree (s : String) : Prop := '\x00' ∉ s.toList

instance (s : String) : Decidable (NulFree s) := inferInstanceAs (Decidable (¬ _))

/-- A program is spawned in three steps: its words are looked at, its directory is entered, and it is looked up. -/
theorem spawn_eq (m : Machine) (name : String) (arguments : List String) (directory : Option String) :
    m.spawn name arguments directory =
      if (name :: arguments ++ directory.toList).all NulFree then
        (m.enter directory).bind fun there => (m.command there name).map fun compiler => (compiler, there)
      else .error .nulInCommand := by
  -- that some word holds a NUL means that not all are free of it
  have hany : ((name :: arguments ++ directory.toList).any fun a => '\x00' ∈ a.toList)
      = !(name :: arguments ++ directory.toList).all NulFree := by
    rw [List.not_all_eq_any_not]
    congr 1
    funext word
    by_cases hword : '\x00' ∈ word.toList <;> simp [NulFree, hword]
  unfold spawn
  rw [hany]
  cases (name :: arguments ++ directory.toList).all NulFree with
  | false => rfl
  | true =>
    cases m.enter directory with
    | error e => rfl
    | ok there => rfl

/-- A compiler that is started is the one of the command, in the directory that was entered, and no word holds a NUL.
-/
theorem spawn_eq_ok {compiler : Compiler} {there : Location}
    (h : m.spawn name arguments directory = .ok (compiler, there)) :
    (∀ word ∈ name :: arguments ++ directory.toList, NulFree word) ∧ m.enter directory = .ok there ∧
      m.command there name = .ok compiler := by
  rw [spawn_eq] at h
  split at h
  · next hwords =>
    refine ⟨fun word hword => of_decide_eq_true (List.all_eq_true.1 hwords word hword), ?_⟩
    -- the directory is entered before the command is looked for
    cases henter : m.enter directory with
    | error e =>
      rw [henter] at h
      cases h
    | ok place =>
      rw [henter] at h
      cases hcommand : m.command place name with
      | error e =>
        simp only [Except.bind, hcommand] at h
        cases h
      | ok c =>
        simp only [Except.bind, hcommand] at h
        cases h
        exact ⟨rfl, hcommand⟩
  · cases h

/-- A command is refused for one of its words, for its directory, or since there is no such compiler. -/
theorem spawn_eq_error {e : SystemError} (h : m.spawn name arguments directory = .error e) :
    (∃ word ∈ name :: arguments ++ directory.toList, ¬ NulFree word) ∨ m.enter directory = .error e ∨
      ∃ there, m.enter directory = .ok there ∧ m.command there name = .error e := by
  rw [spawn_eq] at h
  split at h
  · -- the refusal comes from the directory, or from the command in it
    cases henter : m.enter directory with
    | error e' =>
      rw [henter] at h
      cases h
      exact .inr (.inl rfl)
    | ok there =>
      rw [henter] at h
      cases hcommand : m.command there name with
      | error e' =>
        simp only [Except.bind, hcommand] at h
        cases h
        exact .inr (.inr ⟨there, rfl, hcommand⟩)
      | ok c =>
        simp only [Except.bind, hcommand] at h
        cases h
  · next hwords =>
    rw [List.all_eq_true] at hwords
    simp only [decide_eq_true_eq, Classical.not_forall, exists_prop] at hwords
    exact .inl hwords

/-- The machine after calls that all ran in the working directory. -/
def MadeCalls (directory : Option String) (m m' : Machine) : Prop :=
  ∃ made : List CompilerCall, m' = { m with calls := m.calls ++ made } ∧
    ∀ call ∈ made, m.enter directory = .ok call.directory

theorem MadeCalls.refl (directory : Option String) (m : Machine) : m.MadeCalls directory m :=
  ⟨[], by rw [List.append_nil], List.forall_mem_nil _⟩

theorem MadeCalls.trans (h : m.MadeCalls directory m') (h' : m'.MadeCalls directory m'') :
    m.MadeCalls directory m'' := by
  obtain ⟨made, rfl, hmade⟩ := h
  obtain ⟨more, rfl, hmore⟩ := h'
  refine ⟨made ++ more, by rw [List.append_assoc], fun call hcall => ?_⟩
  rcases List.mem_append.1 hcall with hcall | hcall
  · exact hmade call hcall
  · exact hmore call hcall

end Machine

/-! ## Compiles -/

namespace Toolchain

variable {t : Toolchain} {p p' : CompileProgress} {task : CompileTask} {tasks : List CompileTask} {m : Machine}
  {r : CompileRequest} {compiler : String} {e : SystemError}

/-- A call is made in the directory that is configured. -/
theorem madeCalls_call (t : Toolchain) (task : CompileTask) (p : CompileProgress) :
    p.machine.MadeCalls t.config.workingDirectory (t.call task p).2.machine := by
  unfold call
  simp only
  split
  · exact .refl _ _
  · next found directory hspawn =>
    have henter := (Machine.spawn_eq_ok hspawn).2.1
    split <;> exact ⟨[_], rfl, List.forall_mem_singleton.2 henter⟩

/-- So are the calls of a list of tasks. -/
theorem madeCalls_callEach (t : Toolchain) (tasks : List CompileTask) (p : CompileProgress) :
    p.machine.MadeCalls t.config.workingDirectory (t.callEach tasks p).2.machine := by
  -- by the calls; one that fails is the last, and all before it have been made as well
  induction tasks generalizing p with
  | nil => exact .refl _ _
  | cons task rest ih =>
    have hcall := t.madeCalls_call task p
    rw [callEach]
    unfold onward
    split
    · next p' hok =>
      rw [hok] at hcall
      exact hcall.trans (ih p')
    · exact hcall

theorem machine_blame (misnamed? : Option AuxiliaryFile) (p : CompileProgress) :
    (blame misnamed? p).2.machine = p.machine := by
  cases misnamed? <;> rfl

theorem madeCalls_callAll (t : Toolchain) (r : CompileRequest) (p : CompileProgress) :
    p.machine.MadeCalls t.config.workingDirectory (t.callAll r p).2.machine := by
  have hcalls := t.madeCalls_callEach r.planned p
  rw [callAll_eq]
  unfold onward
  split
  · next p' hok =>
    rw [hok] at hcalls
    rw [machine_blame]
    exact hcalls
  · exact hcalls

/-- The toolchain cannot start its compiler for one of the calls. -/
def Refused (t : Toolchain) (m : Machine) (tasks : List CompileTask) (e : SystemError) : Prop :=
  ∃ task ∈ tasks, m.spawn t.config.compiler (task.arguments t.config m.scratch) t.config.workingDirectory = .error e

/-- A compiler that was not found is the one that is configured, and was not spawned. -/
theorem refused_of_call (h : (t.call task p).1 = .error (.notFound compiler e)) :
    compiler = t.config.compiler ∧ p.machine.spawn t.config.compiler
      (task.arguments t.config p.machine.scratch) t.config.workingDirectory = .error e := by
  unfold call at h
  simp only at h
  split at h
  · next hspawn =>
    cases h
    exact ⟨rfl, hspawn⟩
  · split at h <;> cases h

/-- Of a list of tasks, one was refused. -/
theorem refused_of_callEach (h : (t.callEach tasks p).1 = .error (.notFound compiler e)) :
    compiler = t.config.compiler ∧ t.Refused p.machine tasks e := by
  induction tasks generalizing p with
  | nil => cases h
  | cons task rest ih =>
    rw [callEach] at h
    unfold onward at h
    split at h
    · next p' hok =>
      obtain ⟨calls, hmachine⟩ := t.machine_call task p
      rw [hok] at hmachine
      obtain ⟨hcompiler, later, hlater, hspawn⟩ := ih h
      rw [hmachine] at hspawn
      -- the calls that were made do not matter to a command
      exact ⟨hcompiler, later, List.mem_cons_of_mem _ hlater, by rwa [p.machine.spawn_calls] at hspawn⟩
    · obtain ⟨hcompiler, hspawn⟩ := refused_of_call h
      exact ⟨hcompiler, task, List.mem_cons_self, hspawn⟩

theorem refused_of_callAll (h : (t.callAll r p).1 = .error (.notFound compiler e)) :
    compiler = t.config.compiler ∧ t.Refused p.machine r.planned e := by
  rw [callAll_eq] at h
  unfold onward at h
  split at h
  · cases hmisnamed : r.auxiliaries.find? (·.misnamed) <;> rw [hmisnamed] at h <;> cases h
  · exact refused_of_callEach h

/-- The toolchain cannot start its compiler at all. -/
def Stuck (t : Toolchain) (m : Machine) : Prop :=
  ∀ arguments, ∃ e, m.spawn t.config.compiler arguments t.config.workingDirectory = .error e

theorem Stuck.calls (h : t.Stuck m) (calls : List CompilerCall) : t.Stuck { m with calls } := by
  intro arguments
  rw [m.spawn_calls]
  exact h arguments

theorem Stuck.call (h : t.Stuck p.machine) (task : CompileTask) :
    ∃ e, (t.call task p).1 = .error (.notFound t.config.compiler e) := by
  obtain ⟨e, hspawn⟩ := h (task.arguments t.config p.machine.scratch)
  refine ⟨e, ?_⟩
  simp only [Toolchain.call, hspawn]

end Toolchain

namespace CompileRequest

variable {r : CompileRequest} {t : Toolchain} {m : Machine} {compiler : String} {e : SystemError}

theorem madeCalls_run (r : CompileRequest) (t : Toolchain) (m : Machine) :
    m.MadeCalls t.config.workingDirectory (r.run t m).2 := by
  have hall := t.madeCalls_callAll r ⟨m, [], []⟩
  unfold run
  split
  all_goals
    next hcalls =>
      rw [hcalls] at hall
      exact hall

/-- A run that could not find the compiler was refused for one of the planned tasks. -/
theorem refused_of_run (h : (r.run t m).1 = .error (.notFound compiler e)) :
    compiler = t.config.compiler ∧ t.Refused m r.planned e := by
  unfold run at h
  split at h
  · next p hall =>
    cases h
    exact Toolchain.refused_of_callAll (p := ⟨m, [], []⟩) (congrArg Prod.fst hall)
  · cases h
  · cases h

/-- With a toolchain that is stuck, a compile that plans a call ends with it. -/
theorem run_of_stuck (r : CompileRequest) (h : t.Stuck m) :
    (r.planned = [] ∧ ∃ outcome, (r.run t m).1 = .ok outcome) ∨
      ∃ e, (r.run t m).1 = .error (.notFound t.config.compiler e) := by
  have hall := t.callAll_eq r ⟨m, [], []⟩
  cases hplanned : r.planned with
  | nil =>
    -- nothing is started, and at the most a misnamed file is blamed
    refine .inl ⟨rfl, ?_⟩
    rw [hplanned, Toolchain.callEach, Toolchain.onward] at hall
    cases hmisnamed : r.auxiliaries.find? (·.misnamed) with
    | none => exact ⟨_, by simp only [run, hall, hmisnamed, Toolchain.blame]; rfl⟩
    | some f => exact ⟨_, by simp only [run, hall, hmisnamed, Toolchain.blame]; rfl⟩
  | cons task rest =>
    obtain ⟨e, hcall⟩ := Toolchain.Stuck.call (p := ⟨m, [], []⟩) h task
    refine .inr ⟨e, ?_⟩
    rw [hplanned, Toolchain.callEach] at hall
    cases hfirst : t.call task ⟨m, [], []⟩ with
    | mk result p =>
      rw [hfirst] at hcall hall
      obtain rfl : result = _ := hcall
      simp only [run, hall, Toolchain.onward]

end CompileRequest

/-! ## Blocks -/

namespace Block

variable {b c : Block} {t : Toolchain} {toolchain : Option Toolchain} {context : StartContext} {dt : Float}
  {m m' : Machine} {result : Except RunFault Unit} {compiler : String} {e : SystemError}

theorem madeCalls_compileNow (b : Block) (t : Toolchain) (m : Machine) :
    m.MadeCalls t.config.workingDirectory (b.compileNow t m).2.2 := by
  have hrun := b.job.request.madeCalls_run t m
  unfold compileNow CompileJob.run
  split
  all_goals
    next hcompile =>
      rw [hcompile] at hrun
      exact hrun

theorem refused_of_compileNow (h : (b.compileNow t m).1 = .error (.notFound compiler e)) :
    compiler = t.config.compiler ∧ t.Refused m b.job.request.planned e := by
  unfold compileNow CompileJob.run at h
  split at h
  · next hrun =>
    cases h
    exact CompileRequest.refused_of_run (congrArg Prod.fst hrun)
  · cases h

/-- Where every call is refused, a block is compiled only if no call is planned for it. -/
theorem compileNow_of_stuck (b : Block) (h : t.Stuck m) :
    (b.job.request.planned = [] ∧ ∃ c m', b.compileNow t m = (.ok (), c, m')) ∨
      ∃ e, (b.compileNow t m).1 = .error (.notFound t.config.compiler e) := by
  have hstuck := b.job.request.run_of_stuck h
  unfold compileNow CompileJob.run
  cases hrun : b.job.request.run t m with
  | mk result m' =>
    rw [hrun] at hstuck
    obtain ⟨hplanned, outcome, rfl⟩ | ⟨e, rfl⟩ := hstuck
    · exact .inl ⟨hplanned, _, _, rfl⟩
    · exact .inr ⟨e, rfl⟩

theorem Prepares.madeCalls (h : b.Prepares (some t) m result c m') :
    m.MadeCalls t.config.workingDirectory m' := by
  cases h with
  | fresh => exact .refl _ _
  | compiled ht _ hrun | toolchain ht _ hrun =>
    obtain rfl := Option.some.inj ht
    have hcalls := b.job.request.madeCalls_run t m
    rw [show b.job.request.run t m = _ from hrun] at hcalls
    exact hcalls
  | noToolchain ht => cases ht

/-- A start makes calls if it compiles the block, and none besides. -/
theorem madeCalls_start (b : Block) (directory : Option String) (dt : Float) (t : Toolchain) (m : Machine) :
    m.MadeCalls t.config.workingDirectory (b.start ⟨some t, directory⟩ dt m).2.2 := by
  have hstarts := b.start_starts ⟨some t, directory⟩ dt m
  generalize (b.start ⟨some t, directory⟩ dt m).1 = result, (b.start ⟨some t, directory⟩ dt m).2.1 = b',
    (b.start ⟨some t, directory⟩ dt m).2.2 = m' at hstarts
  cases hstarts with
  | refused h | notCompiled h | notLoaded h | notInitialised h | started h => exact h.madeCalls

/-- A stale block is not started with a toolchain that is stuck, if calls are planned for it. -/
theorem start_of_stuck (b : Block) (directory : Option String) (dt : Float) (h : t.Stuck m)
    (hstale : b.staleness.recompileRequired = true) (hplanned : b.job.request.planned ≠ []) :
    ∃ e, (b.start ⟨some t, directory⟩ dt m).1 = .error (.toolchain (.notFound t.config.compiler e)) := by
  obtain ⟨hnone, -⟩ | ⟨e, hcompile⟩ := { b with run := none }.compileNow_of_stuck h
  · exact absurd hnone hplanned
  · -- the block is stale without its run too, so the start compiles it first
    refine ⟨e, ?_⟩
    have hstale' : { b with run := none }.staleness.recompileRequired = true := hstale
    rw [start, prepare, compileIfRequired]
    simp only [hstale', if_true]
    cases hresult : { b with run := none }.compileNow t m with
    | mk result after =>
      rw [hresult] at hcompile
      obtain rfl : result = _ := hcompile
      rfl

/-- A start only ends for the toolchain if the compile does. -/
theorem refused_of_start (b : Block) {directory : Option String}
    (h : (b.start ⟨some t, directory⟩ dt m).1 = .error (.toolchain (.notFound compiler e))) :
    compiler = t.config.compiler ∧ t.Refused m { b with run := none }.job.request.planned e := by
  have hstarts := b.start_starts ⟨some t, directory⟩ dt m
  rw [h] at hstarts
  generalize (b.start ⟨some t, directory⟩ dt m).2.1 = b', (b.start ⟨some t, directory⟩ dt m).2.2 = m' at hstarts
  cases hstarts with
  | refused h =>
    cases h with
    | toolchain ht _ hrun =>
      obtain rfl := Option.some.inj ht
      exact CompileRequest.refused_of_run (congrArg Prod.fst hrun)
  | notInitialised _ _ _ hfault =>
    -- the user's code failed, and the toolchain had done its part
    rcases hfault with hfault | ⟨code, hfault⟩ <;> cases hfault

end Block

/-! ## Words -/

/-- The texts of a configuration that calls are made of. -/
def ToolchainConfig.words (c : ToolchainConfig) : List String :=
  c.edition :: c.optimisation :: c.libraryPaths ++ c.hostCrates.flatMap (fun crate => [crate.name, crate.path]) ++
    c.extraArguments

namespace Machine

variable {s t : String}

theorem NulFree.append (hs : NulFree s) (ht : NulFree t) : NulFree (s ++ t) := by
  rw [NulFree, String.toList_append, List.mem_append]
  exact fun h => h.elim hs ht

theorem NulFree.join (hs : NulFree s) (ht : NulFree t) : NulFree (Path.join s t) := by
  unfold Path.join
  split
  · exact ht
  · split
    · exact hs.append ht
    · exact (hs.append (by decide)).append ht

theorem nulFree_crateFileName (hs : NulFree s) : NulFree (crateFileName s) :=
  (NulFree.append (by decide) hs).append (by decide)

theorem nulFree_libraryFileName (hs : NulFree s) : NulFree (libraryFileName s) :=
  (NulFree.append (by decide) hs).append (by decide)

theorem nulFree_crateArguments (hs : NulFree s) (ht : NulFree t) : ∀ word ∈ crateArguments s t, NulFree word :=
  List.forall_mem_cons.2 ⟨by decide, List.forall_mem_singleton.2 ((hs.append (by decide)).append ht)⟩

end Machine

open Machine (NulFree)

/-- The names in a call may be words of a command. -/
structure CompileTask.NulFree (task : CompileTask) : Prop where
  crate : Machine.NulFree task.crate
  crateType : Machine.NulFree task.crateType
  outputFile : Machine.NulFree task.outputFile
  linked : ∀ crate ∈ task.linked, Machine.NulFree crate

/-- The arguments common to all calls are made of the words of the configuration. -/
theorem ToolchainConfig.nulFree_commonArguments {c : ToolchainConfig} (h : ∀ word ∈ c.words, NulFree word) :
    ∀ word ∈ c.commonArguments, NulFree word := by
  simp only [words, List.cons_append, List.forall_mem_cons, List.forall_mem_append] at h
  obtain ⟨hedition, hoptimisation, ⟨hpaths, hcrates⟩, -⟩ := h
  simp only [commonArguments, List.forall_mem_append, List.forall_mem_cons]
  refine ⟨⟨⟨by decide, hedition, by decide, by decide, NulFree.append (by decide) hoptimisation,
    List.forall_mem_nil _⟩,
    fun word hword => ?_⟩, fun word hword => ?_⟩
  · -- a search path comes behind a flag of its own
    obtain ⟨path, hpath, hmem⟩ := List.mem_flatMap.1 hword
    rcases List.mem_cons.1 hmem with rfl | hmem
    · decide
    · rw [List.mem_singleton.1 hmem]
      exact hpaths path hpath
  · -- a crate is named with its path
    obtain ⟨crate, hcrate, hmem⟩ := List.mem_flatMap.1 hword
    have hname := hcrates crate.name (List.mem_flatMap.2 ⟨crate, hcrate, List.mem_cons_self⟩)
    have hpath := hcrates crate.path
      (List.mem_flatMap.2 ⟨crate, hcrate, List.mem_cons_of_mem _ (List.mem_singleton_self _)⟩)
    exact Machine.nulFree_crateArguments hname hpath word hmem

/-- The words of a call come from the configuration, the scratch directory and the names in the call. -/
theorem CompileTask.nulFree_arguments {task : CompileTask} {config : ToolchainConfig} {scratch : String}
    (htask : task.NulFree) (hconfig : ∀ word ∈ config.words, Machine.NulFree word)
    (hscratch : Machine.NulFree scratch) : ∀ word ∈ task.arguments config scratch, Machine.NulFree word := by
  have hextra : ∀ word ∈ config.extraArguments, Machine.NulFree word := fun word hword =>
    hconfig word (List.mem_append_right _ hword)
  have hdependency : Machine.NulFree ("dependency=" ++ scratch) := NulFree.append (by decide) hscratch
  simp only [arguments, List.forall_mem_append, List.forall_mem_cons]
  refine ⟨⟨⟨⟨ToolchainConfig.nulFree_commonArguments hconfig, by decide, htask.crate, by decide, htask.crateType,
    by decide, hscratch.join htask.outputFile, by decide, hdependency, List.forall_mem_nil _⟩, fun word hword => ?_⟩,
    hextra⟩, by decide, List.forall_mem_nil _⟩
  obtain ⟨crate, hcrate, hmem⟩ := List.mem_flatMap.1 hword
  have hname := htask.linked crate hcrate
  exact Machine.nulFree_crateArguments hname (hscratch.join (Machine.nulFree_crateFileName hname)) word hmem

theorem AuxiliaryFile.nulFree_task {f : AuxiliaryFile} {linked : List String} (h : isCrateName f.crate = true)
    (hlinked : ∀ crate ∈ linked, NulFree crate) : (f.task linked).NulFree where
  crate := not_mem_of_isCrateName (by decide) (by decide) h
  crateType := show NulFree "rlib" by decide
  outputFile := Machine.nulFree_crateFileName (not_mem_of_isCrateName (by decide) (by decide) h)
  linked := hlinked

/-- The calls for the first files are the first calls. -/
theorem AuxiliaryFile.take_tasks (linked : List String) (files : List AuxiliaryFile) (k : Nat) :
    (tasks linked files).take k = tasks linked (files.take k) := by
  refine List.ext_getElem? fun i => ?_
  rw [tasks, tasks, List.getElem?_mapIdx, List.getElem?_take, List.getElem?_take, List.getElem?_mapIdx]
  split
  · next hi => rw [List.take_take, Nat.min_eq_left (Nat.le_of_lt hi)]
  · rfl

/-- Tasks for files of proper names hold no NUL. -/
theorem AuxiliaryFile.nulFree_tasks {files : List AuxiliaryFile} (h : ∀ f ∈ files, f.misnamed = false) :
    ∀ task ∈ AuxiliaryFile.tasks [] files, task.NulFree := by
  have hcrate : ∀ f ∈ files, isCrateName f.crate = true := fun f hf => by simpa [misnamed] using h f hf
  intro task htask
  obtain ⟨i, hi, rfl⟩ := List.mem_mapIdx.1 htask
  refine nulFree_task (hcrate _ (List.getElem_mem hi)) fun crate hmem => ?_
  obtain ⟨f, hf, rfl⟩ := List.mem_map.1 hmem
  exact not_mem_of_isCrateName (by decide) (by decide) (hcrate f (List.mem_of_mem_take hf))

/-- Calls are planned up to the first name that is none of a crate, so all names in them are. -/
theorem CompileRequest.nulFree_planned {r : CompileRequest} (hprimary : NulFree r.primaryName) :
    ∀ task ∈ r.planned, task.NulFree := by
  have htasks : r.tasks = AuxiliaryFile.tasks [] r.auxiliaries ++
    [r.primaryTask (r.auxiliaries.map (·.crate))] := rfl
  cases hplace : r.auxiliaries.findIdx? (·.misnamed) with
  | none =>
    have hnamed := List.findIdx?_eq_none_iff.1 hplace
    rw [planned, hplace, upTo, Option.elim_none, htasks, List.forall_mem_append, List.forall_mem_singleton]
    refine ⟨AuxiliaryFile.nulFree_tasks hnamed, hprimary, show NulFree "cdylib" by decide,
      Machine.nulFree_libraryFileName hprimary, fun crate hmem => ?_⟩
    obtain ⟨f, hf, rfl⟩ := List.mem_map.1 hmem
    exact not_mem_of_isCrateName (by decide) (by decide) (by simpa [AuxiliaryFile.misnamed] using hnamed f hf)
  | some k =>
    -- the calls end before the misnamed file, so that none of them names it
    obtain ⟨hlt, -, hnamed⟩ := List.findIdx?_eq_some_iff_getElem.1 hplace
    have hfirst : r.planned = AuxiliaryFile.tasks [] (r.auxiliaries.take k) := by
      have hlength : (AuxiliaryFile.tasks [] r.auxiliaries).length = r.auxiliaries.length := List.length_mapIdx
      rw [planned, hplace, upTo, Option.elim_some, htasks, List.take_append_of_le_length (by omega),
        AuxiliaryFile.take_tasks]
    rw [hfirst]
    refine AuxiliaryFile.nulFree_tasks fun f hf => ?_
    obtain ⟨i, hi, rfl⟩ := List.mem_take_iff_getElem.1 hf
    simpa using hnamed i (by omega)

end CircuitBlocks
