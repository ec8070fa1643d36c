import CircuitBlocks.Proofs.CommandLine.Compile
import CircuitBlocks.Proofs.Compilation.Calls
import CircuitBlocks.Proofs.FileTree.Parents

/-!
# Working directories — where the compiler calls of a command run

A command compiles in the parent of its project's path, unless the toolchain file tells another directory. The
version is asked in the current directory. So a command may know its compiler and be unable to call it: the parent of
a bare name is empty and no directory, a text of the toolchain file may be no word of a command, and a relative
directory of the search path is another one from the parent.

* `Machine.Settled` — a name that stands for one compiler, whatever the directory.
* `Arguments.NeedsCall` — a command that has calls to make.
* `Arguments.CannotCall` — a command that ends since its compiler is not found.
* `Arguments.exists_madeCalls_run`, `Arguments.CannotCall.refused` — where a command's calls run, and what keeps one
  from being made.
* `Arguments.NeedsCall.cannotCall` — what becomes of a command whose compiler never starts.
* **`runCommand_calls_beside_project`** — where the calls of a command run, and when there are none.
-/

namespace CircuitBlocks

/-! ## Commands in other directories -/

theorem Path.fromRoot_of_isAbsolute {path : String} (h : isAbsolute path = true) (here there : Location) :
    fromRoot here path = fromRoot there path := by
  rw [fromRoot, fromRoot, if_pos h, if_pos h]

namespace Machine

variable {m : Machine} {name parent : String} {d : Location}

/-- The name stands for one compiler in every directory: it is an absolute path, or it is looked for in directories
that have absolute paths. -/
def Settled (m : Machine) (name : String) : Prop :=
  Path.isAbsolute name = true ∨
    '/' ∉ name.toList ∧ ∀ directory ∈ m.searchPath, Path.isAbsolute directory = true

/-- A search asks nothing but what its directories answer. -/
theorem search_congr {answer answer' : String → Except SystemError Compiler} {directories : List String}
    (h : ∀ directory ∈ directories, answer directory = answer' directory) (refused : Bool) (reason : SystemError) :
    search answer refused reason directories = search answer' refused reason directories := by
  induction directories generalizing refused reason with
  | nil => rfl
  | cons directory rest ih =>
    obtain ⟨hfirst, hrest⟩ := List.forall_mem_cons.1 h
    simp only [search, hfirst, ih hrest]

/-- An absolute directory is searched from anywhere. -/
theorem programIn_of_isAbsolute {directory : String} (h : Path.isAbsolute directory = true) (here there : Location) :
    m.programIn here name directory = m.programIn there name directory := by
  obtain ⟨rest, hrest⟩ := Path.isAbsolute_iff.1 h
  have hne : directory ≠ "" := by
    rintro rfl
    cases hrest
  have hpath : Path.isAbsolute (directory ++ "/" ++ name) = true :=
    Path.isAbsolute_iff.2 ⟨rest ++ ("/" ++ name).toList, by simp [hrest]⟩
  simp only [programIn, if_neg hne, Path.fromRoot_of_isAbsolute hpath here there]

/-- A command that is settled is the same from anywhere. -/
theorem command_of_settled (h : m.Settled name) (here there : Location) :
    m.command here name = m.command there name := by
  rcases h with habsolute | ⟨hslash, hdirectories⟩
  · obtain ⟨rest, hrest⟩ := Path.isAbsolute_iff.1 habsolute
    have hslash : '/' ∈ name.toList := hrest ▸ List.mem_cons_self
    rw [command, command, if_pos hslash, if_pos hslash, programAt, programAt, FileTree.locate, FileTree.locate,
      Path.fromRoot_of_isAbsolute habsolute here there]
  · rw [command, command, if_neg hslash, if_neg hslash, search_congr fun directory hdirectory =>
      programIn_of_isAbsolute (hdirectories directory hdirectory) here there]

/-- Only a relative directory of the search path can unsettle a name that is no relative path. -/
theorem exists_relative_of_not_settled (hname : Path.isAbsolute name = true ∨ '/' ∉ name.toList)
    (h : ¬ m.Settled name) :
    '/' ∉ name.toList ∧ ∃ directory ∈ m.searchPath, Path.isAbsolute directory = false := by
  obtain ⟨hrelative, hsearch⟩ := not_or.1 h
  have hslash := hname.resolve_left hrelative
  simp only [not_and, not_forall, Bool.not_eq_true, exists_prop] at hsearch
  exact ⟨hslash, hsearch hslash⟩

/-- A path that leads to a directory can be entered. -/
theorem enter_eq_ok (hcheck : Path.check parent = .ok ())
    (hreach : m.files.reach (Path.fromRoot m.here parent) = .ok d) (hd : m.files.HasDirectory d) :
    m.enter (some parent) = .ok d := by
  obtain ⟨there, hwalk, hplace, hnode⟩ := FileTree.exists_walk hreach
  obtain ⟨entries, hentries⟩ := hd
  have hlocate : m.files.locate m.here parent = .ok there := by
    rw [FileTree.locate_eq, hcheck]
    exact hwalk
  rw [enter, hlocate]
  simp only [bind, Except.bind, hnode, hentries, hplace]
  rfl

/-- The empty path cannot be entered. -/
theorem enter_empty (m : Machine) : m.enter (some "") = .error .notFound := rfl

theorem nulFree_of_check {path : String} (h : Path.check path = .ok ()) : NulFree path := by
  unfold Path.check at h
  split at h
  · cases h
  · assumption

end Machine

/-! ## Toolchains -/

namespace Toolchain

variable {config : ToolchainConfig} {t : Toolchain} {m : Machine} {d : Location} {e : SystemError}

/-- A toolchain has a compiler in the current directory. -/
theorem probe_eq_ok (h : probe config m = .ok t) :
    t.config = config ∧ Machine.NulFree config.compiler ∧ ∃ c, m.command m.here config.compiler = .ok c := by
  unfold probe at h
  split at h
  · cases h
  · next c here hspawn =>
    -- the probe runs in the directory of the process itself
    obtain ⟨hwords, henter, hcommand⟩ := Machine.spawn_eq_ok hspawn
    obtain rfl : m.here = here := Except.ok.inj henter
    simp only at h
    split at h
    · cases h
    · split at h
      · cases h
      · cases h
        exact ⟨rfl, hwords _ List.mem_cons_self, c, hcommand⟩

/-- The version is asked in the current directory, whatever the working directory is. -/
theorem probe_elsewhere (config : ToolchainConfig) (directory : Option String) (m : Machine) :
    probe { config with workingDirectory := directory } m =
      (probe config m).map fun t => { t with config := { t.config with workingDirectory := directory } } := by
  unfold probe
  simp only
  split
  · rfl
  · split
    · rfl
    · split <;> rfl

/-- A compiler with a settled name starts in a directory that can be entered, if the words of the calls allow it. -/
theorem not_refused (b : Block) {parent : String} (hprobe : probe config m = .ok t)
    (hparent : t.config.workingDirectory = some parent) (hnul : Machine.NulFree parent)
    (henter : m.enter (some parent) = .ok d) (hsettled : m.Settled t.config.compiler)
    (hscratch : Machine.NulFree m.scratch) (hwords : ∀ word ∈ t.config.words, Machine.NulFree word) :
    ¬ t.Refused m b.job.request.planned e := by
  obtain ⟨hconfig, hcompiler, c, hcommand⟩ := probe_eq_ok hprobe
  rw [← hconfig] at hcompiler hcommand
  have hplanned := b.job.request.nulFree_planned (BlockId.not_mem_artifactName (by decide) (by decide) b.id)
  rintro ⟨task, htask, hspawn⟩
  rw [hparent] at hspawn
  -- neither a word of the command, nor the directory, nor the name can be the reason
  rcases Machine.spawn_eq_error hspawn with ⟨word, hword, hne⟩ | hrefused | ⟨there, -, hrefused⟩
  · refine hne ?_
    rcases List.mem_append.1 hword with hword | hword
    · rcases List.mem_cons.1 hword with rfl | hword
      · exact hcompiler
      · exact CompileTask.nulFree_arguments (hplanned task htask) hwords hscratch word hword
    · exact List.mem_singleton.1 hword ▸ hnul
  · rw [henter] at hrefused
    cases hrefused
  · rw [Machine.command_of_settled hsettled there m.here, hcommand] at hrefused
    cases hrefused

/-- In the empty path, no compiler starts. -/
theorem stuck_of_empty (h : t.config.workingDirectory = some "") (m : Machine) : t.Stuck m := by
  intro arguments
  rw [h]
  cases hspawn : m.spawn t.config.compiler arguments (some "") with
  | error e => exact ⟨e, rfl⟩
  | ok started =>
    have henter := (Machine.spawn_eq_ok hspawn).2.1
    rw [m.enter_empty] at henter
    cases henter

end Toolchain

/-! ## Stages -/

section Stages

variable {b : Block} {t : Toolchain} {force : Bool} {m : Machine} {places : List Nat} {p : Project} {c : Console}
  {compiler : String} {e : SystemError}

/-- Calls are planned to bring the block up to date. -/
def Block.NeedsCall (b : Block) (force : Bool) : Prop :=
  (force || b.staleness.recompileRequired) = true ∧ b.job.request.planned ≠ []

/-- All calls that bring a block up to date run in the directory that is configured. -/
theorem Block.madeCalls_bringUpToDate (b : Block) (force : Bool) (t : Toolchain) (m : Machine) :
    m.MadeCalls t.config.workingDirectory (b.bringUpToDate force t m).2.2 := by
  unfold bringUpToDate
  split
  · exact b.madeCalls_compileNow t m
  · exact .refl _ _

/-- A block that cannot be compiled for want of the compiler has a call that was refused. -/
theorem Block.refused_of_bringUpToDate (h : (b.bringUpToDate force t m).1 = .error (.notFound compiler e)) :
    compiler = t.config.compiler ∧ t.Refused m b.job.request.planned e := by
  unfold bringUpToDate at h
  split at h
  · exact refused_of_compileNow h
  · cases h

/-- Where every call is refused, a block that needs one is refused. -/
theorem Block.bringUpToDate_of_stuck (b : Block) (force : Bool) (h : t.Stuck m) :
    (¬ b.NeedsCall force ∧ ∃ d m', b.bringUpToDate force t m = (.ok (), d, m')) ∨
      ∃ e, (b.bringUpToDate force t m).1 = .error (.notFound t.config.compiler e) := by
  unfold bringUpToDate
  split
  · obtain ⟨hplanned, hok⟩ | herror := b.compileNow_of_stuck h
    · exact .inl ⟨fun hneeds => hneeds.2 hplanned, hok⟩
    · exact .inr herror
  · next hrequired => exact .inl ⟨fun hneeds => hrequired hneeds.1, _, _, rfl⟩

/-- All calls that the blocks make are made in the working directory of the toolchain. -/
theorem madeCalls_compileBlocks (t : Toolchain) (force : Bool) (places : List Nat) (p : Project) (c : Console) :
    c.machine.MadeCalls t.config.workingDirectory (compileBlocks t force places p c).2.2.machine := by
  induction places generalizing p c with
  | nil => exact .refl _ _
  | cons i rest ih =>
    unfold compileBlocks
    split
    · exact ih p c
    · next b hb =>
      have hfirst := b.madeCalls_bringUpToDate force t c.machine
      split
      · next hcompile =>
        rw [hcompile] at hfirst
        exact hfirst
      · next d m' hcompile =>
        rw [hcompile] at hfirst
        have hrest := ih { p with blocks := p.blocks.set i d }
          ({ c with machine := m' }.printError (s!"{d.id}: " ++ d.state.message))
        simp only
        split
        -- whether or not this block has failed, the others follow
        all_goals
          next hloop =>
            rw [hloop] at hrest
            exact hfirst.trans hrest

/-- The loop is stopped by the refusal of some block. -/
theorem refused_of_compileBlocks
    (h : (compileBlocks t force places p c).1 = .error (.uncompiled (.notFound compiler e))) :
    compiler = t.config.compiler ∧ ∃ b : Block, t.Refused c.machine b.job.request.planned e := by
  induction places generalizing p c with
  | nil => cases h
  | cons i rest ih =>
    unfold compileBlocks at h
    split at h
    · exact ih h
    · next b hb =>
      obtain ⟨calls, hmachine⟩ := b.machine_bringUpToDate force t c.machine
      split at h
      · next cause _ _ hcompile =>
        cases h
        obtain ⟨hcompiler, hrefused⟩ := Block.refused_of_bringUpToDate (congrArg Prod.fst hcompile)
        exact ⟨hcompiler, b, hrefused⟩
      · next d m' hcompile =>
        obtain rfl : m' = { c.machine with calls } := by rw [← hmachine, hcompile]
        simp only at h
        split at h
        · next hloop =>
          cases h
          obtain ⟨hcompiler, blamed, task, htask, hspawn⟩ := ih (congrArg Prod.fst hloop)
          -- the calls before do not matter
          exact ⟨hcompiler, blamed, task, htask, (c.machine.spawn_calls calls _ _ _).symm.trans hspawn⟩
        · cases h

/-- With a toolchain that is stuck, the loop stops before a block that calls are planned for. -/
theorem compileBlocks_of_stuck {i : Nat} (h : t.Stuck c.machine) (hi : i ∈ places) (hb : p.blocks[i]? = some b)
    (hneeds : b.NeedsCall force) :
    ∃ e, (compileBlocks t force places p c).1 = .error (.uncompiled (.notFound t.config.compiler e)) := by
  -- the loop stops at the block that needs a call, or at one before it
  induction places generalizing p c with
  | nil => cases hi
  | cons j rest ih =>
    unfold compileBlocks
    cases hj : p.blocks[j]? with
    | none =>
      have hne : i ≠ j := by
        rintro rfl
        rw [hb] at hj
        cases hj
      exact ih h ((List.mem_cons.1 hi).resolve_left hne) hb
    | some first =>
      obtain ⟨hfirst, d, m', hcompile⟩ | ⟨e, hcompile⟩ := first.bringUpToDate_of_stuck force h
      · -- a block that needs no call is another one, and the loop goes on
        have hne : i ≠ j := by
          rintro rfl
          rw [hb] at hj
          exact hfirst (Option.some.inj hj ▸ hneeds)
        obtain ⟨calls, hmachine⟩ := first.machine_bringUpToDate force t c.machine
        obtain rfl : m' = { c.machine with calls } := by rw [← hmachine, hcompile]
        obtain ⟨e, hloop⟩ := ih (p := { p with blocks := p.blocks.set j d })
          (c := { c with machine := { c.machine with calls } }.printError (s!"{d.id}: " ++ d.state.message))
          (h.calls calls) ((List.mem_cons.1 hi).resolve_left hne)
          ((List.getElem?_set_ne (Ne.symm hne)).trans hb)
        refine ⟨e, ?_⟩
        simp only [hcompile]
        split
        · next hrest => exact (congrArg Prod.fst hrest).symm.trans hloop
        · next hrest =>
          rw [hrest] at hloop
          cases hloop
      · refine ⟨e, ?_⟩
        cases hresult : first.bringUpToDate force t c.machine with
        | mk result after =>
          rw [hresult] at hcompile
          obtain rfl : result = _ := hcompile
          simp only [hresult]

/-- Steps call no compiler. -/
theorem machine_runSteps (dt : Float) (inputs : Signals) (count k : Nat) (b : Block) (c : Console) :
    (runSteps dt inputs count k b c).2.machine = c.machine := by
  induction count generalizing k b c with
  | zero => rfl
  | succ count ih =>
    unfold runSteps
    simp only
    split
    · exact ih _ _ _
    · rfl

/-- A run calls the compiler no more than its start does. -/
theorem machine_runFor (b : Block) (context : StartContext) (inputs : Signals) (steps : Nat) (dt : Float)
    (c : Console) : (b.runFor context inputs steps dt c).2.machine = (b.start context dt c.machine).2.2 := by
  unfold Block.runFor
  split
  · next hstart => rw [hstart]; rfl
  · next hstart => rw [machine_runSteps, hstart]

end Stages

/-! ## Arguments -/

namespace Arguments

variable {a : Arguments} {config : ToolchainConfig} {t : Toolchain} {c : Console} {m : Machine} {compiler : String}
  {e : SystemError}

/-- The configuration that the arguments name, before they change it. -/
def given (a : Arguments) (m : Machine) : Except CommandFailure ToolchainConfig :=
  match a.toolchain with
  | none => .ok (.ofHost m.bundledLibraries)
  | some path => ToolchainConfig.read path m

theorem config_eq (a : Arguments) (m : Machine) : a.config m = (a.given m).map a.configure := by
  unfold config given
  cases a.toolchain <;> rfl

theorem context_eq (a : Arguments) (hprobe : Toolchain.probe config m = .ok t) :
    ∃ directory, a.context config m = ⟨some t, directory⟩ := by
  rw [context, hprobe]
  exact ⟨_, rfl⟩

/-- The command has a call to make: it compiles or runs a block that calls are planned for. -/
inductive NeedsCall (a : Arguments) (m : Machine) : Prop where
  | compiling {config p warnings places i b} (hstage : a.stage = .compile)
      (hreaches : a.Reaches m config p warnings places) (hi : i ∈ places) (hb : p.blocks[i]? = some b)
      (hneeds : b.NeedsCall a.force) : NeedsCall a m
  | running {config p warnings places b inputs} (hstage : a.stage = .run)
      (hreaches : a.Reaches m config p warnings places) (hb : p.pick places = [b])
      (hinputs : inputSignals a.inputs b.shape.shape = .ok inputs) (hneeds : b.NeedsCall false) : NeedsCall a m

/-- The command ends since its compiler is not found when it is to be called: a compile as a whole, and a run when
the block starts. -/
inductive CannotCall (a : Arguments) (c : Console) (compiler : String) (e : SystemError) : Prop where
  | compiling (hstage : a.stage = .compile) (h : (a.run c).1 = .error (.uncompiled (.notFound compiler e))) :
      CannotCall a c compiler e
  | running {config p warnings places b inputs} (hstage : a.stage = .run)
      (hreaches : a.Reaches c.machine config p warnings places) (hb : p.pick places = [b])
      (hinputs : inputSignals a.inputs b.shape.shape = .ok inputs)
      (h : (b.start (a.context config c.machine) a.dt c.machine).1 = .error (.toolchain (.notFound compiler e))) :
      CannotCall a c compiler e

/-- What a compile stage is, besides the project that it writes. -/
theorem compileStage_eq {p : Project} {places : List Nat} (hprobe : Toolchain.probe config c.machine = .ok t) :
    (compileStage a config p places c).2.machine.calls = (compileBlocks t a.force places p c).2.2.machine.calls ∧
      ∀ cause, (compileStage a config p places c).1 = .error (.uncompiled cause) ↔
        (compileBlocks t a.force places p c).1 = .error (.uncompiled cause) := by
  unfold compileStage
  rw [hprobe]
  simp only
  split
  · next hloop => simp [hloop]
  · next hloop =>
    split <;> simp [hloop]

/-- The calls of a command that compiles or runs are made in the working directory of its toolchain. -/
theorem exists_madeCalls_run (hstage : a.stage = .compile ∨ a.stage = .run) (hconfig : a.config c.machine = .ok config)
    (hprobe : Toolchain.probe config c.machine = .ok t) :
    ∃ m', c.machine.MadeCalls t.config.workingDirectory m' ∧ (a.run c).2.machine.calls = m'.calls := by
  rcases a.run_or_reaches c with ⟨e, c', hrun, hmachine, -⟩ | ⟨config', p, warnings, places, hreaches⟩
  · exact ⟨c.machine, .refl _ _, by rw [hrun, hmachine]⟩
  · obtain rfl := Except.ok.inj (hconfig.symm.trans hreaches.configured)
    rw [hreaches.run]
    have hprobe' : Toolchain.probe config (c.printError (a.loadingText p warnings)).machine = .ok t := hprobe
    rcases hstage with hstage | hstage
    · refine ⟨_, madeCalls_compileBlocks t a.force places p (c.printError (a.loadingText p warnings)), ?_⟩
      rw [runOn, hstage]
      exact (compileStage_eq hprobe').1
    · rw [runOn, hstage]
      simp only
      unfold runStage
      split
      · next b hpick =>
        split
        · exact ⟨c.machine, .refl _ _, rfl⟩
        · next inputs hinputs =>
          -- steps leave the machine alone, so all calls are those of the start
          obtain ⟨directory, hcontext⟩ := a.context_eq hprobe'
          simp only
          rw [machine_runFor, hcontext]
          exact ⟨_, b.madeCalls_start directory a.dt t c.machine, rfl⟩
      · exact ⟨c.machine, .refl _ _, rfl⟩

/-- A command whose compiler is not found was refused a call. -/
theorem CannotCall.refused (h : a.CannotCall c compiler e) (hconfig : a.config c.machine = .ok config)
    (hprobe : Toolchain.probe config c.machine = .ok t) :
    compiler = t.config.compiler ∧ ∃ b : Block, t.Refused c.machine b.job.request.planned e := by
  cases h with
  | compiling hstage h =>
    rcases a.run_or_reaches c with ⟨e', c', hrun, -, hne⟩ | ⟨config', p, warnings, places, hreaches⟩
    · -- a command that stops earlier gives no reason from a compile
      rw [hrun] at h
      exact absurd (Except.error.inj h) (hne _)
    · obtain rfl := Except.ok.inj (hconfig.symm.trans hreaches.configured)
      have hprobe' : Toolchain.probe config (c.printError (a.loadingText p warnings)).machine = .ok t := hprobe
      rw [hreaches.run, runOn, hstage] at h
      have hloop := ((compileStage_eq hprobe').2 _).1 h
      exact refused_of_compileBlocks (c := c.printError (a.loadingText p warnings)) hloop
  | running hstage hreaches hb hinputs h =>
    obtain rfl := Except.ok.inj (hconfig.symm.trans hreaches.configured)
    obtain ⟨directory, hcontext⟩ := a.context_eq hprobe
    rw [hcontext] at h
    obtain ⟨hcompiler, hrefused⟩ := Block.refused_of_start _ h
    exact ⟨hcompiler, _, hrefused⟩

/-- A command that has a call to make ends if its compiler never starts. -/
theorem NeedsCall.cannotCall (h : a.NeedsCall c.machine) (hconfig : a.config c.machine = .ok config)
    (hprobe : Toolchain.probe config c.machine = .ok t) (hstuck : t.Stuck c.machine) :
    ∃ e, a.CannotCall c t.config.compiler e := by
  cases h with
  | @compiling _ p warnings places i b hstage hreaches hi hb hneeds =>
    obtain rfl := Except.ok.inj (hconfig.symm.trans hreaches.configured)
    have hprobe' : Toolchain.probe config (c.printError (a.loadingText p warnings)).machine = .ok t := hprobe
    -- the first block that has to be compiled is refused, and the loop ends there
    obtain ⟨e, hloop⟩ := compileBlocks_of_stuck (c := c.printError (a.loadingText p warnings)) hstuck hi hb hneeds
    refine ⟨e, .compiling hstage ?_⟩
    rw [hreaches.run, runOn, hstage]
    exact ((compileStage_eq hprobe').2 _).2 hloop
  | @running _ p warnings places b inputs hstage hreaches hb hinputs hneeds =>
    obtain rfl := Except.ok.inj (hconfig.symm.trans hreaches.configured)
    obtain ⟨directory, hcontext⟩ := a.context_eq hprobe
    obtain ⟨e, hstart⟩ := b.start_of_stuck directory a.dt hstuck hneeds.1 hneeds.2
    exact ⟨e, .running hstage hreaches hb hinputs (by rwa [hcontext])⟩

/-- Where the directory is entered and the command is settled or searched for, a call is refused for one of its
words, or for a relative directory of the search path. -/
theorem CannotCall.exists_reason (h : a.CannotCall c compiler e) (hconfig : a.config c.machine = .ok config)
    (hprobe : Toolchain.probe config c.machine = .ok t) {parent : String}
    (hworking : t.config.workingDirectory = some parent) (hparent : Machine.NulFree parent) {d : Location}
    (henter : c.machine.enter (some parent) = .ok d)
    (hcompiler : Path.isAbsolute t.config.compiler = true ∨ '/' ∉ t.config.compiler.toList) :
    (∃ word ∈ c.machine.scratch :: t.config.words, ¬ Machine.NulFree word) ∨
      '/' ∉ t.config.compiler.toList ∧
        ∃ directory ∈ c.machine.searchPath, Path.isAbsolute directory = false := by
  obtain ⟨-, b, hrefused⟩ := h.refused hconfig hprobe
  by_cases hwords : ∀ word ∈ c.machine.scratch :: t.config.words, Machine.NulFree word
  · refine .inr (Machine.exists_relative_of_not_settled hcompiler fun hsettled => ?_)
    obtain ⟨hscratch, htexts⟩ := List.forall_mem_cons.1 hwords
    exact Toolchain.not_refused b hprobe hworking hparent henter hsettled hscratch htexts hrefused
  · simp only [not_forall, exists_prop] at hwords
    exact .inl hwords

end Arguments

/-! ## Commands -/

@[simp] theorem Machine.scratch_inEnvironment (m : Machine) (environment : List (String × String)) :
    (m.inEnvironment environment).scratch = m.scratch := by
  unfold inEnvironment
  split <;> rfl

@[simp] theorem Machine.calls_inEnvironment (m : Machine) (environment : List (String × String)) :
    (m.inEnvironment environment).calls = m.calls := by
  unfold inEnvironment
  split <;> rfl

theorem machine_runCommand {words : List String} {environment : List (String × String)} {a : Arguments}
    (h : Arguments.parse words environment = .ok a) (m : Machine) :
    (runCommand words environment m).2 = (a.run { machine := m.inEnvironment environment }).2.machine := by
  rw [runCommand, h]
  simp only
  split
  all_goals
    next hrun => rw [hrun]

/-- **Calls run beside the project.** Let a command compile or run, with a project that is a file, no working
directory in its toolchain file, and a compiler that tells its version and is named by an absolute path or looked for.
Then all calls that it makes run in the directory that holds the project's file. Its compiler is only not found if the
project is a bare name, a word of the calls has a NUL, or the compiler is looked for in a relative directory. With a
bare name it makes no call, and its compiler is not found as soon as there is one to make. -/
theorem runCommand_calls_beside_project {words : List String} {environment : List (String × String)} {m : Machine}
    {a : Arguments} {given : ToolchainConfig} {t : Toolchain} (hwords : Arguments.parse words environment = .ok a)
    (hstage : a.stage = .compile ∨ a.stage = .run) (hgiven : a.given (m.inEnvironment environment) = .ok given)
    (hdirectory : given.workingDirectory = none)
    (hprobe : Toolchain.probe (a.configure given) (m.inEnvironment environment) = .ok t)
    (hcompiler : Path.isAbsolute t.config.compiler = true ∨ '/' ∉ t.config.compiler.toList)
    (hfile : m.files.isFile m.here a.project = true) :
    ∃ d, m.files.Holds m.here a.project d ∧
      (∃ made, (runCommand words environment m).2.calls = m.calls ++ made ∧ (∀ call ∈ made, call.directory = d) ∧
        ('/' ∉ a.project.toList → made = [])) ∧
      (∀ compiler e, a.CannotCall { machine := m.inEnvironment environment } compiler e →
        '/' ∉ a.project.toList ∨ (∃ word ∈ m.scratch :: t.config.words, ¬ Machine.NulFree word) ∨
          '/' ∉ t.config.compiler.toList ∧
            ∃ directory ∈ (m.inEnvironment environment).searchPath, Path.isAbsolute directory = false) ∧
      ('/' ∉ a.project.toList → a.NeedsCall (m.inEnvironment environment) →
        ∃ e, a.CannotCall { machine := m.inEnvironment environment } t.config.compiler e) := by
  obtain ⟨d, parent, hholds, hd, hparent, hcases⟩ := FileTree.exists_holds hfile
  have hconfig : a.config (m.inEnvironment environment) = .ok (a.configure given) := by
    rw [Arguments.config_eq, hgiven]
    rfl
  have hworking : t.config.workingDirectory = some parent := by
    rw [(Toolchain.probe_eq_ok hprobe).1, Arguments.configure, hdirectory, hparent]
    rfl
  obtain ⟨m', ⟨made, rfl, hmade⟩, hcalls⟩ :=
    Arguments.exists_madeCalls_run (c := { machine := m.inEnvironment environment }) hstage hconfig hprobe
  rw [hworking] at hmade
  simp only [Machine.calls_inEnvironment] at hcalls
  rw [← machine_runCommand hwords] at hcalls
  rcases hcases with ⟨hbare, rfl⟩ | ⟨hslash, hcheck, hreach⟩
  · -- the empty path is no directory to call from
    have hnone : made = [] := List.eq_nil_iff_forall_not_mem.2 fun call hcall => by
      have henter := hmade call hcall
      rw [Machine.enter_empty] at henter
      cases henter
    exact ⟨d, hholds, ⟨made, hcalls, hnone ▸ List.forall_mem_nil _, fun _ => hnone⟩, fun _ _ _ => .inl hbare,
      fun _ hneeds => hneeds.cannotCall hconfig hprobe (Toolchain.stuck_of_empty hworking _)⟩
  · have henter : (m.inEnvironment environment).enter (some parent) = .ok d := by
      refine Machine.enter_eq_ok hcheck ?_ ?_
      · rw [m.files_inEnvironment, m.here_inEnvironment]
        exact hreach
      · rw [m.files_inEnvironment]
        exact hd
    refine ⟨d, hholds, ⟨made, hcalls, fun call hcall => ?_, fun hbare => absurd hslash hbare⟩,
      fun compiler e hcannot => .inr ?_, fun hbare => absurd hslash hbare⟩
    · exact (Except.ok.inj (henter.symm.trans (hmade call hcall))).symm
    · -- the directory is entered, which leaves the words and the name as reasons
      have hreason := hcannot.exists_reason hconfig hprobe hworking (Machine.nulFree_of_check hcheck) henter
        hcompiler
      rwa [m.scratch_inEnvironment] at hreason

/-- What a command asks for that compiles a project with the compiler at the root. -/
def Arguments.compiling (project : String) : Arguments where
  project := project
  block := none
  stage := .compile
  inputs := ""
  steps := 1
  dt := 1e-6
  force := false
  compiler := some "/c"
  libraryPaths := []
  toolchain := none
  outputDirectory := none
  verbose := false

/-- A command with an absolute path makes its calls at the root, where the project is, and finds its compiler. -/
theorem runCommand_calls_beside_project_root :
    Arguments.parse ["/p", "--emit", "compile", "--cc", "/c"] [] = .ok (.compiling "/p") ∧
    (∀ call ∈ (runCommand ["/p", "--emit", "compile", "--cc", "/c"] [] (.faulting ⟨.empty, [.bare {}]⟩)).2.calls,
      call.directory = []) ∧
    ∀ compiler e,
      ¬ (Arguments.compiling "/p").CannotCall { machine := .faulting ⟨.empty, [.bare {}]⟩ } compiler e := by
  have hwords : Arguments.parse ["/p", "--emit", "compile", "--cc", "/c"] [] = .ok (.compiling "/p") := rfl
  obtain ⟨d, ⟨there, name, hthere, hplace⟩, ⟨made, hcalls, hmade, -⟩, hcannot, -⟩ :=
    runCommand_calls_beside_project (m := .faulting ⟨.empty, [.bare {}]⟩) hwords (.inl rfl) rfl rfl
      (Toolchain.probe_faulting _) (.inl (by decide)) rfl
  -- the directory that holds the file is the root
  have hroot : d = [] := by
    obtain rfl : _ = there := Except.ok.inj hthere
    exact (List.append_eq_singleton_iff.1 hplace.symm).elim (·.1) fun h => absurd h.2 (List.cons_ne_nil _ _)
  refine ⟨hwords, fun call hcall => ?_, fun compiler e h => ?_⟩
  · rw [hcalls] at hcall
    exact hroot ▸ hmade call hcall
  · rcases hcannot compiler e h with hbare | hnul | ⟨hslash, -⟩
    · exact absurd hbare (by decide)
    · exact absurd hnul (by decide)
    · exact absurd hslash (by decide)

/-- A project that is named without a directory is not compiled, for the compiler that told its version is not found. -/
theorem not_calls_beside_project : ¬ ∀ (words : List String) (environment : List (String × String)) (m : Machine)
    (a : Arguments) (given : ToolchainConfig) (t : Toolchain), Arguments.parse words environment = .ok a →
    a.stage = .compile ∨ a.stage = .run → a.given (m.inEnvironment environment) = .ok given →
    given.workingDirectory = none →
    Toolchain.probe (a.configure given) (m.inEnvironment environment) = .ok t →
    Path.isAbsolute t.config.compiler = true ∨ '/' ∉ t.config.compiler.toList →
    m.files.isFile m.here a.project = true →
    ∀ compiler e, ¬ a.CannotCall { machine := m.inEnvironment environment } compiler e := by
  intro h
  let m := Machine.faulting ⟨.empty, [.bare {}]⟩
  let t : Toolchain := ⟨{ Toolchain.faulting.config with workingDirectory := some "" }, "c"⟩
  -- the version is told, since it is asked in the current directory
  have hprobe : Toolchain.probe t.config m = .ok t := by
    show Toolchain.probe { Toolchain.faulting.config with workingDirectory := some "" } m = _
    rw [Toolchain.probe_elsewhere, Toolchain.probe_faulting]
    rfl
  have hread : m.files.read [] "p" = .ok (Text.Utf8.encode (Project.text ⟨.empty, [.bare {}]⟩)) := rfl
  obtain ⟨registry, warnings, hload⟩ := Project.exists_ofText_bare {} (some "c")
  rw [← Project.load_of_read hread] at hload
  have hfingerprint : (Arguments.compiling "p").fingerprint t.config m = some "c" := by
    show (Toolchain.probe t.config m).toOption.map (·.fingerprint) = _
    rw [hprobe]
    rfl
  have hplanned : (Block.bare {}).job.request.planned ≠ [] := by
    rw [CompileRequest.planned_of_named rfl]
    exact List.append_ne_nil_of_right_ne_nil _ (List.cons_ne_nil _ _)
  have hneeds : (Arguments.compiling "p").NeedsCall m :=
    .compiling rfl ⟨rfl, hfingerprint ▸ hload, rfl⟩ (List.mem_singleton_self 0) rfl ⟨rfl, hplanned⟩
  obtain ⟨e, hcannot⟩ := hneeds.cannotCall (c := { machine := m }) rfl hprobe (Toolchain.stuck_of_empty rfl m)
  exact h ["p", "--emit", "compile", "--cc", "/c"] [] m (.compiling "p") {} t rfl (.inl rfl) rfl rfl hprobe
    (.inl (by decide)) rfl _ e hcannot

end CircuitBlocks
