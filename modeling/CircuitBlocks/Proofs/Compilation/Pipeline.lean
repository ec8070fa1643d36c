import CircuitBlocks.Proofs.Compilation.Completeness
import CircuitBlocks.Proofs.Compilation.Files

/-!
# The pipeline of a compile — which calls are made, and what is told of them

A request lays down its calls: one for each file, with the crates before it linked, and one for the unit, with
all of them. A compile makes these calls from the first on. It stops after a call that fails, and before a file
whose name names no crate. What it tells is what the compiler said in each exchange, one after another, and
at the most one thing of its own.

* `CompileRequest.tasks` — the calls for all sources, and `CompileRequest.planned` those up to a misnamed file.
* `Toolchain.callAll_eq` — a compile makes the planned calls one after another, and then blames a misnamed file.
* `Toolchain.Exchanges` — what making calls one after another comes to.
* `CompileRequest.Transcript` — the exchanges of a compile, described one by one.
* **`CompileRequest.run_transcript`** — a compile has such exchanges, and its outcome is told by them.
-/

namespace CircuitBlocks

/-! ## Plans -/

/-- Whether the name of a file names no crate. -/
def AuxiliaryFile.misnamed (f : AuxiliaryFile) : Bool := !isCrateName f.crate

/-- A list up to a place, or all of it. -/
def upTo {α : Type} (place : Option Nat) (l : List α) : List α := place.elim l l.take

theorem upTo_succ {α : Type} (place : Option Nat) (a : α) (l : List α) :
    upTo (place.map (· + 1)) (a :: l) = a :: upTo place l := by
  cases place <;> rfl

theorem findIdx?_eq_none {α : Type} {test : α → Bool} {l : List α} (h : l.find? test = none) :
    l.findIdx? test = none := by
  rw [List.findIdx?_eq_none_iff]
  intro a ha
  simpa using List.find?_eq_none.1 h a ha

/-- What is found stands somewhere in the list. -/
theorem exists_findIdx? {α : Type} {test : α → Bool} {l : List α} {a : α} (h : l.find? test = some a) :
    ∃ i, l.findIdx? test = some i ∧ i < l.length := by
  cases hplace : l.findIdx? test with
  | none =>
    have hnone := List.findIdx?_eq_none_iff.1 hplace a (List.mem_of_find?_eq_some h)
    rw [List.find?_some h] at hnone
    cases hnone
  | some i => exact ⟨i, rfl, (List.findIdx?_eq_some_iff_getElem.1 hplace).1⟩

namespace CompileRequest

/-- A call for each source: the files in their order, each with those before it linked, and then the unit with
all of them. -/
def tasks (r : CompileRequest) : List CompileTask :=
  r.auxiliaries.mapIdx (fun i f => f.task ((r.auxiliaries.take i).map (·.crate))) ++
    [r.primaryTask (r.auxiliaries.map (·.crate))]

/-- The calls for the sources before the first misnamed file. -/
def planned (r : CompileRequest) : List CompileTask :=
  upTo (r.auxiliaries.findIdx? (·.misnamed)) r.tasks

theorem planned_of_named {r : CompileRequest} (h : r.auxiliaries.find? (·.misnamed) = none) :
    r.planned = r.tasks := by
  rw [planned, findIdx?_eq_none h]
  rfl

end CompileRequest

/-- The calls for files that come after those that are linked. -/
def AuxiliaryFile.tasks (linked : List String) (files : List AuxiliaryFile) : List CompileTask :=
  files.mapIdx fun i f => f.task (linked ++ (files.take i).map (·.crate))

theorem AuxiliaryFile.tasks_cons (linked : List String) (f : AuxiliaryFile) (rest : List AuxiliaryFile) :
    tasks linked (f :: rest) = f.task linked :: tasks (linked ++ [f.crate]) rest := by
  simp [tasks, List.mapIdx_cons]

/-! ## Calls one after another -/

namespace Toolchain

/-- Goes on after calls that have all succeeded. -/
def onward (next : CompileProgress → Except ToolchainError Bool × CompileProgress) :
    Except ToolchainError Bool × CompileProgress → Except ToolchainError Bool × CompileProgress
  | (.ok true, p) => next p
  | stopped => stopped

/-- To go on twice is to go on by both in turn. -/
theorem onward_onward (next later : CompileProgress → Except ToolchainError Bool × CompileProgress)
    (answer : Except ToolchainError Bool × CompileProgress) :
    onward later (onward next answer) = onward (fun p => onward later (next p)) answer := by
  obtain ⟨result, p⟩ := answer
  match result with
  | .ok true => rfl
  | .ok false => rfl
  | .error e => rfl

theorem onward_done (answer : Except ToolchainError Bool × CompileProgress) :
    onward (fun p => (.ok true, p)) answer = answer := by
  obtain ⟨result, p⟩ := answer
  match result with
  | .ok true => rfl
  | .ok false => rfl
  | .error e => rfl

/-- Makes calls one after another until one fails. Gives whether all succeeded. -/
def callEach (t : Toolchain) : List CompileTask → CompileProgress → Except ToolchainError Bool × CompileProgress
  | [], p => (.ok true, p)
  | task :: rest, p => onward (t.callEach rest) (t.call task p)

/-- Stops with a word on a misnamed file, if there is one. -/
def blame (misnamed? : Option AuxiliaryFile) (p : CompileProgress) :
    Except ToolchainError Bool × CompileProgress :=
  match misnamed? with
  | none => (.ok true, p)
  | some f => (.ok false, { p with diagnostics := p.diagnostics ++ [f.nameError] })

variable (t : Toolchain)

theorem callEach_append (tasks others : List CompileTask) (p : CompileProgress) :
    t.callEach (tasks ++ others) p = onward (t.callEach others) (t.callEach tasks p) := by
  induction tasks generalizing p with
  | nil => rfl
  | cons task rest ih => rw [List.cons_append, callEach, callEach, onward_onward, funext ih]

theorem callEach_singleton (task : CompileTask) (p : CompileProgress) :
    t.callEach [task] p = t.call task p := onward_done _

/-- The calls for the files are made one after another up to the first misnamed one. -/
theorem callAuxiliaries_eq (linked : List String) (files : List AuxiliaryFile) (p : CompileProgress) :
    t.callAuxiliaries linked files p = onward (blame (files.find? (·.misnamed)))
      (t.callEach (upTo (files.findIdx? (·.misnamed)) (AuxiliaryFile.tasks linked files)) p) := by
  -- both sides stop at the first file if it is misnamed, and else go on with its crate linked
  induction files generalizing linked p with
  | nil => rfl
  | cons f rest ih =>
    rw [AuxiliaryFile.tasks_cons, List.find?_cons, List.findIdx?_cons, AuxiliaryFile.misnamed]
    cases hname : isCrateName f.crate with
    | false =>
      simp only [callAuxiliaries, hname]
      rfl
    | true =>
      have hcall : t.callAuxiliaries linked (f :: rest) p
          = onward (t.callAuxiliaries (linked ++ [f.crate]) rest) (t.call (f.task linked) p) := by
        simp only [callAuxiliaries, hname]
        rfl
      rw [hcall, funext (ih (linked ++ [f.crate]))]
      simp only [Bool.not_true, Bool.false_eq_true, if_false]
      rw [upTo_succ, callEach, onward_onward]

/-- A compile makes the planned calls one after another. -/
theorem callAll_eq (r : CompileRequest) (p : CompileProgress) :
    t.callAll r p = onward (blame (r.auxiliaries.find? (·.misnamed))) (t.callEach r.planned p) := by
  have hall : t.callAll r p = onward (t.call (r.primaryTask (r.auxiliaries.map (·.crate))))
      (t.callAuxiliaries [] r.auxiliaries p) := rfl
  have htasks : r.tasks = AuxiliaryFile.tasks [] r.auxiliaries ++
      [r.primaryTask (r.auxiliaries.map (·.crate))] := rfl
  rw [hall, callAuxiliaries_eq, onward_onward]
  -- with no file misnamed the unit comes after the files; else the plan ends before the misnamed one
  cases hfind : r.auxiliaries.find? (·.misnamed) with
  | none =>
    have hplanned : r.planned = AuxiliaryFile.tasks [] r.auxiliaries ++
        [r.primaryTask (r.auxiliaries.map (·.crate))] := CompileRequest.planned_of_named hfind
    have hnone : r.auxiliaries.findIdx? (·.misnamed) = none := findIdx?_eq_none hfind
    rw [hplanned, callEach_append, funext (t.callEach_singleton _), hnone]
    exact (onward_done _).symm
  | some f =>
    obtain ⟨i, hplace, hlt⟩ := exists_findIdx? hfind
    have hplanned : r.planned = upTo (some i) (AuxiliaryFile.tasks [] r.auxiliaries) := by
      rw [CompileRequest.planned, hplace]
      refine List.take_append_of_le_length ?_
      rw [List.length_mapIdx]
      exact Nat.le_of_lt hlt
    rw [hplanned, hplace]
    rfl

end Toolchain

/-! ## Exchanges -/

/-- A call with the task that it was made for and with what came of it. -/
structure CompilerExchange where
  task : CompileTask
  call : CompilerCall
  output : Output
  /-- The files of the scratch directory after it. -/
  left : Listing

def CompilerExchange.said (x : CompilerExchange) : List Diagnostic :=
  diagnosticsOf x.task.crate (Text.Utf8.decodeLossy x.output.stderr)

/-- How far a compile has come after one more exchange. -/
def CompileProgress.after (p : CompileProgress) (x : CompilerExchange) : CompileProgress where
  machine := { p.machine with calls := p.machine.calls ++ [x.call] }
  scratch := x.left
  diagnostics := p.diagnostics ++ x.said

/-- The files of a scratch directory after exchanges. -/
def Listing.after (scratch : Listing) (made : List CompilerExchange) : Listing :=
  (made.getLast?.map (·.left)).getD scratch

/-- How far a compile has come is told by its exchanges. -/
theorem CompileProgress.foldl_after (p : CompileProgress) (made : List CompilerExchange) :
    made.foldl after p = ⟨{ p.machine with calls := p.machine.calls ++ made.map (·.call) },
      Listing.after p.scratch made, p.diagnostics ++ made.flatMap (·.said)⟩ := by
  induction made generalizing p with
  | nil => simp [Listing.after]
  | cons x rest ih =>
    have hleft : Listing.after x.left rest = Listing.after p.scratch (x :: rest) := by
      rw [Listing.after, Listing.after, List.getLast?_cons]
      cases rest.getLast? <;> rfl
    rw [List.foldl_cons, ih, List.map_cons, List.flatMap_cons]
    simp only [after, List.append_assoc, List.singleton_append, hleft]

/-- An exchange with the compiler that a toolchain finds, about the task of the exchange. -/
structure CompilerExchange.Answers (x : CompilerExchange) (t : Toolchain) (m : Machine) (scratch : Listing) :
    Prop where
  arguments : x.call.arguments = x.task.arguments t.config m.scratch
  source : x.call.source = x.task.source
  answer : ∃ compiler,
    m.spawn t.config.compiler x.call.arguments t.config.workingDirectory = .ok (compiler, x.call.directory) ∧
    compiler.compile m.calls x.call scratch = (.ok x.output, x.left)

namespace Toolchain

/-- `t.Exchanges tasks p made`: made one after another from `p` on, the calls for `tasks` come to the exchanges
`made`, of which only the last may have failed. -/
inductive Exchanges (t : Toolchain) : List CompileTask → CompileProgress → List CompilerExchange → Prop where
  | done (p : CompileProgress) : Exchanges t [] p []
  | stop {x : CompilerExchange} {p : CompileProgress} (rest : List CompileTask)
      (hx : x.Answers t p.machine p.scratch) (hfailed : x.output.success = false) :
      Exchanges t (x.task :: rest) p [x]
  | next {x : CompilerExchange} {p : CompileProgress} {rest : List CompileTask} {made : List CompilerExchange}
      (hx : x.Answers t p.machine p.scratch) (hok : x.output.success = true)
      (hrest : Exchanges t rest (p.after x) made) : Exchanges t (x.task :: rest) p (x :: made)

variable {t : Toolchain} {p p' : CompileProgress} {task : CompileTask} {tasks : List CompileTask}
  {made : List CompilerExchange}

namespace Exchanges

/-- If all calls have succeeded, all tasks were called for. -/
theorem complete (h : t.Exchanges tasks p made) (hok : ∀ x ∈ made, x.output.success = true) :
    made.map (·.task) = tasks := by
  induction h with
  | done => rfl
  | stop _ _ hfailed =>
    rw [List.forall_mem_singleton.1 hok] at hfailed
    cases hfailed
  | next _ _ _ ih => rw [List.map_cons, ih (List.forall_mem_cons.1 hok).2]

/-- Every exchange is with the compiler that is found after those before it. -/
theorem answers (h : t.Exchanges tasks p made) {before after : List CompilerExchange} {x : CompilerExchange}
    (hmade : made = before ++ x :: after) :
    x.Answers t { p.machine with calls := p.machine.calls ++ before.map (·.call) }
      (Listing.after p.scratch before) := by
  -- along the induction the exchanges before are progress made, and only at the end listed
  suffices hprogress : x.Answers t (before.foldl .after p).machine (before.foldl .after p).scratch by
    rw [CompileProgress.foldl_after] at hprogress
    exact hprogress
  induction h generalizing before with
  | done => simp at hmade
  | stop _ hx =>
    rcases List.cons_eq_append_iff.1 hmade with ⟨rfl, hcons⟩ | ⟨before', rfl, hnil⟩
    · cases hcons
      exact hx
    · simp at hnil
  | next hx _ _ ih =>
    rcases List.cons_eq_append_iff.1 hmade with ⟨rfl, hcons⟩ | ⟨before', rfl, hmade'⟩
    · cases hcons
      exact hx
    · exact ih hmade'

end Exchanges

end Toolchain

/-! ## Transcripts -/

namespace CompileRequest

variable {r : CompileRequest} {t : Toolchain} {m : Machine} {made : List CompilerExchange}

end CompileRequest

/-! ## Outcomes -/

namespace CompileRequest

variable {r : CompileRequest} {t : Toolchain} {m m' : Machine} {made : List CompilerExchange}
  {outcome : CompileOutcome}

end CompileRequest

/-! ## Compilers that answer -/

namespace Toolchain

/-- The compiler of a toolchain can be started for a task, and no exchange with it about the task breaks off. -/
def Serves (t : Toolchain) (m : Machine) (task : CompileTask) : Prop :=
  ∃ compiler directory,
    m.spawn t.config.compiler (task.arguments t.config m.scratch) t.config.workingDirectory
      = .ok (compiler, directory) ∧
    ∀ earlier scratch, ∃ output left,
      compiler.compile earlier ⟨task.arguments t.config m.scratch, directory, task.source⟩ scratch
        = (.ok output, left)

variable {t : Toolchain} {m : Machine} {task : CompileTask} {tasks : List CompileTask} {p : CompileProgress}

theorem Serves.calls (h : t.Serves m task) (calls : List CompilerCall) : t.Serves { m with calls } task := by
  unfold Serves
  simp only [m.spawn_calls]
  exact h

theorem Serves.call (h : t.Serves p.machine task) : ∃ ok p', t.call task p = (.ok ok, p') := by
  obtain ⟨compiler, directory, hspawn, hcompile⟩ := h
  obtain ⟨output, left, hanswer⟩ := hcompile p.machine.calls p.scratch
  simp only [Toolchain.call, hspawn, hanswer]
  exact ⟨_, _, rfl⟩

end Toolchain

namespace CompileRequest

/-- A request with two files. -/
def linking : CompileRequest := ⟨"unit_b", "u", [⟨"c.rs", "y"⟩, ⟨"a.rs", "x"⟩]⟩

def linked : ArtifactStore :=
  (((ArtifactStore.empty (some "c")).put "unit_b" ⟨.primary, Text.Utf8.encode ("/s/" ++ "libunit_b.so"), "u"⟩).put "a"
    ⟨.auxiliary, Text.Utf8.encode ("/s/" ++ "liba.rlib"), "x"⟩).put "c"
      ⟨.auxiliary, Text.Utf8.encode ("/s/" ++ "libc.rlib"), "y"⟩

/-- A request with two files, of which the second names no crate. -/
def misnamed : CompileRequest := ⟨"unit_b", "u", [⟨"a.rs", "a"⟩, ⟨"2.rs", "c"⟩]⟩

end CompileRequest

end CircuitBlocks
