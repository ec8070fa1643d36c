import CircuitBlocks.Compilation.Basic

/-!
# Compile states — what a block knows of its last compile

A block was never compiled, or its last compile succeeded, or it failed. The record says what the last
attempt was made from. A failure keeps the artifacts of the last success.
-/

namespace CircuitBlocks

/-- The status that is shown and stored. -/
inductive CompileStatus where
  | notCompiled
  | success
  | error
  deriving DecidableEq, Repr

namespace CompileStatus

/-- The stored number of a status. -/
def ordinal : CompileStatus → Nat
  | notCompiled => 0
  | success => 1
  | error => 2

/-- The status of a stored number. -/
def ofOrdinal? : Nat → Option CompileStatus
  | 0 => some notCompiled
  | 1 => some success
  | 2 => some error
  | _ => none

/-- The wording of a status. -/
def text : CompileStatus → String
  | notCompiled => "not compiled"
  | success => "compiled"
  | error => "compile error"

@[simp] theorem ofOrdinal?_ordinal (s : CompileStatus) : ofOrdinal? s.ordinal = some s := by
  cases s <;> rfl

end CompileStatus

/-- What the last attempt was made from, and its message. -/
structure CompileRecord where
  artifactName : String
  source : String
  /-- The crates that were compiled alongside. -/
  crates : NameSet
  message : String
  deriving DecidableEq

/-- What a block knows of its last compile. -/
inductive CompileState where
  | uncompiled
  | compiled (record : CompileRecord) (store : ArtifactStore)
  /-- The artifacts are those of the last success. -/
  | failed (record : CompileRecord) (diagnostics : List Diagnostic)
      (retained : Option ArtifactStore)
  deriving DecidableEq

namespace CompileState

/-- The status of a state. -/
def status : CompileState → CompileStatus
  | uncompiled => .notCompiled
  | compiled .. => .success
  | failed .. => .error

/-- The record of the last attempt. -/
def record? : CompileState → Option CompileRecord
  | uncompiled => none
  | compiled record _ => some record
  | failed record _ _ => some record

/-- The artifacts that are held. -/
def store? : CompileState → Option ArtifactStore
  | uncompiled => none
  | compiled _ store => some store
  | failed _ _ retained => retained

/-- What the compiler said of a failed attempt. -/
def diagnostics : CompileState → List Diagnostic
  | failed _ diagnostics _ => diagnostics
  | _ => []

/-- The message of the last attempt. -/
def message (s : CompileState) : String :=
  match s.record? with
  | none => ""
  | some record => record.message

/-- The state after a failed attempt. -/
def fail (s : CompileState) (record : CompileRecord) (diagnostics : List Diagnostic) :
    CompileState :=
  .failed record diagnostics s.store?

@[simp] theorem store?_fail (s : CompileState) (r : CompileRecord) (ds : List Diagnostic) :
    (s.fail r ds).store? = s.store? := rfl

@[simp] theorem record?_fail (s : CompileState) (r : CompileRecord) (ds : List Diagnostic) :
    (s.fail r ds).record? = some r := rfl

end CompileState

/-- The record of a job's attempt. -/
def CompileJob.record (j : CompileJob) (message : String) : CompileRecord where
  artifactName := j.request.primaryName
  source := j.request.primarySource
  crates := crateNames j.request.auxiliaries
  message := message

/-- The state after the outcome of a job. -/
def CompileState.settle (s : CompileState) (j : CompileJob) : CompileOutcome → CompileState
  | .success store _ message => .compiled (j.record message) store
  | .failed diagnostics message => s.fail (j.record message) diagnostics

end CircuitBlocks
