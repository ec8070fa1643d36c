import CircuitBlocks.Artifact.Export
import CircuitBlocks.BlockId
import CircuitBlocks.Project.Document
import CircuitBlocks.Toolchain.Basic

/-!
# Command failures — why a command ended early

A failure is reported in one line: what was being done, what went wrong, and the system's own words for
it, one after another.
-/

namespace CircuitBlocks

/-- Reasons in one line. -/
def reasonLine (reasons : List String) : String := String.intercalate ": " reasons

/-- A toolchain error, and the system's words for it. -/
def ToolchainError.reasons (e : ToolchainError) : List String :=
  match e with
  | notFound _ cause => [e.message, cause.message]
  | unusable .. => [e.message]
  | interrupted cause => [e.message, cause.message]

/-- A project error, and the words for its cause. -/
def ProjectError.reasons (e : ProjectError) : List String :=
  match e with
  | inaccessible _ cause => [e.message, cause.message]
  | malformed => [e.message, malformedDetail]
  | newerFormat _ => [e.message]

/-- Why a command ended early. -/
inductive CommandFailure where
  | configUnread (path : String) (cause : SystemError)
  | configMalformed (path : String)
  | unloaded (path : String) (cause : ProjectError)
  | unsaved (path : String) (cause : ProjectError)
  | unknownBlock (id : BlockId)
  | compilerUnusable (compiler : String) (cause : ToolchainError)
  | uncompiled (cause : ToolchainError)
  | noDirectory
  | noArtifacts (id : BlockId)
  | unexported (id : BlockId) (cause : ExportError)
  | severalBlocks
  | badValue (text : String)

/-- The reasons of a failure, the outermost first. -/
def CommandFailure.reasons : CommandFailure → List String
  | configUnread path cause => [s!"reading {path}", cause.message]
  | configMalformed path => [s!"parsing {path}", "not a toolchain configuration"]
  | unloaded path cause => s!"loading {path}" :: cause.reasons
  | unsaved path cause => s!"saving {path}" :: cause.reasons
  | unknownBlock id => [s!"no block '{id}' in project"]
  | compilerUnusable compiler cause =>
    s!"toolchain '{compiler}' is not usable" :: cause.reasons
  | uncompiled cause => cause.reasons
  | noDirectory => ["--emit export needs --out-dir"]
  | noArtifacts id => [s!"block {id} has no compiled artifacts"]
  | unexported id cause => [s!"exporting block {id}", cause.message]
  | severalBlocks => ["--emit run needs --block when the project has several blocks"]
  | badValue text => [s!"bad input value '{text}'", "invalid float literal"]

/-- The line that reports a failure. -/
def CommandFailure.line (f : CommandFailure) : String :=
  "codeblock: error: " ++ reasonLine f.reasons ++ "\n"

end CircuitBlocks
