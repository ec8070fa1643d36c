import CircuitBlocks.Artifact.Store
import CircuitBlocks.AuxiliaryFile
import CircuitBlocks.BlockId
import CircuitBlocks.Diagnostic.Basic
import CircuitBlocks.Fragments
import CircuitBlocks.Shape.Basic

/-!
# Compilations — what is asked of a compile, and what comes of it

A request holds all texts that one compile needs: the primary unit and the auxiliary files that are
linked into it. A job is a request together with the inputs of the block that it was made from, so that
a later reader can tell whether it still describes the block. The outcome is a complete artifact store,
or diagnostics and no artifacts.
-/

namespace CircuitBlocks

/-- All texts that one compile needs. -/
structure CompileRequest where
  primaryName : String
  primarySource : String
  /-- The files to compile first; each may use those before it. -/
  auxiliaries : List AuxiliaryFile
  deriving DecidableEq, Repr

/-- A request and the inputs of the block that it was made from. -/
structure CompileJob where
  block : BlockId
  fragments : Fragments
  shape : SignalShape
  hashes : List FileHash
  request : CompileRequest
  deriving DecidableEq

/-- What came of a compile, with the message to show. -/
inductive CompileOutcome where
  | success (store : ArtifactStore) (diagnostics : List Diagnostic) (message : String)
  | failed (diagnostics : List Diagnostic) (message : String)
  deriving DecidableEq

/-! ## Messages -/

/-- The line that ends the message of a success. -/
def successTrailer : String := "compilation finished successfully\n"

/-- The line that ends the message of a failure. -/
def errorTrailer : String := "compile status: ERROR\n"

namespace CompileOutcome

/-- A success with the message for its diagnostics. -/
def succeed (store : ArtifactStore) (diagnostics : List Diagnostic) : CompileOutcome :=
  .success store diagnostics (Diagnostic.textOfAll diagnostics ++ successTrailer)

/-- A failure with the message for its diagnostics. -/
def fail (diagnostics : List Diagnostic) : CompileOutcome :=
  .failed diagnostics (Diagnostic.textOfAll diagnostics ++ errorTrailer)

/-- The message to show. -/
def message : CompileOutcome → String
  | success _ _ message => message
  | failed _ message => message

/-- What the compiler said. -/
def diagnostics : CompileOutcome → List Diagnostic
  | success _ diagnostics _ => diagnostics
  | failed diagnostics _ => diagnostics

end CompileOutcome

/-! ## Names -/

/-- The names of the crates among the files. -/
def crateNames (files : List AuxiliaryFile) : NameSet := .ofList (files.map (·.crate))

/-- The first file that compiles to a crate. -/
def CompileRequest.auxiliary? (r : CompileRequest) (crate : String) : Option AuxiliaryFile :=
  r.auxiliaries.find? fun f => f.crate = crate

end CircuitBlocks
