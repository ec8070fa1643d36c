import CircuitBlocks.CompileState
import CircuitBlocks.SourceUnit.Basic

/-!
# Staleness — whether the last attempt still describes a block

The unit is put together again under the name of the last attempt and compared with the text that the
attempt was made from; after that, the sets of crate names are compared.
-/

namespace CircuitBlocks

/-- Whether a block has to be compiled again, and why. -/
inductive Staleness where
  | fresh
  | neverCompiled
  | sourceChanged
  | auxiliaryAdded (crate : String)
  | auxiliaryRemoved (crate : String)
  deriving DecidableEq, Repr

namespace Staleness

/-- Whether a block has to be compiled again. -/
def recompileRequired (s : Staleness) : Bool := s ≠ .fresh

/-- The wording of a staleness. -/
def text : Staleness → String
  | fresh => "up to date"
  | neverCompiled => "never compiled"
  | sourceChanged => "generated source changed"
  | auxiliaryAdded crate => s!"auxiliary file '{crate}' added"
  | auxiliaryRemoved crate => s!"auxiliary file '{crate}' removed"

/-- The staleness of inputs against the record of an attempt. Of several crates that differ the first
one is named. -/
def ofRecord (f : Fragments) (s : SignalShape) (crates : NameSet) (r : CompileRecord) :
    Staleness :=
  if unitText f s r.artifactName ≠ r.source then .sourceChanged
  else match crates.missingFrom r.crates with
    | added :: _ => .auxiliaryAdded added
    | [] =>
      match r.crates.missingFrom crates with
      | removed :: _ => .auxiliaryRemoved removed
      | [] => .fresh

/-- The staleness of inputs against a compile state. -/
def check (f : Fragments) (s : SignalShape) (crates : NameSet) (state : CompileState) : Staleness :=
  match state.record? with
  | none => .neverCompiled
  | some record => ofRecord f s crates record

end Staleness

end CircuitBlocks
