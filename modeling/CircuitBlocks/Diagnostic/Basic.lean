import CircuitBlocks.Text.Blank

/-!
# Diagnostics — what a compiler said about a unit

A diagnostic belongs to one compiled unit. Where the compiler gave a rendering of its own, that is what
is shown; otherwise the parts are put together.
-/

namespace CircuitBlocks

/-- How grave a diagnostic is. -/
inductive Severity where
  | error
  | warning
  | note
  deriving DecidableEq, Repr

/-- The name of a severity. -/
def Severity.name : Severity → String
  | error => "error"
  | warning => "warning"
  | note => "note"

/-- The lines that a diagnostic is about, the last one included. -/
structure LineRange where
  start : Nat
  last : Nat
  deriving DecidableEq, Repr

/-- What a compiler said about a unit. -/
structure Diagnostic where
  /-- The name of the artifact or crate that it is about. -/
  subject : String
  severity : Severity
  message : String
  code : Option String := none
  lines : Option LineRange := none
  /-- The compiler's own rendering. -/
  rendered : Option String := none
  deriving DecidableEq, Repr

namespace Diagnostic

/-- Whether the diagnostic is an error. -/
def isError (d : Diagnostic) : Bool := d.severity = .error

/-- The severity, and the code if there is one. -/
def heading (d : Diagnostic) : String :=
  match d.code with
  | none => d.severity.name
  | some code => d.severity.name ++ "[" ++ code ++ "]"

/-- Where the diagnostic is, if that is known. -/
def place (d : Diagnostic) : String :=
  match d.lines with
  | none => ""
  | some lines => s!" (line {lines.start})"

/-- The diagnostic as text. -/
def text (d : Diagnostic) : String :=
  match d.rendered with
  | some rendered => "[" ++ d.subject ++ "] " ++ Text.trimEnd rendered
  | none => "[" ++ d.subject ++ "] " ++ d.heading ++ ": " ++ d.message ++ d.place

/-- Diagnostics as text, each ended by a newline. -/
def textOfAll (ds : List Diagnostic) : String := String.join (ds.map fun d => d.text ++ "\n")

example : (Diagnostic.text ⟨"u", .warning, "unused", some "W1", some ⟨12, 14⟩, none⟩) =
    "[u] warning[W1]: unused (line 12)" := by decide

end Diagnostic

end CircuitBlocks
