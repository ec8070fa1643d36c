import CircuitBlocks.Diagnostic.Basic
import CircuitBlocks.Json.Parser
import CircuitBlocks.Json.Record
import CircuitBlocks.Text.Lines

/-!
# Compiler messages — diagnostics read from a compiler's error output

A compiler writes one record a line. A line that holds no such record is kept as a note, so nothing
that was printed is lost; only records of other types than diagnostics and the closing summary are
dropped.

`diagnosticsOf` reads all lines; each line stands for itself.
-/

namespace CircuitBlocks

/-! ## Records -/

/-- A record as a compiler writes it. -/
structure MessageRecord where
  /-- The type of the record; diagnostics need none. -/
  type : Option String
  message : String
  level : String
  code : Option String
  /-- The spans, and whether each is a primary one. -/
  spans : List (LineRange × Bool)
  rendered : Option String
  deriving DecidableEq, Repr

namespace MessageRecord

/-- The code of a document. -/
def code? (v : Json) : Option String := do
  (← v.fields? ["code"]).required "code" Json.readText

/-- The span of a document, and whether it is a primary one. -/
def span? (v : Json) : Option (LineRange × Bool) := do
  let f ← v.fields? ["line_start", "line_end", "is_primary"]
  let start ← f.required "line_start" (Json.readNatural Json.limit64)
  let last ← f.required "line_end" (Json.readNatural Json.limit64)
  return (⟨start, last⟩, ← f.required "is_primary" Json.readBool)

/-- The record of a document. -/
def ofDocument? (v : Json) : Option MessageRecord := do
  let f ← v.fields? ["$message_type", "message", "level", "code", "spans", "rendered"]
  return {
    type := ← f.nullable "$message_type" Json.readText
    message := ← f.withDefault "message" "" Json.readText
    level := ← f.withDefault "level" "" Json.readText
    code := ← f.nullable "code" code?
    spans := ← f.withDefault "spans" [] (Json.readList span?)
    rendered := ← f.nullable "rendered" Json.readText }

/-- Whether the record is a diagnostic. -/
def isDiagnostic (r : MessageRecord) : Bool :=
  match r.type with
  | none => true
  | some type => type = "diagnostic"

/-- Whether the record only sums up those before it. -/
def isSummary (r : MessageRecord) : Bool :=
  r.spans.isEmpty && Text.startsWith r.message "aborting due to"

/-- The severity of a compiler's level. -/
def severityOf (level : String) : Severity :=
  if level = "error" ∨ level = "error: internal compiler error" then .error
  else if level = "warning" then .warning
  else .note

/-- The diagnostic of a record. Its lines are those of the first primary span. -/
def diagnostic (r : MessageRecord) (subject : String) : Diagnostic where
  subject := subject
  severity := severityOf r.level
  message := r.message
  code := r.code
  lines := (r.spans.find? (·.2)).map (·.1)
  rendered := r.rendered

end MessageRecord

/-! ## Lines -/

/-- The record that a line holds. -/
def recordOfLine? (line : String) : Option MessageRecord :=
  if Text.startsWith line "\x7b" then (Json.parse? line).bind MessageRecord.ofDocument? else none

/-- The diagnostics of one line. -/
def diagnosticsOfLine (subject line : String) : List Diagnostic :=
  let line := Text.trim line
  if line = "" then []
  else match recordOfLine? line with
    | none => [{ subject, severity := .note, message := line }]
    | some r => if r.isDiagnostic && !r.isSummary then [r.diagnostic subject] else []

/-- The diagnostics of a compiler's error output about a unit. -/
def diagnosticsOf (subject output : String) : List Diagnostic :=
  (Text.lines output).flatMap (diagnosticsOfLine subject)

end CircuitBlocks
