import CircuitBlocks.Diagnostic.Messages
import CircuitBlocks.Proofs.Json.Documents
import CircuitBlocks.Proofs.Json.Record
import CircuitBlocks.Proofs.Text.Blank

/-!
# Compiler messages — what a line of output contributes

* `MessageRecord.IsCode` and `MessageRecord.IsSpan` — what a code and a span are written as.
* `MessageRecord.ReadFrom` — the record that an object holds, told by its members and not by how they are read.
* `recordOfLine?_eq_some_iff` — which lines hold a record.
* `diagnosticsOf_eq_flatMap` — the lines of an output are read one by one, wherever they end.
* **`diagnosticsOf_exact`** — each line contributes by itself, and nothing that is no record is lost.
-/

namespace CircuitBlocks

/-! ## Records -/

namespace MessageRecord

variable {members : List (String × Json)} {items : List Json} {r : MessageRecord}

/-- The value is a code: an object with a text under `code`, or an array of that text. -/
def IsCode (v : Json) (code : String) : Prop :=
  (∃ members, v = .object members ∧ Json.AllNamed members ∧ Json.HasField members "code" Json.IsText none code) ∨
  ∃ item, v = .array [item] ∧ Json.IsText item code

/-- The value is a span: an object with its first and last line, each a natural of eight bytes, and whether it is a
primary one, or an array of these three. -/
def IsSpan (v : Json) (span : LineRange × Bool) : Prop :=
  (∃ members, v = .object members ∧ Json.AllNamed members ∧
    Json.HasField members "line_start" (Json.IsNatural (UInt64.size - 1)) none span.1.start ∧
    Json.HasField members "line_end" (Json.IsNatural (UInt64.size - 1)) none span.1.last ∧
    Json.HasField members "is_primary" Json.IsBool none span.2) ∨
  ∃ start last primary, v = .array [start, last, primary] ∧ Json.IsNatural (UInt64.size - 1) start span.1.start ∧
    Json.IsNatural (UInt64.size - 1) last span.1.last ∧ Json.IsBool primary span.2

/-- The record that the members of an object make up. All names have a meaning, and no name of a field comes
twice. A field that is left out counts as nothing or as empty; members with other names make no difference. -/
structure ReadFrom (members : List (String × Json)) (r : MessageRecord) : Prop where
  named : Json.AllNamed members
  type : Json.HasField members "$message_type" (Json.IsNullable Json.IsText) (some none) r.type
  message : Json.HasField members "message" Json.IsText (some "") r.message
  level : Json.HasField members "level" Json.IsText (some "") r.level
  code : Json.HasField members "code" (Json.IsNullable IsCode) (some none) r.code
  spans : Json.HasField members "spans" (Json.IsList IsSpan) (some []) r.spans
  rendered : Json.HasField members "rendered" (Json.IsNullable Json.IsText) (some none) r.rendered

/-- The code is read off the field that holds it. -/
theorem code?_eq_some_iff (v : Json) (code : String) : code? v = some code ↔ IsCode v code := by
  simp only [code?, IsCode, Option.bind_eq_bind, Option.bind_eq_some_iff]
  cases v with
  | object members =>
    simp only [Json.fields?_object_eq_some_iff, Json.object.injEq, reduceCtorEq, false_and, exists_false, or_false]
    constructor
    · rintro ⟨f, ⟨hnamed, honce, rfl⟩, hcode⟩
      exact ⟨members, rfl, hnamed, (Json.required_eq_some_iff Json.readText_eq_some_iff (by decide) honce).1 hcode⟩
    · rintro ⟨_, rfl, hnamed, hcode⟩
      have honce : Json.Once ["code"] members := List.forall_mem_singleton.2 hcode.length_le
      exact ⟨_, ⟨hnamed, honce, rfl⟩,
        (Json.required_eq_some_iff Json.readText_eq_some_iff (by decide) honce).2 hcode⟩
  | array items =>
    -- an array has the fields in their order, so it must have as many items
    rcases items with _ | ⟨item, _ | ⟨item', rest⟩⟩
    · simp [Json.fields?, Json.Fields.required, Json.Fields.get?]
    · simp [Json.fields?, Json.Fields.required, Json.Fields.get?, Json.readText_eq_some_iff]
    · simp [Json.fields?]
  | null | bool _ | number _ | string _ => simp [Json.fields?]

/-- An object is a span just if it has its three fields. -/
theorem span?_object_eq_some_iff {span : LineRange × Bool} : span? (.object members) = some span ↔
    Json.AllNamed members ∧ Json.HasField members "line_start" (Json.IsNatural (UInt64.size - 1)) none span.1.start ∧
      Json.HasField members "line_end" (Json.IsNatural (UInt64.size - 1)) none span.1.last ∧
      Json.HasField members "is_primary" Json.IsBool none span.2 := by
  rw [← Json.limit64_eq]
  simp only [span?, Option.bind_eq_bind, Option.bind_eq_some_iff, Json.fields?_object_eq_some_iff]
  constructor
  · rintro ⟨f, ⟨hnamed, honce, rfl⟩, start, hstart, last, hlast, primary, hprimary, hspan⟩
    obtain rfl := Option.some.inj hspan
    exact ⟨hnamed, (Json.required_eq_some_iff Json.readNatural_eq_some_iff (by decide) honce).1 hstart,
      (Json.required_eq_some_iff Json.readNatural_eq_some_iff (by decide) honce).1 hlast,
      (Json.required_eq_some_iff Json.readBool_eq_some_iff (by decide) honce).1 hprimary⟩
  · rintro ⟨hnamed, hstart, hlast, hprimary⟩
    -- a field with a value has one member of its name, and so none comes twice
    have honce : Json.Once ["line_start", "line_end", "is_primary"] members := by
      simp only [Json.Once, List.forall_mem_cons]
      exact ⟨hstart.length_le, hlast.length_le, hprimary.length_le, List.forall_mem_nil _⟩
    exact ⟨_, ⟨hnamed, honce, rfl⟩,
      _, (Json.required_eq_some_iff Json.readNatural_eq_some_iff (by decide) honce).2 hstart,
      _, (Json.required_eq_some_iff Json.readNatural_eq_some_iff (by decide) honce).2 hlast,
      _, (Json.required_eq_some_iff Json.readBool_eq_some_iff (by decide) honce).2 hprimary, rfl⟩

/-- An array is a span just if it has three items. -/
theorem span?_array_eq_some_iff {span : LineRange × Bool} : span? (.array items) = some span ↔
    ∃ start last primary, items = [start, last, primary] ∧ Json.IsNatural (UInt64.size - 1) start span.1.start ∧
      Json.IsNatural (UInt64.size - 1) last span.1.last ∧ Json.IsBool primary span.2 := by
  rw [← Json.limit64_eq]
  simp only [span?, Option.bind_eq_bind, Option.bind_eq_some_iff]
  -- too few items, or one too many, are no span
  rcases items with _ | ⟨start, _ | ⟨last, _ | ⟨primary, _ | ⟨more, rest⟩⟩⟩⟩
  · simp [Json.fields?, Json.Fields.required, Json.Fields.get?]
  · simp [Json.fields?, Json.Fields.required, Json.Fields.get?, List.lookup_cons]
  · simp [Json.fields?, Json.Fields.required, Json.Fields.get?, List.lookup_cons]
  · simp only [← Json.readNatural_eq_some_iff, ← Json.readBool_eq_some_iff]
    constructor
    · rintro ⟨f, hf, first, hstart, final, hlast, p, hprimary, hspan⟩
      obtain rfl := Option.some.inj hf
      obtain rfl := Option.some.inj hspan
      exact ⟨start, last, primary, rfl, hstart, hlast, hprimary⟩
    · rintro ⟨_, _, _, hitems, hstart, hlast, hprimary⟩
      cases hitems
      exact ⟨_, rfl, _, hstart, _, hlast, _, hprimary, rfl⟩
  · simp [Json.fields?]

/-- A span is read off its three fields. -/
theorem span?_eq_some_iff (v : Json) (span : LineRange × Bool) : span? v = some span ↔ IsSpan v span := by
  rw [IsSpan]
  cases v with
  | object members => simp [span?_object_eq_some_iff]
  | array items => simp [span?_array_eq_some_iff]
  | null | bool _ | number _ | string _ => simp [span?, Json.fields?]

/-- An object is read as a record just if each field of the record is read from the members of its name. -/
theorem ofDocument?_object_eq_some_iff : ofDocument? (.object members) = some r ↔ ReadFrom members r := by
  have htext := Json.readText_eq_some_iff
  have hspans := Json.readList_eq_some_iff span?_eq_some_iff
  simp only [ofDocument?, Option.bind_eq_bind, Option.bind_eq_some_iff, Json.fields?_object_eq_some_iff]
  constructor
  · rintro ⟨f, ⟨hnamed, honce, rfl⟩, type, htype, message, hmessage, level, hlevel, code, hcode, spans, hspan,
      rendered, hrendered, hr⟩
    obtain rfl := Option.some.inj hr
    exact {
      named := hnamed
      type := (Json.nullable_eq_some_iff htext (by decide) honce).1 htype
      message := (Json.withDefault_eq_some_iff htext (by decide) honce).1 hmessage
      level := (Json.withDefault_eq_some_iff htext (by decide) honce).1 hlevel
      code := (Json.nullable_eq_some_iff code?_eq_some_iff (by decide) honce).1 hcode
      spans := (Json.withDefault_eq_some_iff hspans (by decide) honce).1 hspan
      rendered := (Json.nullable_eq_some_iff htext (by decide) honce).1 hrendered }
  · rintro ⟨hnamed, htype, hmessage, hlevel, hcode, hspan, hrendered⟩
    -- as for spans: each field tells that its name comes once
    have honce : Json.Once ["$message_type", "message", "level", "code", "spans", "rendered"] members := by
      simp only [Json.Once, List.forall_mem_cons]
      exact ⟨htype.length_le, hmessage.length_le, hlevel.length_le, hcode.length_le, hspan.length_le,
        hrendered.length_le, List.forall_mem_nil _⟩
    exact ⟨_, ⟨hnamed, honce, rfl⟩, _, (Json.nullable_eq_some_iff htext (by decide) honce).2 htype,
      _, (Json.withDefault_eq_some_iff htext (by decide) honce).2 hmessage,
      _, (Json.withDefault_eq_some_iff htext (by decide) honce).2 hlevel,
      _, (Json.nullable_eq_some_iff code?_eq_some_iff (by decide) honce).2 hcode,
      _, (Json.withDefault_eq_some_iff hspans (by decide) honce).2 hspan,
      _, (Json.nullable_eq_some_iff htext (by decide) honce).2 hrendered, rfl⟩

/-! ## Diagnostics -/

/-- The diagnostic tells of a unit what the record says. -/
structure Tells (r : MessageRecord) (subject : String) (d : Diagnostic) : Prop where
  subject : d.subject = subject
  error : d.severity = .error ↔ r.level = "error" ∨ r.level = "error: internal compiler error"
  warning : d.severity = .warning ↔ r.level = "warning"
  message : d.message = r.message
  code : d.code = r.code
  rendered : d.rendered = r.rendered
  /-- The lines are those of the first primary span. -/
  lines : ∀ lines, d.lines = some lines ↔ ∃ before after, r.spans = before ++ (lines, true) :: after ∧
    ∀ span ∈ before, span.2 = false

/-- The record has no spans, and sums up the errors before it. -/
def SumsUp (r : MessageRecord) : Prop := r.spans = [] ∧ "aborting due to".toList <+: r.message.toList

theorem isDiagnostic_iff : r.isDiagnostic = true ↔ r.type = none ∨ r.type = some "diagnostic" := by
  rw [isDiagnostic]
  split
  · next h => simp [h]
  · next type h => simp [h]

theorem isSummary_iff : r.isSummary = true ↔ SumsUp r := by
  rw [isSummary, Bool.and_eq_true, List.isEmpty_iff, Text.startsWith_iff, SumsUp]

/-- There are two words for an error. -/
theorem severityOf_eq_error_iff {level : String} :
    severityOf level = .error ↔ level = "error" ∨ level = "error: internal compiler error" := by
  rw [severityOf]
  split
  · next h => simp [h]
  · next h => split <;> simp [h]

theorem severityOf_eq_warning_iff {level : String} : severityOf level = .warning ↔ level = "warning" := by
  rw [severityOf]
  split
  · next h => rcases h with rfl | rfl <;> decide
  · split
    · next h => simp [h]
    · next h => simp [h]

/-- The diagnostic that is made of a record tells what is in it. -/
theorem tells_diagnostic (r : MessageRecord) (subject : String) : Tells r subject (r.diagnostic subject) where
  subject := rfl
  error := severityOf_eq_error_iff
  warning := severityOf_eq_warning_iff
  message := rfl
  code := rfl
  rendered := rfl
  lines lines := by
    -- the first primary span is the one that no other primary span stands before
    simp only [diagnostic, Option.map_eq_some_iff, List.find?_eq_some_iff_append]
    constructor
    · rintro ⟨⟨_, primary⟩, ⟨hprimary, before, after, hspans, hbefore⟩, rfl⟩
      obtain rfl : primary = true := hprimary
      exact ⟨before, after, hspans, fun span hspan => by simpa using hbefore span hspan⟩
    · rintro ⟨before, after, hspans, hbefore⟩
      exact ⟨(lines, true), ⟨rfl, before, after, hspans, fun span hspan => by simp [hbefore span hspan]⟩, rfl⟩

end MessageRecord

/-! ## Lines -/

/-- A text, without the blanks at its ends, is an object, and this is the record that its members make up. -/
def HoldsRecord (text : String) (r : MessageRecord) : Prop :=
  ∃ members, Json.IsDocument text.toList (.object members) ∧ MessageRecord.ReadFrom members r

/-- Whatever may stand between the tokens of a document is blank. -/
theorem isBlank_of_isBlank {c : Char} (h : Json.IsBlank c) : Text.isBlank c = true := by
  rcases h with rfl | rfl | rfl | rfl <;> decide

/-- The record of a line. A line without blanks in front begins with the brace of its object. -/
theorem recordOfLine?_eq_some_iff {text : String} {r : MessageRecord}
    (hfirst : ∀ c ∈ text.toList.head?, Text.isBlank c = false) :
    recordOfLine? text = some r ↔ HoldsRecord text r := by
  rw [recordOfLine?]
  constructor
  · intro h
    split at h
    · next hbrace =>
      -- whatever document begins with a brace, it is an object
      obtain ⟨rest, hrest⟩ := Text.startsWith_iff.1 hbrace
      obtain ⟨v, hv, hr⟩ := Option.bind_eq_some_iff.1 h
      have hdocument := Json.parse?_eq_some_iff.1 hv
      obtain ⟨members, rfl⟩ := hdocument.exists_object hrest.symm
      exact ⟨members, hdocument, MessageRecord.ofDocument?_object_eq_some_iff.1 hr⟩
    · cases h
  · rintro ⟨members, hdocument, hr⟩
    have hbrace : Text.startsWith text "\x7b" = true := by
      have hnone : ∀ c ∈ text.toList.head?, ¬ Json.IsBlank c := by
        intro c hc hblank
        have hnot := hfirst c hc
        rw [isBlank_of_isBlank hblank] at hnot
        cases hnot
      obtain ⟨rest, hrest⟩ := hdocument.exists_cons hnone
      exact Text.startsWith_iff.2 ⟨rest, hrest.symm⟩
    rw [if_pos hbrace, Json.parse?_eq_some_iff.2 hdocument]
    exact MessageRecord.ofDocument?_object_eq_some_iff.2 hr

/-- A blank line contributes nothing, a record its diagnostic, and any other line a note. -/
theorem diagnosticsOfLine_of_trims {subject line text : String} (h : Text.Trims line text) :
    diagnosticsOfLine subject line =
      if text = "" then []
      else match recordOfLine? text with
        | none => [{ subject, severity := .note, message := text }]
        | some r => if r.isDiagnostic && !r.isSummary then [r.diagnostic subject] else [] := by
  obtain rfl : Text.trim line = text := Text.trim_eq_iff.2 h
  cases hrecord : recordOfLine? (Text.trim line) <;> simp only [diagnosticsOfLine, hrecord]

/-- All pieces between newlines are read as lines, since nothing that ends a line makes a difference. -/
theorem diagnosticsOf_eq_flatMap (subject output : String) : diagnosticsOf subject output =
    (Text.splitAtChar '\n' output.toList).flatMap fun piece => diagnosticsOfLine subject (String.ofList piece) := by
  rw [diagnosticsOf, Text.lines, List.flatMap_map, Text.linesOfChars]
  generalize Text.splitAtChar '\n' output.toList = pieces
  induction pieces with
  | nil => rfl
  | cons p ps ih =>
    cases ps with
    | nil =>
      -- an empty piece at the end is no line, but it would contribute nothing anyway
      rw [Text.linesOfPieces]
      split
      · next hp => rw [hp]; rfl
      · rfl
    | cons q ps =>
      -- a return before the newline is trimmed like any other blank
      have hp : diagnosticsOfLine subject (String.ofList (Text.dropReturn p))
          = diagnosticsOfLine subject (String.ofList p) := by
        rw [diagnosticsOfLine, Text.trim_dropReturn, ← diagnosticsOfLine]
      rw [Text.linesOfPieces, List.flatMap_cons, ih, hp]
      rfl

/-- A newline parts a stream into two that are read by themselves. -/
theorem diagnosticsOf_append_newline (subject a b : String) :
    diagnosticsOf subject (a ++ "\n" ++ b) = diagnosticsOf subject a ++ diagnosticsOf subject b := by
  have hchars : (a ++ "\n" ++ b).toList = a.toList ++ '\n' :: b.toList := by
    rw [String.toList_append, String.toList_append, List.append_assoc]
    rfl
  rw [diagnosticsOf_eq_flatMap, hchars, Text.splitAtChar_append_cons, List.flatMap_append,
    ← diagnosticsOf_eq_flatMap, ← diagnosticsOf_eq_flatMap]

theorem diagnosticsOf_of_line (subject : String) {line : String} (h : '\n' ∉ line.toList) :
    diagnosticsOf subject line = diagnosticsOfLine subject line := by
  rw [diagnosticsOf_eq_flatMap, Text.splitAtChar_of_not_mem h, List.flatMap_cons, List.flatMap_nil, List.append_nil,
    String.ofList_toList]

/-- **Each line contributes by itself.** Output that is cut at a newline is read in two parts. A line without newline
contributes nothing if it is blank, and otherwise, if it holds no record, exactly one note with what is left of it
between blanks. A record of a diagnostic contributes exactly one diagnostic that tells what the record says, unless it
only sums up. Any other record contributes nothing. -/
theorem diagnosticsOf_exact (subject : String) :
    (∀ a b, diagnosticsOf subject (a ++ "\n" ++ b) = diagnosticsOf subject a ++ diagnosticsOf subject b) ∧
    ∀ line text, '\n' ∉ line.toList → Text.Trims line text →
      (text = "" → diagnosticsOf subject line = []) ∧
      (text ≠ "" → (∀ r, ¬ HoldsRecord text r) →
        diagnosticsOf subject line = [{ subject, severity := .note, message := text }]) ∧
      ∀ r, HoldsRecord text r →
        ((r.type = none ∨ r.type = some "diagnostic") ∧ ¬ r.SumsUp →
          ∃ d, diagnosticsOf subject line = [d] ∧ r.Tells subject d) ∧
        (¬ ((r.type = none ∨ r.type = some "diagnostic") ∧ ¬ r.SumsUp) → diagnosticsOf subject line = []) := by
  refine ⟨diagnosticsOf_append_newline subject, fun line text hline htrims => ?_⟩
  have hrecord : ∀ r, recordOfLine? text = some r ↔ HoldsRecord text r := fun r =>
    recordOfLine?_eq_some_iff htrims.first
  rw [diagnosticsOf_of_line subject hline, diagnosticsOfLine_of_trims htrims]
  refine ⟨fun hempty => if_pos hempty, fun hne hnone => ?_, fun r hr => ?_⟩
  · have hread : recordOfLine? text = none :=
      Option.eq_none_iff_forall_ne_some.2 fun r h => hnone r ((hrecord r).1 h)
    rw [if_neg hne, hread]
  · have hread := (hrecord r).2 hr
    have hne : text ≠ "" := by
      rintro rfl
      cases hread
    -- what is tested of a record is what the statement says of it
    have hcounts : (r.isDiagnostic && !r.isSummary) = true ↔
        (r.type = none ∨ r.type = some "diagnostic") ∧ ¬ r.SumsUp := by
      rw [Bool.and_eq_true, MessageRecord.isDiagnostic_iff, Bool.not_eq_true', ← Bool.not_eq_true,
        MessageRecord.isSummary_iff]
    rw [if_neg hne, hread]
    refine ⟨fun hdiagnostic => ⟨r.diagnostic subject, if_pos (hcounts.2 hdiagnostic), r.tells_diagnostic subject⟩,
      fun hother => if_neg (mt hcounts.1 hother)⟩

/-! ### An output with a record of each kind -/

/-- A line is a record if its characters are read as one. A literal is the list of its characters, which it is far
quicker to read than to get from it. -/
theorem holdsRecord_of_chars {line : String} {r : MessageRecord}
    (h : ∃ cs, line = String.ofList cs ∧ '\n' ∉ cs ∧ cs.head? = some '\x7b' ∧ cs.getLast? = some '\x7d' ∧
      ((Json.tokens? cs).bind Json.ofTokens?).bind MessageRecord.ofDocument? = some r) :
    '\n' ∉ line.toList ∧ Text.Trims line line ∧ HoldsRecord line r := by
  obtain ⟨cs, rfl, hnewline, hfirst, hlast, hr⟩ := h
  have hbrace : ∀ c ∈ (String.ofList cs).toList.head?, Text.isBlank c = false := by
    rw [String.toList_ofList, hfirst]
    rintro c ⟨⟩
    decide
  have hend : ∀ c ∈ (String.ofList cs).toList.getLast?, Text.isBlank c = false := by
    rw [String.toList_ofList, hlast]
    rintro c ⟨⟩
    decide
  -- nothing of the line is blank at its ends, so there is nothing to trim
  refine ⟨by rwa [String.toList_ofList],
    ⟨⟨[], [], by simp, List.forall_mem_nil _, List.forall_mem_nil _⟩, hbrace, hend⟩, ?_⟩
  rw [← recordOfLine?_eq_some_iff hbrace, recordOfLine?, Json.parse?, String.toList_ofList, if_pos]
  · exact hr
  · obtain ⟨rest, rfl⟩ := List.head?_eq_some_iff.1 hfirst
    exact Text.startsWith_iff.2 ⟨rest, String.toList_ofList.symm⟩

/-- An error with a code and a span, in a record with more names than are read. -/
def errorLine : String := String.ofList
  ("\x7b\"$message_type\":\"diagnostic\",\"message\":\"mismatched types\",\"code\":\x7b\"code\":\"E0308\",".toList ++
    "\"explanation\":null\x7d,\"level\":\"error\",\"spans\":[\x7b\"line_start\":31,\"line_end\":33,".toList ++
    "\"is_primary\":true\x7d],\"children\":[],\"rendered\":\"error[E0308]: mismatched types\\n\"\x7d".toList)

/-- A summary of errors, with null for a code. -/
def summaryLine : String :=
  "\x7b\"message\":\"aborting due to 1 previous error\",\"code\":null,\"level\":\"error\",\"spans\":[]\x7d"

/-- A record that is no diagnostic. -/
def artifactLine : String := "\x7b\"$message_type\":\"artifact\",\"artifact\":\"x\",\"emit\":\"link\"\x7d"

set_option maxRecDepth 10000 in
/-- Of an error, its summary, a record that is no diagnostic, and a plain line, the first and the last one are kept,
with all that they say. -/
theorem diagnosticsOf_exact_stream :
    ∃ d, diagnosticsOf "unit_7" (errorLine ++ "\n" ++ (summaryLine ++ "\n" ++ (artifactLine ++ "\n" ++
        ("note: some plain line\r" ++ "\n" ++ ""))))
      = [d, { subject := "unit_7", severity := .note, message := "note: some plain line" }] ∧
      d.severity = .error ∧ d.message = "mismatched types" ∧ d.code = some "E0308" ∧ d.lines = some ⟨31, 33⟩ ∧
      d.rendered = some "error[E0308]: mismatched types\n" := by
  obtain ⟨hsplit, hline⟩ := diagnosticsOf_exact "unit_7"
  -- the error is kept
  obtain ⟨hnewline, htrims, hrecord⟩ := @holdsRecord_of_chars errorLine
    ⟨some "diagnostic", "mismatched types", "error", some "E0308", [(⟨31, 33⟩, true)],
      some "error[E0308]: mismatched types\n"⟩ ⟨_, rfl, by decide +kernel, rfl, rfl, by decide +kernel⟩
  obtain ⟨d, herror, htells⟩ := (((hline _ _ hnewline htrims).2.2 _ hrecord).1 ⟨.inr rfl, fun h => nomatch h.1⟩)
  have hlines : d.lines = some ⟨31, 33⟩ := (htells.lines _).2 ⟨[], [], rfl, List.forall_mem_nil _⟩
  -- the two other records are not
  obtain ⟨hnewline, htrims, hrecord⟩ := @holdsRecord_of_chars summaryLine
    ⟨none, "aborting due to 1 previous error", "error", none, [], none⟩
    ⟨_, rfl, by decide +kernel, rfl, rfl, by decide +kernel⟩
  have hsummary : diagnosticsOf "unit_7" summaryLine = [] :=
    ((hline _ _ hnewline htrims).2.2 _ hrecord).2 fun h => h.2 ⟨rfl, by decide +kernel⟩
  obtain ⟨hnewline, htrims, hrecord⟩ := @holdsRecord_of_chars artifactLine
    ⟨some "artifact", "", "", none, [], none⟩ ⟨_, rfl, by decide +kernel, rfl, rfl, by decide +kernel⟩
  have hartifact : diagnosticsOf "unit_7" artifactLine = [] :=
    ((hline _ _ hnewline htrims).2.2 _ hrecord).2 fun h => absurd h.1 (by decide)
  -- the plain line is no document, and nothing stands after its newline
  have hplain : Text.Trims "note: some plain line\r" "note: some plain line" := Text.trim_eq_iff.1 (by decide)
  have hnone : ∀ r, ¬ HoldsRecord "note: some plain line" r := fun r h =>
    nomatch (recordOfLine?_eq_some_iff hplain.first).2 h
  have hnote := (hline _ _ (by decide) hplain).2.1 (by decide) hnone
  have hend := (hline "" "" (by decide) (Text.trim_eq_iff.1 rfl)).1 rfl
  refine ⟨d, ?_, htells.error.2 (.inl rfl), htells.message, htells.code, hlines, htells.rendered⟩
  rw [hsplit, hsplit, hsplit, hsplit, herror, hsummary, hartifact, hnote, hend]
  rfl

end CircuitBlocks
