import CircuitBlocks.Proofs.SourceUnit.Layout

/-!
# Reading — the output buffer that a text allocates

The text of a unit tells the layout of the outputs once, where the constructor of the procedure allocates
the output buffer. Before it stand fragments that may imitate it, but those after it are indented further
than the first line of the constructor, so the last such line is that of the unit.

* `SourceUnit.bufferExpression?` reads the expression of the output buffer from a text, and
  **`SourceUnit.bufferExpression?_unitText`** says that it reads the one that was written.
* `Template.Denotes` — the widths that an expression denotes; **`Template.denotes_bufferExpression_iff`**
  says that these are the output widths of the shape.
-/

namespace CircuitBlocks

/-! ## The last mark in a list -/

namespace Text

variable {α : Type} [DecidableEq α] {mark : α} {rest : List α}

/-- What follows the last occurrence of a mark. -/
def afterLast? (mark : α) : List α → Option (List α)
  | [] => none
  | x :: xs => (afterLast? mark xs).or (if x = mark then some xs else none)

theorem afterLast?_of_not_mem (h : mark ∉ rest) : afterLast? mark rest = none := by
  induction rest with
  | nil => rfl
  | cons x xs ih =>
    rw [afterLast?, ih fun hmem => h (List.mem_cons_of_mem _ hmem), Option.none_or,
      if_neg fun hx => h (List.mem_cons.2 (.inl hx.symm))]

/-- What follows the last mark is found, whatever stands before it. -/
theorem afterLast?_append_cons (front : List α) (h : mark ∉ rest) :
    afterLast? mark (front ++ mark :: rest) = some rest := by
  induction front with
  | nil =>
    show (afterLast? mark rest).or _ = some rest
    rw [afterLast?_of_not_mem h, Option.none_or, if_pos rfl]
  | cons x front ih =>
    rw [List.cons_append, afterLast?, ih]
    rfl

end Text

open Template

/-! ## The constructor -/

namespace SourceUnit

/-- The line that begins the constructor of the procedure. -/
def constructorLine : List Char := "    fn new() -> Self \x7b".toList

/-- Its first line. -/
def constructorStart : List Char := "        let mut procedure = Procedure::default();".toList

/-- The expression in the line that allocates the output buffer. -/
def bufferOfLine? (line : String) : Option String :=
  (Text.stripStart? line "        procedure.outputs = ").bind (Text.stripEnd? · ";")

/-- The text after the user's body, which holds no fragment. -/
def textAfterBody (shape : ProcedureShape) : String := String.ofList (Text.joinLines (linesAfterBody shape))

/-- The expression of the output buffer in the text of a unit: up to the body, it stands on the second line of
the last constructor. -/
def bufferExpression? (shape : ProcedureShape) (source : String) : Option String :=
  (Text.stripEnd? source (textAfterBody shape)).bind fun throughBody =>
    match Text.afterLast? constructorLine (Text.splitAtChar '\n' throughBody.toList) with
    | some (_ :: line :: _) => bufferOfLine? (String.ofList line)
    | _ => none

theorem bufferOfLine?_bufferLine (s : SignalShape) :
    bufferOfLine? (String.ofList (bufferLine s)) = some (bufferExpression s) := by
  rw [bufferLine, String.ofList_toList, String.append_assoc, bufferOfLine?, Text.stripStart?_append,
    Option.bind_some, Text.stripEnd?_append]

/-- No line of a place that is indented further begins a constructor. -/
theorem constructorLine_not_mem_placed (f : Fragments) (kind : FragmentKind) :
    constructorLine ∉ placed f kind 8 := by
  intro hmem
  have hindented : ¬Indented 8 constructorLine := by decide
  exact hindented (indented_of_mem_placed hmem)

/-- The lines before the constructor that follow the fields. -/
def linesBeforeConstructor (shape : ProcedureShape) : List (List Char) :=
  [("    outputs: Vec<" ++ signalType shape ++ ">,").toList, "\x7d".toList, "".toList,
    "impl Procedure \x7b".toList]

/-- The lines after the output buffer, up to the body. -/
def linesFromBufferThroughBody (f : Fragments) (shape : ProcedureShape) : List (List Char) :=
  linesAfterBuffer ++ "    fn init(&mut self) \x7b".toList :: (placed f .init 8 ++
    "    \x7d".toList :: "".toList :: computeLine shape ::
      "        let outputs = &mut self.outputs[..];".toList :: ("        " ++ beginMark).toList ::
        placed f .body 8)

/-- The line of the buffer is the second one after the head of the constructor. -/
theorem linesThroughBody_eq (f : Fragments) (s : SignalShape) : linesThroughBody f s
    = (linesThroughFields f ++ linesBeforeConstructor s.shape) ++ constructorLine ::
      constructorStart :: bufferLine s :: linesFromBufferThroughBody f s.shape := by
  have hbefore : linesBeforeBuffer s.shape
      = linesBeforeConstructor s.shape ++ [constructorLine, constructorStart] := rfl
  rw [linesThroughBody, linesThroughInit, linesThroughBuffer, hbefore, linesFromBufferThroughBody]
  simp only [List.append_assoc, List.cons_append, List.nil_append]

/-- After its first line, no line through the body begins a constructor. -/
theorem constructorLine_not_mem_rest (f : Fragments) (s : SignalShape) :
    constructorLine ∉ constructorStart :: bufferLine s :: linesFromBufferThroughBody f s.shape := by
  have hcompute : constructorLine ≠ computeLine s.shape := by
    cases s.shape <;> decide +kernel
  -- the line of the buffer is indented deeper
  have hbuffer : constructorLine ≠ bufferLine s := by
    intro heq
    have hindented : Indented 8 (bufferLine s) := by
      rw [bufferLine, String.append_assoc, String.toList_append]
      exact (show Indented 8 "        procedure.outputs = ".toList by decide).trans
        (List.prefix_append _ _)
    exact absurd (heq ▸ hindented : Indented 8 constructorLine) (by decide)
  simp only [linesFromBufferThroughBody, linesAfterBuffer, List.mem_cons, List.mem_append, not_or]
  exact ⟨by decide +kernel, hbuffer,
    ⟨by decide +kernel, by decide +kernel, by decide +kernel, List.not_mem_nil⟩, by decide +kernel,
    constructorLine_not_mem_placed f .init, by decide +kernel, by decide +kernel, hcompute, by decide +kernel,
    by decide +kernel, constructorLine_not_mem_placed f .body⟩

/-- The expression of the output buffer is read from the text of a unit, whatever its fragments. -/
theorem bufferExpression?_unitText (f : Fragments) (s : SignalShape) (name : String) :
    bufferExpression? s.shape (unitText f s name) = some (bufferExpression s) := by
  let front := linesThroughFields f ++ linesBeforeConstructor s.shape
  let rest := constructorStart :: bufferLine s :: linesFromBufferThroughBody f s.shape
  let throughBody := Text.joinLines (headLines name) ++ Text.joinLines (linesThroughBody f s)
  have htext : unitText f s name = String.ofList throughBody ++ textAfterBody s.shape := by
    rw [textAfterBody, ← String.ofList_append, ← String.toList_inj, toList_unitText, String.toList_ofList,
      List.append_assoc]
  have hpieces : Text.splitAtChar '\n' throughBody
      = ((headLines name).flatMap (Text.splitAtChar '\n') ++ front) ++ constructorLine :: (rest ++ [[]]) := by
    have hbody := Text.splitAtChar_joinLines_append (linesThroughBody f s) []
    rw [List.append_nil, Text.flatMap_splitAtChar (newline_not_mem_of_mem_linesThroughBody f s)] at hbody
    rw [Text.splitAtChar_joinLines_append, hbody, linesThroughBody_eq]
    show _ ++ ((front ++ constructorLine :: rest) ++ [[]]) = _
    rw [List.append_assoc front, List.cons_append, ← List.append_assoc]
  -- fragments in front may hold the line as well, but the last one is that of the unit
  have hnone : constructorLine ∉ rest ++ [[]] := by
    intro hmem
    rcases List.mem_append.1 hmem with hmem | hmem
    · exact constructorLine_not_mem_rest f s hmem
    · exact absurd hmem (by decide +kernel)
  rw [bufferExpression?, htext, Text.stripEnd?_append, Option.bind_some, String.toList_ofList, hpieces,
    Text.afterLast?_append_cons _ hnone]
  exact bufferOfLine?_bufferLine s

end SourceUnit

/-! ## What an expression denotes -/

namespace Template

/-- The widths that the expression of an output buffer denotes. -/
inductive Denotes : ProcedureShape → String → List Nat → Prop
  /-- One number for each port. -/
  | scalars (ports : Nat) : Denotes .single (zeroVector ports) (List.replicate ports 1)
  /-- The same vector for each port. -/
  | uniform (width ports : Nat) :
      Denotes .matrix ("vec![" ++ zeroVector width ++ "; " ++ toString ports ++ "]")
        (List.replicate ports width)
  /-- A vector for each port. -/
  | each (widths : List Nat) :
      Denotes .matrix ("vec![" ++ String.intercalate ", " (widths.map zeroVector) ++ "]") widths

/-- The expression of a buffer denotes the output widths. -/
theorem denotes_bufferExpression (s : SignalShape) :
    Denotes s.shape (bufferExpression s) s.outputWidths := by
  obtain ⟨shape, inputPorts, outputPorts, bus⟩ := s
  cases shape with
  | single => exact .scalars outputPorts
  | matrix =>
    cases bus with
    | fixed w => exact .uniform w outputPorts
    | perPort m => exact .each _

/-- An expression denotes one list of widths. -/
theorem Denotes.unique {shape : ProcedureShape} {e e' : String} {ws vs : List Nat} (hw : Denotes shape e ws)
    (hv : Denotes shape e' vs) (he : e = e') : ws = vs := by
  have he := congrArg String.toList he
  cases hw with
  | scalars m =>
    cases hv with
    | scalars n =>
      have hsame : (zeroVector m).toList ++ [] = (zeroVector n).toList ++ [] := congrArg (· ++ []) he
      rw [(zeroVector_append_inj hsame).1]
  | uniform w m =>
    simp only [String.toList_append, List.append_assoc] at he
    cases hv with
    | uniform v n =>
      simp only [String.toList_append, List.append_assoc] at he
      have hsame := List.append_cancel_left he
      simp only [← List.append_assoc] at hsame
      obtain ⟨rfl, rfl⟩ := fixed_eq_iff.1 hsame
      rfl
    | each vs =>
      -- one vector and a number are never spelled as a list of vectors
      simp only [String.toList_append, List.append_assoc] at he
      have hsame := List.append_cancel_left he
      rw [← List.append_assoc, ← List.append_assoc] at hsame
      exact absurd hsame (fixed_ne_perPort w m vs)
  | each ws =>
    simp only [String.toList_append, List.append_assoc] at he
    cases hv with
    | uniform v n =>
      simp only [String.toList_append, List.append_assoc] at he
      have hsame := (List.append_cancel_left he).symm
      rw [← List.append_assoc, ← List.append_assoc] at hsame
      exact absurd hsame (fixed_ne_perPort v n ws)
    | each vs =>
      simp only [String.toList_append, List.append_assoc] at he
      exact intercalate_zeroVector_inj (List.append_cancel_left he)

/-- The expression of a shape's output buffer denotes its output widths and no others. -/
theorem denotes_bufferExpression_iff (s : SignalShape) (widths : List Nat) :
    Denotes s.shape (bufferExpression s) widths ↔ widths = s.outputWidths := by
  constructor
  · exact fun h => h.unique (denotes_bufferExpression s) rfl
  · rintro rfl
    exact denotes_bufferExpression s

end Template

end CircuitBlocks
