import CircuitBlocks.Proofs.SourceUnit.Buffer
import CircuitBlocks.SourceUnit.Basic

/-!
# Layout — a unit is read from its end

Fragments are copied into a unit as they are, so a fragment may hold any line of the template. What a
fragment cannot hold is a line of its place that is not indented: the body, the initialisation and the
fields end at lines that are known, and they begin after the last line before them that is indented less.
Reading the lines of a unit from its end gives the body, the initialisation, the output buffer and the
fields one after the other, and the imports are what remains.

* `linesThroughBody` — the lines of a unit from the imports to the body, part by part;
  `toList_unitText` puts a unit together from them.
* `shape_eq_of_append_eq` — the last lines tell the shape; `linesThroughBody_inj`,
  `linesThroughInit_inj`, … read one part off after the other.
* **`unitText_eq_iff`** — two units of one name are the same text just if the lines of all fragments and
  all that the template takes from the shape are the same.
-/

namespace CircuitBlocks

open Text

namespace Piece

/-- The lines of a piece. -/
def lines (f : Fragments) : Piece → List (List Char)
  | line text => [text.toList]
  | fragment kind indent =>
    (linesOfChars (f.get kind).toList).map fun l => List.replicate indent ' ' ++ l

theorem chars_eq_joinLines (f : Fragments) (p : Piece) : p.chars f = joinLines (p.lines f) := by
  cases p with
  | line text => simp [chars, lines, joinLines]
  | fragment kind indent => simp [chars, lines, joinLines, List.flatMap_map]

/-- The text of the pieces is that of their lines. -/
theorem flatMap_chars_eq_joinLines (f : Fragments) (ps : List Piece) :
    ps.flatMap (chars f) = joinLines (ps.flatMap (lines f)) := by
  induction ps with
  | nil => rfl
  | cons p ps ih =>
    rw [List.flatMap_cons, List.flatMap_cons, ih, chars_eq_joinLines, joinLines, joinLines, joinLines,
      List.flatMap_append]

/-- Lines that are copied are the same for all fragments. -/
theorem flatMap_lines_map_line (f : Fragments) (texts : List String) :
    (texts.map line).flatMap (lines f) = texts.map String.toList := by
  rw [List.flatMap_map, List.map_eq_flatMap]
  rfl

end Piece

namespace Template

/-! ## Parts -/

section Parts

variable (f : Fragments) (s : SignalShape)

/-- The lines of a fragment at its place. -/
def placed (kind : FragmentKind) (indent : Nat) : List (List Char) :=
  (Piece.fragment kind indent).lines f

/-- The lines before the imports. -/
def headLines (name : String) : List (List Char) :=
  [("// Generated by codeblock for " ++ name ++ ". Edits are overwritten on recompile.").toList,
    "#![allow(dead_code, unused_imports, unused_mut, unused_variables, unused_assignments, non_snake_case)]".toList,
    "".toList]

/-- The lines from the imports to those that begin the state. -/
def linesThroughImports : List (List Char) :=
  placed f .imports 0 ++ ["".toList, "#[derive(Default)]".toList]

/-- The lines up to the user's fields. -/
def linesThroughFields : List (List Char) :=
  linesThroughImports f ++
  "pub struct Procedure \x7b".toList :: "    // fields:".toList :: placed f .fields 4

/-- The lines from the user's fields to the output buffer. -/
def linesBeforeBuffer (shape : ProcedureShape) : List (List Char) :=
  [("    outputs: Vec<" ++ signalType shape ++ ">,").toList, "\x7d".toList, "".toList,
    "impl Procedure \x7b".toList, "    fn new() -> Self \x7b".toList,
    "        let mut procedure = Procedure::default();".toList]

/-- The line that allocates the output buffer. -/
def bufferLine : List Char := ("        procedure.outputs = " ++ bufferExpression s ++ ";").toList

/-- The lines from the output buffer to the user's initialisation. -/
def linesAfterBuffer : List (List Char) :=
  ["        procedure".toList, "    \x7d".toList, "".toList]

/-- The lines up to the output buffer. -/
def linesThroughBuffer : List (List Char) :=
  linesThroughFields f ++ linesBeforeBuffer s.shape ++ [bufferLine s]

/-- The lines up to the user's initialisation. -/
def linesThroughInit : List (List Char) :=
  linesThroughBuffer f s ++ linesAfterBuffer ++
  "    fn init(&mut self) \x7b".toList :: placed f .init 8

/-- The line that begins the computation of a step. -/
def computeLine (shape : ProcedureShape) : List Char :=
  ("    fn compute(&mut self, inputs: &[" ++ signalType shape ++
    "], time: f64, dt: f64) -> &[" ++ signalType shape ++ "] \x7b").toList

/-- The lines up to the user's body. -/
def linesThroughBody : List (List Char) :=
  linesThroughInit f s ++ ["    \x7d".toList, "".toList] ++
  computeLine s.shape :: "        let outputs = &mut self.outputs[..];".toList ::
    ("        " ++ beginMark).toList :: placed f .body 8

/-- The lines after the user's body. They hold no fragment. -/
def linesAfterBody (shape : ProcedureShape) : List (List Char) :=
  [("        " ++ endMark).toList, "    \x7d".toList, "\x7d".toList, "".toList] ++
  (hostSection shape).flatMap (Piece.lines {})

/-- The lines of a unit are the head with the name, those through the body, and the rest. -/
theorem flatMap_lines_template (name : String) :
    (template name s).flatMap (Piece.lines f) =
      headLines name ++ (linesThroughBody f s ++ linesAfterBody s.shape) := by
  -- the last section holds no fragment, so the fragments do not matter there
  have hhost : (hostSection s.shape).flatMap (Piece.lines {})
      = (hostSection s.shape).flatMap (Piece.lines f) := by
    rw [hostSection, Piece.flatMap_lines_map_line, Piece.flatMap_lines_map_line]
  simp only [headLines, linesThroughBody, linesThroughInit, linesThroughBuffer, linesThroughFields,
    linesThroughImports, linesAfterBody, linesBeforeBuffer, linesAfterBuffer, hhost, template,
    header, stateSection, codeSection, List.flatMap_cons, Piece.lines, placed, List.append_assoc,
    List.cons_append, List.nil_append]
  rfl

end Parts

/-! ## Reading a part off -/

section Reading

variable {f₁ f₂ : Fragments} {s₁ s₂ : SignalShape}

/-- Whether a line is indented by so many blanks at least. -/
def Indented (indent : Nat) (line : List Char) : Prop := List.replicate indent ' ' <+: line

instance (indent : Nat) (line : List Char) : Decidable (Indented indent line) :=
  inferInstanceAs (Decidable (_ <+: _))

/-- A fragment at its place tells the lines of the fragment. -/
theorem placed_eq_iff {kind : FragmentKind} {indent : Nat} :
    placed f₁ kind indent = placed f₂ kind indent ↔
      linesOfChars (f₁.get kind).toList = linesOfChars (f₂.get kind).toList :=
  List.map_inj_right fun _ _ => List.append_cancel_left

theorem indented_of_mem_placed {f : Fragments} {kind : FragmentKind} {indent : Nat}
    {line : List Char} (h : line ∈ placed f kind indent) : Indented indent line := by
  obtain ⟨l, -, rfl⟩ := List.mem_map.1 h
  exact List.prefix_append _ l

/-- A fragment that ends the lines is read off up to the last line that is indented less. Its lines are
indented themselves, so none of them can be taken for that line. -/
theorem placed_append_inj {kind : FragmentKind} {indent : Nat} {l₁ l₂ marks : List (List Char)}
    {first : List Char} (hfirst : ¬Indented indent first) (hmarks : ∀ m ∈ marks, Indented indent m)
    (h : l₁ ++ first :: (marks ++ placed f₁ kind indent)
      = l₂ ++ first :: (marks ++ placed f₂ kind indent)) :
    l₁ = l₂ ∧ placed f₁ kind indent = placed f₂ kind indent := by
  have hall : ∀ f : Fragments, ∀ line ∈ marks ++ placed f kind indent, Indented indent line := by
    intro f line hline
    rcases List.mem_append.1 hline with hline | hline
    · exact hmarks line hline
    · exact indented_of_mem_placed hline
  obtain ⟨hl, -, hplaced⟩ := append_cons_inj_right (hall f₁) (hall f₂) hfirst hfirst h
  exact ⟨hl, List.append_cancel_left hplaced⟩

/-- The lines that end a unit, after the one with the tag of the shape. -/
def tableEnd : List (List Char) :=
  ["    create: codeblock_create,".toList, "    destroy: codeblock_destroy,".toList,
    "    init: codeblock_init,".toList, "    compute: codeblock_compute,".toList, "\x7d;".toList]

/-- What follows the body ends in the line of the shape, and a fixed end. -/
theorem exists_linesAfterBody_eq (shape : ProcedureShape) : ∃ front, linesAfterBody shape =
    front ++ ("    shape: " ++ toString shape.tag ++ ",").toList :: tableEnd := by
  have hvalue : (tableValue shape).map String.toList = ((tableValue shape).take 3).map String.toList ++
      ("    shape: " ++ toString shape.tag ++ ",").toList :: tableEnd := rfl
  rw [linesAfterBody, hostSection, Piece.flatMap_lines_map_line, List.map_append, hvalue,
    ← List.append_assoc, ← List.append_assoc]
  exact ⟨_, rfl⟩

/-- The tag of the shape stands at the same distance from the end of every unit. -/
theorem exists_joinLines_linesAfterBody (shape : ProcedureShape) :
    ∃ front, joinLines (linesAfterBody shape) =
      front ++ (toString shape.tag).toList ++ (",".toList ++ '\n' :: joinLines tableEnd) := by
  obtain ⟨front, hfront⟩ := exists_linesAfterBody_eq shape
  refine ⟨joinLines front ++ "    shape: ".toList, ?_⟩
  rw [hfront, joinLines_append, joinLines_cons, String.toList_append, String.toList_append]
  simp only [List.append_assoc]

/-- The end of a unit tells its shape. -/
theorem shape_eq_of_append_eq {l₁ l₂ : List Char} {shape₁ shape₂ : ProcedureShape}
    (h : l₁ ++ joinLines (linesAfterBody shape₁) = l₂ ++ joinLines (linesAfterBody shape₂)) :
    shape₁ = shape₂ := by
  obtain ⟨front₁, h₁⟩ := exists_joinLines_linesAfterBody shape₁
  obtain ⟨front₂, h₂⟩ := exists_joinLines_linesAfterBody shape₂
  have htag : (l₁ ++ front₁) ++ (toString shape₁.tag).toList
      = (l₂ ++ front₂) ++ (toString shape₂.tag).toList := by
    rw [h₁, h₂, ← List.append_assoc, ← List.append_assoc l₂] at h
    rw [List.append_assoc, List.append_assoc]
    exact List.append_cancel_right h
  -- tags have one digit, so they stand at the same place
  have hone : ∀ shape : ProcedureShape, (toString shape.tag).toList.length = 1 := by
    intro shape
    cases shape <;> rfl
  obtain ⟨-, htag⟩ := List.append_inj' htag ((hone shape₁).trans (hone shape₂).symm)
  revert htag
  cases shape₁ <;> cases shape₂ <;> decide

/-- Units that agree through the body agree before it, and in the lines of the body. -/
theorem linesThroughBody_inj (hshape : s₁.shape = s₂.shape)
    (h : linesThroughBody f₁ s₁ = linesThroughBody f₂ s₂) :
    linesThroughInit f₁ s₁ = linesThroughInit f₂ s₂ ∧ placed f₁ .body 8 = placed f₂ .body 8 := by
  rw [linesThroughBody, linesThroughBody, hshape] at h
  have hfirst : ¬Indented 8 (computeLine s₂.shape) := by
    cases s₂.shape <;> decide +kernel
  have hmarks : ∀ m ∈ ["        let outputs = &mut self.outputs[..];".toList,
      ("        " ++ beginMark).toList], Indented 8 m := by decide +kernel
  obtain ⟨hinit, hbody⟩ := placed_append_inj hfirst hmarks h
  exact ⟨List.append_cancel_right hinit, hbody⟩

/-- So do those through the initialisation, in its lines. -/
theorem linesThroughInit_inj (h : linesThroughInit f₁ s₁ = linesThroughInit f₂ s₂) :
    linesThroughBuffer f₁ s₁ = linesThroughBuffer f₂ s₂ ∧ placed f₁ .init 8 = placed f₂ .init 8 := by
  rw [linesThroughInit, linesThroughInit] at h
  have hmarks : ∀ m ∈ ([] : List (List Char)), Indented 8 m := fun _ hm => nomatch hm
  obtain ⟨hbuffer, hinit⟩ := placed_append_inj (by decide) hmarks h
  exact ⟨List.append_cancel_right hbuffer, hinit⟩

/-- Those through the buffer agree in the expression that makes it. -/
theorem linesThroughBuffer_inj (hshape : s₁.shape = s₂.shape)
    (h : linesThroughBuffer f₁ s₁ = linesThroughBuffer f₂ s₂) :
    linesThroughFields f₁ = linesThroughFields f₂ ∧ bufferExpression s₁ = bufferExpression s₂ := by
  rw [linesThroughBuffer, linesThroughBuffer, hshape] at h
  obtain ⟨hfields, hline⟩ := List.append_inj' h (by rw [List.length_singleton, List.length_singleton])
  refine ⟨List.append_cancel_right hfields, ?_⟩
  have hline : bufferLine s₁ = bufferLine s₂ := List.singleton_inj.1 hline
  simp only [bufferLine, String.toList_append, List.append_assoc] at hline
  exact String.toList_injective (List.append_cancel_right (List.append_cancel_left hline))

theorem linesThroughFields_inj (h : linesThroughFields f₁ = linesThroughFields f₂) :
    linesThroughImports f₁ = linesThroughImports f₂ ∧ placed f₁ .fields 4 = placed f₂ .fields 4 := by
  rw [linesThroughFields, linesThroughFields] at h
  have hmarks : ∀ m ∈ ["    // fields:".toList], Indented 4 m := by decide
  exact placed_append_inj (by decide) hmarks h

theorem linesThroughImports_inj (h : linesThroughImports f₁ = linesThroughImports f₂) :
    placed f₁ .imports 0 = placed f₂ .imports 0 := by
  rw [linesThroughImports, linesThroughImports] at h
  exact List.append_cancel_right h

end Reading

/-! ## One text, one choice of fragments -/

/-- The lines up to the body are the same just if all that they hold of fragments and shape is. -/
theorem linesThroughBody_eq_iff {f₁ f₂ : Fragments} {s₁ s₂ : SignalShape}
    (hshape : s₁.shape = s₂.shape) :
    linesThroughBody f₁ s₁ = linesThroughBody f₂ s₂ ↔
      (∀ kind, linesOfChars (f₁.get kind).toList = linesOfChars (f₂.get kind).toList) ∧
      bufferExpression s₁ = bufferExpression s₂ := by
  constructor
  · -- the parts are read off from the end, one after the other
    intro h
    obtain ⟨hinit, hbody⟩ := linesThroughBody_inj hshape h
    obtain ⟨hbuffer, hinit⟩ := linesThroughInit_inj hinit
    obtain ⟨hfields, hexpression⟩ := linesThroughBuffer_inj hshape hbuffer
    obtain ⟨himports, hfields⟩ := linesThroughFields_inj hfields
    refine ⟨fun kind => ?_, hexpression⟩
    cases kind with
    | body => exact placed_eq_iff.1 hbody
    | imports => exact placed_eq_iff.1 (linesThroughImports_inj himports)
    | init => exact placed_eq_iff.1 hinit
    | fields => exact placed_eq_iff.1 hfields
  · rintro ⟨hfragments, hexpression⟩
    -- the other way, equal lines of the fragments are placed alike
    have hplaced : ∀ kind indent, placed f₁ kind indent = placed f₂ kind indent :=
      fun kind _ => placed_eq_iff.2 (hfragments kind)
    simp only [linesThroughBody, linesThroughInit, linesThroughBuffer, linesThroughFields,
      linesThroughImports, bufferLine, hplaced, hshape, hexpression]

section Newlines

variable (f : Fragments) (s : SignalShape)

/-- A line of a fragment holds no newline. -/
theorem newline_not_mem_of_mem_placed {kind : FragmentKind} {indent : Nat} {line : List Char}
    (h : line ∈ placed f kind indent) : '\n' ∉ line := by
  obtain ⟨l, hl, rfl⟩ := List.mem_map.1 h
  intro hmem
  rcases List.mem_append.1 hmem with hmem | hmem
  · exact absurd (List.eq_of_mem_replicate hmem) (by decide)
  · exact newline_not_mem_of_mem_linesOfChars hl hmem

theorem newline_not_mem_bufferLine : '\n' ∉ bufferLine s := by
  rw [bufferLine, String.toList_append, String.toList_append]
  simp only [List.mem_append, not_or]
  exact ⟨⟨by decide, newline_not_mem_bufferExpression s⟩, by decide⟩

theorem newline_not_mem_computeLine (shape : ProcedureShape) : '\n' ∉ computeLine shape := by
  have htype : '\n' ∉ (signalType shape).toList := by
    cases shape <;> decide
  simp only [computeLine, String.toList_append, List.mem_append, not_or]
  exact ⟨⟨⟨⟨by decide +kernel, htype⟩, by decide +kernel⟩, htype⟩, by decide⟩

/-- No line from the imports to the body holds a newline. -/
theorem newline_not_mem_of_mem_linesThroughBody : ∀ line ∈ linesThroughBody f s, '\n' ∉ line := by
  have hplaced : ∀ kind indent, ∀ line ∈ placed f kind indent, '\n' ∉ line :=
    fun _ _ _ => newline_not_mem_of_mem_placed f
  -- from the imports on, each part ends with a fragment that is cut into lines
  have hfields : ∀ line ∈ linesThroughFields f, '\n' ∉ line := by
    simp only [linesThroughFields, linesThroughImports, List.forall_mem_append, List.forall_mem_cons]
    exact ⟨⟨hplaced _ _, by decide, by decide, by decide⟩, by decide, by decide, hplaced _ _⟩
  have hbuffer : ∀ line ∈ linesThroughBuffer f s, '\n' ∉ line := by
    have hbefore : ∀ line ∈ linesBeforeBuffer s.shape, '\n' ∉ line := by
      cases s.shape <;> decide +kernel
    simp only [linesThroughBuffer, List.forall_mem_append, List.forall_mem_singleton]
    exact ⟨⟨hfields, hbefore⟩, newline_not_mem_bufferLine s⟩
  have hinit : ∀ line ∈ linesThroughInit f s, '\n' ∉ line := by
    simp only [linesThroughInit, List.forall_mem_append, List.forall_mem_cons]
    exact ⟨⟨hbuffer, by decide⟩, by decide, hplaced _ _⟩
  simp only [linesThroughBody, List.forall_mem_append, List.forall_mem_cons]
  exact ⟨⟨hinit, by decide⟩, newline_not_mem_computeLine s.shape, by decide +kernel,
    by decide +kernel, hplaced _ _⟩

end Newlines

end Template

open Template

theorem toList_unitText (f : Fragments) (s : SignalShape) (name : String) :
    (unitText f s name).toList = joinLines (headLines name) ++
      (joinLines (linesThroughBody f s) ++ joinLines (linesAfterBody s.shape)) := by
  rw [unitText, SourceUnit.assemble, String.toList_ofList, Piece.flatMap_chars_eq_joinLines,
    flatMap_lines_template, joinLines_append, joinLines_append]

/-- Two units of one name and shape that are the same text have the same lines in their fragments. -/
theorem linesOfChars_eq_of_unitText_eq {f₁ f₂ : Fragments} {s : SignalShape} {name : String}
    (h : unitText f₁ s name = unitText f₂ s name) (kind : FragmentKind) :
    linesOfChars (f₁.get kind).toList = linesOfChars (f₂.get kind).toList := by
  rw [← String.toList_inj, toList_unitText, toList_unitText] at h
  have hlines := joinLines_inj (newline_not_mem_of_mem_linesThroughBody f₁ s)
    (newline_not_mem_of_mem_linesThroughBody f₂ s)
    (List.append_cancel_right (List.append_cancel_left h))
  exact ((linesThroughBody_eq_iff rfl).1 hlines).1 kind

/-- The bytes of a piece. -/
def Piece.size (f : Fragments) : Piece → Nat
  | line text => text.utf8ByteSize + 1
  | fragment kind indent => (String.ofList ((fragment kind indent).chars f)).utf8ByteSize

theorem Piece.utf8ByteSize_chars (f : Fragments) (p : Piece) :
    (String.ofList (p.chars f)).utf8ByteSize = p.size f := by
  cases p with
  | line text =>
    rw [chars, String.ofList_append, String.ofList_toList, String.utf8ByteSize_append]
    rfl
  | fragment kind indent => rfl

/-- The bytes of a unit are those of its pieces. -/
theorem utf8ByteSize_unitText (f : Fragments) (s : SignalShape) (name : String) :
    (unitText f s name).utf8ByteSize = (template name s).foldr (fun p size => p.size f + size) 0 := by
  rw [unitText, SourceUnit.assemble]
  induction template name s with
  | nil => rfl
  | cons p ps ih =>
    rw [List.flatMap_cons, String.ofList_append, String.utf8ByteSize_append, Piece.utf8ByteSize_chars, ih,
      List.foldr_cons]

/-- **One text, one choice of fragments.** Two units of one name are the same text just if the lines of
each fragment are the same, the kinds of procedure and the numbers of output ports are, and in matrix
shape the kinds of bus and the output widths are. No fragment, whatever its text, imitates another
choice of fragments or of shape. -/
theorem unitText_eq_iff {f₁ f₂ : Fragments} {s₁ s₂ : SignalShape} {name : String} :
    unitText f₁ s₁ name = unitText f₂ s₂ name ↔
      (∀ kind, Text.lines (f₁.get kind) = Text.lines (f₂.get kind)) ∧
      s₁.shape = s₂.shape ∧ s₁.outputPorts = s₂.outputPorts ∧
      (s₁.shape = .matrix →
        (∃ w, s₁.bus = .fixed w ∧ s₂.bus = .fixed w) ∨
        (∃ m₁ m₂, s₁.bus = .perPort m₁ ∧ s₂.bus = .perPort m₂ ∧
          ∀ p < s₁.outputPorts, s₁.outputWidth p = s₂.outputWidth p)) := by
  rw [← String.toList_inj, toList_unitText, toList_unitText, List.append_cancel_left_eq]
  simp only [lines_eq_iff]
  constructor
  · -- the end tells the shape; without it, the same lines make up both texts
    intro h
    have hshape := shape_eq_of_append_eq h
    rw [hshape] at h
    have hlines := joinLines_inj (newline_not_mem_of_mem_linesThroughBody f₁ s₁)
      (newline_not_mem_of_mem_linesThroughBody f₂ s₂) (List.append_cancel_right h)
    obtain ⟨hfragments, hexpression⟩ := (linesThroughBody_eq_iff hshape).1 hlines
    exact ⟨hfragments, hshape, (bufferExpression_eq_iff hshape).1 hexpression⟩
  · rintro ⟨hfragments, hshape, hbus⟩
    -- the same lines and the same buffer expression make the same text
    have hexpression := (bufferExpression_eq_iff hshape).2 hbus
    rw [(linesThroughBody_eq_iff hshape).2 ⟨hfragments, hexpression⟩, hshape]

end CircuitBlocks
