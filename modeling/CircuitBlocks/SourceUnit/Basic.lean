import CircuitBlocks.SourceUnit.Template

/-!
# Source units — fragments and shape as one text to compile

`SourceUnit.assemble` fills the template with the fragments. Fragments are copied as they are; what is
wrong with them shows when the unit is compiled. The unit also tells which of its lines hold which
fragment, counted from one, so that a line of the unit can be traced back (`locate?`).
-/

namespace CircuitBlocks

namespace Piece

/-- The characters of a piece. -/
def chars (f : Fragments) : Piece → List Char
  | line text => text.toList ++ ['\n']
  | fragment kind indent =>
    (Text.linesOfChars (f.get kind).toList).flatMap fun l =>
      List.replicate indent ' ' ++ l ++ ['\n']

/-- How many lines a piece takes up. -/
def height (f : Fragments) : Piece → Nat
  | line text => Text.newlines text + 1
  | fragment kind _ => (Text.linesOfChars (f.get kind).toList).length

end Piece

/-- Lines from `first` on, before `past`. -/
structure LineSpan where
  first : Nat
  past : Nat
  deriving DecidableEq, Repr

/-- A unit to compile. -/
structure SourceUnit where
  name : String
  source : String
  /-- The lines of each fragment, in the order in which they stand. -/
  spans : List (FragmentKind × LineSpan)
  deriving DecidableEq, Repr

namespace SourceUnit

/-- The lines of the fragments among pieces whose first line is numbered `first`. -/
def spansFrom (f : Fragments) : (first : Nat) → List Piece → List (FragmentKind × LineSpan)
  | _, [] => []
  | first, p :: ps =>
    let past := first + p.height f
    match p with
    | .line _ => spansFrom f past ps
    | .fragment kind _ => (kind, ⟨first, past⟩) :: spansFrom f past ps

/-- The unit of fragments and shape under a name. -/
def assemble (f : Fragments) (s : SignalShape) (name : String) : SourceUnit where
  name := name
  source := String.ofList ((template name s).flatMap (Piece.chars f))
  spans := spansFrom f 1 (template name s)

/-- The fragment that holds a line, and the line's number in it. -/
def locate? (u : SourceUnit) (line : Nat) : Option (FragmentKind × Nat) :=
  (u.spans.find? fun e => e.2.first ≤ line && line < e.2.past).map fun e =>
    (e.1, line - e.2.first + 1)

end SourceUnit

/-- The text of the unit of fragments and shape under a name. -/
def unitText (f : Fragments) (s : SignalShape) (name : String) : String :=
  (SourceUnit.assemble f s name).source

end CircuitBlocks
