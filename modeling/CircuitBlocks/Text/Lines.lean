/-!
# Lines — text cut at newlines

A newline ends a line and belongs to none. A carriage return right before the newline belongs to the
line end as well. What follows the last newline is a line of its own unless it is empty, and keeps a
carriage return at its end, since no newline follows it.
-/

namespace CircuitBlocks.Text

/-- The pieces between the occurrences of a separator; `n` of them leave `n + 1` pieces. -/
def splitAtChar (sep : Char) (cs : List Char) : List (List Char) :=
  cs.foldr (fun c pieces =>
    if c = sep then [] :: pieces
    else match pieces with
      | [] => [[c]]
      | p :: ps => (c :: p) :: ps) [[]]

/-- A line without the carriage return at its end. -/
def dropReturn (line : List Char) : List Char :=
  if line.getLast? = some '\r' then line.dropLast else line

/-- The lines among the pieces: all but the last were ended by a newline. -/
def linesOfPieces : List (List Char) → List (List Char)
  | [] => []
  | [last] => if last = [] then [] else [last]
  | p :: q :: ps => dropReturn p :: linesOfPieces (q :: ps)

/-- The lines of a list of characters. -/
def linesOfChars (cs : List Char) : List (List Char) := linesOfPieces (splitAtChar '\n' cs)

/-- The lines of a text. -/
def lines (s : String) : List String := (linesOfChars s.toList).map String.ofList

/-- How many newlines a text has. -/
def newlines (s : String) : Nat := s.toList.count '\n'

/-- Whether the first text begins with the second. -/
def startsWith (s start : String) : Bool := start.toList.isPrefixOf s.toList

/-- What follows `start` in a text that begins with it. -/
def stripStart? (s start : String) : Option String :=
  if startsWith s start then some (String.ofList (s.toList.drop start.toList.length)) else none

/-- What precedes `ending` in a text that ends with it. -/
def stripEnd? (s ending : String) : Option String :=
  if ending.toList.isSuffixOf s.toList then
    some (String.ofList (s.toList.take (s.toList.length - ending.toList.length)))
  else none

example : lines "a\r\nb\n\nc\r" = ["a", "b", "", "c\r"] := by decide
example : lines "a\n" = ["a"] ∧ lines "" = [] ∧ lines "\n" = [""] := by decide

end CircuitBlocks.Text
