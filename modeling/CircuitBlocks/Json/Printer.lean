import CircuitBlocks.Json.Basic

/-!
# JSON, writing — compact and indented

`compact` writes a document without blanks. `pretty` writes each item and member on a line of its own,
indented by two blanks for each array or object around it; an empty array or object stays on its line.
-/

namespace CircuitBlocks.Json

/-- Lists of characters with a separator between. -/
def joinChars (sep : List Char) : List (List Char) → List Char
  | [] => []
  | [x] => x
  | x :: y :: rest => x ++ sep ++ joinChars sep (y :: rest)

/-- A spelled string between its quotes. -/
def quoted (spelling : String) : List Char := '"' :: spelling.toList ++ ['"']

mutual

/-- The characters of a document without blanks. -/
def compactChars : Json → List Char
  | .null => "null".toList
  | .bool b => (if b then "true" else "false").toList
  | .number n => n.toList
  | .string s => quoted s
  | .array items => '[' :: joinChars [','] (compactItems items) ++ [']']
  | .object members => '\x7b' :: joinChars [','] (compactMembers members) ++ ['\x7d']

/-- The characters of each item. -/
def compactItems : List Json → List (List Char)
  | [] => []
  | v :: vs => compactChars v :: compactItems vs

/-- The characters of each member. -/
def compactMembers : List (String × Json) → List (List Char)
  | [] => []
  | (name, v) :: ms => (quoted name ++ ':' :: compactChars v) :: compactMembers ms

end

/-- A document without blanks. -/
def compact (v : Json) : String := String.ofList v.compactChars

/-- A new line with its indentation. -/
def newLine (depth : Nat) : List Char := '\n' :: List.replicate (2 * depth) ' '

/-- Items on lines of their own between two delimiters. -/
def block (depth : Nat) (left right : Char) (items : List (List Char)) : List Char :=
  if items = [] then [left, right]
  else left :: newLine (depth + 1) ++ joinChars (',' :: newLine (depth + 1)) items ++
    newLine depth ++ [right]

mutual

/-- The characters of a document inside of `depth` arrays and objects. -/
def prettyChars (depth : Nat) : Json → List Char
  | .null => "null".toList
  | .bool b => (if b then "true" else "false").toList
  | .number n => n.toList
  | .string s => quoted s
  | .array items => block depth '[' ']' (prettyItems (depth + 1) items)
  | .object members => block depth '\x7b' '\x7d' (prettyMembers (depth + 1) members)

/-- The characters of each item. -/
def prettyItems (depth : Nat) : List Json → List (List Char)
  | [] => []
  | v :: vs => prettyChars depth v :: prettyItems depth vs

/-- The characters of each member. -/
def prettyMembers (depth : Nat) : List (String × Json) → List (List Char)
  | [] => []
  | (name, v) :: ms =>
    (quoted name ++ ':' :: ' ' :: prettyChars depth v) :: prettyMembers depth ms

end

/-- A document with each item and member on a line of its own. -/
def pretty (v : Json) : String := String.ofList (v.prettyChars 0)

end CircuitBlocks.Json
