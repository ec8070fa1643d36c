import CircuitBlocks.BigEndian
import CircuitBlocks.Hex

/-!
# JSON — documents as they are written

A document keeps the spelling of its numbers and strings, since its readers differ in what they ask
of it: a string read as text must have a meaning, a string that nobody reads need only be well formed,
and a name read as a number must spell one.

* `Json.unescape?` gives the text of a spelled string, `Json.escape` a spelling of a text.
* `Json.natural?` gives the number of a spelled natural.
-/

namespace CircuitBlocks

/-- A document. Strings, names and numbers are spelled as between their delimiters. -/
inductive Json where
  | null
  | bool (b : Bool)
  | number (spelling : String)
  | string (spelling : String)
  | array (items : List Json)
  | object (members : List (String × Json))
  deriving Inhabited

namespace Json

/-! ## Strings -/

/-- What a letter after a backslash stands for. -/
def escapes : List (Char × Char) :=
  [('"', '"'), ('\\', '\\'), ('/', '/'), ('b', '\x08'), ('f', '\x0c'), ('n', '\n'), ('r', '\r'),
   ('t', '\t')]

/-- The sixteen bits that four digits name. -/
def unit? (a b c d : Char) : Option Nat := do
  return 4096 * (← Hex.digit? a) + 256 * (← Hex.digit? b) + 16 * (← Hex.digit? c) + (← Hex.digit? d)

/-- Whether sixteen bits are the first half of a surrogate pair. -/
def isLeading (u : Nat) : Bool := 0xD800 ≤ u && u < 0xDC00

/-- Whether sixteen bits are the second half of a surrogate pair. -/
def isTrailing (u : Nat) : Bool := 0xDC00 ≤ u && u < 0xE000

/-- The characters that a spelling stands for. Half a surrogate pair stands for none. -/
def unescapeChars? : List Char → Option (List Char)
  | [] => some []
  | '\\' :: 'u' :: a :: b :: c :: d :: rest => do
    let u ← unit? a b c d
    if isTrailing u then none
    else if isLeading u then
      match rest with
      | '\\' :: 'u' :: a' :: b' :: c' :: d' :: rest => do
        let v ← unit? a' b' c' d'
        if isTrailing v then
          return Char.ofNat (0x10000 + 0x400 * (u - 0xD800) + (v - 0xDC00)) ::
            (← unescapeChars? rest)
        else none
      | _ => none
    else return Char.ofNat u :: (← unescapeChars? rest)
  | '\\' :: e :: rest => do return (← escapes.lookup e) :: (← unescapeChars? rest)
  | c :: rest => if c = '\\' then none else do return c :: (← unescapeChars? rest)

/-- The text that a spelling stands for. -/
def unescape? (spelling : String) : Option String :=
  (unescapeChars? spelling.toList).map String.ofList

/-- The spelling of one character. Control characters without a letter of their own are numbered. -/
def escapeChar (c : Char) : List Char :=
  if c = '"' then ['\\', '"']
  else if c = '\\' then ['\\', '\\']
  else if c = '\x08' then ['\\', 'b']
  else if c = '\x0c' then ['\\', 'f']
  else if c = '\n' then ['\\', 'n']
  else if c = '\r' then ['\\', 'r']
  else if c = '\t' then ['\\', 't']
  else if c.toNat < 32 then ['\\', 'u', '0', '0', Hex.digit (c.toNat / 16), Hex.digit (c.toNat % 16)]
  else [c]

/-- A spelling of a text. -/
def escape (s : String) : String := String.ofList (s.toList.flatMap escapeChar)

/-! ## Numbers -/

/-- The natural that a spelling names: digits without sign, point, exponent or leading zero. -/
def naturalOfChars? (cs : List Char) : Option Nat :=
  if cs ≠ [] ∧ cs.all Char.isDigit ∧ (cs.head? = some '0' → cs.length = 1) then
    some (cs.foldl (fun acc c => 10 * acc + (c.toNat - '0'.toNat)) 0)
  else none

/-- The natural that a spelling names, at most `limit`. -/
def natural? (limit : Nat) (spelling : String) : Option Nat := do
  let n ← naturalOfChars? spelling.toList
  if n ≤ limit then some n else none

/-- The largest natural of four bytes. -/
def limit32 : Nat := BigEndian.capacity 4 - 1

/-- The largest natural of eight bytes. -/
def limit64 : Nat := BigEndian.capacity 8 - 1

/-! ## Building documents -/

/-- The document of a text. -/
def text (s : String) : Json := .string (escape s)

/-- The document of a natural. -/
def natural (n : Nat) : Json := .number (String.ofList (Nat.toDigits 10 n))

/-- The document of named values. -/
def record (members : List (String × Json)) : Json :=
  .object (members.map fun m => (escape m.1, m.2))

end Json

end CircuitBlocks
