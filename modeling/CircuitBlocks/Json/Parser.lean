import CircuitBlocks.Json.Basic

/-!
# JSON, reading — from characters to tokens to a document

Two machines read one item at a time and hold all they need to know in their state, so that a reading
of `a ++ b` is a reading of `a` carried on by `b`.

* `Lexer` reads characters. Between tokens only the four blanks of the format may stand.
* `Builder` reads tokens. Its stack holds the arrays and objects that are open, innermost first.
-/

namespace CircuitBlocks.Json

/-! ## Tokens -/

/-- The smallest pieces of a document. -/
inductive Token where
  | openBracket | closeBracket | openBrace | closeBrace | comma | colon
  | null
  | bool (b : Bool)
  | number (spelling : String)
  | string (spelling : String)
  deriving DecidableEq, Repr

/-- How far a number has been read. -/
inductive NumberPart where
  | minus | zero | whole | point | fraction | exponentMark | exponentSign | exponent
  deriving DecidableEq, Repr

/-- Whether a number may end here. -/
def NumberPart.complete : NumberPart → Bool
  | zero | whole | fraction | exponent => true
  | minus | point | exponentMark | exponentSign => false

/-- The part that a character carries a number on to. -/
def NumberPart.next? (p : NumberPart) (c : Char) : Option NumberPart :=
  let digit := c.isDigit
  let mark := c = 'e' ∨ c = 'E'
  match p with
  | minus => if c = '0' then some zero else if digit then some whole else none
  | zero => if c = '.' then some point else if mark then some exponentMark else none
  | whole =>
    if digit then some whole else if c = '.' then some point
    else if mark then some exponentMark else none
  | point => if digit then some fraction else none
  | fraction => if digit then some fraction else if mark then some exponentMark else none
  | exponentMark =>
    if digit then some exponent else if c = '+' ∨ c = '-' then some exponentSign else none
  | exponentSign | exponent => if digit then some exponent else none

/-- What the lexer is inside of. Spellings are kept with the latest character first. -/
inductive Mode where
  | between
  | word (latest : List Char)
  | number (part : NumberPart) (latest : List Char)
  | string (latest : List Char)
  /-- After a backslash. -/
  | escape (latest : List Char)
  /-- With so many hexadecimal digits to come. -/
  | unicode (left : Nat) (latest : List Char)
  deriving DecidableEq, Repr

/-- The lexer: the tokens read, the latest first, and what it is inside of. -/
structure Lexer where
  tokens : List Token
  mode : Mode
  deriving DecidableEq, Repr

namespace Lexer

/-- Before the first character. -/
def start : Lexer := ⟨[], .between⟩

/-- A token more, and nothing begun. -/
def emit (tokens : List Token) (t : Token) : Option Lexer := some ⟨t :: tokens, .between⟩

/-- The token of a word. -/
def wordToken? (latest : List Char) : Option Token :=
  match String.ofList latest.reverse with
  | "null" => some .null
  | "true" => some (.bool true)
  | "false" => some (.bool false)
  | _ => none

/-- Reads a character between tokens. -/
def stepBetween (tokens : List Token) (c : Char) : Option Lexer :=
  if c = ' ' ∨ c = '\t' ∨ c = '\n' ∨ c = '\r' then some ⟨tokens, .between⟩
  else if c = '[' then emit tokens .openBracket
  else if c = ']' then emit tokens .closeBracket
  else if c = '\x7b' then emit tokens .openBrace
  else if c = '\x7d' then emit tokens .closeBrace
  else if c = ',' then emit tokens .comma
  else if c = ':' then emit tokens .colon
  else if c = '"' then some ⟨tokens, .string []⟩
  else if c = '-' then some ⟨tokens, .number .minus [c]⟩
  else if c = '0' then some ⟨tokens, .number .zero [c]⟩
  else if c.isDigit then some ⟨tokens, .number .whole [c]⟩
  else if c = 'n' ∨ c = 't' ∨ c = 'f' then some ⟨tokens, .word [c]⟩
  else none

/-- Ends the word or number that the lexer is inside of. -/
def settle? (l : Lexer) : Option (List Token) :=
  match l.mode with
  | .between => some l.tokens
  | .word latest => do return (← wordToken? latest) :: l.tokens
  | .number part latest =>
    if part.complete then some (.number (String.ofList latest.reverse) :: l.tokens) else none
  | .string _ | .escape _ | .unicode _ _ => none

/-- Reads one character. -/
def step (l : Lexer) (c : Char) : Option Lexer :=
  match l.mode with
  | .between => stepBetween l.tokens c
  | .word latest =>
    if c.isLower then some ⟨l.tokens, .word (c :: latest)⟩
    else do stepBetween (← l.settle?) c
  | .number part latest =>
    match part.next? c with
    | some part => some ⟨l.tokens, .number part (c :: latest)⟩
    | none => do stepBetween (← l.settle?) c
  | .string latest =>
    if c = '"' then emit l.tokens (.string (String.ofList latest.reverse))
    else if c = '\\' then some ⟨l.tokens, .escape (c :: latest)⟩
    else if c.toNat < 32 then none
    else some ⟨l.tokens, .string (c :: latest)⟩
  | .escape latest =>
    if c = 'u' then some ⟨l.tokens, .unicode 4 (c :: latest)⟩
    else if (escapes.lookup c).isSome then some ⟨l.tokens, .string (c :: latest)⟩
    else none
  | .unicode left latest =>
    if (Hex.digit? c).isNone then none
    else if left ≤ 1 then some ⟨l.tokens, .string (c :: latest)⟩
    else some ⟨l.tokens, .unicode (left - 1) (c :: latest)⟩

end Lexer

/-- The tokens of a text. -/
def tokens? (cs : List Char) : Option (List Token) := do
  let l ← cs.foldlM Lexer.step Lexer.start
  return (← l.settle?).reverse

/-! ## Documents -/

/-- An open array with its items so far, or an open object with its members so far and the name of the
member to come. The latest come first. -/
inductive Open where
  | array (items : List Json)
  | object (members : List (String × Json)) (name : String)

/-- What the builder waits for. -/
inductive Awaiting where
  | value
  /-- A first item, or the end of the array that was just opened. -/
  | firstItem
  /-- A first name, or the end of the object that was just opened. -/
  | firstName (members : List (String × Json))
  | name (members : List (String × Json))
  | colon
  /-- What may follow this complete value. -/
  | after (v : Json)

/-- The builder: the open arrays and objects, innermost first, and what comes next. -/
structure Builder where
  stack : List Open
  awaiting : Awaiting

namespace Builder

/-- Before the first token. -/
def start : Builder := ⟨[], .value⟩

/-- Reads the first token of a value. -/
def stepValue (stack : List Open) : Token → Option Builder
  | .null => some ⟨stack, .after .null⟩
  | .bool b => some ⟨stack, .after (.bool b)⟩
  | .number n => some ⟨stack, .after (.number n)⟩
  | .string s => some ⟨stack, .after (.string s)⟩
  | .openBracket => some ⟨.array [] :: stack, .firstItem⟩
  | .openBrace => some ⟨stack, .firstName []⟩
  | _ => none

/-- Reads the token after a complete value. -/
def stepAfter (v : Json) : List Open → Token → Option Builder
  | .array items :: stack, .comma => some ⟨.array (v :: items) :: stack, .value⟩
  | .array items :: stack, .closeBracket => some ⟨stack, .after (.array (v :: items).reverse)⟩
  | .object members name :: stack, .comma => some ⟨stack, .name ((name, v) :: members)⟩
  | .object members name :: stack, .closeBrace =>
    some ⟨stack, .after (.object ((name, v) :: members).reverse)⟩
  | _, _ => none

/-- Reads one token. -/
def step (b : Builder) (t : Token) : Option Builder :=
  match b.awaiting with
  | .value => stepValue b.stack t
  | .firstItem =>
    match b.stack, t with
    | .array _ :: stack, .closeBracket => some ⟨stack, .after (.array [])⟩
    | stack, t => stepValue stack t
  | .firstName members =>
    match t with
    | .string n => some ⟨.object members n :: b.stack, .colon⟩
    | .closeBrace => some ⟨b.stack, .after (.object [])⟩
    | _ => none
  | .name members =>
    match t with
    | .string n => some ⟨.object members n :: b.stack, .colon⟩
    | _ => none
  | .colon => if t = .colon then some ⟨b.stack, .value⟩ else none
  | .after v => stepAfter v b.stack t

/-- The document, if it is complete. -/
def result? (b : Builder) : Option Json :=
  match b.stack, b.awaiting with
  | [], .after v => some v
  | _, _ => none

end Builder

/-- The document that tokens make up. -/
def ofTokens? (ts : List Token) : Option Json := do
  (← ts.foldlM Builder.step Builder.start).result?

/-- The document that a text is, blanks around it allowed. -/
def parse? (s : String) : Option Json := do ofTokens? (← tokens? s.toList)

end CircuitBlocks.Json
