/-!
# Hexadecimal text — two digits a byte

`encode` writes lower-case digits. `decode?` takes a text of an even number of bytes apart into pairs
and reads each pair as a number in base sixteen: two digits of either case, or a plus sign and one
digit.
-/

namespace CircuitBlocks.Hex

/-- The digits, by value. -/
def digits : List Char := "0123456789abcdef".toList

/-- The digit of a value below sixteen. -/
def digit (n : Nat) : Char := digits.getD n '0'

/-- The two digits of a byte. -/
def encodeByte (b : UInt8) : List Char := [digit (b.toNat / 16), digit (b.toNat % 16)]

/-- The digits of all bytes. -/
def encodeChars (bytes : List UInt8) : List Char := bytes.flatMap encodeByte

/-- Bytes as hexadecimal text. -/
def encode (bytes : List UInt8) : String := String.ofList (encodeChars bytes)

/-- The value of a digit of either case. -/
def digit? (c : Char) : Option Nat :=
  if '0' ≤ c ∧ c ≤ '9' then some (c.toNat - '0'.toNat)
  else if 'a' ≤ c ∧ c ≤ 'f' then some (c.toNat - 'a'.toNat + 10)
  else if 'A' ≤ c ∧ c ≤ 'F' then some (c.toNat - 'A'.toNat + 10)
  else none

/-- The byte that a pair of characters names. A plus sign may stand for the first digit. -/
def pair? (high low : Char) : Option UInt8 := do
  let h ← if high = '+' then some 0 else digit? high
  let l ← digit? low
  return UInt8.ofNat (16 * h + l)

/-- The bytes named pair by pair. -/
def decodeChars? : List Char → Option (List UInt8)
  | [] => some []
  | [_] => none
  | high :: low :: rest => do
    let b ← pair? high low
    let bs ← decodeChars? rest
    return b :: bs

/-- The bytes that a text names. A text with a character outside ASCII names none. -/
def decode? (s : String) : Option (List UInt8) := decodeChars? s.toList

example : encode [0, 1, 0x7f, 0x80, 0xff] = "00017f80ff" := by decide
example : decode? "00017F80fF" = some [0, 1, 0x7f, 0x80, 0xff] ∧ decode? "abc" = none := by decide
example : decode? "+f" = some [15] ∧ decode? "f+" = none := by decide

end CircuitBlocks.Hex
