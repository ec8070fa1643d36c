import CircuitBlocks.Decimal.Binary64

/-!
# Read numbers — decimal texts to floating point

A number is an optional sign, digits with at most one decimal point among or beside them, and an
optional exponent; or, in either case of letters, one of the words for infinity and not-a-number. It
is read to the nearest floating-point number.
-/

namespace CircuitBlocks.Decimal

/-- Takes an optional sign; `true` is a minus. -/
def takeSign : List Char → Bool × List Char
  | '-' :: cs => (true, cs)
  | '+' :: cs => (false, cs)
  | cs => (false, cs)

/-- The natural that digits spell. -/
def naturalOfDigits (digits : List Char) : Nat :=
  digits.foldl (fun acc c => 10 * acc + (c.toNat - '0'.toNat)) 0

/-- The digits at the start, and the rest. -/
def takeDigits (cs : List Char) : List Char × List Char :=
  (cs.takeWhile Char.isDigit, cs.dropWhile Char.isDigit)

/-- The digits after a decimal point, if one is next, and the rest. -/
def takeFraction : List Char → List Char × List Char
  | '.' :: cs => takeDigits cs
  | cs => ([], cs)

/-- The exponent that makes up all of the characters; none is zero. -/
def exponent? : List Char → Option Int
  | [] => some 0
  | e :: cs =>
    if e = 'e' ∨ e = 'E' then
      let (negative, cs) := takeSign cs
      if cs = [] ∨ !cs.all Char.isDigit then none
      else some (if negative then -(naturalOfDigits cs : Int) else naturalOfDigits cs)
    else none

/-- The number of digits, point and exponent, with the sign already taken. -/
def digitsToFloat? (negative : Bool) (cs : List Char) : Option Float := do
  let (whole, cs) := takeDigits cs
  let (fraction, cs) := takeFraction cs
  let exponent ← exponent? cs
  if whole ++ fraction = [] then none
  else some (roundToNearest negative (naturalOfDigits (whole ++ fraction))
    (exponent - fraction.length))

/-- The number that a text spells. -/
def parse? (s : String) : Option Float :=
  let (negative, cs) := takeSign s.toList
  let word := String.ofList (cs.map Char.toLower)
  if word = "inf" ∨ word = "infinity" then some (floatOfBits negative (2047 * twoTo 52))
  else if word = "nan" then some (floatOfBits negative (2047 * twoTo 52 + twoTo 51))
  else digitsToFloat? negative cs

end CircuitBlocks.Decimal
