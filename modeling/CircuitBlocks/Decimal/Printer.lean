import CircuitBlocks.Decimal.Shortest

/-!
# Printed numbers — layouts of the shortest decimal

A layout says which numbers are written with a plain decimal point and which with an exponent, and how
a whole number ends. Three layouts are in use: `plain` never writes an exponent, `scientific` always
does, and `value` does so for very large and very small numbers.
-/

namespace CircuitBlocks.Decimal

/-- How a number is laid out. -/
structure Layout where
  /-- Whether a number `x` with `10 ^ k ≤ x < 10 ^ (k + 1)` is written without exponent. -/
  positional : Int → Bool
  /-- What follows a whole number written without exponent. -/
  wholeEnd : String

/-- Never an exponent; a whole number is its digits. -/
def Layout.plain : Layout := ⟨fun _ => true, ""⟩

/-- Always an exponent. -/
def Layout.scientific : Layout := ⟨fun _ => false, ""⟩

/-- An exponent from `10 ^ 16` on and below `10 ^ -4`; a whole number ends in a point and a zero. -/
def Layout.value : Layout := ⟨fun k => -4 ≤ k ∧ k < 16, ".0"⟩

/-- So many zeros. -/
def zeros (n : Nat) : List Char := List.replicate n '0'

/-- Digits written around the decimal point that stands after `point` of them. -/
def positionalChars (wholeEnd : String) (digits : List Char) (point : Int) : List Char :=
  if point ≤ 0 then '0' :: '.' :: zeros (-point).toNat ++ digits
  else if (digits.length : Int) ≤ point then
    digits ++ zeros (point.toNat - digits.length) ++ wholeEnd.toList
  else digits.take point.toNat ++ '.' :: digits.drop point.toNat

/-- Digits with a point after the first, and the exponent of that point. -/
def scientificChars (digits : List Char) (exponent : Int) : List Char :=
  digits.take 1 ++ (if digits.length ≤ 1 then [] else '.' :: digits.drop 1) ++
    'e' :: (toString exponent).toList

/-- A decimal in a layout. -/
def Layout.decimal (l : Layout) (d : Expansion) : List Char :=
  let digits := Nat.toDigits 10 d.digits
  let point : Int := digits.length + d.exponent
  if l.positional (point - 1) then positionalChars l.wholeEnd digits point
  else scientificChars digits (point - 1)

/-- Zero in a layout. -/
def Layout.zero (l : Layout) : List Char :=
  if l.positional 0 then '0' :: l.wholeEnd.toList else ['0', 'e', '0']

/-- The text of a number. -/
def Layout.text (l : Layout) : Binary64 → String
  | .nan => "NaN"
  | .infinite negative => if negative then "-inf" else "inf"
  | .finite negative mantissa exponent =>
    let unsigned := if mantissa = 0 then l.zero else l.decimal (shortest mantissa exponent)
    String.ofList (if negative then '-' :: unsigned else unsigned)

/-- The text of a floating-point number. -/
def Layout.print (l : Layout) (x : Float) : String := l.text (.ofFloat x)

/-- A list of printed numbers between brackets. -/
def Layout.printList (l : Layout) (xs : List Float) : String :=
  "[" ++ String.intercalate ", " (xs.map l.print) ++ "]"

end CircuitBlocks.Decimal
