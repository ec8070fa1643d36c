/-!
# Binary64 — floating-point numbers as exact values

A finite number is `mantissa · 2 ^ exponent`. `ofFloat` reads a number apart; `roundToNearest` is the
way back from an exact ratio of naturals: to the nearest number, of two equally near to the one with
the even mantissa.
-/

namespace CircuitBlocks.Decimal

/-- The powers of two. -/
def twoTo (n : Nat) : Nat := Nat.pow 2 n

/-- The powers of ten. -/
def tenTo (n : Nat) : Nat := Nat.pow 10 n

/-- What a floating-point number stands for. -/
inductive Binary64 where
  | nan
  | infinite (negative : Bool)
  | finite (negative : Bool) (mantissa : Nat) (exponent : Int)
  deriving DecidableEq, Repr

/-- The least exponent of a finite number. -/
def leastExponent : Int := -1074

/-- The value that sixty-four bits stand for. -/
def Binary64.ofBits (bits : Nat) : Binary64 :=
  let negative := bits / twoTo 63 % 2 = 1
  let field : Nat := bits / twoTo 52 % twoTo 11
  let fraction := bits % twoTo 52
  if field = 2047 then if fraction = 0 then .infinite negative else .nan
  else if field = 0 then .finite negative fraction leastExponent
  else .finite negative (twoTo 52 + fraction) (leastExponent + ((field : Int) - 1))

/-- The value of a floating-point number. -/
def Binary64.ofFloat (x : Float) : Binary64 := .ofBits x.toBits.toNat

/-- The nearest natural to `n / d`, a half going to the even neighbour. -/
def roundHalfEven (n d : Nat) : Nat :=
  let below := n / d
  let rest := 2 * (n % d)
  if rest < d then below
  else if d < rest then below + 1
  else if below % 2 = 0 then below else below + 1

/-- The exponent of the number that a positive ratio rounds to: its mantissa has fifty-three bits
unless the exponent is the least. -/
def exponentFor (num den : Nat) : Int :=
  let estimate : Int := (num.log2 : Int) - den.log2 - 52
  let tooLarge := num * twoTo (-estimate).toNat < twoTo 52 * (den * twoTo estimate.toNat)
  max leastExponent (if tooLarge then estimate - 1 else estimate)

/-- The bits, without sign, of the number nearest to a positive ratio. -/
def nearestBits (num den : Nat) : Nat :=
  let q := exponentFor num den
  let mantissa := roundHalfEven (num * twoTo (-q).toNat) (den * twoTo q.toNat)
  min ((q - leastExponent).toNat * twoTo 52 + mantissa) (2047 * twoTo 52)

/-- The number of a sign and bits without sign. -/
def floatOfBits (negative : Bool) (bits : Nat) : Float :=
  .ofBits (UInt64.ofNat (if negative then twoTo 63 + bits else bits))

/-- The number nearest to `± digits · 10 ^ exponent`. Exponents past what the format holds are
settled without the power of ten. -/
def roundToNearest (negative : Bool) (digits : Nat) (exponent : Int) : Float :=
  let places : Int := (Nat.toDigits 10 digits).length + exponent
  floatOfBits negative <|
    if digits = 0 ∨ places < -330 then 0
    else if 310 < places then 2047 * twoTo 52
    else nearestBits (digits * tenTo exponent.toNat) (tenTo (-exponent).toNat)

end CircuitBlocks.Decimal
