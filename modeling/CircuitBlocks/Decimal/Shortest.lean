import CircuitBlocks.Decimal.Binary64

/-!
# Shortest decimals — the fewest digits that read back

Every decimal in a certain interval reads back as a given number. Among the decimals there, the one
with the fewest digits is chosen, and of those the one nearest to the number; of two equally near, the
larger.

A decimal of `n` digits is a point of a grid of powers of ten. If any point of the grid lies in the
interval, one of the two grid points next to the number does, so only these two are tried.
-/

namespace CircuitBlocks.Decimal

/-- The decimal `digits · 10 ^ exponent`. -/
structure Expansion where
  digits : Nat
  exponent : Int
  deriving DecidableEq, Repr

/-- How many decimal digits a natural has. -/
def width (n : Nat) : Nat := (Nat.toDigits 10 n).length

/-- The `k` with `10 ^ k ≤ num / den < 10 ^ (k + 1)`, for a positive ratio. -/
def decimalExponent (num den : Nat) : Int :=
  let shift : Int := (width den : Int) - width num
  if den * tenTo (-shift).toNat ≤ num * tenTo shift.toNat then -shift else -shift - 1

/-- Without zeros at the end of the digits. `fuel` bounds their number. -/
def Expansion.strip : (fuel : Nat) → Expansion → Expansion
  | 0, d => d
  | fuel + 1, d =>
    if d.digits ≠ 0 ∧ d.digits % 10 = 0 then Expansion.strip fuel ⟨d.digits / 10, d.exponent + 1⟩
    else d

/-- The interval of the positive number `mantissa · 2 ^ exponent`, in quarters of its last place: the
lower end is nearer where the exponent of the numbers below is less. -/
def quartersBelow (mantissa : Nat) (exponent : Int) : Nat :=
  if mantissa = twoTo 52 ∧ exponent ≠ leastExponent then 1 else 2

/-- The decimal of the grid `10 ^ place` next to `mantissa · 2 ^ exponent` that reads back, if there
is one. -/
def onGrid? (mantissa : Nat) (exponent place : Int) : Option Expansion :=
  let q := exponent - 2
  let num := fun quarters : Nat => quarters * twoTo q.toNat * tenTo (-place).toNat
  let den := twoTo (-q).toNat * tenTo place.toNat
  let low := num (4 * mantissa - quartersBelow mantissa exponent)
  let high := num (4 * mantissa + 2)
  let inside := fun c : Nat =>
    if mantissa % 2 = 0 then low ≤ c * den ∧ c * den ≤ high else low < c * den ∧ c * den < high
  let value := num (4 * mantissa)
  let below := value / den
  let nearer := if 2 * value < (2 * below + 1) * den then below else below + 1
  let farther := 2 * below + 1 - nearer
  if inside nearer then some ⟨nearer, place⟩
  else if inside farther then some ⟨farther, place⟩
  else none

/-- The shortest decimal of the positive number `mantissa · 2 ^ exponent`. Seventeen digits always
suffice. -/
def shortest (mantissa : Nat) (exponent : Int) : Expansion :=
  let k := decimalExponent (mantissa * twoTo exponent.toNat) (twoTo (-exponent).toNat)
  let found := (List.range 17).findSome? fun n : Nat => onGrid? mantissa exponent (k - n)
  (found.getD ⟨0, 0⟩).strip 18

end CircuitBlocks.Decimal
