/-!
# The shortest decimal that reads back

A finite binary floating-point number is `mantissa * 2 ^ exponent`, and every real number of a
small interval around it rounds to it.  Its shortest decimal is the point of that interval on the
coarsest grid of multiples of a power of ten that meets the interval; of several such points it is
the one nearest to the number, and of two equally near ones the one with the even last digit.

All comparisons are made between natural numbers, so nothing is rounded on the way.
-/

namespace SqlTemplate

set_option autoImplicit false

/-- The decimal number `significand * 10 ^ exponent`. -/
structure Decimal where
  significand : Nat
  exponent : Int
  deriving Repr, DecidableEq

namespace Decimal

/-! ## Binary numbers and the reals that round to them -/

/-- A positive binary number together with the interval that rounds to it: the number and the ends
are `value`, `low` and `high` times `2 ^ exponent`.  The ends belong to the interval exactly when
`closed` holds. -/
structure Neighbourhood where
  low : Nat
  value : Nat
  high : Nat
  exponent : Int
  closed : Bool

/-- The leading bit of a mantissa, which is not written among the bits of a number. -/
def hiddenBit : Nat := Nat.pow 2 52

/-- The neighbourhood of the finite number with the given bits, its sign left out.  The spacing
below a power of two is half of the spacing above it, except among the smallest numbers. -/
def Neighbourhood.ofBits (bits : UInt64) : Neighbourhood :=
  let fraction := bits.toNat % hiddenBit
  let biased := bits.toNat / hiddenBit % 2048
  let mantissa := if biased = 0 then fraction else hiddenBit + fraction
  let below := if fraction = 0 ∧ 1 < biased then 1 else 2
  { low := 4 * mantissa - below
    value := 4 * mantissa
    high := 4 * mantissa + 2
    exponent := (max biased 1 : Nat) - 1077
    closed := mantissa % 2 = 0 }

/-! ## Points of a grid -/

/-- A rational number is compared with a point of a grid after both are multiplied with these
factors: the first for the number, the second for the point. -/
def factors (binary decimal : Int) : Nat × Nat :=
  (Nat.pow 2 binary.toNat * Nat.pow 10 (-decimal).toNat,
    Nat.pow 2 (-binary).toNat * Nat.pow 10 decimal.toNat)

/-- The point nearest to the number on the grid of multiples of `10 ^ exponent`, if a point of that
grid rounds to the number. -/
def onGrid? (near : Neighbourhood) (exponent : Int) : Option Decimal :=
  let (scale, unit) := factors near.exponent exponent
  let below := near.value * scale / unit
  let rounds (point : Nat) : Bool :=
    if near.closed then near.low * scale ≤ point * unit && point * unit ≤ near.high * scale
    else near.low * scale < point * unit && point * unit < near.high * scale
  let toBelow := near.value * scale - below * unit
  let toAbove := (below + 1) * unit - near.value * scale
  match rounds below, rounds (below + 1) with
  | false, false => none
  | true, false => some ⟨below, exponent⟩
  | false, true => some ⟨below + 1, exponent⟩
  | true, true =>
      if toBelow < toAbove ∨ toBelow = toAbove ∧ below % 2 = 0 then some ⟨below, exponent⟩
      else some ⟨below + 1, exponent⟩

/-- Tries the given number of grids, each ten times as fine as the one before. -/
def coarsest (near : Neighbourhood) : Nat → Int → Decimal
  | 0, exponent => ⟨0, exponent⟩
  | tries + 1, exponent => (onGrid? near exponent).getD (coarsest near tries (exponent - 1))

/-- An exponent of ten above the size of every number with this exponent of two: there are at most
fifty-five binary digits above the exponent, and each takes a little less than 0.30103 decimal
ones. -/
def startExponent (binary : Int) : Int := (binary + 55) * 30103 / 100000 + 1

/-- The shortest decimal of the positive finite number with the given bits.  Seventeen digits
always suffice; the smallest numbers have up to sixteen decimal digits less than their exponent
allows. -/
def shortest (bits : UInt64) : Decimal :=
  let near := Neighbourhood.ofBits bits
  coarsest near 40 (startExponent near.exponent)

end Decimal

end SqlTemplate
