import SqlTemplate.Decimal.Shortest

/-!
# Numbers as text

A floating-point number is written with the digits of its shortest decimal.  Positional notation
with at least one digit after the point is used from `0.00001` up to sixteen digits before the
point; beyond these bounds one digit stands before the point, the point stands only if more digits
follow, and the exponent has a sign and no leading zeros.  Zero keeps its sign.
-/

namespace SqlTemplate

set_option autoImplicit false

namespace Decimal

/-- A decimal as its digits and the place of the point: the number is `0.digits * 10 ^ point`.  The
digits have no zeros at their end. -/
def digitsAndPoint (decimal : Decimal) : List Char × Int :=
  let digits := Nat.toDigits 10 decimal.significand
  ((digits.reverse.dropWhile (· == '0')).reverse, digits.length + decimal.exponent)

/-- Positional notation is used while the point stands at one of these places. -/
def isPositional (point : Int) : Bool := -5 < point && point ≤ 16

/-- The exponent part of scientific notation. -/
def exponentPart (exponent : Int) : List Char :=
  'e' :: (if exponent < 0 then '-' else '+') :: Nat.toDigits 10 exponent.natAbs

/-- The written form of a positive decimal. -/
def layout (decimal : Decimal) : List Char :=
  let (digits, point) := decimal.digitsAndPoint
  if isPositional point then
    if point ≤ 0 then '0' :: '.' :: List.replicate (-point).toNat '0' ++ digits
    else
      let before := digits.take point.toNat
      let zeros := List.replicate (point.toNat - digits.length) '0'
      let after := digits.drop point.toNat
      before ++ zeros ++ '.' :: (if after.isEmpty then ['0'] else after)
  else
    match digits with
    | [] => []
    | first :: [] => first :: exponentPart (point - 1)
    | first :: more => first :: '.' :: more ++ exponentPart (point - 1)

end Decimal

/-- The bit that is set in negative numbers. -/
def signBit : UInt64 := 0x8000000000000000

/-- The written form of a finite floating-point number. -/
def floatText (value : Float) : String :=
  let bits := value.toBits
  let negative := signBit ≤ bits
  let size := if negative then bits - signBit else bits
  let digits := if size = 0 then ['0', '.', '0'] else (Decimal.shortest size).layout
  .ofList (if negative then '-' :: digits else digits)

end SqlTemplate
