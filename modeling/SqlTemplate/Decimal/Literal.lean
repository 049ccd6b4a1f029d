/-!
# Decimal literals

A literal is a run of digits with at most one point before, among or after them, and an optional
exponent with an optional sign.  At least one digit stands in the significand, and at least one in
the exponent if there is one.  It is read as the nearest floating-point number; a literal too large
for every finite one is read as infinity.
-/

namespace SqlTemplate

set_option autoImplicit false

namespace Decimal

/-- The number that a run of decimal digits writes. -/
def digitsValue (digits : List Char) : Nat :=
  digits.foldl (fun value digit => 10 * value + (digit.toNat - '0'.toNat)) 0

/-- The exponent that the characters after a significand write: none at all, or the letter `e`, an
optional sign and digits. -/
def exponent? : List Char → Option Int
  | [] => some 0
  | mark :: rest =>
      if mark == 'e' || mark == 'E' then
        let (negative, digits) : Bool × List Char := match rest with
          | '-' :: digits => (true, digits)
          | '+' :: digits => (false, digits)
          | digits => (false, digits)
        if digits.isEmpty || !digits.all Char.isDigit then none
        else some (if negative then -(digitsValue digits : Int) else digitsValue digits)
      else none

/-- The floating-point number nearest to `significand * 10 ^ exponent`.  A number with more than
three hundred and ten digits before the point is infinite, one with more than three hundred and
thirty zeros after the point is zero. -/
def nearest (significand : Nat) (exponent : Int) : Float :=
  let size := (Nat.toDigits 10 significand).length + exponent
  if significand = 0 ∨ size < -330 then 0.0
  else if 310 < size then Float.ofBits 0x7FF0000000000000
  else Float.ofScientific significand (exponent < 0) exponent.natAbs

/-- The floating-point number that a literal writes. -/
def literal? (chars : List Char) : Option Float :=
  let whole := chars.takeWhile Char.isDigit
  let afterWhole := chars.dropWhile Char.isDigit
  let pointed := match afterWhole with
    | '.' :: rest => some rest
    | _ => none
  let fraction := (pointed.getD []).takeWhile Char.isDigit
  let afterFraction := match pointed with
    | some rest => rest.dropWhile Char.isDigit
    | none => afterWhole
  if whole.isEmpty && fraction.isEmpty then none
  else (exponent? afterFraction).map fun exponent =>
    nearest (digitsValue (whole ++ fraction)) (exponent - fraction.length)

end Decimal

end SqlTemplate
