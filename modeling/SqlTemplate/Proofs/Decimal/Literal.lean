import Mathlib.Data.List.Induction
import SqlTemplate.Decimal.Literal
import SqlTemplate.Proofs.Text.Front

/-!
# Numerals

A numeral has digits, at most one point among them, and at most one exponent (`Decimal.Numeral`).
Its characters are read as the number that it stands for (`Decimal.Numeral.literal?_chars`).  Digits
alone are those of the number that they write, with zeros in front (`Decimal.exists_zeros`).
-/

namespace SqlTemplate.Decimal

set_option autoImplicit false

/-! ## Digits and the numbers they write -/

theorem digitsValue_append (front behind : List Char) :
    digitsValue (front ++ behind) = Nat.ofDigitChars 10 behind (digitsValue front) :=
  Nat.ofDigitChars_append 0

theorem digitChar_of_isDigit {digit : Char} (isDigit : digit.isDigit = true) :
    digit.toNat - '0'.toNat < 10 ∧ Nat.digitChar (digit.toNat - '0'.toNat) = digit := by
  rw [Char.isDigit, Bool.and_eq_true, decide_eq_true_iff, decide_eq_true_iff] at isDigit
  have first : 48 ≤ digit.toNat := isDigit.1
  have last : digit.toNat ≤ 57 := isDigit.2
  have zero : '0'.toNat = 48 := rfl
  have small : digit.toNat - '0'.toNat < 10 := by omega
  refine ⟨small, Char.toNat_inj.mp ?_⟩
  rw [Nat.toNat_digitChar_of_lt_ten small]
  omega

/-- Zeros in front of the digits of a number change nothing. -/
theorem digitsValue_zeros_append {zeros : List Char} (padding : ∀ c ∈ zeros, c = '0')
    (number : Nat) : digitsValue (zeros ++ Nat.toDigits 10 number) = number := by
  induction zeros with
  | nil => exact Nat.ofDigitChars_toDigits (by decide) (by decide)
  | cons zero zeros ih =>
      obtain ⟨rfl, others⟩ := List.forall_mem_cons.mp padding
      exact ih others

/-- Digits are those of the number that they write, with zeros in front of them. -/
theorem exists_zeros {digits : List Char} (someDigit : digits ≠ [])
    (allDigits : ∀ c ∈ digits, c.isDigit = true) :
    ∃ zeros, (∀ c ∈ zeros, c = '0') ∧ digits = zeros ++ Nat.toDigits 10 (digitsValue digits) := by
  induction digits using List.reverseRecOn with
  | nil => exact absurd rfl someDigit
  | append_singleton front last ih =>
      obtain ⟨small, char⟩ := digitChar_of_isDigit (allDigits last (by simp))
      have value : digitsValue (front ++ [last]) =
          10 * digitsValue front + (last.toNat - '0'.toNat) := digitsValue_append front [last]
      have single : [last] = Nat.toDigits 10 (last.toNat - '0'.toNat) := by
        rw [Nat.toDigits_of_lt_base small, char]
      by_cases none : front = []
      · subst none
        refine ⟨[], by simp, ?_⟩
        simpa [value, digitsValue] using single
      · obtain ⟨zeros, padding, split⟩ := ih none fun c member => allDigits c (by simp [member])
        rcases Nat.eq_zero_or_pos (digitsValue front) with zero | positive
        · -- A front that writes zero is one more zero.
          rw [zero] at split
          refine ⟨front, ?_, ?_⟩
          · rw [split]
            intro c member
            rcases List.mem_append.mp member with zeroes | last
            · exact padding c zeroes
            · simpa using last
          · rw [value, zero, Nat.mul_zero, Nat.zero_add, ← single]
        · refine ⟨zeros, padding, ?_⟩
          rw [value, ← Nat.toDigits_append_toDigits (by decide) positive small, ← single,
            ← List.append_assoc, ← split]

/-! ## Exponents -/

/-- The sign in front of the digits of an exponent. -/
inductive ExponentSign where
  | none
  | plus
  | minus

/-- The characters of a sign. -/
def ExponentSign.chars : ExponentSign → List Char
  | none => []
  | plus => ['+']
  | minus => ['-']

/-- The number that a sign makes of another one. -/
def ExponentSign.apply (size : Nat) : ExponentSign → Int
  | none => size
  | plus => size
  | minus => -size

/-- The exponent of a numeral: the letter `e` or its capital, a sign and digits. -/
structure Exponent where
  letter : Char
  sign : ExponentSign
  digits : List Char
  isLetter : letter = 'e' ∨ letter = 'E'
  someDigit : digits ≠ []
  allDigits : ∀ c ∈ digits, c.isDigit = true

namespace Exponent

/-- The characters of an exponent. -/
def chars (exponent : Exponent) : List Char :=
  exponent.letter :: (exponent.sign.chars ++ exponent.digits)

/-- The number that an exponent writes. -/
def value (exponent : Exponent) : Int := exponent.sign.apply (digitsValue exponent.digits)

/-- The characters of an exponent are read as its number. -/
theorem exponent?_chars (exponent : Exponent) : exponent? exponent.chars = some exponent.value := by
  obtain ⟨letter, sign, digits, isLetter, someDigit, allDigits⟩ := exponent
  have isMark : (letter == 'e' || letter == 'E') = true := by
    rcases isLetter with rfl | rfl <;> rfl
  have written : ¬ (digits.isEmpty || !digits.all Char.isDigit) = true := by
    simpa [someDigit] using allDigits
  cases sign with
  | minus => exact (if_pos isMark).trans (if_neg written)
  | plus => exact (if_pos isMark).trans (if_neg written)
  | none =>
      show exponent? (letter :: digits) = some (digitsValue digits : Int)
      rw [exponent?, if_pos isMark]
      · exact if_neg written
      · intro after equal
        subst equal
        exact absurd (allDigits '-' (List.mem_cons_self ..)) (by decide)
      · intro after equal
        subst equal
        exact absurd (allDigits '+' (List.mem_cons_self ..)) (by decide)

end Exponent

/-! ## Digits and what follows them -/

section Digits

variable {whole fraction behind : List Char} {exponent : Int}

/-- Digits without a point are read with the exponent that follows. -/
theorem literal?_without_point (someDigit : whole ≠ [])
    (wholeDigits : ∀ c ∈ whole, c.isDigit = true) (noDigit : Text.StopsAt Char.isDigit behind)
    (noPoint : Text.StopsAt (· == '.') behind) (reads : exponent? behind = some exponent) :
    literal? (whole ++ behind) = some (nearest (digitsValue whole) exponent) := by
  rw [literal?, noDigit.takeWhile_append wholeDigits, noDigit.dropWhile_append wholeDigits]
  split
  · rename_i after
    exact absurd (noPoint '.' after rfl) (by decide)
  · simp [someDigit, reads]

/-- Digits before and behind a point are read with the exponent that follows. -/
theorem literal?_with_point (someDigit : whole ++ fraction ≠ [])
    (wholeDigits : ∀ c ∈ whole, c.isDigit = true)
    (fractionDigits : ∀ c ∈ fraction, c.isDigit = true)
    (noDigit : Text.StopsAt Char.isDigit behind) (reads : exponent? behind = some exponent) :
    literal? (whole ++ '.' :: (fraction ++ behind)) =
      some (nearest (digitsValue (whole ++ fraction)) (exponent - fraction.length)) := by
  have someDigits : ¬ (whole.isEmpty && fraction.isEmpty) = true := by
    simpa using someDigit
  have pointStops : Text.StopsAt Char.isDigit ('.' :: (fraction ++ behind)) := .cons (by decide)
  rw [literal?, pointStops.takeWhile_append wholeDigits, pointStops.dropWhile_append wholeDigits]
  show (if (whole.isEmpty && ((fraction ++ behind).takeWhile Char.isDigit).isEmpty) then none
    else (exponent? ((fraction ++ behind).dropWhile Char.isDigit)).map _) = _
  rw [noDigit.takeWhile_append fractionDigits, noDigit.dropWhile_append fractionDigits,
    if_neg someDigits, reads, Option.map_some]
  simp only [Option.getD_some, noDigit.takeWhile_append fractionDigits]

end Digits

/-! ## Numerals -/

/-- A numeral: digits before the point, the digits behind it if there is a point, and an exponent if
there is one.  At least one digit stands before or behind the point. -/
structure Numeral where
  whole : List Char
  fraction? : Option (List Char)
  exponent? : Option Exponent
  wholeDigits : ∀ c ∈ whole, c.isDigit = true
  fractionDigits : ∀ c ∈ fraction?.getD [], c.isDigit = true
  someDigit : whole ++ fraction?.getD [] ≠ []

namespace Numeral

/-- The digits behind the point. -/
def fraction (numeral : Numeral) : List Char := numeral.fraction?.getD []

/-- The characters of the point and the digits behind it. -/
def fractionChars (numeral : Numeral) : List Char :=
  match numeral.fraction? with
  | none => []
  | some fraction => '.' :: fraction

/-- The characters of the exponent. -/
def exponentChars (numeral : Numeral) : List Char :=
  match numeral.exponent? with
  | none => []
  | some exponent => exponent.chars

/-- The number that the exponent writes. -/
def exponentValue (numeral : Numeral) : Int :=
  match numeral.exponent? with
  | none => 0
  | some exponent => exponent.value

/-- The characters of a numeral. -/
def chars (numeral : Numeral) : List Char :=
  numeral.whole ++ numeral.fractionChars ++ numeral.exponentChars

/-- The number that a numeral stands for: the nearest one to its digits, times the power of ten
that its exponent and the place of its point give. -/
def value (numeral : Numeral) : Float :=
  nearest (digitsValue (numeral.whole ++ numeral.fraction))
    (numeral.exponentValue - numeral.fraction.length)

theorem exponent?_exponentChars (numeral : Numeral) :
    Decimal.exponent? numeral.exponentChars = some numeral.exponentValue := by
  rw [exponentChars, exponentValue]
  cases numeral.exponent? with
  | none => rfl
  | some exponent => exact exponent.exponent?_chars

/-- The exponent starts with a letter, and so with no digit and no point. -/
theorem exponentChars_stopsAt (numeral : Numeral) {inClass : Char → Bool}
    (small : inClass 'e' = false) (capital : inClass 'E' = false) :
    Text.StopsAt inClass numeral.exponentChars := by
  rw [exponentChars]
  cases numeral.exponent? with
  | none => exact .nil
  | some exponent =>
      refine .cons ?_
      rcases exponent.isLetter with isLetter | isLetter <;> rw [isLetter]
      · exact small
      · exact capital

/-- The characters of a numeral are read as its number. -/
theorem literal?_chars (numeral : Numeral) : literal? numeral.chars = some numeral.value := by
  have noDigit : Text.StopsAt Char.isDigit numeral.exponentChars :=
    numeral.exponentChars_stopsAt (by decide) (by decide)
  have noPoint : Text.StopsAt (· == '.') numeral.exponentChars :=
    numeral.exponentChars_stopsAt (by decide) (by decide)
  have reads := numeral.exponent?_exponentChars
  have someDigit := numeral.someDigit
  have fractionDigits := numeral.fractionDigits
  rw [chars, value, List.append_assoc, fractionChars, fraction]
  cases point : numeral.fraction? with
  | none =>
      rw [point] at someDigit
      have someWhole : numeral.whole ≠ [] := by simpa using someDigit
      have read := literal?_without_point someWhole numeral.wholeDigits noDigit noPoint reads
      simpa using read
  | some fraction =>
      rw [point] at someDigit fractionDigits
      exact literal?_with_point someDigit numeral.wholeDigits fractionDigits noDigit reads

/-- A numeral starts with a digit, or with a point and a digit behind it. -/
theorem exists_chars (numeral : Numeral) :
    ∃ c rest, numeral.chars = c :: rest ∧
      (c.isDigit = true ∨ c = '.' ∧ ∃ digit more, rest = digit :: more ∧ digit.isDigit = true) := by
  have someDigit := numeral.someDigit
  have fractionDigits := numeral.fractionDigits
  rw [chars, fractionChars]
  cases digits : numeral.whole with
  | cons c rest =>
      exact ⟨c, _, rfl, .inl (numeral.wholeDigits c (digits ▸ List.mem_cons_self ..))⟩
  | nil =>
      rw [digits] at someDigit
      cases point : numeral.fraction? with
      | none =>
          rw [point] at someDigit
          exact absurd rfl someDigit
      | some fraction =>
          rw [point] at someDigit fractionDigits
          cases fraction with
          | nil => exact absurd rfl someDigit
          | cons digit more =>
              exact ⟨'.', _, rfl, .inr ⟨rfl, digit, _, rfl,
                fractionDigits digit (List.mem_cons_self ..)⟩⟩

end Numeral

end SqlTemplate.Decimal
