import SqlTemplate.Text.Blank
import SqlTemplate.Text.Letter

/-!
# Blanks, digits and letters

The classes of characters that tell tokens apart do not overlap: a blank is neither a letter nor a
numeral, and a name starts with none of the digits.  The blanks and the digits are finitely many, so
what holds of each of them is checked one by one.
-/

namespace SqlTemplate.Text

set_option autoImplicit false

/-- What holds of each character with a listed code point. -/
theorem of_toNat_mem (holds : Char → Prop) {points : List Nat}
    (each : ∀ point ∈ points, holds (Char.ofNat point)) {c : Char} (member : c.toNat ∈ points) :
    holds c := by
  have here := each c.toNat member
  rwa [Char.ofNat_toNat] at here

/-- The code points of the blanks. -/
def blankPoints : List Nat :=
  blankRanges.flatMap fun (first, last) => List.range' first (last + 1 - first)

theorem toNat_mem_blankPoints {c : Char} (blank : isBlank c = true) : c.toNat ∈ blankPoints := by
  obtain ⟨⟨first, last⟩, listed, within⟩ := List.any_eq_true.mp blank
  rw [Bool.and_eq_true, decide_eq_true_iff, decide_eq_true_iff] at within
  refine List.mem_flatMap.mpr ⟨(first, last), listed, ?_⟩
  rw [List.mem_range'_1]
  omega

/-- What is checked of each blank holds of the blanks. -/
theorem of_isBlank (holds : Char → Prop)
    (each : ∀ point ∈ blankPoints, holds (Char.ofNat point)) {c : Char}
    (blank : isBlank c = true) : holds c :=
  of_toNat_mem holds each (toNat_mem_blankPoints blank)

/-- A blank does not belong to a name. -/
theorem isNamePart_of_isBlank {c : Char} (blank : isBlank c = true) : isNamePart c = false :=
  of_isBlank (fun c => isNamePart c = false) (by decide +kernel) blank

/-- What starts a name may go on in it. -/
theorem isNamePart_of_isNameStart {c : Char} (starts : isNameStart c = true) :
    isNamePart c = true := by
  rcases Bool.or_eq_true_iff.mp starts with letter | underscore
  · simp [isNamePart, letter]
  · simp [isNamePart, underscore]

/-- A name does not start with a blank. -/
theorem isBlank_of_isNameStart {c : Char} (starts : isNameStart c = true) : isBlank c = false := by
  cases blank : isBlank c with
  | false => rfl
  | true =>
      have part := isNamePart_of_isNameStart starts
      rw [isNamePart_of_isBlank blank] at part
      cases part

/-- What is checked of each digit holds of the digits. -/
theorem of_isDigit (holds : Char → Prop)
    (each : ∀ point ∈ List.range' 48 10, holds (Char.ofNat point)) {c : Char}
    (digit : c.isDigit = true) : holds c := by
  refine of_toNat_mem holds each ?_
  rw [Char.isDigit, Bool.and_eq_true, decide_eq_true_iff, decide_eq_true_iff] at digit
  have first : 48 ≤ c.toNat := digit.1
  have last : c.toNat ≤ 57 := digit.2
  rw [List.mem_range'_1]
  omega

/-- A name does not start with a digit. -/
theorem isDigit_of_isNameStart {c : Char} (starts : isNameStart c = true) : c.isDigit = false := by
  cases digit : c.isDigit with
  | false => rfl
  | true =>
      have noStart := of_isDigit (fun c => isNameStart c = false) (by decide +kernel) digit
      rw [starts] at noStart
      cases noStart

/-- A digit is not blank. -/
theorem isBlank_of_isDigit {c : Char} (digit : c.isDigit = true) : isBlank c = false :=
  of_isDigit (fun c => isBlank c = false) (by decide +kernel) digit

/-- All characters of a name may go on in it. -/
theorem isNamePart_of_mem {name : List Char} (named : isName name = true) {c : Char}
    (member : c ∈ name) : isNamePart c = true := by
  cases name with
  | nil => cases named
  | cons first rest =>
      have ⟨starts, goesOn⟩ := Bool.and_eq_true_iff.mp named
      rcases List.mem_cons.mp member with rfl | later
      · exact isNamePart_of_isNameStart starts
      · exact List.all_eq_true.mp goesOn c later

end SqlTemplate.Text
