import SqlTemplate.Text.Utf8

/-!
# References

In text and attribute values a reference stands for one character: five characters have names, and
every other is written by its number, with at most seven decimal or six hexadecimal digits.  A
reference runs from an ampersand to the next semicolon with no other ampersand between; a semicolon
elsewhere is an ordinary character.
-/

namespace SqlTemplate.Markup

set_option autoImplicit false

/-- The characters with names. -/
def namedCharacters : List (String × Char) :=
  [("lt", '<'), ("gt", '>'), ("amp", '&'), ("apos", '\''), ("quot", '"')]

/-- The character with a number; zero and the surrogates are no characters. -/
def numbered? (number : Nat) : Option Char :=
  if number ≠ 0 ∧ number.isValidChar then some (Char.ofNat number) else none

/-- The value of a hexadecimal digit. -/
def hexDigit? (c : Char) : Option Nat :=
  if '0' ≤ c ∧ c ≤ '9' then some (c.toNat - '0'.toNat)
  else if 'a' ≤ c ∧ c ≤ 'f' then some (c.toNat - 'a'.toNat + 10)
  else if 'A' ≤ c ∧ c ≤ 'F' then some (c.toNat - 'A'.toNat + 10)
  else none

/-- The number that digits of a base write. -/
def number? (base : Nat) (digits : List Char) : Option Nat :=
  digits.foldlM (fun value c => do
    let digit ← hexDigit? c
    if digit < base then some (base * value + digit) else none) 0

/-- The character whose number is written with at most `most` digits of a base. -/
def shortNumbered? (base most : Nat) (digits : List Char) : Option Char :=
  if most < digits.length then none else (number? base digits).bind numbered?

/-- The character that a reference stands for, given what it has between its ends. -/
def referenced? (inside : List Char) : Option Char :=
  match inside with
  | '#' :: 'x' :: digits => shortNumbered? 16 6 digits
  | '#' :: digits => shortNumbered? 10 7 digits
  | name => namedCharacters.lookup (.ofList name)

/-- Characters with every reference replaced by the character that it stands for. -/
def resolveReferences? (referenced? : List Char → Option Char) : List Char → Option (List Char)
  | [] => some []
  | c :: after =>
      if c = '&' then do
        let inside := after.takeWhile fun other => other != '&' && other != ';'
        let closed := after.drop inside.length
        if closed.head? = some ';' then
          let character ← referenced? inside
          let rest ← resolveReferences? referenced? (after.drop (inside.length + 1))
          some (character :: rest)
        else none
      else (resolveReferences? referenced? after).map (c :: ·)
termination_by chars => chars.length
decreasing_by all_goals simp only [List.length_drop, List.length_cons]; omega

/-- The text that bytes write, with every reference replaced. -/
def readText? (content : List UInt8) : Option String := do
  let chars ← Text.decode? content
  let resolved ← resolveReferences? referenced? chars
  some (.ofList resolved)

end SqlTemplate.Markup
