import SqlTemplate.Text.Affix
import SqlTemplate.Text.Blank
import SqlTemplate.Text.Split

/-!
# Clauses

The text gathered for a clause is trimmed, freed of what its conditional parts left at the ends,
and introduced by the word of the clause.  Nothing else of the text changes, and a clause of which
nothing is left does not appear at all.

* A general clause loses the first listed opening that it begins with and the first listed ending
  that it then ends with.
* A `WHERE` clause loses one leading `and` or `or`, and keeps a `where` of its own.
* A `SET` clause loses one comma at its end.
-/

namespace SqlTemplate

set_option autoImplicit false

/-- How a general clause is trimmed: what is put around it, and what it loses at its ends. -/
structure Trimming where
  opening : String
  openingOverrides : List String
  ending : String
  endingOverrides : List String
  deriving Repr, DecidableEq

namespace Clause

/-- The text, unless it is empty. -/
def nonempty? (chars : List Char) : Option (List Char) :=
  if chars.isEmpty then none else some chars

/-! ## General clauses -/

/-- The openings or endings that a text lists between upright bars; blank ones do not count. -/
def overrides (text : String) : List String :=
  ((Text.splitOn '|' text.toList).filter fun part => !part.all Text.isBlank).map String.ofList

/-- The text without the first listed opening that it begins with. -/
def dropOpening (openings : List String) (chars : List Char) : List Char :=
  (openings.findSome? fun opening => Text.afterFront? opening.toList chars).getD chars

/-- The text without the first listed ending that it ends with. -/
def dropEnding (endings : List String) (chars : List Char) : List Char :=
  (endings.findSome? fun ending => Text.beforeEnd? ending.toList chars).getD chars

/-- A word in front of a text, and a space between them; a blank word adds nothing. -/
def introduce (word : String) (chars : List Char) : List Char :=
  let word := Text.trim word.toList
  if word.isEmpty then chars else word ++ ' ' :: chars

/-- A word behind a text, and a space between them; a blank word adds nothing. -/
def conclude (word : String) (chars : List Char) : List Char :=
  let word := Text.trim word.toList
  if word.isEmpty then chars else chars ++ ' ' :: word

/-- The general clause of a text. -/
def trimmed? (trimming : Trimming) (chars : List Char) : Option (List Char) :=
  let inner := dropEnding trimming.endingOverrides
    (dropOpening trimming.openingOverrides (Text.trim chars))
  (nonempty? (Text.trim inner)).map fun text =>
    conclude trimming.ending (introduce trimming.opening text)

/-! ## Conditions -/

/-- The connectives that may lead a condition. -/
def connectives : List String := ["and", "or"]

/-- What is left of a text after one connective, if it begins with that one as a whole word. -/
def afterConnective? (connective : String) (chars : List Char) : Option (List Char) :=
  match Text.afterFront? connective.toList chars with
  | some [] => some []
  | some (c :: rest) => if Text.isBlank c then some (Text.trimStart rest) else none
  | none => none

/-- The text without a leading connective. -/
def dropConnective (chars : List Char) : List Char :=
  (connectives.findSome? fun connective => afterConnective? connective chars).getD chars

/-- Whether a text begins with a `where` of its own. -/
def hasWhere (chars : List Char) : Bool := (Text.afterFront? "where ".toList chars).isSome

/-- The `WHERE` clause of a text. -/
def where? (chars : List Char) : Option (List Char) :=
  (nonempty? (dropConnective (Text.trim chars))).map fun text =>
    if hasWhere text then text else "WHERE ".toList ++ text

/-! ## Assignments -/

/-- The text without a comma at its end. -/
def dropComma (chars : List Char) : List Char :=
  if chars.getLast? = some ',' then chars.dropLast else chars

/-- The `SET` clause of a text. -/
def set? (chars : List Char) : Option (List Char) :=
  (nonempty? (Text.trimEnd (dropComma (Text.trim chars)))).map fun text =>
    "SET ".toList ++ text

end Clause

end SqlTemplate
