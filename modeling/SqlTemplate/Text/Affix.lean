/-!
# Affixes, the case of ASCII letters ignored

A clause loses a connective at its front or a comma at its end.  Whether a text begins or ends with
such an affix is decided character by character; the letters `a` to `z` match their capitals, and
every other character matches itself only.  The functions here give the text without the affix, so
what is cut off is exactly what was matched.
-/

namespace SqlTemplate.Text

set_option autoImplicit false

/-- Equality of characters up to the case of ASCII letters. -/
def sameLetter (left right : Char) : Bool := left.toLower == right.toLower

/-- Equality of texts up to the case of ASCII letters. -/
def sameWord (left right : String) : Bool :=
  left.toList.map Char.toLower == right.toList.map Char.toLower

/-- What follows the affix at the front of the characters, if they begin with it. -/
def afterFront? : List Char → List Char → Option (List Char)
  | [], chars => some chars
  | _ :: _, [] => none
  | a :: affix, c :: chars => if sameLetter a c then afterFront? affix chars else none

/-- What precedes the affix at the end of the characters, if they end with it. -/
def beforeEnd? (affix chars : List Char) : Option (List Char) :=
  (afterFront? affix.reverse chars.reverse).map List.reverse

/-- Whether a text begins with an affix. -/
def beginsWith (text affix : String) : Bool := (afterFront? affix.toList text.toList).isSome

/-- Whether a text ends with an affix. -/
def endsWith (text affix : String) : Bool := (beforeEnd? affix.toList text.toList).isSome

end SqlTemplate.Text
