import SqlTemplate.Text.Blank

/-!
# Spacing of statement text

Statement text is laid out over many lines.  Its spacing is made uniform: every run of blanks
becomes one space and the blanks at both ends go, while a closed quoted literal keeps its
characters.  A quote with no partner to its right is an ordinary character.

The text is read in one pass from left to right.  The reader is between words, inside a run of
blanks whose space is already written, or inside a literal.
-/

namespace SqlTemplate.Text

set_option autoImplicit false

/-- Where a reader of statement text stands. -/
inductive Spot where
  | word
  | gap
  | literal (quote : Char)
  deriving DecidableEq

/-- Whether a character is a quote that has a partner among the characters after it. -/
def opensLiteral (c : Char) (after : List Char) : Bool :=
  (c == '\'' || c == '"') && after.contains c

/-- Makes the spacing of characters uniform, from the given spot on. -/
def respace : Spot → List Char → List Char
  | _, [] => []
  | .literal quote, c :: after =>
      c :: respace (if c = quote then .word else .literal quote) after
  | .word, c :: after =>
      if opensLiteral c after then c :: respace (.literal c) after
      else if isBlank c then ' ' :: respace .gap after
      else c :: respace .word after
  | .gap, c :: after =>
      if opensLiteral c after then c :: respace (.literal c) after
      else if isBlank c then respace .gap after
      else c :: respace .word after

/-- A text with uniform spacing. -/
def uniform (text : String) : String := .ofList (respace .word (trim text.toList))

end SqlTemplate.Text
