/-!
# Blank characters

The blank characters are those with the Unicode property `White_Space`.  They separate the words of
a test expression and of a statement, and they are cut off at both ends of texts, names and paths.
-/

namespace SqlTemplate.Text

set_option autoImplicit false

/-- The ranges of the Unicode property `White_Space`, both ends included. -/
def blankRanges : List (Nat × Nat) :=
  [(0x09, 0x0D), (0x20, 0x20), (0x85, 0x85), (0xA0, 0xA0), (0x1680, 0x1680), (0x2000, 0x200A),
   (0x2028, 0x2029), (0x202F, 0x202F), (0x205F, 0x205F), (0x3000, 0x3000)]

/-- Whether a character is blank. -/
def isBlank (c : Char) : Bool :=
  blankRanges.any fun (first, last) => first ≤ c.toNat && c.toNat ≤ last

/-! ## Cutting off blanks -/

/-- The characters from the first that is not blank. -/
def trimStart (chars : List Char) : List Char := chars.dropWhile isBlank

/-- The characters up to the last that is not blank. -/
def trimEnd (chars : List Char) : List Char := (chars.reverse.dropWhile isBlank).reverse

/-- The characters from the first to the last that is not blank. -/
def trim (chars : List Char) : List Char := trimEnd (trimStart chars)

/-- A text without the blanks at its ends. -/
def trimmed (text : String) : String := .ofList (trim text.toList)

/-- Whether a text has no other characters than blanks. -/
def isAllBlank (text : String) : Bool := text.toList.all isBlank

end SqlTemplate.Text
