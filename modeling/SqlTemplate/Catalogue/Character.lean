import SqlTemplate.Text.Letter

/-!
# Characters of documents

There are two editions of the rules by which documents are read strictly.  They differ in the
characters that a document may contain: the first leaves most control characters out, the second
has them in comments, in instructions, in character data and by reference, but not as they are in
text and in values.
-/

namespace SqlTemplate.Catalogue

set_option autoImplicit false

/-- Whether a character is a blank of markup. -/
def isSpace (c : Char) : Bool := c == ' ' || c == '\t' || c == '\n' || c == '\r'

/-- An edition of the rules. -/
inductive Edition where
  | first
  | second
  deriving Repr, DecidableEq

namespace Edition

/-- The ranges of the characters of an edition, both ends included. -/
def characterRanges : Edition → List (Nat × Nat)
  | first => [(0x09, 0x0A), (0x0D, 0x0D), (0x20, 0xD7FF), (0xE000, 0xFFFD), (0x10000, 0x10FFFF)]
  | second => [(0x01, 0xD7FF), (0xE000, 0xFFFD), (0x10000, 0x10FFFF)]

/-- The ranges of the characters of an edition that text and values do not have as they are. -/
def controlRanges : Edition → List (Nat × Nat)
  | first => []
  | second => [(0x01, 0x08), (0x0B, 0x0C), (0x0E, 0x1F), (0x7F, 0x84), (0x86, 0x9F)]

/-- Whether an edition has a character. -/
def has (edition : Edition) (c : Char) : Bool := Text.inRanges edition.characterRanges c.toNat

/-- Whether text and values may have a character as it is. -/
def hasPlain (edition : Edition) (c : Char) : Bool :=
  edition.has c && !Text.inRanges edition.controlRanges c.toNat

/-- The edition with a version number. -/
def ofVersion? : String → Option Edition
  | "1.0" => some first
  | "1.1" => some second
  | _ => none

end Edition

end SqlTemplate.Catalogue
