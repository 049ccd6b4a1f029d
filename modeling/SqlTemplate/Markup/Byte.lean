/-!
# Bytes of markup

Mapper documents are scanned as bytes, because text that is no UTF-8 may stand where nobody reads
it. All characters with a meaning in markup are ASCII, so each is a single byte.
-/

namespace SqlTemplate.Markup

set_option autoImplicit false

/-- The byte of an ASCII character. -/
def byte (c : Char) : UInt8 := c.toUInt8

/-- The bytes of a text of ASCII characters. -/
def bytes (text : String) : List UInt8 := text.toList.map byte

/-- Whether a byte is a blank of markup: space, tab, line feed or carriage return. -/
def isSpace (b : UInt8) : Bool := b == 0x20 || b == 0x09 || b == 0x0A || b == 0x0D

/-- Whether a byte is a blank of ASCII: a blank of markup or a form feed. -/
def isAsciiBlank (b : UInt8) : Bool := isSpace b || b == 0x0C

/-- A byte with capital ASCII letters made small. -/
def lower (b : UInt8) : UInt8 := if 0x41 ≤ b && b ≤ 0x5A then b + 0x20 else b

/-- Bytes without the blanks at their end. -/
def trimEnd (isBlank : UInt8 → Bool) (content : List UInt8) : List UInt8 :=
  (content.reverse.dropWhile isBlank).reverse

/-- Bytes without the blanks at their ends. -/
def trim (content : List UInt8) : List UInt8 := trimEnd isSpace (content.dropWhile isSpace)

/-- Whether bytes begin with a mark, the case of ASCII letters ignored. -/
def beginsWith (mark content : List UInt8) : Bool :=
  (mark.map lower).isPrefixOf (content.map lower)

end SqlTemplate.Markup
