import SqlTemplate.Markup.Byte
import SqlTemplate.Markup.Reference

/-!
# Tags and their attributes

A start tag has a name and, after it, attributes in quotes.  Attributes are read from left to
right, and only as far as somebody asks: what is wrong behind the attribute asked for is never
noticed.
-/

namespace SqlTemplate.Markup

set_option autoImplicit false

/-- A start tag or the tag of an element without content: its name, and what stands behind it. -/
structure Tag where
  name : List UInt8
  rest : List UInt8
  deriving Repr, DecidableEq

/-- An attribute, or the place from which on no attribute can be read. -/
inductive Attribute where
  | pair (key value : List UInt8)
  | malformed
  deriving Repr, DecidableEq

/-- Whether a byte goes on the key of an attribute. -/
def isKeyPart (b : UInt8) : Bool := b != byte '=' && !isSpace b

/-- Whether a byte is a quote. -/
def isQuote (b : UInt8) : Bool := b == byte '"' || b == byte '\''

/-- A key with its value, and how far they reach behind the first byte of the key. -/
structure Pair where
  key : List UInt8
  value : List UInt8
  width : Nat
  deriving Repr, DecidableEq

/-- Reads a key that starts with `first`, an equals sign and a value in quotes. -/
def pairAt? (first : UInt8) (after : List UInt8) : Option Pair :=
  let part := after.takeWhile isKeyPart
  let afterKey := after.drop part.length
  let gap := afterKey.takeWhile isSpace
  match afterKey.drop gap.length with
  | [] => none
  | sign :: afterSign =>
      let space := afterSign.takeWhile isSpace
      match afterSign.drop space.length with
      | [] => none
      | quote :: afterQuote =>
          let value := afterQuote.takeWhile (· != quote)
          if sign == byte '=' && isQuote quote && value.length < afterQuote.length then
            some ⟨first :: part, value,
              part.length + gap.length + space.length + value.length + 3⟩
          else none

/-- The attributes written by the bytes, given the keys of those before.  No key comes twice. -/
def attributesFrom (seen : List (List UInt8)) : List UInt8 → List Attribute
  | [] => []
  | first :: after =>
      if isSpace first then attributesFrom seen after
      else
        match pairAt? first after with
        | none => [.malformed]
        | some pair =>
            if seen.contains pair.key then [.malformed]
            else
              .pair pair.key pair.value
                :: attributesFrom (pair.key :: seen) (after.drop pair.width)
termination_by content => content.length
decreasing_by all_goals simp only [List.length_drop, List.length_cons]; omega

/-- What a search for an attribute gives. -/
inductive Search where
  | malformed
  | absent
  | value (text : String)
  deriving Repr, DecidableEq

/-- Searches attributes for a key.  The value that is found has to be readable as text. -/
def search (key : List UInt8) : List Attribute → Search
  | [] => .absent
  | .malformed :: _ => .malformed
  | .pair other content :: rest =>
      if other = key then
        match readText? content with
        | some text => .value text
        | none => .malformed
      else search key rest

namespace Tag

/-- The name of a tag as text. -/
def text (tag : Tag) : String := Text.decodeLeniently tag.name

/-- The value of an attribute. -/
def find (tag : Tag) (key : String) : Search := search (bytes key) (attributesFrom [] tag.rest)

end Tag

end SqlTemplate.Markup
