import SqlTemplate.Value

/-!
# Fragments of a rendered statement

A fragment is SQL text with a question mark for each bound value, and the bound values in the order
of the question marks.  Fragments are joined with one space between texts that are not empty, and
their values follow each other.
-/

namespace SqlTemplate

set_option autoImplicit false

/-- A piece of a rendered statement. -/
structure Fragment where
  sql : String
  args : List Value

namespace Fragment

/-- The fragment of nothing. -/
def empty : Fragment := ⟨"", []⟩

/-- Whether a fragment has no text. -/
def isEmpty (fragment : Fragment) : Bool := fragment.sql.isEmpty

/-- Two texts with a space between them; an empty text adds nothing. -/
def joinText (left right : String) : String :=
  if right.isEmpty then left else if left.isEmpty then right else left ++ " " ++ right

/-- Joins two fragments. -/
def append (left right : Fragment) : Fragment :=
  ⟨joinText left.sql right.sql, left.args ++ right.args⟩

instance : Append Fragment := ⟨append⟩

/-- The fragment, unless it has no text: what has no text is left out together with its values. -/
def nonempty? (fragment : Fragment) : Option Fragment :=
  if fragment.isEmpty then none else some fragment

end Fragment

end SqlTemplate
