import SqlTemplate.Decimal.Literal
import SqlTemplate.Text.Letter
import SqlTemplate.Text.Blank

/-!
# Paths into parameter values

A path names a root and then goes down into its value: `.key` enters a member, `[2]` or `[i]` takes
an item at a fixed or a named position, and `.size()` counts.  Blanks around the whole path and
inside the brackets carry no meaning.

`Path.ofString?` reads a path.  Everything that is not a path is an `InvalidPath`, which keeps the
text as it was written.
-/

namespace SqlTemplate

set_option autoImplicit false

/-- A text that is not a path. -/
structure InvalidPath where
  path : String
  deriving Repr, DecidableEq

/-- The text shown for a text that is not a path. -/
def InvalidPath.message (fault : InvalidPath) : String :=
  "invalid parameter path `" ++ fault.path ++ "`"

/-- The position of an item: written out, or the value of a name. -/
inductive Position where
  | fixed (position : Nat)
  | named (name : String)
  deriving Repr, DecidableEq

/-- One step of a path. -/
inductive Segment where
  | key (name : String)
  | item (position : Position)
  | size
  deriving Repr, DecidableEq

/-- A root and the steps down from its value. -/
structure Path where
  root : String
  segments : List Segment
  deriving Repr, DecidableEq

namespace Path

/-! ## Reading -/

/-- Whether a character begins the next step. -/
def beginsStep (c : Char) : Bool := c == '.' || c == '['

/-- The characters of a name, up to the next step. -/
def nameChars (chars : List Char) : List Char := chars.takeWhile fun c => !beginsStep c

/-- Positions are below this bound, two to the power of sixty-four. -/
def positionBound : Nat := 0x10000000000000000

/-- The position that decimal digits write, if it is below the bound. -/
def digitsPosition? (digits : List Char) : Option Nat :=
  if digits.isEmpty || !digits.all Char.isDigit then none
  else
    let position := Decimal.digitsValue digits
    if position < positionBound then some position else none

/-- The position that digits with an optional plus sign write. -/
def fixedPosition? : List Char → Option Nat
  | '+' :: digits => digitsPosition? digits
  | digits => digitsPosition? digits

/-- The position written between brackets. -/
def position? (inside : List Char) : Option Position :=
  let chars := Text.trim inside
  match fixedPosition? chars with
  | some position => some (.fixed position)
  | none => if Text.isName chars then some (.named (.ofList chars)) else none

/-- The step that follows a point, from the characters up to the next step. -/
def member? (chars : List Char) : Option Segment :=
  if chars = "size()".toList then some .size
  else if Text.isName chars then some (.key (.ofList chars))
  else none

/-- The steps written by the characters after a root. -/
def segments? : List Char → Option (List Segment)
  | [] => some []
  | c :: after =>
      if c = '.' then do
        let segment ← member? (nameChars after)
        let more ← segments? (after.drop (nameChars after).length)
        some (segment :: more)
      else if c = '[' then do
        let inside := after.takeWhile (· != ']')
        if inside.length < after.length then
          let position ← position? inside
          let more ← segments? (after.drop (inside.length + 1))
          some (.item position :: more)
        else none
      else none
termination_by chars => chars.length
decreasing_by all_goals simp only [List.length_drop, List.length_cons]; omega

/-- The path written by the characters, blanks at the ends apart. -/
def ofChars? (chars : List Char) : Option Path :=
  let chars := Text.trim chars
  let root := nameChars chars
  if Text.isName root then
    (segments? (chars.drop root.length)).map fun segments => ⟨.ofList root, segments⟩
  else none

/-- Reads a path. -/
def ofString? (text : String) : Except InvalidPath Path :=
  match ofChars? text.toList with
  | some path => .ok path
  | none => .error ⟨text⟩

end Path

end SqlTemplate
