/-!
# Parameter values

Statements are rendered against parameter values: null, booleans, numbers, texts, arrays and
objects.  Whole numbers and binary floating-point numbers are different values, and an object keeps
its members in ascending order of their keys, each key once.

`Value.same` is structural equality: two numbers are the same when they are of one kind and equal
there, so the whole number one differs from the floating-point one.
-/

namespace SqlTemplate

set_option autoImplicit false

/-! ## Numbers -/

/-- A number of a parameter value. -/
inductive Number where
  | whole (value : Int)
  | float (value : Float)

namespace Number

/-- The floating-point number nearest to this number. -/
def toFloat : Number → Float
  | whole value => Float.ofInt value
  | float value => value

/-- The position in a sequence that this number names: only whole numbers from zero on name one. -/
def toNat? : Number → Option Nat
  | whole value => value.toNat?
  | float _ => none

/-- Equality of numbers: the kinds have to agree, and floating-point zeros are equal. -/
def same : Number → Number → Bool
  | whole left, whole right => left == right
  | float left, float right => left == right
  | _, _ => false

end Number

/-! ## Values -/

/-- A parameter value.  The members of an object are in ascending order of their keys. -/
inductive Value where
  | null
  | bool (truth : Bool)
  | number (number : Number)
  | text (content : String)
  | array (items : List Value)
  | object (members : List (String × Value))

namespace Value

/-- A whole number as a value. -/
abbrev ofNat (count : Nat) : Value := number (.whole count)

mutual
/-- Structural equality of values. -/
def same : Value → Value → Bool
  | null, null => true
  | bool left, bool right => left == right
  | number left, number right => left.same right
  | text left, text right => left == right
  | array left, array right => sameItems left right
  | object left, object right => sameMembers left right
  | _, _ => false

/-- Structural equality of sequences of values. -/
def sameItems : List Value → List Value → Bool
  | [], [] => true
  | left :: lefts, right :: rights => same left right && sameItems lefts rights
  | _, _ => false

/-- Structural equality of the members of two objects. -/
def sameMembers : List (String × Value) → List (String × Value) → Bool
  | [], [] => true
  | (leftKey, left) :: lefts, (rightKey, right) :: rights =>
      leftKey == rightKey && same left right && sameMembers lefts rights
  | _, _ => false
end

/-- The number of items, members or characters; other values have no size. -/
def size? : Value → Option Nat
  | array items => some items.length
  | object members => some members.length
  | text content => some content.length
  | _ => none

/-- Puts a member into an ordered list of members, in the place of one with the same key. -/
def insertMember (key : String) (value : Value) : List (String × Value) → List (String × Value)
  | [] => [(key, value)]
  | (other, present) :: rest =>
      if key < other then (key, value) :: (other, present) :: rest
      else if key = other then (key, value) :: rest
      else (other, present) :: insertMember key value rest

/-- The object with the given members; of two with one key the later counts. -/
def ofMembers (members : List (String × Value)) : Value :=
  object (members.foldl (fun sorted (key, value) => insertMember key value sorted) [])

end Value

end SqlTemplate
