import SqlTemplate.Expr.Error
import SqlTemplate.Param.Path
import SqlTemplate.Param.Scope
import SqlTemplate.Text.Affix

/-!
# Values of paths

A path is resolved in a scope: its root is looked up and each step goes down from the value reached
so far.  A member is looked for under its exact name, then `length` counts, and then the first
member whose name differs only in the case of ASCII letters is taken.  A step that leads nowhere
leaves the path without a value, which is no fault; only a text that is not a path is one.
-/

namespace SqlTemplate

set_option autoImplicit false

/-- The size of a value as a value. -/
def Value.sizeValue? (value : Value) : Option Value := value.size?.map .ofNat

/-- The member of a value. -/
def Value.member? (key : String) : Value → Option Value
  | .object members =>
      match members.lookup key with
      | some value => some value
      | none =>
          if key = "length" then some (.ofNat members.length)
          else (members.find? fun (name, _) => Text.sameWord name key).map Prod.snd
  | value => if key = "length" then value.sizeValue? else none

/-- The item of a value at a position. -/
def Value.item? (position : Nat) : Value → Option Value
  | .array items => items[position]?
  | _ => none

namespace Scope

/-- The position that a written position stands for. -/
def position? (scope : Scope) : Position → Option Nat
  | .fixed position => some position
  | .named name =>
      match scope.get? name with
      | some (.number number) => number.toNat?
      | _ => none

/-- The value that a step leads to. -/
def step? (scope : Scope) (value : Value) : Segment → Option Value
  | .key name => value.member? name
  | .item position => (scope.position? position).bind fun position => value.item? position
  | .size => value.sizeValue?

/-- The value that several steps lead to. -/
def steps? (scope : Scope) (value : Value) : List Segment → Option Value
  | [] => some value
  | segment :: segments => (scope.step? value segment).bind fun value => scope.steps? value segments

/-- The value of a path. -/
def value? (scope : Scope) (path : Path) : Option Value :=
  (scope.get? path.root).bind fun value => scope.steps? value path.segments

/-- The value of the path that a text writes. -/
def resolve (scope : Scope) (text : String) : Except InvalidPath (Option Value) :=
  (Path.ofString? text).map scope.value?

/-- The value of a word of a test expression. -/
def lookupWord (scope : Scope) (word : String) : Except Expr.ExprError (Option Value) :=
  (scope.resolve word).mapError (Expr.ExprError.unreadableVariable word)

end Scope

end SqlTemplate
