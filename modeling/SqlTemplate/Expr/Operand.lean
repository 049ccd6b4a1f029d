import SqlTemplate.Stop
import SqlTemplate.Value
import SqlTemplate.Expr.Error

/-!
# Operands of test expressions

An operand is a number, a text, a truth value, nothing, an array or an object.  All numbers are
floating-point numbers here, so whole and floating-point values of parameters can be compared.

* Equality is defined for all operands and holds only within one kind.
* An order comparison with nothing is false; otherwise both sides are numbers or both are texts.
* Connectives need truth values; arithmetic needs numbers.
* Remainder, complement and bitwise operators act on 64-bit integers, to which numbers are truncated
  and clamped.
* The machine computes a remainder together with the quotient.  The quotient of the least integer by
  minus one is no 64-bit integer, and this one remainder is aborted.
-/

namespace SqlTemplate.Expr

set_option autoImplicit false

/-- A value during the evaluation of a test expression. -/
inductive Operand where
  | number (value : Float)
  | text (content : String)
  | truth (value : Bool)
  | nil
  | array (items : List Value)
  | object (members : List (String × Value))

namespace Operand

/-- The operand of a parameter value. -/
def ofValue : Value → Operand
  | .null => nil
  | .bool value => truth value
  | .number value => number value.toFloat
  | .text content => text content
  | .array items => array items
  | .object members => object members

/-- The operand of a parameter value that may be missing. -/
def ofValue? : Option Value → Operand
  | some value => ofValue value
  | none => nil

/-- The kind of an operand. -/
def kind : Operand → OperandKind
  | number _ => .number
  | text _ => .text
  | truth _ => .truth
  | nil => .nil
  | array _ => .array
  | object _ => .object

/-- Equality of operands. -/
def same : Operand → Operand → Bool
  | number left, number right => left == right
  | text left, text right => left == right
  | truth left, truth right => left == right
  | nil, nil => true
  | array left, array right => Value.sameItems left right
  | object left, object right => Value.sameMembers left right
  | _, _ => false

/-! ## Operators -/

/-- The complement of an operand. -/
def complement : Operand → Except (Stop ExprError) Operand
  | number value => .ok (number (~~~ value.toInt64).toFloat)
  | other => .error (.fault (.mistyped .complement [other.kind]))

/-- The remainder of 64-bit integers: none by zero, and the quotient has to be such an integer. -/
def remainder (left right : Int64) : Except (Stop ExprError) Int64 :=
  if right = 0 then .error (.fault .divisionByZero)
  else if left = Int64.minValue ∧ right = -1 then .error .aborted
  else .ok (left % right)

/-- The number that an arithmetic operator gives. -/
def calculate (operator : BinaryOperator) (left right : Float) : Except (Stop ExprError) Float :=
  match operator with
  | .add => .ok (left + right)
  | .subtract => .ok (left - right)
  | .multiply => .ok (left * right)
  | .divide => if right == 0.0 then .error (.fault .divisionByZero) else .ok (left / right)
  | .remainder => (remainder left.toInt64 right.toInt64).map Int64.toFloat
  | .bitAnd => .ok (left.toInt64 &&& right.toInt64).toFloat
  | _ => .ok (left.toInt64 ||| right.toInt64).toFloat

/-- The report on operands of the wrong kinds. -/
def mistyped (operator : BinaryOperator) (left right : Operand) : ExprError :=
  .mistyped (.binary operator) [left.kind, right.kind]

/-- A connective applied to two operands. -/
def connective (operator : BinaryOperator) (join : Bool → Bool → Bool) :
    Operand → Operand → Except (Stop ExprError) Operand
  | truth left, truth right => .ok (truth (join left right))
  | left, right => .error (.fault (mistyped operator left right))

/-- An order comparison of two operands. -/
def comparison (operator : BinaryOperator) (numbers : Float → Float → Bool)
    (texts : String → String → Bool) : Operand → Operand → Except (Stop ExprError) Operand
  | nil, _ => .ok (truth false)
  | _, nil => .ok (truth false)
  | number left, number right => .ok (truth (numbers left right))
  | text left, text right => .ok (truth (texts left right))
  | left, right => .error (.fault (mistyped operator left right))

/-- An arithmetic operator applied to two operands. -/
def arithmetic (operator : BinaryOperator) : Operand → Operand → Except (Stop ExprError) Operand
  | number left, number right => (calculate operator left right).map number
  | left, right => .error (.fault (mistyped operator left right))

/-- An operator applied to two operands. -/
def combine (operator : BinaryOperator) (left right : Operand) :
    Except (Stop ExprError) Operand :=
  match operator with
  | .or => connective .or (· || ·) left right
  | .and => connective .and (· && ·) left right
  | .equal => .ok (truth (left.same right))
  | .notEqual => .ok (truth !left.same right)
  | .less => comparison .less (· < ·) (· < ·) left right
  | .lessEqual => comparison .lessEqual (· ≤ ·) (· ≤ ·) left right
  | .greater => comparison .greater (· > ·) (· > ·) left right
  | .greaterEqual => comparison .greaterEqual (· ≥ ·) (· ≥ ·) left right
  | operator => arithmetic operator left right

end Operand

end SqlTemplate.Expr
