import SqlTemplate.Expr.Token
import SqlTemplate.Param.Path

/-!
# Faults of test expressions

Each constructor is one cause for which a test expression has no truth value, with what is needed
to explain it; `ExprError.message` is the explanation.
-/

namespace SqlTemplate.Expr

set_option autoImplicit false

/-- The kinds of operands. -/
inductive OperandKind where
  | number
  | text
  | truth
  | nil
  | array
  | object
  deriving Repr, DecidableEq

/-- The name of a kind of operands. -/
def OperandKind.name : OperandKind → String
  | number => "number"
  | text => "string"
  | truth => "bool"
  | nil => "nil"
  | array => "array"
  | object => "object"

/-- Why a test expression has no truth value. -/
inductive ExprError where
  | empty
  | unexpectedCharacter (c : Char) (offset : Nat) (source : String)
  | invalidNumber (numeral : String)
  | unterminatedText (opening : String)
  | unexpectedWord (word : String)
  | unbalancedParens
  | missingOperand (operator : Operator)
  | valuesLeft (count : Nat)
  | mistyped (operator : Operator) (operands : List OperandKind)
  | divisionByZero
  | notBoolean (found : OperandKind)
  | unreadableVariable (name : String) (cause : InvalidPath)
  deriving Repr, DecidableEq

/-- The text shown for a fault. -/
def ExprError.message : ExprError → String
  | empty => "empty expression"
  | unexpectedCharacter c offset source =>
      "parse error: unexpected `" ++ c.toString ++ "` at offset " ++ toString offset ++ " in `"
        ++ source ++ "`"
  | invalidNumber numeral => "parse error: invalid number `" ++ numeral ++ "`"
  | unterminatedText opening =>
      "parse error: unterminated string literal starting with " ++ opening
  | unexpectedWord word => "parse error: unexpected word `" ++ word ++ "`"
  | unbalancedParens => "unbalanced parentheses"
  | missingOperand operator => "operator `" ++ operator.symbol ++ "` is missing an operand"
  | valuesLeft count =>
      "malformed expression, " ++ toString count ++ " values left after evaluation"
  | mistyped operator operands =>
      "operator `" ++ operator.symbol ++ "` cannot be applied to "
        ++ " and ".intercalate (operands.map OperandKind.name)
  | divisionByZero => "division by zero"
  | notBoolean found => "expression produced " ++ found.name ++ ", expected a boolean"
  | unreadableVariable name cause =>
      "cannot resolve variable `" ++ name ++ "`: " ++ cause.message

end SqlTemplate.Expr
