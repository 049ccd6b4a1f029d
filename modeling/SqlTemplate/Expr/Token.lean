/-!
# Tokens of test expressions

A test expression is built from terms, operators and parentheses.  Two-sided operators have five
levels of precedence; the complement binds tightest and stands in front of its operand.
-/

namespace SqlTemplate.Expr

set_option autoImplicit false

/-- An operator between two operands. -/
inductive BinaryOperator where
  | or
  | and
  | equal
  | notEqual
  | less
  | lessEqual
  | greater
  | greaterEqual
  | add
  | subtract
  | multiply
  | divide
  | remainder
  | bitAnd
  | bitOr
  deriving Repr, DecidableEq

/-- The precedence level of an operator between two operands; a higher one binds tighter. -/
def BinaryOperator.precedence : BinaryOperator → Nat
  | .or | .and => 1
  | .equal | .notEqual | .less | .lessEqual | .greater | .greaterEqual => 2
  | .add | .subtract => 3
  | .multiply | .divide | .remainder => 4
  | .bitAnd | .bitOr => 5

/-- The sign of an operator between two operands. -/
def BinaryOperator.symbol : BinaryOperator → String
  | .or => "||"
  | .and => "&&"
  | .equal => "=="
  | .notEqual => "!="
  | .less => "<"
  | .lessEqual => "<="
  | .greater => ">"
  | .greaterEqual => ">="
  | .add => "+"
  | .subtract => "-"
  | .multiply => "*"
  | .divide => "/"
  | .remainder => "%"
  | .bitAnd => "&"
  | .bitOr => "|"

/-- An operator. -/
inductive Operator where
  | binary (operator : BinaryOperator)
  | complement
  deriving Repr, DecidableEq

/-- The precedence level of an operator. -/
def Operator.precedence : Operator → Nat
  | .binary operator => operator.precedence
  | .complement => 5

/-- The sign of an operator. -/
def Operator.symbol : Operator → String
  | .binary operator => operator.symbol
  | .complement => "~"

/-- A term: a constant, or a word to be looked up. -/
inductive Term where
  | number (value : Float)
  | text (content : String)
  | truth (value : Bool)
  | nil
  | word (name : String)

/-- A token of a test expression. -/
inductive Token where
  | openParen
  | closeParen
  | operator (operator : Operator)
  | term (term : Term)

/-- Whether a token may be followed by an operand, given the token before; at the start it may. -/
def expectsOperand : Option Token → Bool
  | none | some (.operator _) | some .openParen => true
  | some .closeParen | some (.term _) => false

end SqlTemplate.Expr
