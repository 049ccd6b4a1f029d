import SqlTemplate.Expr.Error

/-!
# From tokens to postfix order

The tokens of an expression are put into postfix order: every operator comes after its operands,
and parentheses are gone.  Operators wait on a stack until an operator of the same or a lower
precedence, a closing parenthesis or the end of the expression releases them; a complement releases
none.

The order is defined for every sequence of tokens whose parentheses are balanced.  Whether each
operator has its operands shows only when the result is run.
-/

namespace SqlTemplate.Expr

set_option autoImplicit false

/-- One step in postfix order. -/
inductive Step where
  | push (term : Term)
  | apply (operator : Operator)

/-- What waits on the stack: an open parenthesis or an operator. -/
inductive Waiting where
  | openParen
  | operator (operator : Operator)
  deriving Repr, DecidableEq

/-- Whether an operator that waits goes before a new operator. -/
def goesBefore (waiting new : Operator) : Bool :=
  new != .complement && new.precedence ≤ waiting.precedence

/-- The operators released by a new operator, and what goes on waiting. -/
def release (new : Operator) : List Waiting → List Step × List Waiting
  | .operator top :: rest =>
      if goesBefore top new then
        let (released, waiting) := release new rest
        (.apply top :: released, waiting)
      else ([], .operator top :: rest)
  | waiting => ([], waiting)

/-- The operators released by a closing parenthesis, and what waited below the open one. -/
def closeGroup? : List Waiting → Option (List Step × List Waiting)
  | [] => none
  | .openParen :: rest => some ([], rest)
  | .operator top :: rest =>
      (closeGroup? rest).map fun (released, waiting) => (.apply top :: released, waiting)

/-- The operators released by the end of the expression. -/
def drain? : List Waiting → Option (List Step)
  | [] => some []
  | .openParen :: _ => none
  | .operator top :: rest => (drain? rest).map (.apply top :: ·)

/-- The postfix order of the tokens, given what waits; there is none if parentheses are not
balanced. -/
def arrange? : List Waiting → List Token → Option (List Step)
  | waiting, [] => drain? waiting
  | waiting, .openParen :: tokens => arrange? (.openParen :: waiting) tokens
  | waiting, .closeParen :: tokens =>
      match closeGroup? waiting with
      | none => none
      | some (released, waiting) => (arrange? waiting tokens).map (released ++ ·)
  | waiting, .operator new :: tokens =>
      let (released, waiting) := release new waiting
      (arrange? (.operator new :: waiting) tokens).map (released ++ ·)
  | waiting, .term term :: tokens => (arrange? waiting tokens).map (.push term :: ·)

/-- The postfix order of the tokens of an expression. -/
def toPostfix (tokens : List Token) : Except ExprError (List Step) :=
  match arrange? [] tokens with
  | some steps => .ok steps
  | none => .error .unbalancedParens

end SqlTemplate.Expr
