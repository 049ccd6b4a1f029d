import SqlTemplate.Expr.Lexer
import SqlTemplate.Expr.Operand
import SqlTemplate.Expr.Postfix

/-!
# Evaluation of test expressions

An expression in postfix order is run on a stack of operands.  A word is looked up where it is met,
a missing value counts as nothing, and there is no short-circuiting: every operand is evaluated up
to the first fault.

A lookup may keep a state: what it answers to a word may depend on the words before.  So an
evaluation starts in a state of the lookup, and it leaves its outcome, the words it looked up in
their order, and the state behind the last of them (`Evaluated`).  `evaluateWith` evaluates the text
of an expression, and `evaluate` one without words.
-/

namespace SqlTemplate.Expr

set_option autoImplicit false

/-! ## Outcomes with the words looked up -/

/-- What an evaluation leaves: the words looked up on the way, the outcome, and the state that the
lookup is in then. -/
structure Evaluated (σ α : Type) where
  asked : List String
  outcome : Except (Stop ExprError) α
  state : σ

/-- An evaluation, which starts in a state of the lookup. -/
def Evaluation (σ α : Type) : Type := σ → Evaluated σ α

namespace Evaluation

variable {σ α β : Type}

/-- An outcome for which no word was looked up. -/
def ofExcept (outcome : Except (Stop ExprError) α) : Evaluation σ α :=
  fun state => ⟨[], outcome, state⟩

/-- Goes on with a result; after a fault or an abort nothing more happens. -/
def andThen (first : Evaluation σ α) (next : α → Evaluation σ β) : Evaluation σ β := fun state =>
  match first state with
  | ⟨asked, .ok result, later⟩ =>
      let rest := next result later
      { rest with asked := asked ++ rest.asked }
  | ⟨asked, .error stop, later⟩ => ⟨asked, .error stop, later⟩

instance : Monad (Evaluation σ) where
  pure result := ofExcept (.ok result)
  bind := andThen

end Evaluation

/-! ## The stack machine -/

/-- How the value of a word is found in a state: it may be missing, and the search may fail.  Every
search leaves the state for the next one. -/
abbrev Lookup (σ : Type) := String → σ → Except ExprError (Option Value) × σ

/-- A lookup without a state: a word is always answered alike. -/
def Lookup.stateless (find : String → Except ExprError (Option Value)) : Lookup Unit :=
  fun word state => (find word, state)

variable {σ : Type}

/-- The operand of a term. -/
def Term.operand (lookup : Lookup σ) : Term → Evaluation σ Operand
  | .number value => pure (.number value)
  | .text content => pure (.text content)
  | .truth value => pure (.truth value)
  | .nil => pure .nil
  | .word name => fun state =>
      ⟨[name], (reported (lookup name state).1).map Operand.ofValue?, (lookup name state).2⟩

/-- An operator applied to the operands on top of the stack. -/
def Operator.run : Operator → List Operand → Except (Stop ExprError) (List Operand)
  | .complement, operand :: stack => do
      let result ← operand.complement
      .ok (result :: stack)
  | .binary operator, right :: left :: stack => do
      let result ← left.combine operator right
      .ok (result :: stack)
  | operator, _ => .error (.fault (.missingOperand operator))

/-- Runs one step on the stack. -/
def Step.run (lookup : Lookup σ) (stack : List Operand) : Step → Evaluation σ (List Operand)
  | .push term => do
      let operand ← term.operand lookup
      pure (operand :: stack)
  | .apply operator => .ofExcept (operator.run stack)

/-- Runs steps one after the other. -/
def runSteps (lookup : Lookup σ) : List Operand → List Step → Evaluation σ (List Operand)
  | stack, [] => pure stack
  | stack, step :: steps => do
      let stack ← step.run lookup stack
      runSteps lookup stack steps

/-- The truth value that a finished stack stands for. -/
def verdict : List Operand → Except ExprError Bool
  | [.truth value] => .ok value
  | [other] => .error (.notBoolean other.kind)
  | [] => .error .empty
  | stack => .error (.valuesLeft stack.length)

/-! ## Expressions -/

/-- The steps of the text of an expression, which has at least one token. -/
def compile (source : String) : Except ExprError (List Step) := do
  let tokens ← tokenize source
  if tokens.isEmpty then .error .empty else toPostfix tokens

/-- Evaluates the text of an expression, whose words are looked up. -/
def evaluateWith (lookup : Lookup σ) (source : String) : Evaluation σ Bool := do
  let steps ← .ofExcept (reported (compile source))
  let stack ← runSteps lookup [] steps
  .ofExcept (reported (verdict stack))

/-- Evaluates the text of an expression without words. -/
def evaluate (source : String) : Except (Stop ExprError) Bool :=
  (evaluateWith (.stateless fun word => .error (.unexpectedWord word)) source ()).outcome

end SqlTemplate.Expr
