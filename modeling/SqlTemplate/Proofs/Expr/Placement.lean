import SqlTemplate.Expr.Postfix

/-!
# Tokens in their places

An infix expression is a term, an expression in parentheses, a complement of an expression, or two
expressions with an operator between them (`IsExpression`).  Which parts bind more tightly does not
matter here.

Whether tokens are an expression can be told from neighbours and from the parentheses alone.  A
token that starts an operand has to stand where an operand is expected, every other token where one
has ended, and an operand has to have ended behind the last token (`isPlaced`); and the parentheses
have to be balanced (`isBalanced`).  Tokens are an expression exactly if both hold
(`isExpression_iff`).

Putting tokens into postfix order looks at the parentheses only (`isSome_arrange?`).
-/

namespace SqlTemplate.Expr

set_option autoImplicit false

/-! ## The grammar -/

/-- Tokens that form an infix expression. -/
inductive IsExpression : List Token → Prop
  | term (leaf : Term) : IsExpression [.term leaf]
  | group {tokens : List Token} :
      IsExpression tokens → IsExpression (.openParen :: tokens ++ [.closeParen])
  | complement {tokens : List Token} :
      IsExpression tokens → IsExpression (.operator .complement :: tokens)
  | binary (operator : BinaryOperator) {left right : List Token} :
      IsExpression left → IsExpression right →
        IsExpression (left ++ .operator (.binary operator) :: right)

/-! ## Places -/

/-- Whether a token is the first of an operand. -/
def startsOperand : Token → Bool
  | .term _ | .openParen | .operator .complement => true
  | .closeParen | .operator (.binary _) => false

/-- Whether every token stands in its place, given the token before, and an operand has ended behind
the last one. -/
def isPlaced : Option Token → List Token → Bool
  | previous, [] => !expectsOperand previous
  | previous, token :: tokens =>
      (startsOperand token == expectsOperand previous) && isPlaced (some token) tokens

/-- Behind a term the same may follow as behind a closing parenthesis. -/
theorem isPlaced_behind_term (leaf : Term) (tokens : List Token) :
    isPlaced (some (.term leaf)) tokens = isPlaced (some .closeParen) tokens := by
  cases tokens with
  | nil => rfl
  | cons token tokens => rfl

/-- The tokens of an expression stand in their places, and what follows stands where an operand has
ended. -/
theorem IsExpression.isPlaced_append {tokens : List Token} (expression : IsExpression tokens)
    (previous : Option Token) (expects : expectsOperand previous = true) (more : List Token)
    (behind : isPlaced (some .closeParen) more = true) :
    isPlaced previous (tokens ++ more) = true := by
  induction expression generalizing previous more with
  | term leaf =>
      simp [isPlaced, startsOperand, expects, isPlaced_behind_term, behind]
  | group _ ih =>
      have closes : isPlaced (some .closeParen) (.closeParen :: more) = true := by
        simp [isPlaced, startsOperand, expectsOperand, behind]
      have inner := ih (some .openParen) rfl _ closes
      simp [isPlaced, startsOperand, expects, inner]
  | complement _ ih =>
      have operand := ih (some (.operator .complement)) rfl more behind
      simp [isPlaced, startsOperand, expects, operand]
  | @binary operator left right _ _ leftIH rightIH =>
      have operand := rightIH (some (.operator (.binary operator))) rfl more behind
      have follows : isPlaced (some .closeParen)
          (.operator (.binary operator) :: (right ++ more)) = true := by
        simp [isPlaced, startsOperand, expectsOperand, operand]
      rw [List.append_assoc]
      exact leftIH previous expects _ follows

/-! ## Parentheses -/

/-- Whether parentheses are balanced behind this many open ones. -/
def isBalanced : Nat → List Token → Bool
  | depth, [] => depth == 0
  | depth, .openParen :: tokens => isBalanced (depth + 1) tokens
  | 0, .closeParen :: _ => false
  | depth + 1, .closeParen :: tokens => isBalanced depth tokens
  | depth, .operator _ :: tokens => isBalanced depth tokens
  | depth, .term _ :: tokens => isBalanced depth tokens

/-- The parentheses of an expression are balanced. -/
theorem IsExpression.isBalanced_append {tokens : List Token} (expression : IsExpression tokens)
    (depth : Nat) (more : List Token) :
    isBalanced depth (tokens ++ more) = isBalanced depth more := by
  induction expression generalizing depth more with
  | term leaf => simp [isBalanced]
  | group _ ih => simp [isBalanced, ih]
  | complement _ ih => simp [isBalanced, ih]
  | binary operator _ _ leftIH rightIH => simp [isBalanced, leftIH, rightIH]

/-- Tokens in their places with balanced parentheses begin with an expression that reaches to their
end or to a closing parenthesis. -/
theorem exists_expression {previous : Option Token} {tokens : List Token} {depth : Nat}
    (expects : expectsOperand previous = true) (placed : isPlaced previous tokens = true)
    (balanced : isBalanced depth tokens = true) :
    ∃ front back, tokens = front ++ back ∧ IsExpression front ∧
      isPlaced (some .closeParen) back = true ∧ isBalanced depth back = true ∧
        (back = [] ∨ ∃ rest, back = .closeParen :: rest) := by
  -- Behind an operand come the end, a closing parenthesis, or an operator with another operand.
  have goOn {operand behind : List Token} {depth : Nat} (isOperand : IsExpression operand)
      (behindPlaced : isPlaced (some .closeParen) behind = true)
      (behindBalanced : isBalanced depth behind = true)
      (shorter : behind.length < tokens.length) :
      ∃ front back, operand ++ behind = front ++ back ∧ IsExpression front ∧
        isPlaced (some .closeParen) back = true ∧ isBalanced depth back = true ∧
          (back = [] ∨ ∃ rest, back = .closeParen :: rest) := by
    match behind, shorter with
    | [], _ => exact ⟨operand, [], rfl, isOperand, behindPlaced, behindBalanced, .inl rfl⟩
    | .closeParen :: rest, _ =>
        exact ⟨operand, .closeParen :: rest, rfl, isOperand, behindPlaced, behindBalanced,
          .inr ⟨rest, rfl⟩⟩
    | .operator (.binary operator) :: rest, shorter =>
        have restPlaced : isPlaced (some (.operator (.binary operator))) rest = true := by
          simpa [isPlaced, startsOperand, expectsOperand] using behindPlaced
        obtain ⟨front, back, rfl, isFront, backPlaced, backBalanced, ends⟩ :=
          exists_expression rfl restPlaced (by simpa [isBalanced] using behindBalanced)
        exact ⟨operand ++ .operator (.binary operator) :: front, back, by simp,
          .binary operator isOperand isFront, backPlaced, backBalanced, ends⟩
    | .operator .complement :: rest, _ | .openParen :: rest, _ | .term leaf :: rest, _ =>
        simp [isPlaced, startsOperand, expectsOperand] at behindPlaced
  match tokens with
  | [] => simp [isPlaced, expects] at placed
  | .term leaf :: rest =>
      rw [isPlaced, Bool.and_eq_true, isPlaced_behind_term] at placed
      exact goOn (.term leaf) placed.2 balanced (Nat.lt_succ_self _)
  | .openParen :: rest =>
      rw [isPlaced, Bool.and_eq_true] at placed
      obtain ⟨front, back, rfl, isFront, backPlaced, backBalanced, ends⟩ :=
        exists_expression rfl placed.2 balanced
      rcases ends with rfl | ⟨behind, rfl⟩
      · cases backBalanced
      · have behindPlaced : isPlaced (some .closeParen) behind = true := by
          simpa [isPlaced, startsOperand, expectsOperand] using backPlaced
        have behindBalanced : isBalanced depth behind = true := backBalanced
        have whole := goOn isFront.group behindPlaced behindBalanced (by
          simp only [List.length_cons, List.length_append]
          omega)
        simpa using whole
  | .operator .complement :: rest =>
      rw [isPlaced, Bool.and_eq_true] at placed
      obtain ⟨front, back, rfl, isFront, backPlaced, backBalanced, ends⟩ :=
        exists_expression rfl placed.2 balanced
      exact ⟨.operator .complement :: front, back, rfl, isFront.complement, backPlaced,
        backBalanced, ends⟩
  | .closeParen :: rest | .operator (.binary operator) :: rest =>
      simp [isPlaced, startsOperand, expects] at placed
termination_by tokens.length
decreasing_by
  all_goals simp_all only [List.length_cons]
  all_goals omega

/-- **An expression is told from neighbours and parentheses.** -/
theorem isExpression_iff {tokens : List Token} :
    IsExpression tokens ↔ isPlaced none tokens = true ∧ isBalanced 0 tokens = true := by
  constructor
  · intro expression
    have placed := expression.isPlaced_append none rfl [] rfl
    have balanced := expression.isBalanced_append 0 []
    rw [List.append_nil] at placed balanced
    exact ⟨placed, balanced⟩
  · rintro ⟨placed, balanced⟩
    obtain ⟨front, back, rfl, isFront, _, backBalanced, rfl | ⟨rest, rfl⟩⟩ :=
      exists_expression rfl placed balanced
    · rwa [List.append_nil]
    · cases backBalanced

/-! ## Postfix order -/

/-- How many of the parentheses that wait are open. -/
def openCount : List Waiting → Nat
  | [] => 0
  | .openParen :: waiting => openCount waiting + 1
  | .operator _ :: waiting => openCount waiting

/-- A new operator releases no parenthesis. -/
theorem openCount_release (new : Operator) (waiting : List Waiting) :
    openCount (release new waiting).2 = openCount waiting := by
  induction waiting with
  | nil => rfl
  | cons top waiting ih =>
      cases top with
      | openParen => rfl
      | operator operator =>
          rw [release]
          split
          · exact ih
          · rfl

/-- A closing parenthesis needs an open one that waits. -/
theorem closeGroup?_eq_none_iff {waiting : List Waiting} :
    closeGroup? waiting = none ↔ openCount waiting = 0 := by
  induction waiting with
  | nil => simp [closeGroup?, openCount]
  | cons top waiting ih =>
      cases top with
      | openParen => simp [closeGroup?, openCount]
      | operator operator => simp [closeGroup?, openCount, ih]

/-- A closing parenthesis takes one open one away. -/
theorem openCount_of_closeGroup? {waiting rest : List Waiting} {released : List Step}
    (closes : closeGroup? waiting = some (released, rest)) :
    openCount waiting = openCount rest + 1 := by
  induction waiting generalizing released with
  | nil => cases closes
  | cons top waiting ih =>
      cases top with
      | openParen =>
          cases closes
          rfl
      | operator operator =>
          rw [closeGroup?, Option.map_eq_some_iff] at closes
          obtain ⟨⟨inner, behind⟩, closes, same⟩ := closes
          cases same
          exact ih closes

/-- The end needs all parentheses closed. -/
theorem isSome_drain? (waiting : List Waiting) :
    (drain? waiting).isSome = (openCount waiting == 0) := by
  induction waiting with
  | nil => rfl
  | cons top waiting ih =>
      cases top with
      | openParen => rfl
      | operator operator => simp [drain?, openCount, ih]

/-- Tokens have a postfix order exactly if their parentheses are balanced. -/
theorem isSome_arrange? (waiting : List Waiting) (tokens : List Token) :
    (arrange? waiting tokens).isSome = isBalanced (openCount waiting) tokens := by
  induction tokens generalizing waiting with
  | nil => exact isSome_drain? waiting
  | cons token tokens ih =>
      cases token with
      | openParen => exact ih (.openParen :: waiting)
      | closeParen =>
          rw [arrange?]
          cases closes : closeGroup? waiting with
          | none =>
              rw [closeGroup?_eq_none_iff.mp closes]
              rfl
          | some group =>
              obtain ⟨released, rest⟩ := group
              simp [openCount_of_closeGroup? closes, isBalanced, ih]
      | operator operator => simp [arrange?, isBalanced, ih, openCount, openCount_release]
      | term leaf => simp [arrange?, isBalanced, ih]

end SqlTemplate.Expr
