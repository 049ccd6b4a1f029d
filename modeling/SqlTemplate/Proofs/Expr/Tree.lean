import SqlTemplate.Expr.Evaluate
import SqlTemplate.Proofs.Outcome

/-!
# Expression trees

An expression is a tree of terms and operators.  `Tree.evaluate` gives its value by recursion: the
operands from left to right, each of them whatever the others give, and then the operator.
`Tree.Derives` says which tokens write a tree: parentheses may stand around every part, and have to
stand where a part binds less tightly than its place asks for.

The stack machine runs a tree in postfix order (`Tree.steps`) to the same value, with the same words
looked up in the same order (`Tree.runSteps_steps`).
-/

namespace SqlTemplate.Expr

set_option autoImplicit false

/-! ## Evaluations one after the other -/

namespace Evaluation

variable {σ α β γ : Type}

theorem bind_of_error {first : Evaluation σ α} {state later : σ} {asked : List String}
    {stop : Stop ExprError} (stops : first state = ⟨asked, .error stop, later⟩)
    (next : α → Evaluation σ β) : (first >>= next) state = ⟨asked, .error stop, later⟩ := by
  show andThen first next state = _
  rw [andThen, stops]

theorem bind_of_ok {first : Evaluation σ α} {state later : σ} {asked : List String} {result : α}
    (gives : first state = ⟨asked, .ok result, later⟩) (next : α → Evaluation σ β) :
    (first >>= next) state =
      ⟨asked ++ (next result later).asked, (next result later).outcome,
        (next result later).state⟩ := by
  show andThen first next state = _
  rw [andThen, gives]

/-- The outcome of an evaluation that goes on is that of its parts, of which the second starts in
the state that the first one leaves. -/
theorem outcome_bind (first : Evaluation σ α) (next : α → Evaluation σ β) (state : σ) :
    ((first >>= next) state).outcome =
      (first state).outcome >>= fun result => (next result (first state).state).outcome := by
  cases run : first state with
  | mk asked outcome later =>
      cases outcome with
      | error stop =>
          rw [bind_of_error run]
          rfl
      | ok result =>
          rw [bind_of_ok run]
          rfl

/-- An evaluation and what follows succeed together when both succeed. -/
theorem outcome_bind_eq_ok_iff {first : Evaluation σ α} {next : α → Evaluation σ β} {state : σ}
    {result : β} :
    ((first >>= next) state).outcome = .ok result ↔
      ∃ middle, (first state).outcome = .ok middle ∧
        (next middle (first state).state).outcome = .ok result := by
  rw [outcome_bind, Outcome.bind_eq_ok_iff]

/-- An evaluation and what follows stop where the first of them stops. -/
theorem outcome_bind_eq_error_iff {first : Evaluation σ α} {next : α → Evaluation σ β} {state : σ}
    {stop : Stop ExprError} :
    ((first >>= next) state).outcome = .error stop ↔
      (first state).outcome = .error stop ∨ ∃ middle, (first state).outcome = .ok middle ∧
        (next middle (first state).state).outcome = .error stop := by
  rw [outcome_bind, Outcome.bind_eq_error_iff]

theorem andThen_assoc (first : Evaluation σ α) (second : α → Evaluation σ β)
    (third : β → Evaluation σ γ) :
    (first.andThen second).andThen third =
      first.andThen fun result => (second result).andThen third := by
  funext state
  unfold andThen
  obtain ⟨asked, _ | result, later⟩ := first state
  · rfl
  · dsimp only
    obtain ⟨more, _ | next, last⟩ := second result later
    · rfl
    · simp only [List.append_assoc]

instance : LawfulMonad (Evaluation σ) :=
  LawfulMonad.mk' (Evaluation σ)
    (fun evaluation => by
      funext state
      show andThen evaluation (fun result => ofExcept (.ok result)) state = evaluation state
      unfold andThen
      obtain ⟨asked, _ | result, later⟩ := evaluation state
      · rfl
      · simp [ofExcept])
    (fun _ _ => rfl)
    andThen_assoc

/-- An outcome that goes on with another one asks for no word in between. -/
theorem ofExcept_bind (first : Except (Stop ExprError) α) (second : α → Except (Stop ExprError) β)
    (next : β → Evaluation σ γ) :
    ofExcept (first >>= second) >>= next =
      ofExcept first >>= fun result => ofExcept (second result) >>= next := by
  cases first with
  | error stop => rfl
  | ok result => rfl

/-- An outcome at the end asks for no word. -/
theorem asked_bind_ofExcept (first : Evaluation σ α) (next : α → Except (Stop ExprError) β)
    (state : σ) :
    ((first >>= fun result => ofExcept (next result)) state).asked = (first state).asked := by
  cases run : first state with
  | mk asked outcome later =>
      cases outcome with
      | error stop => rw [bind_of_error run]
      | ok result =>
          rw [bind_of_ok run]
          exact List.append_nil asked

/-- An evaluation that looks up these words from left to right, whatever state it starts in: all of
them if it gives a result, and those up to some word if it does not. -/
structure AsksFor (words : List String) (evaluation : Evaluation σ α) : Prop where
  isPrefixOf (state : σ) : (evaluation state).asked <+: words
  all_of_ok {state : σ} {result : α} :
    (evaluation state).outcome = .ok result → (evaluation state).asked = words

namespace AsksFor

theorem ofExcept (outcome : Except (Stop ExprError) α) :
    AsksFor [] (ofExcept outcome : Evaluation σ α) where
  isPrefixOf _ := List.nil_prefix
  all_of_ok _ := rfl

/-- Two evaluations one after the other look up the words of both. -/
theorem bind {front back : List String} {first : Evaluation σ α} {next : α → Evaluation σ β}
    (asks : AsksFor front first) (asksNext : ∀ result, AsksFor back (next result)) :
    AsksFor (front ++ back) (first >>= next) := by
  have runs (state : σ) : ((first >>= next) state).asked <+: front ++ back ∧
      ∀ result, ((first >>= next) state).outcome = .ok result →
        ((first >>= next) state).asked = front ++ back := by
    have asked := asks.isPrefixOf state
    have all : ∀ result, (first state).outcome = .ok result → (first state).asked = front :=
      fun result => asks.all_of_ok
    cases run : first state with
    | mk words outcome later =>
        rw [run] at asked all
        cases outcome with
        | error stop =>
            rw [bind_of_error run]
            exact ⟨asked.trans (List.prefix_append front back), fun result equal => nomatch equal⟩
        | ok result =>
            obtain rfl : words = front := all result rfl
            rw [bind_of_ok run]
            exact ⟨(List.prefix_append_right_inj words).mpr ((asksNext result).isPrefixOf later),
              fun _ equal => congrArg (words ++ ·) ((asksNext result).all_of_ok equal)⟩
  exact ⟨fun state => (runs state).1, fun {state} {result} => (runs state).2 result⟩

end AsksFor

end Evaluation

/-! ## Trees -/

/-- An expression as a tree. -/
inductive Tree where
  | term (term : Term)
  | complement (operand : Tree)
  | binary (operator : BinaryOperator) (left right : Tree)

namespace Tree

variable {σ : Type}

/-- The value of a tree: the operands from left to right, and then the operator. -/
def evaluate (lookup : Lookup σ) : Tree → Evaluation σ Operand
  | term leaf => leaf.operand lookup
  | complement operand => do
      let value ← operand.evaluate lookup
      .ofExcept value.complement
  | binary operator left right => do
      let leftValue ← left.evaluate lookup
      let rightValue ← right.evaluate lookup
      .ofExcept (leftValue.combine operator rightValue)

/-- The words of a tree from left to right. -/
def words : Tree → List String
  | term (.word name) => [name]
  | term _ => []
  | complement operand => operand.words
  | binary _ left right => left.words ++ right.words

/-- The level of an operand of a complement, which binds tighter than every operator between two
operands. -/
def operandLevel : Nat := 6

/-- The tokens that write a tree at a place of a level: a tree with an operator of a lower level
needs parentheses there.  The operators between two operands group to the left. -/
inductive Derives : Nat → Tree → List Token → Prop
  | term {level : Nat} (leaf : Term) : Derives level (term leaf) [.term leaf]
  | group {level : Nat} {tree : Tree} {tokens : List Token} :
      Derives 1 tree tokens → Derives level tree (.openParen :: tokens ++ [.closeParen])
  | complement {level : Nat} {operand : Tree} {tokens : List Token} :
      Derives operandLevel operand tokens →
        Derives level (complement operand) (.operator .complement :: tokens)
  | binary {level : Nat} {operator : BinaryOperator} {left right : Tree}
      {leftTokens rightTokens : List Token} :
      level ≤ operator.precedence → Derives operator.precedence left leftTokens →
        Derives (operator.precedence + 1) right rightTokens →
          Derives level (binary operator left right)
            (leftTokens ++ .operator (.binary operator) :: rightTokens)

/-! ## The stack machine -/

/-- The steps of a tree in postfix order. -/
def steps : Tree → List Step
  | term leaf => [.push leaf]
  | complement operand => operand.steps ++ [.apply .complement]
  | binary operator left right => left.steps ++ right.steps ++ [.apply (.binary operator)]

/-- Running the steps of a tree puts its value on the stack. -/
theorem runSteps_steps (lookup : Lookup σ) (tree : Tree) (stack : List Operand) (more : List Step) :
    runSteps lookup stack (tree.steps ++ more) =
      tree.evaluate lookup >>= fun value => runSteps lookup (value :: stack) more := by
  induction tree generalizing stack more with
  | term leaf =>
      show (leaf.operand lookup >>= fun value => pure (value :: stack)) >>=
        (fun stack => runSteps lookup stack more) = _
      rw [bind_assoc]
      rfl
  | complement operand ih =>
      rw [steps, List.append_assoc, ih, evaluate, bind_assoc]
      congr 1
      funext value
      exact Evaluation.ofExcept_bind ..
  | binary operator left right leftIH rightIH =>
      rw [steps, List.append_assoc, List.append_assoc, leftIH, evaluate, bind_assoc]
      congr 1
      funext leftValue
      rw [rightIH, bind_assoc]
      congr 1
      funext rightValue
      exact Evaluation.ofExcept_bind ..

/-- Running the steps of a tree alone leaves its value. -/
theorem runSteps_steps_alone (lookup : Lookup σ) (tree : Tree) :
    runSteps lookup [] tree.steps = tree.evaluate lookup >>= fun value => pure [value] := by
  have runs := tree.runSteps_steps lookup [] []
  rwa [List.append_nil] at runs

/-! ## The words that are looked up -/

/-- The evaluation of a tree looks up its words from left to right. -/
theorem evaluate_asksFor (lookup : Lookup σ) (tree : Tree) :
    (tree.evaluate lookup).AsksFor tree.words := by
  induction tree with
  | term leaf =>
      cases leaf with
      | number value => exact .ofExcept (.ok _)
      | text content => exact .ofExcept (.ok _)
      | truth value => exact .ofExcept (.ok _)
      | nil => exact .ofExcept (.ok _)
      | word name => exact ⟨fun _ => List.prefix_rfl, fun _ => rfl⟩
  | complement operand ih =>
      rw [words, ← List.append_nil operand.words]
      exact ih.bind fun value => .ofExcept value.complement
  | binary operator left right leftIH rightIH =>
      refine leftIH.bind fun leftValue => ?_
      rw [← List.append_nil right.words]
      exact rightIH.bind fun rightValue => .ofExcept (leftValue.combine operator rightValue)

end Tree

end SqlTemplate.Expr
