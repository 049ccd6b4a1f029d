import SqlTemplate.Proofs.Expr.Placement
import SqlTemplate.Proofs.Expr.Reading
import SqlTemplate.Proofs.Outcome

/-!
# Accepted expressions

A test expression has a truth value exactly if the postfix order of its tokens is that of a tree
with this value (`exists_tree_of_runSteps` gives the tree).  Nothing is asked of the order in which
the tokens were written: besides the parentheses only the number of operands counts, so operators
may be written behind their operands, or in front of them (`accepts_operator_behind_operands`).

Among the accepted expressions, those with an infix spelling are the ones whose tokens all stand in
their places (`outcome_evaluateWith_eq_ok_iff`).
-/

namespace SqlTemplate.Expr

set_option autoImplicit false

open Outcome

/-! ## The trees on the stack -/

/-- The steps that put the values of trees on the stack, the last of them first. -/
def stackSteps : List Tree → List Step
  | [] => []
  | tree :: below => stackSteps below ++ tree.steps

/-- What an operator leaves on the stack, if it has its operands: the trees whose values are there
become one. -/
theorem exists_trees_of_run {operator : Operator} {stack result : List Operand}
    (runs : operator.run stack = .ok result) {trees : List Tree}
    (equally : trees.length = stack.length) :
    ∃ trees', trees'.length = result.length ∧
      stackSteps trees' = stackSteps trees ++ [.apply operator] := by
  match operator, stack, trees, equally with
  | .complement, [], _, _ | .binary _, [], _, _ | .binary _, [_], _, _ => cases runs
  | .complement, operand :: _, tree :: below, equally =>
      obtain ⟨value, _, runs⟩ := bind_eq_ok_iff.mp runs
      cases runs
      exact ⟨.complement tree :: below, equally, by simp [stackSteps, Tree.steps]⟩
  | .binary operator, right :: left :: _, rightTree :: leftTree :: below, equally =>
      obtain ⟨value, _, runs⟩ := bind_eq_ok_iff.mp runs
      cases runs
      exact ⟨.binary operator leftTree rightTree :: below, by simpa using equally,
        by simp [stackSteps, Tree.steps]⟩

variable {σ : Type} {lookup : Lookup σ} {state : σ}

/-- Steps that run through have put the values of trees on the stack. -/
theorem exists_trees_of_runSteps {stack final : List Operand} {steps : List Step}
    (runs : (runSteps lookup stack steps state).outcome = .ok final) (trees : List Tree)
    (equally : trees.length = stack.length) :
    ∃ trees', trees'.length = final.length ∧ stackSteps trees' = stackSteps trees ++ steps := by
  induction steps generalizing stack trees state with
  | nil =>
      cases runs
      exact ⟨trees, equally, (List.append_nil _).symm⟩
  | cons step steps ih =>
      obtain ⟨middle, first, runs⟩ := Evaluation.outcome_bind_eq_ok_iff.mp runs
      have onTop : ∃ trees', trees'.length = middle.length ∧
          stackSteps trees' = stackSteps trees ++ [step] := by
        cases step with
        | push leaf =>
            obtain ⟨value, _, pushed⟩ := Evaluation.outcome_bind_eq_ok_iff.mp first
            cases pushed
            exact ⟨.term leaf :: trees, congrArg Nat.succ equally, rfl⟩
        | apply operator => exact exists_trees_of_run first equally
      obtain ⟨trees', equally', same⟩ := onTop
      obtain ⟨trees'', equally'', whole⟩ := ih runs trees' equally'
      refine ⟨trees'', equally'', ?_⟩
      rw [whole, same, List.append_assoc, List.singleton_append]

/-- Steps that leave one value are the postfix order of a tree. -/
theorem exists_tree_of_runSteps {value : Operand} {steps : List Step}
    (runs : (runSteps lookup [] steps state).outcome = .ok [value]) :
    ∃ tree : Tree, steps = tree.steps ∧ (tree.evaluate lookup state).outcome = .ok value := by
  obtain ⟨trees, equally, same⟩ := exists_trees_of_runSteps runs [] rfl
  obtain ⟨tree, rfl⟩ := List.length_eq_one_iff.mp equally
  obtain rfl : tree.steps = steps := same
  rw [tree.runSteps_steps_alone] at runs
  obtain ⟨result, evaluates, runs⟩ := Evaluation.outcome_bind_eq_ok_iff.mp runs
  cases runs
  exact ⟨tree, rfl, evaluates⟩

theorem Tree.steps_ne_nil (tree : Tree) : tree.steps ≠ [] := by
  cases tree with
  | term leaf => exact List.cons_ne_nil _ _
  | complement operand => simp [steps]
  | binary operator left right => simp [steps]

/-! ## Acceptance -/

/-- Only a single truth value has a verdict. -/
theorem verdict_eq_ok_iff {stack : List Operand} {value : Bool} :
    verdict stack = .ok value ↔ stack = [.truth value] := by
  constructor
  · intro accepts
    rw [verdict.eq_def] at accepts
    split at accepts <;> cases accepts
    rfl
  · rintro rfl
    rfl

/-- The steps of a text are the postfix order of its tokens, of which there is at least one. -/
theorem compile_eq_ok_iff {source : String} {steps : List Step} :
    compile source = .ok steps ↔
      ∃ tokens, tokenize source = .ok tokens ∧ tokens ≠ [] ∧ arrange? [] tokens = some steps := by
  rw [compile, bind_eq_ok_iff]
  constructor
  · rintro ⟨tokens, reads, arranges⟩
    refine ⟨tokens, reads, ?_⟩
    split at arranges
    · cases arranges
    · rename_i some
      rw [toPostfix] at arranges
      split at arranges
      · rename_i arranged
        cases arranges
        exact ⟨by simpa using some, arranged⟩
      · cases arranges
  · rintro ⟨tokens, reads, some, arranged⟩
    exact ⟨tokens, reads, by simp [some, toPostfix, arranged]⟩

/-- **What is accepted, and what of it is infix.**  An expression has a truth value exactly if the
postfix order of its tokens is that of a tree with this value, in the state that the lookup starts
in.  Its tokens are then an infix expression exactly if each of them stands in its place. -/
theorem outcome_evaluateWith_eq_ok_iff {σ : Type} (lookup : Lookup σ) (state : σ)
    (source : String) (value : Bool) :
    (evaluateWith lookup source state).outcome = .ok value ↔
      ∃ tokens tree, tokenize source = .ok tokens ∧
        arrange? [] tokens = some (Tree.steps tree) ∧
          (tree.evaluate lookup state).outcome = .ok (.truth value) ∧
            (IsExpression tokens ↔ isPlaced none tokens = true) := by
  rw [evaluateWith]
  constructor
  · intro accepts
    obtain ⟨steps, compiles, accepts⟩ := Evaluation.outcome_bind_eq_ok_iff.mp accepts
    obtain ⟨stack, runs, accepts⟩ := Evaluation.outcome_bind_eq_ok_iff.mp accepts
    obtain rfl := verdict_eq_ok_iff.mp (reported_eq_ok_iff.mp accepts)
    obtain ⟨tokens, reads, _, arranged⟩ := compile_eq_ok_iff.mp (reported_eq_ok_iff.mp compiles)
    obtain ⟨tree, rfl, evaluates⟩ := exists_tree_of_runSteps runs
    have balanced : isBalanced 0 tokens = true := by
      have arranges := isSome_arrange? [] tokens
      rw [arranged] at arranges
      exact arranges.symm
    refine ⟨tokens, tree, reads, arranged, evaluates, ?_⟩
    rw [isExpression_iff]
    exact and_iff_left balanced
  · rintro ⟨tokens, tree, reads, arranged, evaluates, _⟩
    have someToken : tokens ≠ [] := by
      rintro rfl
      exact tree.steps_ne_nil (Option.some.inj arranged).symm
    have compiles := compile_eq_ok_iff.mpr ⟨tokens, reads, someToken, arranged⟩
    refine Evaluation.outcome_bind_eq_ok_iff.mpr
      ⟨tree.steps, reported_eq_ok_iff.mpr compiles, ?_⟩
    rw [tree.runSteps_steps_alone, bind_assoc]
    exact Evaluation.outcome_bind_eq_ok_iff.mpr ⟨.truth value, evaluates, rfl⟩

/-- An expression whose operator is written behind both operands has a truth value, but its tokens
are no infix expression. -/
theorem accepts_operator_behind_operands :
    ¬ ∀ (lookup : Lookup Unit) (state : Unit) (source : String) (value : Bool),
      (evaluateWith lookup source state).outcome = .ok value →
        ∃ tokens, tokenize source = .ok tokens ∧ IsExpression tokens := by
  intro infixOnly
  have accepts : (evaluateWith (.stateless fun _ => .ok none) "true false and" ()).outcome =
      .ok false := by
    decide +kernel
  have unplaced : (tokenize "true false and").map (isPlaced none) = .ok false := by
    decide +kernel
  obtain ⟨tokens, reads, expression⟩ := infixOnly _ _ _ _ accepts
  have placed : isPlaced none tokens = true := (isExpression_iff.mp expression).1
  rw [reads, Except.map, placed] at unplaced
  cases unplaced

end SqlTemplate.Expr
