import SqlTemplate.Proofs.Expr.Tree
import SqlTemplate.Proofs.Outcome

/-!
# How an evaluation stops

Steps are run until one of them stops (`runSteps_failsOnly`).  What stops a run is an operator among
the steps, or the search for a word.  The search only reports faults.  An operator reports its own
faults (`Operator.StopsWith`), and only a remainder is aborted: that of the least 64-bit integer by
minus one (`Operand.combine_eq_aborted_iff`).

So the evaluation of a tree is aborted exactly if it comes to such a remainder
(`Tree.evaluate_eq_aborted_iff`).
-/

namespace SqlTemplate.Expr

set_option autoImplicit false

open Outcome

/-! ## Operators -/

/-- How an operator may stop. -/
inductive Operator.StopsWith (operator : Operator) : Stop ExprError → Prop
  | missingOperand : StopsWith operator (.fault (.missingOperand operator))
  | mistyped (operands : List OperandKind) :
      StopsWith operator (.fault (.mistyped operator operands))
  | divisionByZero :
      operator = .binary .divide ∨ operator = .binary .remainder →
        StopsWith operator (.fault .divisionByZero)
  | aborted : operator = .binary .remainder → StopsWith operator .aborted

namespace Operand

theorem complement_failsOnly (operand : Operand) :
    FailsOnly (Operator.StopsWith .complement) operand.complement := by
  cases operand with
  | number value => exact .ok _
  | text | truth | nil | array | object => exact .error (.mistyped _)

theorem connective_failsOnly (operator : BinaryOperator) (join : Bool → Bool → Bool)
    (left right : Operand) :
    FailsOnly (Operator.StopsWith (.binary operator)) (connective operator join left right) := by
  unfold connective
  split
  · exact .ok _
  · exact .error (.mistyped _)

theorem comparison_failsOnly (operator : BinaryOperator) (numbers : Float → Float → Bool)
    (texts : String → String → Bool) (left right : Operand) :
    FailsOnly (Operator.StopsWith (.binary operator))
      (comparison operator numbers texts left right) := by
  unfold comparison
  split
  all_goals first | exact .ok _ | exact .error (.mistyped _)

theorem remainder_failsOnly (left right : Int64) :
    FailsOnly (Operator.StopsWith (.binary .remainder)) (remainder left right) := by
  unfold remainder
  split
  · exact .error (.divisionByZero (.inr rfl))
  · split
    · exact .error (.aborted rfl)
    · exact .ok _

theorem calculate_failsOnly (operator : BinaryOperator) (left right : Float) :
    FailsOnly (Operator.StopsWith (.binary operator)) (calculate operator left right) := by
  cases operator with
  | divide =>
      rw [calculate]
      split
      · exact .error (.divisionByZero (.inl rfl))
      · exact .ok _
  | remainder => exact (remainder_failsOnly _ _).map _
  | or | and | equal | notEqual | less | lessEqual | greater | greaterEqual => exact .ok _
  | add | subtract | multiply | bitAnd | bitOr => exact .ok _

theorem arithmetic_failsOnly (operator : BinaryOperator) (left right : Operand) :
    FailsOnly (Operator.StopsWith (.binary operator)) (arithmetic operator left right) := by
  unfold arithmetic
  split
  · exact (calculate_failsOnly _ _ _).map _
  · exact .error (.mistyped _)

theorem combine_failsOnly (operator : BinaryOperator) (left right : Operand) :
    FailsOnly (Operator.StopsWith (.binary operator)) (left.combine operator right) := by
  cases operator with
  | or | and => exact connective_failsOnly _ _ _ _
  | equal | notEqual => exact .ok _
  | less | lessEqual | greater | greaterEqual => exact comparison_failsOnly _ _ _ _ _
  | add | subtract | multiply | divide | remainder | bitAnd | bitOr =>
      exact arithmetic_failsOnly _ _ _

/-- The remainder of 64-bit integers is aborted where their quotient is none. -/
theorem remainder_eq_aborted_iff {left right : Int64} :
    remainder left right = .error .aborted ↔ left = Int64.minValue ∧ right = -1 := by
  unfold remainder
  split
  · rename_i zero
    refine iff_of_false nofun ?_
    rintro ⟨_, rfl⟩
    cases zero
  · split
    · rename_i overflows
      exact iff_of_true rfl overflows
    · rename_i fits
      exact iff_of_false nofun fits

/-- **What is aborted**: the remainder of two numbers of which the left one is truncated to the
least 64-bit integer and the right one to minus one. -/
theorem combine_eq_aborted_iff {operator : BinaryOperator} {left right : Operand} :
    left.combine operator right = .error .aborted ↔
      operator = .remainder ∧ ∃ dividend divisor, left = number dividend ∧
        right = number divisor ∧ dividend.toInt64 = Int64.minValue ∧ divisor.toInt64 = -1 := by
  constructor
  · intro aborts
    have stops := combine_failsOnly _ _ _ _ aborts
    cases stops with
    | aborted isRemainder =>
        cases isRemainder
        refine ⟨rfl, ?_⟩
        have aborts : arithmetic .remainder left right = .error .aborted := aborts
        unfold arithmetic at aborts
        split at aborts
        · have aborts := map_eq_error_iff.mp (map_eq_error_iff.mp aborts)
          exact ⟨_, _, rfl, rfl, remainder_eq_aborted_iff.mp aborts⟩
        · cases aborts
  · rintro ⟨rfl, dividend, divisor, rfl, rfl, places⟩
    have aborts := remainder_eq_aborted_iff.mpr places
    exact map_eq_error_iff.mpr (map_eq_error_iff.mpr aborts)

end Operand

theorem Operator.run_failsOnly (operator : Operator) (stack : List Operand) :
    FailsOnly operator.StopsWith (operator.run stack) := by
  unfold Operator.run
  split
  · exact (Operand.complement_failsOnly _).bind fun _ => .ok _
  · exact (Operand.combine_failsOnly _ _ _).bind fun _ => .ok _
  · exact .error .missingOperand

variable {σ : Type}

/-! ## Steps -/

/-- Steps stop as an operator among them does, or with a fault of the search for a word. -/
theorem runSteps_failsOnly (lookup : Lookup σ) (steps : List Step) (stack : List Operand)
    (state : σ) :
    FailsOnly
      (fun stop => (∃ operator, .apply operator ∈ steps ∧ operator.StopsWith stop) ∨
        ∃ name state cause, (lookup name state).1 = .error cause ∧ stop = .fault cause)
      (runSteps lookup stack steps state).outcome := by
  induction steps generalizing stack state with
  | nil => exact .ok _
  | cons step steps ih =>
      rw [runSteps, Evaluation.outcome_bind]
      refine .bind ?_ fun stack => (ih stack _).imp fun stop stops => ?_
      · cases step with
        | apply operator =>
            exact (operator.run_failsOnly stack).imp fun stop stops =>
              .inl ⟨operator, List.mem_cons_self .., stops⟩
        | push leaf =>
            rw [Step.run, Evaluation.outcome_bind]
            refine .bind ?_ fun operand => .ok _
            cases leaf with
            | word name =>
                refine .map (fun stop stops => ?_) _
                obtain ⟨cause, fails, rfl⟩ := reported_eq_error_iff.mp stops
                exact .inr ⟨name, state, cause, fails, rfl⟩
            | number value | text content | truth value | nil => exact .ok _
      · rcases stops with ⟨operator, listed, stops⟩ | search
        · exact .inl ⟨operator, List.mem_cons_of_mem _ listed, stops⟩
        · exact .inr search

/-! ## Trees -/

/-- A term is not aborted. -/
theorem Term.operand_ne_aborted (leaf : Term) (lookup : Lookup σ) (state : σ) :
    (leaf.operand lookup state).outcome ≠ .error .aborted := by
  intro aborts
  cases leaf with
  | number value | text content | truth value | nil => cases aborts
  | word name => exact reported_ne_aborted _ (map_eq_error_iff.mp aborts)

namespace Tree

/-- An evaluation that comes to a remainder whose quotient is no 64-bit integer: whatever is
evaluated before it has a value. -/
inductive Overflows (lookup : Lookup σ) : Tree → σ → Prop
  | complement {operand : Tree} {state : σ} :
      Overflows lookup operand state → Overflows lookup (.complement operand) state
  | left {operator : BinaryOperator} {left right : Tree} {state : σ} :
      Overflows lookup left state → Overflows lookup (.binary operator left right) state
  | right {operator : BinaryOperator} {left right : Tree} {state : σ} {value : Operand} :
      (left.evaluate lookup state).outcome = .ok value →
        Overflows lookup right (left.evaluate lookup state).state →
          Overflows lookup (.binary operator left right) state
  | remainder {left right : Tree} {state : σ} {dividend divisor : Float} :
      (left.evaluate lookup state).outcome = .ok (.number dividend) →
        (right.evaluate lookup (left.evaluate lookup state).state).outcome =
            .ok (.number divisor) →
          dividend.toInt64 = Int64.minValue → divisor.toInt64 = -1 →
            Overflows lookup (.binary .remainder left right) state

/-- **The evaluation of a tree is aborted exactly if it overflows.** -/
theorem evaluate_eq_aborted_iff (lookup : Lookup σ) (tree : Tree) (state : σ) :
    (tree.evaluate lookup state).outcome = .error .aborted ↔ tree.Overflows lookup state := by
  constructor
  · intro aborts
    induction tree generalizing state with
    | term leaf => exact absurd aborts (leaf.operand_ne_aborted lookup state)
    | complement operand ih =>
        rcases Evaluation.outcome_bind_eq_error_iff.mp aborts with inside | ⟨value, _, here⟩
        · exact .complement (ih state inside)
        · cases value.complement_failsOnly _ here with
          | aborted isRemainder => cases isRemainder
    | binary operator left right leftIH rightIH =>
        rcases Evaluation.outcome_bind_eq_error_iff.mp aborts with
          first | ⟨leftValue, first, aborts⟩
        · exact .left (leftIH state first)
        · rcases Evaluation.outcome_bind_eq_error_iff.mp aborts with
            second | ⟨rightValue, second, here⟩
          · exact .right first (rightIH _ second)
          · obtain ⟨rfl, dividend, divisor, rfl, rfl, least, minusOne⟩ :=
              Operand.combine_eq_aborted_iff.mp here
            exact .remainder first second least minusOne
  · intro overflows
    induction overflows with
    | complement _ ih => exact Evaluation.outcome_bind_eq_error_iff.mpr (.inl ih)
    | left _ ih => exact Evaluation.outcome_bind_eq_error_iff.mpr (.inl ih)
    | right first _ ih =>
        refine Evaluation.outcome_bind_eq_error_iff.mpr (.inr ⟨_, first, ?_⟩)
        exact Evaluation.outcome_bind_eq_error_iff.mpr (.inl ih)
    | remainder first second least minusOne =>
        have here := Operand.combine_eq_aborted_iff.mpr ⟨rfl, _, _, rfl, rfl, least, minusOne⟩
        refine Evaluation.outcome_bind_eq_error_iff.mpr (.inr ⟨_, first, ?_⟩)
        exact Evaluation.outcome_bind_eq_error_iff.mpr (.inr ⟨_, second, here⟩)

end Tree

end SqlTemplate.Expr
