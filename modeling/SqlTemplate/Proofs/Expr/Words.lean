import SqlTemplate.Proofs.Expr.Acceptance
import SqlTemplate.Proofs.Expr.Rearrangement

/-!
# What is written in a test

Every step of a test was one of its tokens, so its text shows what an evaluation may do.  A test
looks up no words but those that are written in it (`evaluateWith_congr`), and it is aborted only if
a remainder is written in it (`hasRemainder_of_aborted`).
-/

namespace SqlTemplate.Expr

set_option autoImplicit false

open Outcome

variable {σ : Type}

/-! ## Words that are looked up -/

/-- The term that a token is. -/
def Token.term? : Token → Option Term
  | .term leaf => some leaf
  | _ => none

/-- The word that a term is. -/
def Term.word? : Term → Option String
  | .word name => some name
  | _ => none

/-- The words written in a text; a text that has no tokens has no words. -/
def words (source : String) : List String :=
  match tokenize source with
  | .ok tokens => (tokens.filterMap Token.term?).filterMap Term.word?
  | .error _ => []

/-- The words that are pushed are written in the text. -/
theorem mem_words {source : String} {steps : List Step} (compiles : compile source = .ok steps)
    {name : String} (pushed : .push (.word name) ∈ steps) : name ∈ words source := by
  obtain ⟨tokens, reads, _, arranges⟩ := compile_eq_ok_iff.mp compiles
  have listed : .term (.word name) ∈ tokens := token_mem_of_arrange? arranges pushed
  rw [words, reads]
  exact List.mem_filterMap.mpr ⟨.word name, List.mem_filterMap.mpr ⟨_, listed, rfl⟩, rfl⟩

variable {left right : Lookup σ}

/-- Two ways of looking up that agree on the words that are pushed. -/
theorem runSteps_congr (steps : List Step) (stack : List Operand)
    (alike : ∀ name, .push (.word name) ∈ steps → left name = right name) :
    runSteps left stack steps = runSteps right stack steps := by
  induction steps generalizing stack with
  | nil => rfl
  | cons step steps ih =>
      have first : step.run left stack = step.run right stack := by
        cases step with
        | apply operator => rfl
        | push leaf =>
            cases leaf with
            | word name =>
                have same := alike name (List.mem_cons_self ..)
                rw [Step.run, Step.run, Term.operand, Term.operand, same]
            | number value | text content | truth value | nil => rfl
      have others (stack : List Operand) :=
        ih stack fun name pushed => alike name (List.mem_cons_of_mem _ pushed)
      rw [runSteps, runSteps, first]
      exact congrArg _ (funext others)

/-- **A test looks up its own words only.** Where two ways of looking up agree on the words written
in a test, they give one evaluation of it. -/
theorem evaluateWith_congr (source : String)
    (alike : ∀ word ∈ words source, left word = right word) :
    evaluateWith left source = evaluateWith right source := by
  rw [evaluateWith, evaluateWith]
  cases compiles : compile source with
  | error fault => rfl
  | ok steps =>
      have runs := runSteps_congr steps [] fun name pushed =>
        alike name (mem_words compiles pushed)
      exact congrArg (fun run => Evaluation.ofExcept (.ok steps) >>= fun _ =>
        run >>= fun stack => Evaluation.ofExcept (reported (verdict stack))) runs

/-! ## Aborts -/

/-- Whether a remainder is written in a text. -/
def HasRemainder (source : String) : Prop :=
  ∃ tokens, tokenize source = .ok tokens ∧ .operator (.binary .remainder) ∈ tokens

/-- **Only a remainder is aborted**: a text whose evaluation is aborted has one. -/
theorem hasRemainder_of_aborted {lookup : Lookup σ} {source : String} {state : σ}
    (aborts : (evaluateWith lookup source state).outcome = .error .aborted) :
    HasRemainder source := by
  rcases Evaluation.outcome_bind_eq_error_iff.mp aborts with compiled | ⟨steps, compiles, aborts⟩
  · exact absurd compiled (reported_ne_aborted _)
  rcases Evaluation.outcome_bind_eq_error_iff.mp aborts with run | ⟨stack, _, judged⟩
  · rcases runSteps_failsOnly _ _ _ _ _ run with ⟨operator, applied, stops⟩ | search
    · cases stops with
      | aborted isRemainder =>
          subst isRemainder
          obtain ⟨tokens, reads, _, arranges⟩ :=
            compile_eq_ok_iff.mp (reported_eq_ok_iff.mp compiles)
          exact ⟨tokens, reads, token_mem_of_arrange? arranges applied⟩
    · obtain ⟨_, _, _, _, same⟩ := search
      cases same
  · exact absurd judged (reported_ne_aborted _)

end SqlTemplate.Expr
