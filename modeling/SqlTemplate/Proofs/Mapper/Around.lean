import SqlTemplate.Mapper.Reader
import SqlTemplate.Proofs.Outcome

/-!
# Reading around a body

Of the statements that a draft has, the reader only looks at the identifiers.  So it goes on alike
with drafts that it cannot tell apart (`Reader.run_related`): each step keeps them so, and the run
follows by induction on the events.

Drafts that differ in the body of one statement are of this kind (`OpenDraft.alike_isHidden`).  If
the body is made of texts, the mapper that such a draft becomes has the statement of these texts
among statements that do not depend on them (`OpenDraft.finish_fill`).
-/

namespace SqlTemplate

set_option autoImplicit false

open Markup (Event Tag)
open Outcome

/-! ## Drafts that the reader cannot tell apart -/

/-- A relation between drafts in which the same names are taken, which lasts when both drafts get
the same statement or the same fragment. -/
structure Draft.IsHidden (holds : Draft → Draft → Prop) : Prop where
  namespaceName {left right : Draft} (related : holds left right) :
    left.namespaceName = right.namespaceName
  hasStatement {left right : Draft} (related : holds left right) :
    left.hasStatement = right.hasStatement
  hasFragment {left right : Draft} (related : holds left right) :
    left.hasFragment = right.hasFragment
  addStatement {left right : Draft} (related : holds left right)
    (statement : StatementHead × List Node) :
    holds { left with statements := left.statements ++ [statement] }
      { right with statements := right.statements ++ [statement] }
  addFragment {left right : Draft} (related : holds left right)
    (fragment : String × List Node) :
    holds { left with fragments := left.fragments ++ [fragment] }
      { right with fragments := right.fragments ++ [fragment] }

/-- The same place in the documents of related drafts. -/
inductive Place.Related (holds : Draft → Draft → Prop) : Place → Place → Prop
  | mapper {left right : Draft} (related : holds left right) :
      Related holds (.mapper left) (.mapper right)
  | content {left right : Draft} (related : holds left right) (target : Target)
      (frames : List Frame) (nodes : List Node) :
      Related holds (.content left target frames nodes) (.content right target frames nodes)
  | choice {left right : Draft} (related : holds left right) (target : Target)
      (frames : List Frame) (choice : OpenChoice) :
      Related holds (.choice left target frames choice) (.choice right target frames choice)
  | skipped {left right : Place} (depth : Nat) (after : Related holds left right) :
      Related holds (.skipped depth left) (.skipped depth right)

/-- The same progress in the documents of related drafts. -/
inductive Progress.Related (holds : Draft → Draft → Prop) : Progress → Progress → Prop
  | next {left right : Place} (related : left.Related holds right) :
      Related holds (.next left) (.next right)
  | finished {left right : Draft} (related : holds left right) :
      Related holds (.finished left) (.finished right)

namespace Reader

section

variable {holds : Draft → Draft → Prop} {left right : Draft} {location : String}

section

variable (hidden : Draft.IsHidden holds) (related : holds left right)

include hidden related

theorem store_related (nodes : List Node) (target : Target) :
    Outcome.Related Eq holds (store left nodes target) (store right nodes target) := by
  cases target with
  | statement head => exact .result (hidden.addStatement related _)
  | fragment id =>
      rw [store, store, hidden.hasFragment related]
      split
      · rw [hidden.namespaceName related]
        exact .fault rfl
      · exact .result (hidden.addFragment related _)

theorem target?_eq (tag : Tag) : target? left tag = target? right tag := by
  simp only [target?, statementHead, hidden.hasStatement related, hidden.namespaceName related]

theorem openChild_related (tag : Tag) (isEmpty : Bool) :
    Outcome.Related Eq (Place.Related holds) (openChild left tag isEmpty)
      (openChild right tag isEmpty) := by
  rw [openChild, openChild, target?_eq hidden related]
  refine .bind_same fun found _ => ?_
  cases found with
  | none =>
      cases isEmpty with
      | true => exact .result (.mapper related)
      | false => exact .result (.skipped 0 (.mapper related))
  | some target =>
      cases isEmpty with
      | true => exact (store_related hidden related [] target).map fun _ _ => .mapper
      | false => exact .result (.content related target [] [])

theorem closeContent_related (target : Target) (nodes : List Node) (frames : List Frame) :
    Outcome.Related Eq (Place.Related holds) (closeContent left target nodes frames)
      (closeContent right target nodes frames) := by
  cases frames with
  | nil => exact (store_related hidden related nodes target).map fun _ _ => .mapper
  | cons frame frames =>
      cases frame with
      | element element before => exact .result (.content related ..)
      | branch test choice => exact .result (.choice related ..)
      | otherwise choice => exact .result (.choice related ..)

end

section

variable (related : holds left right) (target : Target) (frames : List Frame)

include related

theorem openNode_related (nodes : List Node) (tag : Tag) (isEmpty : Bool) :
    Outcome.Related Eq (Place.Related holds)
      (openNode location left target frames nodes tag isEmpty)
      (openNode location right target frames nodes tag isEmpty) := by
  refine .bind_same fun found _ => ?_
  cases found with
  | element element => cases isEmpty <;> exact .result (.content related ..)
  | choice =>
      cases isEmpty with
      | true => exact .result (.content related ..)
      | false => exact .result (.choice related ..)
  | reference name =>
      cases isEmpty with
      | true => exact .result (.content related ..)
      | false => exact .result (.skipped 0 (.content related ..))

theorem openBranch_related (choice : OpenChoice) (tag : Tag) (isEmpty : Bool) :
    Outcome.Related Eq (Place.Related holds)
      (openBranch location left target frames choice tag isEmpty)
      (openBranch location right target frames choice tag isEmpty) := by
  rw [openBranch, openBranch]
  split
  · refine .bind_same fun test _ => ?_
    cases isEmpty with
    | true => exact .result (.choice related ..)
    | false => exact .result (.content related ..)
  · split
    · exact .fault rfl
    · cases isEmpty with
      | true => exact .result (.choice related ..)
      | false => exact .result (.content related ..)
  · exact .fault rfl

theorem choiceStep_related (choice : OpenChoice) (event : Event) :
    Outcome.Related Eq (Place.Related holds) (choiceStep location left target frames choice event)
      (choiceStep location right target frames choice event) := by
  cases event with
  | start tag | empty tag => exact openBranch_related related target frames choice tag _
  | stop => exact .result (.content related ..)
  | text content =>
      rw [choiceStep, choiceStep]
      split
      · exact .result (.choice related ..)
      · exact .fault rfl
  | data content | fault => exact .fault rfl

end

theorem contentStep_related (hidden : Draft.IsHidden holds) (related : holds left right)
    (target : Target) (frames : List Frame) (nodes : List Node) (event : Event) :
    Outcome.Related Eq (Place.Related holds) (contentStep location left target frames nodes event)
      (contentStep location right target frames nodes event) := by
  cases event with
  | start tag | empty tag => exact openNode_related related target frames nodes tag _
  | stop => exact closeContent_related hidden related target nodes frames
  | text content | data content => exact .bind_same fun more _ => .result (.content related ..)
  | fault => exact .fault rfl

theorem skippedStep_related {left right : Place} (depth : Nat)
    (related : left.Related holds right) (event : Event) :
    Outcome.Related Eq (Place.Related holds) (skippedStep location depth left event)
      (skippedStep location depth right event) := by
  cases event with
  | stop =>
      cases depth with
      | zero => exact .result related
      | succ depth => exact .result (.skipped depth related)
  | start tag => exact .result (.skipped (depth + 1) related)
  | fault => exact .fault rfl
  | empty tag | text content | data content => exact .result (.skipped depth related)

/-- A step keeps drafts apart no more than they are. -/
theorem step_related (location : String) (hidden : Draft.IsHidden holds) {left right : Place}
    (related : left.Related holds right) (event : Event) :
    Outcome.Related Eq (Progress.Related holds) (step location left event)
      (step location right event) := by
  cases related with
  | mapper related =>
      cases event with
      | start tag | empty tag =>
          exact (openChild_related hidden related tag _).map fun _ _ => .next
      | stop => exact .result (.finished related)
      | text content | data content => exact .result (.next (.mapper related))
      | fault => exact .fault rfl
  | content related target frames nodes =>
      exact (contentStep_related hidden related target frames nodes event).map fun _ _ => .next
  | choice related target frames choice =>
      exact (choiceStep_related related target frames choice event).map fun _ _ => .next
  | skipped depth after =>
      exact (skippedStep_related depth after event).map fun _ _ => .next

theorem endFault_eq {left right : Place} (related : left.Related holds right) :
    endFault location left = endFault location right := by
  cases related with
  | mapper | choice | skipped => rfl
  | content related target frames nodes => cases frames <;> rfl

/-- A run ends with related drafts, or with the same fault, if it starts with related ones. -/
theorem run_related (location : String) (hidden : Draft.IsHidden holds) {left right : Place}
    (related : left.Related holds right) (events : List Event) :
    Outcome.Related Eq holds (run location left events).1 (run location right events).1 := by
  induction events generalizing left right with
  | nil =>
      rw [run, run, endFault_eq related]
      exact .fault rfl
  | cons event events ih =>
      have steps := step_related location hidden related event
      rw [run, run]
      generalize step location left event = leftOutcome at steps
      generalize step location right event = rightOutcome at steps
      cases steps with
      | fault same => exact .fault same
      | result progress =>
          cases progress with
          | next related => exact ih related
          | finished related => exact .result related

end

end Reader

/-! ## Drafts without one body -/

/-- A draft without one of its statements. -/
structure OpenDraft where
  namespaceName : String
  before : List (StatementHead × List Node)
  after : List (StatementHead × List Node)
  fragments : List (String × List Node)

namespace OpenDraft

/-- The draft with a statement in its place. -/
def fill (around : OpenDraft) (head : StatementHead) (body : List Node) : Draft :=
  ⟨around.namespaceName, around.before ++ (head, body) :: around.after, around.fragments⟩

/-- Drafts that differ at most in the body of one statement. -/
def Alike (head : StatementHead) (leftBody rightBody : List Node) (left right : Draft) : Prop :=
  ∃ around : OpenDraft, left = around.fill head leftBody ∧ right = around.fill head rightBody

/-- The reader does not tell drafts apart that differ in a body. -/
theorem alike_isHidden (head : StatementHead) (leftBody rightBody : List Node) :
    Draft.IsHidden (Alike head leftBody rightBody) where
  namespaceName := by
    rintro _ _ ⟨around, rfl, rfl⟩
    rfl
  hasStatement := by
    rintro _ _ ⟨around, rfl, rfl⟩
    funext id
    simp only [Draft.hasStatement, fill, List.any_append, List.any_cons]
  hasFragment := by
    rintro _ _ ⟨around, rfl, rfl⟩
    rfl
  addStatement := by
    rintro _ _ ⟨around, rfl, rfl⟩ statement
    exact ⟨{ around with after := around.after ++ [statement] }, by simp [fill], by simp [fill]⟩
  addFragment := by
    rintro _ _ ⟨around, rfl, rfl⟩ fragment
    exact ⟨{ around with fragments := around.fragments ++ [fragment] }, rfl, rfl⟩

/-- The statement that a head and a body become, with the references of the body replaced. -/
def finished (around : OpenDraft) (location : String) (depth : Nat)
    (entry : StatementHead × List Node) : Except ConfigFault Statement := do
  let table : FragmentTable := ⟨location, around.namespaceName, around.fragments, depth⟩
  let body ← table.expand entry.2
  .ok (entry.1.statement around.namespaceName body)

/-- The statements in front of the open one and behind it. -/
def others (around : OpenDraft) (location : String) (depth : Nat) :
    Except ConfigFault (List Statement × List Statement) := do
  let before ← around.before.mapM (around.finished location depth)
  let after ← around.after.mapM (around.finished location depth)
  .ok (before, after)

/-- The mapper with a statement among the others. -/
def mapper (around : OpenDraft) (statement : Statement) (others : List Statement × List Statement) :
    Mapper :=
  ⟨around.namespaceName, others.1 ++ statement :: others.2, around.fragments⟩

/-- A body made of texts becomes their statement, which does not matter for the others. -/
theorem finish_fill (around : OpenDraft) (head : StatementHead) (texts : List TextNode)
    (location : String) (depth : Nat) :
    (around.fill head (texts.map Node.text)).finish location depth =
      (around.others location depth).map
        (around.mapper (head.statement around.namespaceName (texts.map Node.text))) := by
  have expanded (resolve : ReferenceTable) :
      expandAll resolve (texts.map Node.text) = .ok (texts.map Node.text) := by
    induction texts with
    | nil => rfl
    | cons text texts ih =>
        rw [List.map_cons, expandAll, ih]
        rfl
  have here : around.finished location depth (head, texts.map Node.text) =
      .ok (head.statement around.namespaceName (texts.map Node.text)) := by
    rw [finished, FragmentTable.expand, expanded]
    rfl
  have finishes (body : List Node) : (around.fill head body).finish location depth =
      ((around.before ++ (head, body) :: around.after).mapM (around.finished location depth) >>=
        fun statements => .ok ⟨around.namespaceName, statements, around.fragments⟩) := rfl
  rw [finishes, List.mapM_append, List.mapM_cons, here, others]
  cases around.before.mapM (around.finished location depth) with
  | error fault => rfl
  | ok before =>
      cases around.after.mapM (around.finished location depth) with
      | error fault => rfl
      | ok after => rfl

end OpenDraft

end SqlTemplate
