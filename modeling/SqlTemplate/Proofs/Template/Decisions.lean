import Mathlib.Data.List.Forall2
import SqlTemplate.Proofs.Template.Composition

/-!
# What parameter values decide

Where nothing is spliced in, the text of a rendered statement depends on the parameters only
through the decisions that are taken on the way: whether each test holds, and how many entries each
loop has.  `Node.record` renders a node and writes these decisions down in the order in which they
are taken; its outcome is that of rendering (`Node.outcome_record`).

**Equal decisions give equal text**: two successful runs of one template that take the same
decisions give the same text with the same number of values, whatever the values are
(`Node.generate_sql_eq_of_decisions`).

The reason is carried through the template by `Recorded.Agree`: as long as the decisions that are
still to come agree, two runs of a part use up equally many of them and contribute fragments of one
shape.  What a clause cuts off, and whether a part is left out, depends on text alone.
-/

namespace SqlTemplate

set_option autoImplicit false

open Outcome

/-! ## Runs with their decisions -/

/-- What values decide: whether a test holds, and how many entries a loop has. -/
inductive Decision where
  | test (holds : Bool)
  | entries (count : Nat)
  deriving Repr, DecidableEq

/-- The outcome of a run, with the decisions taken on the way. -/
structure Recorded (α : Type) where
  decisions : List Decision
  outcome : Except (Stop RenderError) α

namespace Recorded

variable {α β γ δ : Type}

/-- An outcome for which nothing is decided. -/
def ofExcept (outcome : Except (Stop RenderError) α) : Recorded α := ⟨[], outcome⟩

/-- An outcome whose result, if there is one, is a decision. -/
def decided (decision : α → Decision) : Except (Stop RenderError) α → Recorded α
  | .ok result => ⟨[decision result], .ok result⟩
  | .error stop => ⟨[], .error stop⟩

/-- Goes on with a result; after a fault or an abort nothing more is decided. -/
def andThen (first : Recorded α) (next : α → Recorded β) : Recorded β :=
  match first.outcome with
  | .ok result => ⟨first.decisions ++ (next result).decisions, (next result).outcome⟩
  | .error stop => ⟨first.decisions, .error stop⟩

instance : Monad Recorded where
  pure result := ⟨[], .ok result⟩
  bind := andThen

@[simp] theorem outcome_pure (result : α) : (pure result : Recorded α).outcome = .ok result := rfl

@[simp] theorem outcome_decided (decision : α → Decision) (outcome : Except (Stop RenderError) α) :
    (decided decision outcome).outcome = outcome := by
  cases outcome with
  | error fault => rfl
  | ok result => rfl

@[simp] theorem outcome_bind (first : Recorded α) (next : α → Recorded β) :
    (first >>= next).outcome = first.outcome >>= fun result => (next result).outcome := by
  obtain ⟨decisions, outcome⟩ := first
  cases outcome with
  | error fault => rfl
  | ok result => rfl

/-- A run that goes on takes the decisions of both parts. -/
theorem decisions_bind_of_ok {first : Recorded α} {result : α}
    (succeeds : first.outcome = .ok result) (next : α → Recorded β) :
    (first >>= next).decisions = first.decisions ++ (next result).decisions := by
  obtain ⟨decisions, outcome⟩ := first
  cases succeeds
  rfl

end Recorded

/-- Decides whether a test holds. -/
def Scope.recordTest (scope : Scope) (test : String) : Recorded Bool :=
  .decided .test (scope.holds test)

/-- Decides how many entries a loop has. -/
def Loop.recordEntries (scope : Scope) (loop : Loop) : Recorded (List (Value × Value)) :=
  .decided (fun entries => .entries entries.length) (reported (loop.entries scope))

/-- Renders the entries of a loop one after the other, with their decisions. -/
def Loop.recordParts (loop : Loop) (record : Scope → Recorded (Option Fragment)) :
    Scope → List (Value × Value) → Recorded (List Fragment)
  | _, [] => pure []
  | scope, (index, item) :: entries => do
      let scope := loop.bind scope index item
      let part ← record scope
      let more ← recordParts loop record scope entries
      pure (part.toList ++ more)

mutual
/-- Renders a node and records its decisions. -/
def Node.record (scope : Scope) : Node → Recorded (Option Fragment)
  | .text content => .ofExcept (reported (content.render scope))
  | .conditional test body => do
      let holds ← if Text.isAllBlank test then pure true else scope.recordTest test
      if holds then do
        let fragment ← recordAll scope body
        pure fragment.nonempty?
      else pure none
  | .choice branches otherwise => do
      match ← recordBranch scope branches with
      | some part => pure part
      | none => recordOtherwise scope otherwise
  | .foreach loop body => do
      let entries ← loop.recordEntries scope
      let record := fun scope => do
        let fragment ← recordAll scope body
        pure fragment.nonempty?
      let parts ← loop.recordParts record scope.nested entries
      pure (loop.assemble parts).nonempty?
  | .trim trimming body => do
      let fragment ← recordAll scope body
      pure (fragment.nonempty?.bind (Fragment.clause? (Clause.trimmed? trimming)))
  | .whereClause body => do
      let fragment ← recordAll scope body
      pure (fragment.nonempty?.bind (Fragment.clause? Clause.where?))
  | .setClause body => do
      let fragment ← recordAll scope body
      pure (fragment.nonempty?.bind (Fragment.clause? Clause.set?))
  | .reference name => .ofExcept (.error (.fault (.config (.notExpanded name))))
  | .sequence body => do
      let fragment ← recordAll scope body
      pure fragment.nonempty?

/-- Renders nodes one after the other and records their decisions. -/
def recordAll (scope : Scope) : List Node → Recorded Fragment
  | [] => pure .empty
  | node :: nodes => do
      let part ← node.record scope
      let more ← recordAll scope nodes
      pure (part.getD .empty ++ more)

/-- Renders the first branch whose test holds, with the decisions up to it. -/
def recordBranch (scope : Scope) :
    List (String × List Node) → Recorded (Option (Option Fragment))
  | [] => pure none
  | (test, body) :: branches => do
      let holds ← scope.recordTest test
      if holds then do
        let fragment ← recordAll scope body
        pure (some fragment.nonempty?)
      else recordBranch scope branches

/-- Renders the parts for the case that no test holds, with their decisions. -/
def recordOtherwise (scope : Scope) : Option (List Node) → Recorded (Option Fragment)
  | none => pure none
  | some body => do
      let fragment ← recordAll scope body
      pure fragment.nonempty?
end

/-- The fragment of a whole template, with the decisions of its rendering. -/
def Node.recordGenerate (params : Params) (node : Node) : Recorded Fragment := do
  let part ← node.record (.root params)
  pure (part.getD .empty)

/-- The decisions that parameters take in a template, in their order. -/
def Node.decisions (params : Params) (node : Node) : List Decision :=
  (node.recordGenerate params).decisions

/-! ## Recording changes no outcome -/

theorem Loop.outcome_recordParts (loop : Loop) {record : Scope → Recorded (Option Fragment)}
    {render : Scope → Except (Stop RenderError) (Option Fragment)}
    (same : ∀ scope, (record scope).outcome = render scope) (scope : Scope)
    (entries : List (Value × Value)) :
    (loop.recordParts record scope entries).outcome = loop.parts render scope entries := by
  induction entries generalizing scope with
  | nil => rfl
  | cons entry entries ih =>
      obtain ⟨index, item⟩ := entry
      simp only [recordParts, parts, Recorded.outcome_bind, Recorded.outcome_pure, same, ih]

mutual
/-- The outcome of a recorded run is that of rendering. -/
theorem Node.outcome_record : ∀ (node : Node) (scope : Scope),
    (node.record scope).outcome = node.render scope
  | .text content, scope => rfl
  | .conditional test body, scope => by
      have either (holds : Bool) :
          (if holds then recordAll scope body >>= fun fragment => pure fragment.nonempty?
            else pure none : Recorded (Option Fragment)).outcome =
          if holds then (joinAll scope body).map Fragment.nonempty? else .ok none := by
        cases holds with
        | false => rfl
        | true => simp [outcome_recordAll body scope, bind_ok_eq_map]
      rw [Node.record, Node.render]
      split
      · exact either true
      · simp only [Recorded.outcome_bind, Scope.recordTest, Recorded.outcome_decided, either]
  | .choice branches otherwise, scope => by
      rw [Node.record, Node.render, Recorded.outcome_bind, outcome_recordBranch branches scope]
      congr 1
      funext part
      cases part with
      | none => exact outcome_recordOtherwise otherwise scope
      | some part => rfl
  | .foreach loop body, scope => by
      have body (scope : Scope) :
          (recordAll scope body >>= fun fragment => pure fragment.nonempty? :
            Recorded (Option Fragment)).outcome = (joinAll scope body).map Fragment.nonempty? := by
        simp [outcome_recordAll body scope, bind_ok_eq_map]
      have parts (entries : List (Value × Value)) :=
        loop.outcome_recordParts body scope.nested entries
      simp only [Node.record, Node.render, Recorded.outcome_bind, Loop.recordEntries,
        Recorded.outcome_decided, Recorded.outcome_pure, parts]
  | .trim trimming body, scope => by
      simp only [Node.record, Node.render, Recorded.outcome_bind, Recorded.outcome_pure,
        outcome_recordAll body scope]
  | .whereClause body, scope => by
      simp only [Node.record, Node.render, Recorded.outcome_bind, Recorded.outcome_pure,
        outcome_recordAll body scope]
  | .setClause body, scope => by
      simp only [Node.record, Node.render, Recorded.outcome_bind, Recorded.outcome_pure,
        outcome_recordAll body scope]
  | .reference name, scope => rfl
  | .sequence body, scope => by
      simp only [Node.record, Node.render, Recorded.outcome_bind, Recorded.outcome_pure,
        outcome_recordAll body scope, bind_ok_eq_map]

theorem outcome_recordAll : ∀ (nodes : List Node) (scope : Scope),
    (recordAll scope nodes).outcome = joinAll scope nodes
  | [], scope => rfl
  | node :: nodes, scope => by
      simp only [recordAll, joinAll, Recorded.outcome_bind, Recorded.outcome_pure,
        node.outcome_record scope, outcome_recordAll nodes scope]

theorem outcome_recordBranch : ∀ (branches : List (String × List Node)) (scope : Scope),
    (recordBranch scope branches).outcome = renderBranch scope branches
  | [], scope => rfl
  | (test, body) :: branches, scope => by
      rw [recordBranch, renderBranch, Recorded.outcome_bind, Scope.recordTest,
        Recorded.outcome_decided]
      congr 1
      funext holds
      cases holds with
      | false => exact outcome_recordBranch branches scope
      | true => simp [outcome_recordAll body scope, bind_ok_eq_map]

theorem outcome_recordOtherwise : ∀ (otherwise : Option (List Node)) (scope : Scope),
    (recordOtherwise scope otherwise).outcome = renderOtherwise scope otherwise
  | none, scope => rfl
  | some body, scope => by
      simp only [recordOtherwise, renderOtherwise, Recorded.outcome_bind, Recorded.outcome_pure,
        outcome_recordAll body scope, bind_ok_eq_map]
end

/-- The outcome of a recorded run of a whole template is that of rendering it. -/
theorem Node.outcome_recordGenerate (params : Params) (node : Node) :
    (node.recordGenerate params).outcome = node.generate params := by
  simp only [recordGenerate, generate, Recorded.outcome_bind, Recorded.outcome_pure,
    node.outcome_record]

/-! ## Fragments of one shape -/

/-- Two fragments with the same text and equally many values. -/
structure Fragment.SameShape (left right : Fragment) : Prop where
  sql_eq : left.sql = right.sql
  length_eq : left.args.length = right.args.length

/-- Two contributions of one shape, or none on both sides. -/
abbrev Fragment.SamePart : Option Fragment → Option Fragment → Prop :=
  Option.Rel Fragment.SameShape

namespace Fragment

variable {left right leftMore rightMore : Fragment}

theorem sameShape_refl (fragment : Fragment) : SameShape fragment fragment := ⟨rfl, rfl⟩

theorem SameShape.append (first : SameShape left right) (others : SameShape leftMore rightMore) :
    SameShape (left ++ leftMore) (right ++ rightMore) where
  sql_eq := by rw [sql_append, sql_append, first.sql_eq, others.sql_eq]
  length_eq := by
    rw [args_append, args_append, List.length_append, List.length_append, first.length_eq,
      others.length_eq]

/-- Whether a fragment is left out depends on its text. -/
theorem SameShape.nonempty? (shape : SameShape left right) :
    SamePart left.nonempty? right.nonempty? := by
  by_cases noText : left.sql = ""
  · rw [nonempty?_of_empty noText, nonempty?_of_empty (shape.sql_eq ▸ noText)]
    exact .none
  · rw [nonempty?_of_ne noText, nonempty?_of_ne (shape.sql_eq ▸ noText)]
    exact .some shape

/-- What a clause makes of a fragment depends on its text. -/
theorem SameShape.clause? (make : List Char → Option (List Char)) (shape : SameShape left right) :
    SamePart (left.clause? make) (right.clause? make) := by
  rw [Fragment.clause?, Fragment.clause?, shape.sql_eq]
  cases make right.sql.toList with
  | none => exact .none
  | some sql => exact SameShape.nonempty? ⟨rfl, shape.length_eq⟩

theorem SamePart.getD {leftPart rightPart : Option Fragment} (same : SamePart leftPart rightPart) :
    SameShape (leftPart.getD .empty) (rightPart.getD .empty) := by
  cases same with
  | none => exact sameShape_refl .empty
  | some shape => exact shape

theorem SamePart.bind_clause? {leftPart rightPart : Option Fragment}
    (make : List Char → Option (List Char)) (same : SamePart leftPart rightPart) :
    SamePart (leftPart.bind (Fragment.clause? make)) (rightPart.bind (Fragment.clause? make)) := by
  cases same with
  | none => exact .none
  | some shape => exact shape.clause? make

theorem SamePart.toList {leftPart rightPart : Option Fragment}
    (same : SamePart leftPart rightPart) :
    List.Forall₂ SameShape leftPart.toList rightPart.toList := by
  cases same with
  | none => exact .nil
  | some shape => exact .cons shape .nil

/-- Parts of one shape each have the same texts and equally many values together. -/
theorem texts_and_values_of_forall₂ {lefts rights : List Fragment}
    (same : List.Forall₂ SameShape lefts rights) :
    lefts.map Fragment.sql = rights.map Fragment.sql ∧
      (lefts.flatMap Fragment.args).length = (rights.flatMap Fragment.args).length := by
  induction same with
  | nil => exact ⟨rfl, rfl⟩
  | cons shape _ ih =>
      constructor
      · rw [List.map_cons, List.map_cons, shape.sql_eq, ih.1]
      · rw [List.flatMap_cons, List.flatMap_cons, List.length_append, List.length_append,
          shape.length_eq, ih.2]

end Fragment

/-- A loop puts the same texts around and between parts of one shape each. -/
theorem Loop.assemble_sameShape (loop : Loop) {lefts rights : List Fragment}
    (same : List.Forall₂ Fragment.SameShape lefts rights) :
    (loop.assemble lefts).SameShape (loop.assemble rights) := by
  obtain ⟨texts, values⟩ := Fragment.texts_and_values_of_forall₂ same
  refine ⟨?_, values⟩
  rw [assemble, assemble, texts]

/-! ## Two runs that take the same decisions -/

namespace Recorded

variable {α β γ δ : Type}

/-- Two runs that agree as long as their decisions do: if both succeed, and their decisions with
those that come later are the same, then the results are related and the same decisions come
later. -/
def Agree (holds : α → β → Prop) (left : Recorded α) (right : Recorded β) : Prop :=
  ∀ leftResult rightResult leftLater rightLater,
    left.outcome = .ok leftResult → right.outcome = .ok rightResult →
      left.decisions ++ leftLater = right.decisions ++ rightLater →
        holds leftResult rightResult ∧ leftLater = rightLater

namespace Agree

variable {holds : α → β → Prop} {after : γ → δ → Prop}

/-- Runs that decide nothing agree if their results are related. -/
theorem ofExcept {left : Except (Stop RenderError) α} {right : Except (Stop RenderError) β}
    (related : ∀ leftResult rightResult, left = .ok leftResult → right = .ok rightResult →
      holds leftResult rightResult) :
    Agree holds (.ofExcept left) (.ofExcept right) := by
  intro leftResult rightResult leftLater rightLater leftOk rightOk same
  exact ⟨related leftResult rightResult leftOk rightOk, same⟩

theorem pure {left : α} {right : β} (related : holds left right) :
    Agree holds (pure left) (pure right) := by
  intro leftResult rightResult leftLater rightLater leftOk rightOk same
  cases leftOk
  cases rightOk
  exact ⟨related, same⟩

/-- What is decided agrees. -/
theorem decided {decision : α → Decision} {left right : Except (Stop RenderError) α} :
    Agree (fun left right => decision left = decision right) (.decided decision left)
      (.decided decision right) := by
  intro leftResult rightResult leftLater rightLater leftOk rightOk same
  rw [outcome_decided] at leftOk rightOk
  subst leftOk rightOk
  exact List.cons_eq_cons.mp same

/-- Runs that agree and go on with runs that agree. -/
theorem bind {left : Recorded α} {right : Recorded β} {leftNext : α → Recorded γ}
    {rightNext : β → Recorded δ} (first : Agree holds left right)
    (next : ∀ leftResult rightResult, holds leftResult rightResult →
      Agree after (leftNext leftResult) (rightNext rightResult)) :
    Agree after (left >>= leftNext) (right >>= rightNext) := by
  intro leftResult rightResult leftLater rightLater leftOk rightOk same
  rw [outcome_bind] at leftOk rightOk
  obtain ⟨leftMiddle, leftFirst, leftOk⟩ := bind_eq_ok_iff.mp leftOk
  obtain ⟨rightMiddle, rightFirst, rightOk⟩ := bind_eq_ok_iff.mp rightOk
  rw [decisions_bind_of_ok leftFirst, decisions_bind_of_ok rightFirst, List.append_assoc,
    List.append_assoc] at same
  obtain ⟨related, same⟩ := first _ _ _ _ leftFirst rightFirst same
  exact next _ _ related _ _ _ _ leftOk rightOk same

/-- Runs that agree and rewrite their results alike. -/
theorem bind_pure {left : Recorded α} {right : Recorded β} {leftRewrite : α → γ}
    {rightRewrite : β → δ} (first : Agree holds left right)
    (rewrites : ∀ leftResult rightResult, holds leftResult rightResult →
      after (leftRewrite leftResult) (rightRewrite rightResult)) :
    Agree after (left >>= fun result => Pure.pure (leftRewrite result))
      (right >>= fun result => Pure.pure (rightRewrite result)) :=
  first.bind fun leftResult rightResult related => .pure (rewrites leftResult rightResult related)

end Agree

end Recorded

open Recorded (Agree)

/-- The same test holds in both runs or in none. -/
theorem Scope.recordTest_agree (left right : Scope) (test : String) :
    Agree Eq (left.recordTest test) (right.recordTest test) := by
  intro leftHolds rightHolds leftLater rightLater leftOk rightOk same
  obtain ⟨decision, same⟩ := Agree.decided _ _ _ _ leftOk rightOk same
  exact ⟨Decision.test.inj decision, same⟩

/-- A loop has equally many entries in both runs. -/
theorem Loop.recordEntries_agree (loop : Loop) (left right : Scope) :
    Agree (fun leftEntries rightEntries => leftEntries.length = rightEntries.length)
      (loop.recordEntries left) (loop.recordEntries right) := by
  intro leftEntries rightEntries leftLater rightLater leftOk rightOk same
  obtain ⟨decision, same⟩ := Agree.decided _ _ _ _ leftOk rightOk same
  exact ⟨Decision.entries.inj decision, same⟩

/-- Runs of a loop over equally many entries give parts of one shape each. -/
theorem Loop.recordParts_agree (loop : Loop) {record : Scope → Recorded (Option Fragment)}
    (body : ∀ left right, Agree Fragment.SamePart (record left) (record right))
    (left right : Scope) {leftEntries rightEntries : List (Value × Value)}
    (equally : leftEntries.length = rightEntries.length) :
    Agree (List.Forall₂ Fragment.SameShape) (loop.recordParts record left leftEntries)
      (loop.recordParts record right rightEntries) := by
  induction leftEntries generalizing rightEntries left right with
  | nil =>
      obtain rfl := List.length_eq_zero_iff.mp equally.symm
      exact .pure .nil
  | cons leftEntry leftEntries ih =>
      cases rightEntries with
      | nil => cases equally
      | cons rightEntry rightEntries =>
          obtain ⟨leftIndex, leftItem⟩ := leftEntry
          obtain ⟨rightIndex, rightItem⟩ := rightEntry
          refine (body _ _).bind fun leftPart rightPart part => ?_
          refine (ih _ _ (Nat.succ.inj equally)).bind_pure fun leftMore rightMore more => ?_
          exact List.rel_append part.toList more

/-! ## Templates into which nothing is spliced -/

/-- A node that is no text into which values are spliced. -/
def Node.IsUnspliced : Node → Prop
  | .text content => content.isSpliced = false
  | _ => True

/-- A text into which nothing is spliced gives its own text and a value for each of its names. -/
theorem TextNode.render_sameShape {text : TextNode} (unspliced : text.isSpliced = false)
    {scope : Scope} {part : Option Fragment} (renders : text.render scope = .ok part) :
    ∃ args, args.length = text.parameters.length ∧
      part = Fragment.nonempty? ⟨text.sql, args⟩ := by
  obtain ⟨args, resolved, renders⟩ := bind_eq_ok_iff.mp renders
  rw [unspliced] at renders
  cases renders
  exact ⟨args, (forall₂_of_mapM_eq_ok resolved).length_eq.symm, rfl⟩

mutual
/-- Two runs of a node into which nothing is spliced agree on its contribution. -/
theorem Node.record_agree : ∀ (node : Node), node.Everywhere Node.IsUnspliced →
    ∀ left right, Agree Fragment.SamePart (node.record left) (node.record right)
  | .text content, unspliced, left, right => by
      refine .ofExcept fun leftPart rightPart leftRenders rightRenders => ?_
      obtain ⟨leftArgs, leftLength, rfl⟩ :=
        TextNode.render_sameShape unspliced (reported_eq_ok_iff.mp leftRenders)
      obtain ⟨rightArgs, rightLength, rfl⟩ :=
        TextNode.render_sameShape unspliced (reported_eq_ok_iff.mp rightRenders)
      exact Fragment.SameShape.nonempty? ⟨rfl, leftLength.trans rightLength.symm⟩
  | .conditional test body, unspliced, left, right => by
      have either (holds : Bool) : Agree Fragment.SamePart
          (if holds then recordAll left body >>= fun fragment => pure fragment.nonempty?
            else pure none : Recorded (Option Fragment))
          (if holds then recordAll right body >>= fun fragment => pure fragment.nonempty?
            else pure none) := by
        cases holds with
        | true => exact (recordAll_agree body unspliced.2 left right).bind_pure fun _ _ shape =>
            shape.nonempty?
        | false => exact .pure .none
      rw [Node.record, Node.record]
      split
      · exact either true
      · refine (Scope.recordTest_agree left right test).bind fun leftHolds rightHolds same => ?_
        subst same
        exact either leftHolds
  | .choice branches otherwise, unspliced, left, right => by
      refine (recordBranch_agree branches unspliced.2.1 left right).bind
        fun leftPart rightPart same => ?_
      cases same with
      | none => exact recordOtherwise_agree otherwise unspliced.2.2 left right
      | some part => exact .pure part
  | .foreach loop body, unspliced, left, right => by
      refine (loop.recordEntries_agree left right).bind fun leftEntries rightEntries same => ?_
      refine (loop.recordParts_agree (fun left right => ?_) _ _ same).bind_pure
        fun leftParts rightParts parts => (loop.assemble_sameShape parts).nonempty?
      exact (recordAll_agree body unspliced.2 left right).bind_pure fun _ _ shape =>
        shape.nonempty?
  | .trim trimming body, unspliced, left, right =>
      (recordAll_agree body unspliced.2 left right).bind_pure fun _ _ shape =>
        shape.nonempty?.bind_clause? _
  | .whereClause body, unspliced, left, right =>
      (recordAll_agree body unspliced.2 left right).bind_pure fun _ _ shape =>
        shape.nonempty?.bind_clause? _
  | .setClause body, unspliced, left, right =>
      (recordAll_agree body unspliced.2 left right).bind_pure fun _ _ shape =>
        shape.nonempty?.bind_clause? _
  | .reference name, _, _, _ => by
      refine .ofExcept fun _ _ leftRenders _ => ?_
      cases leftRenders
  | .sequence body, unspliced, left, right =>
      (recordAll_agree body unspliced.2 left right).bind_pure fun _ _ shape => shape.nonempty?

theorem recordAll_agree : ∀ (nodes : List Node), everywhere Node.IsUnspliced nodes →
    ∀ left right, Agree Fragment.SameShape (recordAll left nodes) (recordAll right nodes)
  | [], _, _, _ => .pure (Fragment.sameShape_refl .empty)
  | node :: nodes, unspliced, left, right =>
      (node.record_agree unspliced.1 left right).bind fun _ _ part =>
        (recordAll_agree nodes unspliced.2 left right).bind_pure fun _ _ more =>
          part.getD.append more

theorem recordBranch_agree : ∀ (branches : List (String × List Node)),
    everywhereInBranches Node.IsUnspliced branches →
      ∀ left right, Agree (Option.Rel Fragment.SamePart) (recordBranch left branches)
        (recordBranch right branches)
  | [], _, _, _ => .pure .none
  | (test, body) :: branches, unspliced, left, right => by
      refine (Scope.recordTest_agree left right test).bind fun leftHolds rightHolds same => ?_
      subst same
      cases leftHolds with
      | true =>
          exact (recordAll_agree body unspliced.1 left right).bind_pure fun _ _ shape =>
            .some shape.nonempty?
      | false => exact recordBranch_agree branches unspliced.2 left right

theorem recordOtherwise_agree : ∀ (otherwise : Option (List Node)),
    everywhereInOtherwise Node.IsUnspliced otherwise →
      ∀ left right, Agree Fragment.SamePart (recordOtherwise left otherwise)
        (recordOtherwise right otherwise)
  | none, _, _, _ => .pure .none
  | some body, unspliced, left, right =>
      (recordAll_agree body unspliced left right).bind_pure fun _ _ shape => shape.nonempty?
end

namespace Node

/-- **Equal decisions give equal text.** The recorded runs of a template have the outcomes of
rendering it; and if nothing is spliced into its texts, two runs that succeed and take the same
decisions give the same text, character for character, with the same number of values. -/
theorem generate_sql_eq_of_decisions (node : Node) (unspliced : node.Everywhere IsUnspliced) :
    (∀ params, (node.recordGenerate params).outcome = node.generate params) ∧
      ∀ left right leftFragment rightFragment,
        node.generate left = .ok leftFragment → node.generate right = .ok rightFragment →
          node.decisions left = node.decisions right →
            leftFragment.sql = rightFragment.sql ∧
              leftFragment.args.length = rightFragment.args.length := by
  refine ⟨fun params => outcome_recordGenerate params node, ?_⟩
  intro left right leftFragment rightFragment leftRenders rightRenders same
  have agree : Agree Fragment.SameShape (node.recordGenerate left) (node.recordGenerate right) :=
    (node.record_agree unspliced (.root left) (.root right)).bind_pure fun _ _ part => part.getD
  rw [← outcome_recordGenerate] at leftRenders rightRenders
  have sameWithNothing : (node.recordGenerate left).decisions ++ [] =
      (node.recordGenerate right).decisions ++ [] := by
    rw [List.append_nil, List.append_nil]
    exact same
  obtain ⟨shape, _⟩ := agree _ _ _ _ leftRenders rightRenders sameWithNothing
  exact ⟨shape.sql_eq, shape.length_eq⟩

/-- A search whose conditions are left out with their values, with a loop over rows. -/
def userSearch : Node :=
  .sequence [.text ⟨"SELECT * FROM users", "SELECT * FROM users", [], false⟩,
    .whereClause [
      .conditional "name != nil" [.text ⟨"AND name = #{name}", "AND name = ?", ["name"], false⟩],
      .conditional "age != nil" [.text ⟨"AND age = #{age}", "AND age = ?", ["age"], false⟩],
      .text ⟨"AND id IN", "AND id IN", [], false⟩,
      .foreach ⟨"ids", some "id", none, "(", ", ", ")"⟩ [.text ⟨"#{id}", "?", ["id"], false⟩]]]

/-- A search for a name in two rows. -/
def plainSearch : Params :=
  .named [("name", .text "amy"), ("ids", .array [.ofNat 3, .ofNat 5])]

/-- A search for values that look like statement text. -/
def hostileSearch : Params :=
  .named [("name", .text "' OR 1 = 1 --"), ("ids", .array [.text "0); DROP TABLE users", .null])]

theorem generate_sql_eq_of_decisions_userSearch :
    userSearch.Everywhere IsUnspliced ∧
      (∀ params, (userSearch.recordGenerate params).outcome = userSearch.generate params) ∧
        ∃ leftFragment rightFragment, userSearch.generate plainSearch = .ok leftFragment ∧
          userSearch.generate hostileSearch = .ok rightFragment ∧
            userSearch.decisions plainSearch = userSearch.decisions hostileSearch ∧
              leftFragment.sql = rightFragment.sql ∧
                leftFragment.args.length = rightFragment.args.length := by
  have unspliced : userSearch.Everywhere IsUnspliced :=
    ⟨trivial, rfl, ⟨trivial, ⟨trivial, rfl, trivial⟩, ⟨trivial, rfl, trivial⟩, rfl,
      ⟨trivial, rfl, trivial⟩, trivial⟩, trivial⟩
  have plain : (userSearch.generate plainSearch).map Fragment.sql =
      .ok "SELECT * FROM users WHERE name = ? AND id IN (?, ?)" := by decide +kernel
  have hostile : (userSearch.generate hostileSearch).map Fragment.sql =
      .ok "SELECT * FROM users WHERE name = ? AND id IN (?, ?)" := by decide +kernel
  have same : userSearch.decisions plainSearch = userSearch.decisions hostileSearch := by
    decide +kernel
  obtain ⟨leftFragment, leftRenders, _⟩ := map_eq_ok_iff.mp plain
  obtain ⟨rightFragment, rightRenders, _⟩ := map_eq_ok_iff.mp hostile
  obtain ⟨records, determined⟩ := userSearch.generate_sql_eq_of_decisions unspliced
  exact ⟨unspliced, records, leftFragment, rightFragment, leftRenders, rightRenders, same,
    determined _ _ _ _ leftRenders rightRenders same⟩

end Node

end SqlTemplate
