import SqlTemplate.Proofs.Outcome
import SqlTemplate.Template.Render

/-!
# Joining what nodes contribute

Fragments form a monoid under joining: the space between two texts is written only where both of
them have characters, so the fragment of nothing changes nothing and grouping does not matter
(`Fragment.append_assoc`).

A node contributes a fragment with text or nothing at all (`Node.render_hasText`).  So what several
nodes give together has values only where it has text (`joinAll_isCarried`), the nodes of a list
may be rendered in two runs whose fragments are joined afterwards (`joinAll_append`), and a group
of nodes gives what the nodes give one by one (`map_getD_renderAll`).
-/

namespace SqlTemplate

set_option autoImplicit false

open Outcome

namespace Fragment

/-! ## The monoid of fragments -/

theorem joinText_empty_right (left : String) : joinText left "" = left := rfl

theorem joinText_empty_left (right : String) : joinText "" right = right := by
  by_cases none : right = ""
  · subst none
    rfl
  · simp [joinText, String.isEmpty_iff, none]

/-- Joining two texts that have characters puts a space between them. -/
theorem joinText_of_ne {left right : String} (leftHas : left ≠ "") (rightHas : right ≠ "") :
    joinText left right = left ++ " " ++ right := by
  simp [joinText, String.isEmpty_iff, leftHas, rightHas]

theorem joinText_eq_empty_iff {left right : String} :
    joinText left right = "" ↔ left = "" ∧ right = "" := by
  by_cases leftNone : left = ""
  · subst leftNone
    simp [joinText_empty_left]
  · by_cases rightNone : right = ""
    · subst rightNone
      simp [joinText_empty_right, leftNone]
    · simp [joinText_of_ne leftNone rightNone, leftNone]

theorem joinText_assoc (first second third : String) :
    joinText (joinText first second) third = joinText first (joinText second third) := by
  by_cases firstNone : first = ""
  · subst firstNone
    rw [joinText_empty_left, joinText_empty_left]
  by_cases secondNone : second = ""
  · subst secondNone
    rw [joinText_empty_right, joinText_empty_left]
  by_cases thirdNone : third = ""
  · subst thirdNone
    rw [joinText_empty_right, joinText_empty_right]
  have firstTwo : joinText first second ≠ "" := fun none =>
    firstNone (joinText_eq_empty_iff.mp none).1
  have lastTwo : joinText second third ≠ "" := fun none =>
    secondNone (joinText_eq_empty_iff.mp none).1
  rw [joinText_of_ne firstTwo thirdNone, joinText_of_ne firstNone lastTwo,
    joinText_of_ne firstNone secondNone, joinText_of_ne secondNone thirdNone]
  simp only [String.append_assoc]

/-- A text in front of others is joined to them with a space. -/
theorem joinText_intercalate {sql : String} {others : List String} (hasText : sql ≠ "")
    (othersHave : ∀ other ∈ others, other ≠ "") :
    joinText sql (" ".intercalate others) = " ".intercalate (sql :: others) := by
  cases others with
  | nil => exact String.intercalate_singleton.symm
  | cons other others =>
      have otherHas : other ≠ "" := othersHave other (List.mem_cons_self ..)
      have rest : " ".intercalate (other :: others) ≠ "" := by
        cases others with
        | nil => rwa [String.intercalate_singleton]
        | cons next others =>
            intro none
            rw [String.intercalate_cons_cons, String.append_eq_empty_iff,
              String.append_eq_empty_iff] at none
            exact otherHas none.1.1
      rw [joinText_of_ne hasText rest, String.intercalate_cons_cons]

@[simp] theorem sql_append (left right : Fragment) :
    (left ++ right).sql = joinText left.sql right.sql := rfl

@[simp] theorem args_append (left right : Fragment) :
    (left ++ right).args = left.args ++ right.args := rfl

@[simp] theorem append_empty (fragment : Fragment) : fragment ++ empty = fragment := by
  cases fragment
  exact congrArg (Fragment.mk _) (List.append_nil _)

@[simp] theorem empty_append (fragment : Fragment) : empty ++ fragment = fragment := by
  cases fragment with
  | mk sql args => exact congrArg (Fragment.mk · args) (joinText_empty_left sql)

theorem append_assoc (first second third : Fragment) :
    first ++ second ++ third = first ++ (second ++ third) := by
  show Fragment.mk _ _ = Fragment.mk _ _
  rw [sql_append, sql_append, joinText_assoc, args_append, args_append, List.append_assoc]

/-! ## Fragments without text -/

theorem isEmpty_iff {fragment : Fragment} : fragment.isEmpty = true ↔ fragment.sql = "" :=
  String.isEmpty_iff

theorem nonempty?_of_ne {fragment : Fragment} (hasText : fragment.sql ≠ "") :
    fragment.nonempty? = some fragment := by
  simp [nonempty?, isEmpty_iff, hasText]

theorem nonempty?_of_empty {fragment : Fragment} (noText : fragment.sql = "") :
    fragment.nonempty? = none := by
  simp [nonempty?, isEmpty_iff, noText]

theorem sql_ne_of_nonempty? {fragment kept : Fragment} (keeps : fragment.nonempty? = some kept) :
    kept.sql ≠ "" := by
  by_cases noText : fragment.sql = ""
  · rw [nonempty?_of_empty noText] at keeps
    cases keeps
  · rw [nonempty?_of_ne noText] at keeps
    cases keeps
    exact noText

/-- A fragment whose values all come with text: where there is no text there are no values. -/
def IsCarried (fragment : Fragment) : Prop := fragment.sql = "" → fragment.args = []

theorem isCarried_empty : empty.IsCarried := fun _ => rfl

theorem IsCarried.of_ne {fragment : Fragment} (hasText : fragment.sql ≠ "") :
    fragment.IsCarried := fun noText => absurd noText hasText

theorem IsCarried.append {left right : Fragment} (leftCarried : left.IsCarried)
    (rightCarried : right.IsCarried) : (left ++ right).IsCarried := by
  intro noText
  obtain ⟨leftNone, rightNone⟩ := joinText_eq_empty_iff.mp noText
  rw [args_append, leftCarried leftNone, rightCarried rightNone, List.append_nil]

/-- Leaving out a fragment without text loses nothing when its values come with text. -/
theorem IsCarried.getD_nonempty? {fragment : Fragment} (carried : fragment.IsCarried) :
    fragment.nonempty?.getD empty = fragment := by
  by_cases noText : fragment.sql = ""
  · rw [nonempty?_of_empty noText]
    cases fragment with
    | mk sql args =>
        have noValues : args = [] := carried noText
        subst noText noValues
        rfl
  · rw [nonempty?_of_ne noText]
    rfl

end Fragment

/-! ## Nodes contribute text or nothing -/

section

variable {ε α : Type}

/-- An outcome whose fragment, if it has one, has text. -/
def HasText (outcome : Except ε (Option Fragment)) : Prop :=
  ∀ fragment, outcome = .ok (some fragment) → fragment.sql ≠ ""

namespace HasText

theorem error (fault : ε) : HasText (.error fault) := by
  intro fragment equal
  cases equal

theorem nothing : HasText (.ok none : Except ε (Option Fragment)) := by
  intro fragment equal
  cases equal

theorem reported {outcome : Except ε (Option Fragment)} (hasText : HasText outcome) :
    HasText (reported outcome) :=
  fun fragment equal => hasText fragment (reported_eq_ok_iff.mp equal)

theorem nonempty? (outcome : Except ε Fragment) :
    HasText (outcome.map Fragment.nonempty?) := by
  intro fragment equal
  obtain ⟨whole, _, keeps⟩ := map_eq_ok_iff.mp equal
  exact Fragment.sql_ne_of_nonempty? keeps

/-- A step in front of an outcome does not take its text away. -/
theorem bind {first : Except ε α} {next : α → Except ε (Option Fragment)}
    (each : ∀ result, HasText (next result)) : HasText (first >>= next) := by
  intro fragment equal
  obtain ⟨result, _, equal⟩ := bind_eq_ok_iff.mp equal
  exact each result fragment equal

/-- A clause is made only of a text that is not empty. -/
theorem clause (make : List Char → Option (List Char)) (outcome : Except ε Fragment) :
    HasText (do
      let fragment ← outcome
      .ok (fragment.nonempty?.bind (Fragment.clause? make))) := by
  refine .bind fun whole fragment equal => ?_
  obtain ⟨_, _, makes⟩ := Option.bind_eq_some_iff.mp (Except.ok.inj equal)
  obtain ⟨_, _, keeps⟩ := Option.bind_eq_some_iff.mp makes
  exact Fragment.sql_ne_of_nonempty? keeps

end HasText

end

theorem TextNode.render_hasText (scope : Scope) (text : TextNode) :
    HasText (text.render scope) := by
  refine .bind fun args => ?_
  split
  · exact .bind fun sql => .nonempty? (.ok _)
  · exact .nonempty? (.ok _)

theorem renderOtherwise_hasText (scope : Scope) (otherwise : Option (List Node)) :
    HasText (renderOtherwise scope otherwise) := by
  cases otherwise with
  | none => exact .nothing
  | some body => exact .nonempty? _

/-- The branch that is taken contributes a fragment with text, if it contributes one. -/
theorem renderBranch_sql_ne {scope : Scope} {branches : List (String × List Node)}
    {fragment : Fragment} (renders : renderBranch scope branches = .ok (some (some fragment))) :
    fragment.sql ≠ "" := by
  induction branches with
  | nil => cases renders
  | cons branch branches ih =>
      obtain ⟨test, body⟩ := branch
      obtain ⟨holds, _, renders⟩ := bind_eq_ok_iff.mp renders
      cases holds with
      | false => exact ih renders
      | true =>
          obtain ⟨whole, _, keeps⟩ := map_eq_ok_iff.mp renders
          exact Fragment.sql_ne_of_nonempty? (Option.some.inj keeps)

/-- What a node contributes has text. -/
theorem Node.render_hasText (scope : Scope) (node : Node) : HasText (node.render scope) := by
  cases node with
  | text content => exact (content.render_hasText scope).reported
  | conditional test body =>
      rw [Node.render]
      split
      · exact .nonempty? _
      · refine .bind fun holds => ?_
        cases holds with
        | true => exact .nonempty? _
        | false => exact .nothing
  | choice branches otherwise =>
      intro fragment equal
      obtain ⟨part, chosen, equal⟩ := bind_eq_ok_iff.mp equal
      cases part with
      | none => exact renderOtherwise_hasText scope otherwise fragment equal
      | some part =>
          cases equal
          exact renderBranch_sql_ne chosen
  | foreach loop body => exact .bind fun _ => .bind fun _ => .nonempty? (.ok _)
  | trim trimming body => exact .clause _ _
  | whereClause body => exact .clause _ _
  | setClause body => exact .clause _ _
  | reference name => exact .error _
  | sequence body => exact .nonempty? _

/-! ## Lists of nodes -/

/-- What nodes give together has values only where it has text. -/
theorem joinAll_isCarried {scope : Scope} {nodes : List Node} {fragment : Fragment}
    (joins : joinAll scope nodes = .ok fragment) : fragment.IsCarried := by
  induction nodes generalizing fragment with
  | nil =>
      cases joins
      exact Fragment.isCarried_empty
  | cons node nodes ih =>
      obtain ⟨part, first, joins⟩ := bind_eq_ok_iff.mp joins
      obtain ⟨more, rest, joins⟩ := bind_eq_ok_iff.mp joins
      cases joins
      refine Fragment.IsCarried.append ?_ (ih rest)
      cases part with
      | none => exact Fragment.isCarried_empty
      | some fragment => exact .of_ne (Node.render_hasText scope node fragment first)

/-- Nodes may be rendered in two runs. -/
theorem joinAll_append (scope : Scope) (front back : List Node) :
    joinAll scope (front ++ back) =
      joinAll scope front >>= fun first => (joinAll scope back).map (first ++ ·) := by
  induction front with
  | nil =>
      cases rest : joinAll scope back with
      | error fault => simp [joinAll, rest, bind, Except.bind, Except.map]
      | ok second => simp [joinAll, rest, bind, Except.bind, Except.map]
  | cons node front ih =>
      rw [List.cons_append, joinAll, joinAll, ih]
      cases node.render scope with
      | error fault => rfl
      | ok part =>
          cases joinAll scope front with
          | error fault => rfl
          | ok first =>
              cases joinAll scope back with
              | error fault => rfl
              | ok second => exact congrArg Except.ok (Fragment.append_assoc _ _ _).symm

/-! ## Groups of nodes -/

/-- A node alone contributes what it contributes in a list of one. -/
theorem renderAll_singleton (scope : Scope) (node : Node) :
    renderAll scope [node] = node.render scope := by
  have hasText := node.render_hasText scope
  rw [renderAll, joinAll, joinAll]
  cases rendered : node.render scope with
  | error fault => rfl
  | ok part =>
      cases part with
      | none => rfl
      | some fragment =>
          show Except.ok (Fragment.nonempty? (fragment ++ Fragment.empty)) = _
          rw [Fragment.append_empty, Fragment.nonempty?_of_ne (hasText fragment rendered)]

/-- Nodes give as a group what they give one by one. -/
theorem map_getD_renderAll (scope : Scope) (nodes : List Node) :
    (renderAll scope nodes).map (·.getD .empty) = joinAll scope nodes := by
  rw [renderAll]
  cases joins : joinAll scope nodes with
  | error fault => rfl
  | ok fragment => exact congrArg Except.ok (joinAll_isCarried joins).getD_nonempty?

/-- A whole body gives what its nodes give one by one. -/
theorem generate_sequence (params : Params) (body : List Node) :
    (Node.sequence body).generate params = joinAll (.root params) body := by
  rw [← map_getD_renderAll, Node.generate, Node.render, renderAll]
  cases joinAll (.root params) body with
  | error fault => rfl
  | ok fragment => rfl

end SqlTemplate
