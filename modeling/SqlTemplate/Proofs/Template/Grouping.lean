import SqlTemplate.Proofs.Template.Joining

/-!
# Groups among nodes

What nodes contribute one after the other is joined (`Fragment.joined`): the texts that are not
empty with a space between every two, and all values in their order (`sql_joined`, `args_joined`).

A node that contributes what its body contributes as a whole may be replaced by the body
(`joinAll_cons_of_renderAll`).  A body without text contributes nothing, its values included.  So
the replacement is right only because a node never contributes values without text.  **Groups are
therefore of no account** (`renderAll_ungroups`): a sequence, or a condition whose test is blank,
changes neither the result nor the first fault.
-/

namespace SqlTemplate

set_option autoImplicit false

open Outcome

namespace Fragment

/-! ## Fragments joined one after the other -/

/-- Fragments joined from the left, beginning with nothing. -/
def joined (parts : List Fragment) : Fragment := parts.foldl (· ++ ·) empty

theorem foldl_append (first : Fragment) (parts : List Fragment) :
    parts.foldl (· ++ ·) first = first ++ joined parts := by
  induction parts generalizing first with
  | nil => exact (append_empty first).symm
  | cons part parts ih =>
      rw [joined, List.foldl_cons, List.foldl_cons, ih, ih, empty_append, append_assoc]

theorem joined_cons (part : Fragment) (parts : List Fragment) :
    joined (part :: parts) = part ++ joined parts := by
  rw [joined, List.foldl_cons, foldl_append, empty_append]

/-- The text of joined fragments: their texts that are not empty, with a space between every two. -/
theorem sql_joined (parts : List Fragment) :
    (joined parts).sql = " ".intercalate ((parts.map sql).filter (· ≠ "")) := by
  induction parts with
  | nil => rfl
  | cons part parts ih =>
      rw [joined_cons, sql_append, ih, List.map_cons]
      by_cases noText : part.sql = ""
      · rw [List.filter_cons_of_neg (by simp [noText]), noText, joinText_empty_left]
      · rw [List.filter_cons_of_pos (by simp [noText])]
        refine joinText_intercalate noText fun other listed => ?_
        simpa using (List.mem_filter.mp listed).2

/-- The values of joined fragments are those of all of them in their order. -/
theorem args_joined (parts : List Fragment) : (joined parts).args = parts.flatMap args := by
  induction parts with
  | nil => rfl
  | cons part parts ih => rw [joined_cons, args_append, ih, List.flatMap_cons]

end Fragment

/-! ## Nodes rendered one after the other -/

variable {scope : Scope}

/-- Nodes are rendered up to the first fault, and what they contribute is joined. -/
theorem joinAll_eq_mapM (scope : Scope) (nodes : List Node) :
    joinAll scope nodes =
      (nodes.mapM (Node.render scope)).map fun parts => Fragment.joined (parts.filterMap id) := by
  induction nodes with
  | nil => rfl
  | cons node nodes ih =>
      rw [joinAll, List.mapM_cons, ih]
      cases node.render scope with
      | error fault => rfl
      | ok part =>
          cases nodes.mapM (Node.render scope) with
          | error fault => rfl
          | ok parts =>
              cases part with
              | none => exact congrArg Except.ok (Fragment.empty_append _)
              | some fragment => exact congrArg Except.ok (Fragment.joined_cons ..).symm

/-! ## Groups -/

/-- A node that contributes what nodes contribute as a whole stands for them. -/
theorem joinAll_cons_of_renderAll {node : Node} {body : List Node}
    (renders : node.render scope = renderAll scope body) (behind : List Node) :
    joinAll scope (node :: behind) = joinAll scope (body ++ behind) := by
  -- What the body joins to has no values without text, so nothing is lost where it is empty.
  rw [joinAll, renders, joinAll_append, ← map_getD_renderAll scope body]
  cases renderAll scope body with
  | error fault => rfl
  | ok part =>
      cases joinAll scope behind with
      | error fault => rfl
      | ok more => rfl

/-- A group may be taken apart among other nodes. -/
theorem renderAll_of_group {node : Node} {body : List Node}
    (renders : node.render scope = renderAll scope body) (before behind : List Node) :
    renderAll scope (before ++ [node] ++ behind) = renderAll scope (before ++ body ++ behind) := by
  have same := joinAll_cons_of_renderAll renders behind
  rw [renderAll, renderAll, List.append_assoc, List.append_assoc, List.singleton_append,
    joinAll_append, joinAll_append scope before, same]

/-- A condition whose test is blank contributes what its body contributes. -/
theorem render_conditional_of_blank {test : String} (blank : Text.isAllBlank test = true)
    (body : List Node) : (Node.conditional test body).render scope = renderAll scope body := by
  rw [Node.render, if_pos blank]
  rfl

/-- **Groups are of no account.**  A sequence among nodes, or a condition whose test is blank, may
be replaced by its body: the result, its being nothing and the fault stay the same.  No node
contributes a fragment without text.  Joining fragments is associative with the fragment of nothing
as its neutral element; so nodes contribute the texts of their parts with single spaces between
them, and the values of all parts in their order. -/
theorem renderAll_ungroups (scope : Scope) :
    (∀ before body behind : List Node,
      renderAll scope (before ++ body ++ behind) =
        renderAll scope (before ++ [.sequence body] ++ behind)) ∧
    (∀ (test : String) (before body behind : List Node), Text.isAllBlank test = true →
      renderAll scope (before ++ body ++ behind) =
        renderAll scope (before ++ [.conditional test body] ++ behind)) ∧
    (∀ (node : Node) (fragment : Fragment),
      node.render scope = .ok (some fragment) → fragment.sql ≠ "") ∧
    (∀ first second third : Fragment, first ++ second ++ third = first ++ (second ++ third)) ∧
    (∀ fragment : Fragment,
      Fragment.empty ++ fragment = fragment ∧ fragment ++ Fragment.empty = fragment) ∧
    (∀ parts : List Fragment,
      (parts.foldl (· ++ ·) Fragment.empty).sql =
          " ".intercalate ((parts.map Fragment.sql).filter (· ≠ "")) ∧
        (parts.foldl (· ++ ·) Fragment.empty).args = parts.flatMap Fragment.args) ∧
    ∀ nodes : List Node, renderAll scope nodes =
      (nodes.mapM (Node.render scope)).map fun parts =>
        ((parts.filterMap id).foldl (· ++ ·) Fragment.empty).nonempty? := by
  refine ⟨fun before body behind => ?_, fun test before body behind blank => ?_,
    fun node => node.render_hasText scope, Fragment.append_assoc,
    fun fragment => ⟨fragment.empty_append, fragment.append_empty⟩,
    fun parts => ⟨Fragment.sql_joined parts, Fragment.args_joined parts⟩, fun nodes => ?_⟩
  · have renders : (Node.sequence body).render scope = renderAll scope body := by
      rw [Node.render, renderAll]
    exact (renderAll_of_group renders before behind).symm
  · exact (renderAll_of_group (render_conditional_of_blank blank body) before behind).symm
  · rw [renderAll, joinAll_eq_mapM]
    cases nodes.mapM (Node.render scope) with
    | error fault => rfl
    | ok parts => rfl

end SqlTemplate
