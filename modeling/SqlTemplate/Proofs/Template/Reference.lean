import SqlTemplate.Proofs.Template.Joining
import SqlTemplate.Template.Include

/-!
# References met while rendering

A template with references can also be rendered as it stands: where a reference is met, the nodes
of the fragment it means are rendered in the scope of that place, and what they contribute together
is one part.  `Node.renderWith` renders in this way, given what a reference contributes, and
`FragmentTable.meaning` says what it contributes in a mapper.

Expansion puts the nodes of a fragment among the nodes around the reference instead.  The result of
rendering is the same, fault or fragment, whatever the parameters are (`generate_of_expand`).  The
reason is that joining does not depend on grouping, and that a group without text has no values
either.

Rendering in place needs a bound on the depth of fragments inside fragments, because fragments may
refer to each other in a circle.  The bound does not matter once it reaches the depth with which
the body was expanded.
-/

namespace SqlTemplate

set_option autoImplicit false

open Outcome

/-! ## Rendering with references in place -/

/-- What a reference contributes in the scope of the place where it is met. -/
abbrev ReferenceMeaning := Scope → String → Except (Stop RenderError) (Option Fragment)

mutual
/-- Renders a node whose references are left in place. -/
def Node.renderWith (meaning : ReferenceMeaning) (scope : Scope) :
    Node → Except (Stop RenderError) (Option Fragment)
  | .text content => reported (content.render scope)
  | .conditional test body => do
      let holds ← if Text.isAllBlank test then .ok true else scope.holds test
      if holds then (joinAllWith meaning scope body).map Fragment.nonempty? else .ok none
  | .choice branches otherwise => do
      match ← renderBranchWith meaning scope branches with
      | some part => .ok part
      | none => renderOtherwiseWith meaning scope otherwise
  | .foreach loop body => do
      let entries ← reported (loop.entries scope)
      let render := fun scope => (joinAllWith meaning scope body).map Fragment.nonempty?
      let parts ← loop.parts render scope.nested entries
      .ok (loop.assemble parts).nonempty?
  | .trim trimming body => do
      let fragment ← joinAllWith meaning scope body
      .ok (fragment.nonempty?.bind (Fragment.clause? (Clause.trimmed? trimming)))
  | .whereClause body => do
      let fragment ← joinAllWith meaning scope body
      .ok (fragment.nonempty?.bind (Fragment.clause? Clause.where?))
  | .setClause body => do
      let fragment ← joinAllWith meaning scope body
      .ok (fragment.nonempty?.bind (Fragment.clause? Clause.set?))
  | .reference name => meaning scope name
  | .sequence body => (joinAllWith meaning scope body).map Fragment.nonempty?

/-- Renders nodes whose references are left in place, and joins what they contribute. -/
def joinAllWith (meaning : ReferenceMeaning) (scope : Scope) :
    List Node → Except (Stop RenderError) Fragment
  | [] => .ok .empty
  | node :: nodes => do
      let part ← node.renderWith meaning scope
      let more ← joinAllWith meaning scope nodes
      .ok (part.getD .empty ++ more)

/-- Renders the first branch whose test holds, with references left in place. -/
def renderBranchWith (meaning : ReferenceMeaning) (scope : Scope) :
    List (String × List Node) → Except (Stop RenderError) (Option (Option Fragment))
  | [] => .ok none
  | (test, body) :: branches => do
      let holds ← scope.holds test
      if holds then
        (joinAllWith meaning scope body).map fun fragment => some fragment.nonempty?
      else renderBranchWith meaning scope branches

/-- Renders the parts for the case that no test holds, with references left in place. -/
def renderOtherwiseWith (meaning : ReferenceMeaning) (scope : Scope) :
    Option (List Node) → Except (Stop RenderError) (Option Fragment)
  | none => .ok none
  | some body => (joinAllWith meaning scope body).map Fragment.nonempty?
end

namespace FragmentTable

/-- What a reference contributes in a mapper, when fragments may be nested this deep: what the
nodes of the fragment it means contribute together. -/
def meaning (table : FragmentTable) : Nat → ReferenceMeaning
  | 0, _, reference =>
      match table.get? reference with
      | none => .error (.fault (.config (table.unknown reference)))
      | some _ => .error (.fault (.config (table.tooDeep reference)))
  | remaining + 1, scope, reference =>
      match table.get? reference with
      | none => .error (.fault (.config (table.unknown reference)))
      | some nodes =>
          (joinAllWith (table.meaning remaining) scope nodes).map Fragment.nonempty?

/-- The fragment of a whole body whose references are left in place. -/
def generate (table : FragmentTable) (limit : Nat) (params : Params) (body : List Node) :
    Except (Stop RenderError) Fragment := do
  let part ← (Node.sequence body).renderWith (table.meaning limit) (.root params)
  .ok (part.getD .empty)

end FragmentTable

/-! ## Expansion -/

/-- Whether the nodes that a reference stands for contribute in every scope what it means there. -/
def Agrees (resolve : ReferenceTable) (meaning : ReferenceMeaning) : Prop :=
  ∀ name nodes, resolve name = .ok nodes → ∀ scope, renderAll scope nodes = meaning scope name

section Expansion

variable {resolve : ReferenceTable} {meaning : ReferenceMeaning}

mutual
/-- The nodes that a node becomes contribute together what the node contributes. -/
theorem renderAll_of_expand (agrees : Agrees resolve meaning) :
    ∀ (node : Node) (nodes : List Node), node.expand resolve = .ok nodes →
      ∀ scope, renderAll scope nodes = node.renderWith meaning scope
  | .text content, _, expands, scope => by
      cases expands
      rw [renderAll_singleton, Node.render, Node.renderWith]
  | .conditional test body, _, expands, scope => by
      obtain ⟨expanded, bodyExpands, expands⟩ := bind_eq_ok_iff.mp expands
      cases expands
      rw [renderAll_singleton, Node.render, Node.renderWith,
        joinAll_of_expandAll agrees body expanded bodyExpands scope]
  | .choice branches otherwise, _, expands, scope => by
      obtain ⟨branches', branchesExpand, expands⟩ := bind_eq_ok_iff.mp expands
      obtain ⟨otherwise', otherwiseExpands, expands⟩ := bind_eq_ok_iff.mp expands
      cases expands
      rw [renderAll_singleton, Node.render,
        renderBranch_of_expandBranches agrees branches branches' branchesExpand scope,
        renderOtherwise_of_expandOtherwise agrees otherwise otherwise' otherwiseExpands scope]
      rfl
  | .foreach loop body, _, expands, scope => by
      obtain ⟨expanded, bodyExpands, expands⟩ := bind_eq_ok_iff.mp expands
      cases expands
      -- The body is rendered in the scopes of the entries: the hypothesis is used in all of them.
      have parts := fun scope =>
        joinAll_of_expandAll agrees body expanded bodyExpands scope
      simp only [renderAll_singleton, Node.render, Node.renderWith, parts]
  | .trim trimming body, _, expands, scope => by
      obtain ⟨expanded, bodyExpands, expands⟩ := bind_eq_ok_iff.mp expands
      cases expands
      rw [renderAll_singleton, Node.render, Node.renderWith,
        joinAll_of_expandAll agrees body expanded bodyExpands scope]
  | .whereClause body, _, expands, scope => by
      obtain ⟨expanded, bodyExpands, expands⟩ := bind_eq_ok_iff.mp expands
      cases expands
      rw [renderAll_singleton, Node.render, Node.renderWith,
        joinAll_of_expandAll agrees body expanded bodyExpands scope]
  | .setClause body, _, expands, scope => by
      obtain ⟨expanded, bodyExpands, expands⟩ := bind_eq_ok_iff.mp expands
      cases expands
      rw [renderAll_singleton, Node.render, Node.renderWith,
        joinAll_of_expandAll agrees body expanded bodyExpands scope]
  | .reference name, nodes, expands, scope => agrees name nodes expands scope
  | .sequence body, _, expands, scope => by
      obtain ⟨expanded, bodyExpands, expands⟩ := bind_eq_ok_iff.mp expands
      cases expands
      rw [renderAll_singleton, Node.render, Node.renderWith,
        joinAll_of_expandAll agrees body expanded bodyExpands scope]

theorem joinAll_of_expandAll (agrees : Agrees resolve meaning) :
    ∀ (nodes expanded : List Node), expandAll resolve nodes = .ok expanded →
      ∀ scope, joinAll scope expanded = joinAllWith meaning scope nodes
  | [], _, expands, scope => by
      cases expands
      rfl
  | node :: nodes, _, expands, scope => by
      obtain ⟨first, nodeExpands, expands⟩ := bind_eq_ok_iff.mp expands
      obtain ⟨more, nodesExpand, expands⟩ := bind_eq_ok_iff.mp expands
      cases expands
      rw [joinAll_append, joinAllWith, ← map_getD_renderAll,
        renderAll_of_expand agrees node first nodeExpands scope,
        joinAll_of_expandAll agrees nodes more nodesExpand scope]
      cases node.renderWith meaning scope with
      | error fault => rfl
      | ok part =>
          cases joinAllWith meaning scope nodes with
          | error fault => rfl
          | ok rest => rfl

theorem renderBranch_of_expandBranches (agrees : Agrees resolve meaning) :
    ∀ (branches expanded : List (String × List Node)),
      expandBranches resolve branches = .ok expanded →
        ∀ scope, renderBranch scope expanded = renderBranchWith meaning scope branches
  | [], _, expands, scope => by
      cases expands
      rfl
  | (test, body) :: branches, _, expands, scope => by
      obtain ⟨expanded, bodyExpands, expands⟩ := bind_eq_ok_iff.mp expands
      obtain ⟨more, branchesExpand, expands⟩ := bind_eq_ok_iff.mp expands
      cases expands
      rw [renderBranch, renderBranchWith,
        joinAll_of_expandAll agrees body expanded bodyExpands scope,
        renderBranch_of_expandBranches agrees branches more branchesExpand scope]

theorem renderOtherwise_of_expandOtherwise (agrees : Agrees resolve meaning) :
    ∀ (otherwise expanded : Option (List Node)),
      expandOtherwise resolve otherwise = .ok expanded →
        ∀ scope, renderOtherwise scope expanded = renderOtherwiseWith meaning scope otherwise
  | none, _, expands, scope => by
      cases expands
      rfl
  | some body, _, expands, scope => by
      obtain ⟨expanded, bodyExpands, expands⟩ := bind_eq_ok_iff.mp expands
      cases expands
      rw [renderOtherwise, renderOtherwiseWith,
        joinAll_of_expandAll agrees body expanded bodyExpands scope]
end

end Expansion

namespace FragmentTable

/-- A reference that can be expanded means what its nodes contribute, to every depth from the one
of its expansion on. -/
theorem agrees (table : FragmentTable) (depth : Nat) :
    ∀ limit, depth ≤ limit → Agrees (table.resolve depth) (table.meaning limit) := by
  induction depth with
  | zero =>
      intro limit _ name nodes expands
      rw [resolve] at expands
      split at expands <;> cases expands
  | succ depth ih =>
      intro limit deep name nodes expands scope
      obtain ⟨limit, rfl⟩ : ∃ less, limit = less + 1 := ⟨limit - 1, by omega⟩
      rw [resolve] at expands
      rw [meaning]
      cases found : table.get? name with
      | none =>
          rw [found] at expands
          cases expands
      | some body =>
          rw [found] at expands
          have deep : depth ≤ limit := Nat.le_of_succ_le_succ deep
          exact congrArg (Except.map Fragment.nonempty?)
            (joinAll_of_expandAll (ih limit deep) body nodes expands scope)

/-- **Expansion keeps the meaning.** If the references of a body can be replaced, the expanded body
renders to the same fragment as the body with its references in place, or both stop for the same
reason. -/
theorem generate_of_expand (table : FragmentTable) (body expanded : List Node)
    (expands : table.expand body = .ok expanded) (limit : Nat) (deep : table.depth ≤ limit)
    (params : Params) :
    (Node.sequence expanded).generate params = table.generate limit params body := by
  have agrees := table.agrees table.depth limit deep
  rw [Node.generate, generate, Node.render, Node.renderWith,
    joinAll_of_expandAll agrees body expanded expands]

/-- A mapper in which a fragment refers to another one by its full name. -/
def rowTable : FragmentTable where
  location := "orders.xml"
  namespaceName := "orders"
  fragments :=
    [("cell", [.text ⟨"#{item}", "?", ["item"], false⟩]),
      ("row", [.text ⟨"(", "(", [], false⟩, .reference "orders.cell",
        .text ⟨")", ")", [], false⟩])]
  depth := 2

/-- A loop over all parameters with the reference to a fragment inside. -/
def rowLoop : Loop := ⟨"list", some "item", none, "", ",", ""⟩

theorem generate_of_expand_rows :
    rowTable.expand [.text ⟨"VALUES", "VALUES", [], false⟩, .foreach rowLoop [.reference "row"]] =
        .ok [.text ⟨"VALUES", "VALUES", [], false⟩,
          .foreach rowLoop [.text ⟨"(", "(", [], false⟩,
            .text ⟨"#{item}", "?", ["item"], false⟩, .text ⟨")", ")", [], false⟩]] ∧
      rowTable.depth ≤ 2 ∧
      (Node.sequence [.text ⟨"VALUES", "VALUES", [], false⟩,
          .foreach rowLoop [.text ⟨"(", "(", [], false⟩,
            .text ⟨"#{item}", "?", ["item"], false⟩, .text ⟨")", ")", [], false⟩]]).generate
          (.positional [.ofNat 1, .ofNat 2]) =
        rowTable.generate 2 (.positional [.ofNat 1, .ofNat 2])
          [.text ⟨"VALUES", "VALUES", [], false⟩, .foreach rowLoop [.reference "row"]] :=
  ⟨rfl, Nat.le_refl 2, rowTable.generate_of_expand _ _ rfl 2 (Nat.le_refl 2) _⟩

end FragmentTable

end SqlTemplate
