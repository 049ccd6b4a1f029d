import SqlTemplate.Proofs.Template.Joining

/-!
# Kinds of clauses

A general clause, a `WHERE` clause and a `SET` clause are rendered alike: what the parts contribute
together is joined, and the text of it is made a clause (`ClauseKind.render_node`).  The values stay,
and a clause that is made has text (`ClauseKind.clause?_make`).
-/

namespace SqlTemplate

set_option autoImplicit false

open Outcome

/-- The kinds of clauses. -/
inductive ClauseKind where
  | general (trimming : Trimming)
  | condition
  | assignment

namespace ClauseKind

/-- The node of a clause with its parts. -/
def node : ClauseKind → List Node → Node
  | general trimming, body => .trim trimming body
  | condition, body => .whereClause body
  | assignment, body => .setClause body

/-- The clause that is made of a text, if anything is left of it. -/
def make? : ClauseKind → List Char → Option (List Char)
  | general trimming => Clause.trimmed? trimming
  | condition => Clause.where?
  | assignment => Clause.set?

/-- A clause is made of what its parts contribute together. -/
theorem render_node (kind : ClauseKind) (scope : Scope) (body : List Node) :
    (kind.node body).render scope =
      (renderAll scope body).map fun part => part.bind (Fragment.clause? kind.make?) := by
  rw [renderAll]
  cases kind with
  | general trimming =>
      rw [node, Node.render]
      cases joinAll scope body <;> rfl
  | condition =>
      rw [node, Node.render]
      cases joinAll scope body <;> rfl
  | assignment =>
      rw [node, Node.render]
      cases joinAll scope body <;> rfl

/-! ## Texts of clauses -/

/-- A text that is kept is not empty. -/
theorem nonempty?_eq_some_iff {chars kept : List Char} :
    Clause.nonempty? chars = some kept ↔ kept = chars ∧ chars ≠ [] := by
  rw [Clause.nonempty?]
  split
  · rename_i none
    simp [List.isEmpty_iff.mp none]
  · rename_i some
    simp [eq_comm, mt List.isEmpty_iff.mpr some]

/-- Words around a text that is not empty leave it so. -/
theorem introduce_ne_nil (word : String) {chars : List Char} (some : chars ≠ []) :
    Clause.introduce word chars ≠ [] := by
  rw [Clause.introduce]
  split
  · exact some
  · simp

theorem conclude_ne_nil (word : String) {chars : List Char} (some : chars ≠ []) :
    Clause.conclude word chars ≠ [] := by
  rw [Clause.conclude]
  split
  · exact some
  · simp

/-- A clause that is made has text. -/
theorem make?_ne_nil {kind : ClauseKind} {chars text : List Char}
    (makes : kind.make? chars = some text) : text ≠ [] := by
  cases kind with
  | general trimming =>
      obtain ⟨kept, keeps, rfl⟩ := Option.map_eq_some_iff.mp makes
      obtain ⟨rfl, some⟩ := nonempty?_eq_some_iff.mp keeps
      exact conclude_ne_nil _ (introduce_ne_nil _ some)
  | condition =>
      obtain ⟨kept, keeps, rfl⟩ := Option.map_eq_some_iff.mp makes
      obtain ⟨rfl, some⟩ := nonempty?_eq_some_iff.mp keeps
      split
      · exact some
      · simp
  | assignment =>
      obtain ⟨kept, keeps, rfl⟩ := Option.map_eq_some_iff.mp makes
      simp

/-- The clause of a fragment has the values of the fragment. -/
theorem clause?_make (kind : ClauseKind) (fragment : Fragment) :
    fragment.clause? kind.make? =
      (kind.make? fragment.sql.toList).map fun text => ⟨.ofList text, fragment.args⟩ := by
  rw [Fragment.clause?]
  cases makes : kind.make? fragment.sql.toList with
  | none => rfl
  | some text =>
      apply Fragment.nonempty?_of_ne
      rw [Ne, String.ofList_eq_empty_iff]
      exact make?_ne_nil makes

/-- A clause is there where its parts contribute a fragment and something is left of its text. -/
theorem render_node_eq_some_iff {kind : ClauseKind} {scope : Scope} {body : List Node}
    {clause : Fragment} :
    (kind.node body).render scope = .ok (some clause) ↔
      ∃ whole text, renderAll scope body = .ok (some whole) ∧
        kind.make? whole.sql.toList = some text ∧ clause = ⟨.ofList text, whole.args⟩ := by
  rw [render_node, map_eq_ok_iff]
  constructor
  · rintro ⟨part, renders, made⟩
    obtain ⟨whole, rfl, makes⟩ := Option.bind_eq_some_iff.mp made
    rw [clause?_make] at makes
    obtain ⟨text, makesText, rfl⟩ := Option.map_eq_some_iff.mp makes
    exact ⟨whole, text, renders, makesText, rfl⟩
  · rintro ⟨whole, text, renders, makes, rfl⟩
    refine ⟨some whole, renders, ?_⟩
    rw [Option.bind_some, clause?_make, makes]
    rfl

/-- Two kinds make the same clause of a fragment exactly when they make the same of its text. -/
theorem clause?_make_eq_iff {left right : ClauseKind} {fragment : Fragment} :
    fragment.clause? left.make? = fragment.clause? right.make? ↔
      left.make? fragment.sql.toList = right.make? fragment.sql.toList := by
  constructor
  · intro same
    rw [clause?_make, clause?_make] at same
    refine Option.map_injective ?_ same
    intro first second equal
    exact String.ofList_injective (Fragment.mk.inj equal).1
  · intro same
    rw [clause?_make, clause?_make, same]

/-- Two kinds of clauses with the same parts give the same exactly when they make the same of the
fragment that the parts contribute, if they contribute one. -/
theorem render_node_eq_iff {left right : ClauseKind} {scope : Scope} {body : List Node} :
    (left.node body).render scope = (right.node body).render scope ↔
      ∀ fragment, renderAll scope body = .ok (some fragment) →
        left.make? fragment.sql.toList = right.make? fragment.sql.toList := by
  rw [render_node, render_node]
  cases renderAll scope body with
  | error fault => simp [Except.map]
  | ok part =>
      cases part with
      | none => simp [Except.map]
      | some fragment => simp [Except.map, clause?_make_eq_iff]

end ClauseKind

end SqlTemplate
