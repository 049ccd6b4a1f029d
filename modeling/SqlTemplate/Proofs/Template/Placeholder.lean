import SqlTemplate.Proofs.Template.ItemText

/-!
# Question marks of a text node

A text node that is made of a text without question marks has one for each value that it binds.
Splicing works on the text in which they already stand, and what stands between the braces of a
spliced marker goes with the marker.  A bound marker inside of a spliced one, as in
`${column,#{type}}`, loses its question mark that way and keeps its value.

So the question marks of a rendered text and those that its spliced markers swallow are together as
many as its values, and **the text is aligned exactly when no question mark is swallowed**
(`TextNode.render_marks`).  The text of `columnQuery` is not (`TextNode.columnQuery_unaligned`).
-/

namespace SqlTemplate

set_option autoImplicit false

open Outcome

namespace TextNode

/-- The characters that the markers of spliced values enclose in statement text. -/
def swallowed (text : TextNode) : List Char :=
  (Text.pieces .spliced text.sql.toList).flatMap Text.Piece.enclosed

/-! ## Markers of bound values -/

/-- Each marker of a bound value shows as one question mark. -/
theorem count_withPlaceholders {pieces : List Text.Piece} (free : .char placeholder ∉ pieces) :
    (withPlaceholders pieces).count placeholder = (boundNames pieces).length := by
  induction pieces with
  | nil => rfl
  | cons piece pieces ih =>
      rw [List.mem_cons, not_or] at free
      have later := ih free.2
      cases piece with
      | char c =>
          have other : c ≠ placeholder := fun same => free.1 (same ▸ rfl)
          simpa [withPlaceholders, boundNames, List.count_cons_of_ne other] using later
      | marker inside => simpa [withPlaceholders, boundNames] using later

section

variable {source : String} {text : TextNode}

/-- Statement text has as many question marks as the node has names of bound values. -/
theorem MadeOf.count_sql (unmarked : placeholder ∉ source.toList) (made : MadeOf source text) :
    text.sql.toList.count placeholder = text.parameters.length := by
  have counted := count_withPlaceholders (made.char_not_mem unmarked)
  rw [eq_of_ofRaw made.ofRaw, String.toList_ofList, List.length_map]
  exact counted

/-- Where nothing is spliced, nothing is swallowed. -/
theorem MadeOf.swallowed_eq_nil (made : MadeOf source text) (fixed : text.isSpliced = false) :
    text.swallowed = [] := by
  have unmarked := hasMarker_sql_of_ofRaw made.ofRaw fixed
  rw [← Bool.not_eq_true, Text.hasMarker_iff_occursIn] at unmarked
  rw [swallowed, List.flatMap_eq_nil_iff]
  intro piece listed
  cases piece with
  | char c => rfl
  | marker inside => exact absurd (Text.occursIn_of_marker_mem listed) unmarked

end

/-! ## Spliced values -/

/-- What is written for one piece has a question mark only if the piece is one. -/
theorem count_of_splicePiece {scope : Scope} {raw : String} {piece : Text.Piece}
    {part : List Char} (splices : splicePiece scope raw piece = .ok part) :
    part.count placeholder = [piece].count (.char placeholder) := by
  cases piece with
  | char c =>
      cases splices
      simp [List.count_cons]
  | marker inside =>
      obtain ⟨value, _, splices⟩ := bind_eq_ok_iff.mp splices
      obtain ⟨spelt, written, equal⟩ := bind_eq_ok_iff.mp splices
      cases equal
      have free := Value.not_mem_of_spliceText (mapError_eq_ok_iff.mp written)
      simp [List.count_eq_zero_of_not_mem free]

/-- Splicing adds no question marks. -/
theorem count_of_splicePieces {scope : Scope} {raw : String} {pieces : List Text.Piece}
    {parts : List (List Char)}
    (splices : List.Forall₂ (fun piece part => splicePiece scope raw piece = .ok part) pieces
      parts) : parts.flatten.count placeholder = pieces.count (.char placeholder) := by
  induction splices with
  | nil => rfl
  | @cons piece part pieces parts here _ ih =>
      have split : piece :: pieces = [piece] ++ pieces := rfl
      rw [List.flatten_cons, List.count_append, ih, count_of_splicePiece here, split,
        List.count_append]

/-- Splicing takes away the question marks that are swallowed, and no others. -/
theorem count_of_splice {scope : Scope} {text : TextNode} {sql : String}
    (splices : text.splice scope = .ok sql) :
    sql.toList.count placeholder + text.swallowed.count placeholder =
      text.sql.toList.count placeholder := by
  obtain ⟨parts, written, equal⟩ := bind_eq_ok_iff.mp splices
  cases equal
  have spliced := count_of_splicePieces (forall₂_of_mapM_eq_ok written)
  have told : text.sql.toList.count placeholder =
      (Text.pieces .spliced text.sql.toList).count (.char placeholder) +
        text.swallowed.count placeholder :=
    Text.count_pieces (by decide) (by decide) (by decide) text.sql.toList
  rw [String.toList_ofList, spliced, told]

/-! ## Rendered texts -/

/-- **A text node is aligned exactly when no question mark is swallowed.** In a fragment that is
rendered from a node without question marks of its own, the question marks and those that the
markers of spliced values swallow are together as many as the values. -/
theorem render_marks {source : String} (unmarked : placeholder ∉ source.toList) {text : TextNode}
    (made : MadeOf source text) {scope : Scope} {fragment : Fragment}
    (renders : text.render scope = .ok (some fragment)) :
    fragment.sql.toList.count placeholder + text.swallowed.count placeholder =
        fragment.args.length ∧
      (fragment.sql.toList.count placeholder = fragment.args.length ↔
        placeholder ∉ text.swallowed) := by
  obtain ⟨args, bound, renders⟩ := bind_eq_ok_iff.mp renders
  have values : args.length = text.parameters.length :=
    (forall₂_of_mapM_eq_ok bound).length_eq.symm
  have counted : ∀ sql : String, Fragment.nonempty? ⟨sql, args⟩ = some fragment →
      sql.toList.count placeholder + text.swallowed.count placeholder =
        text.sql.toList.count placeholder →
      fragment.sql.toList.count placeholder + text.swallowed.count placeholder =
        fragment.args.length := by
    intro sql keeps balance
    rw [Fragment.nonempty?] at keeps
    split at keeps
    · cases keeps
    · cases keeps
      rw [balance, made.count_sql unmarked, values]
  have total : fragment.sql.toList.count placeholder + text.swallowed.count placeholder =
      fragment.args.length := by
    split at renders
    · obtain ⟨sql, splices, equal⟩ := bind_eq_ok_iff.mp renders
      exact counted sql (Except.ok.inj equal) (count_of_splice splices)
    · rename_i fixed
      have nothing := made.swallowed_eq_nil (Bool.not_eq_true _ ▸ fixed)
      refine counted text.sql (Except.ok.inj renders) ?_
      rw [nothing, List.count_nil, Nat.add_zero]
  refine ⟨total, ?_⟩
  rw [← List.count_eq_zero]
  omega

/-- A query whose column is spliced in, with a bound marker between the braces. -/
def columnSource : String := "SELECT ${column,#{type}} FROM people WHERE id = #{id}"

/-- The text node of the query. -/
def columnQuery : TextNode :=
  ⟨columnSource, "SELECT ${column,?} FROM people WHERE id = ?", ["type", "id"], true⟩

/-- A column, its type and a row. -/
def columnParams : Params :=
  .named [("column", .text "name"), ("id", .ofNat 7), ("type", .text "text")]

theorem columnQuery_renders : ∃ fragment,
    columnQuery.render (.root columnParams) = .ok (some fragment) ∧
      fragment.sql = "SELECT name FROM people WHERE id = ?" ∧ fragment.args.length = 2 := by
  have rendered : (columnQuery.render (.root columnParams)).map
        (Option.map fun fragment => (fragment.sql, fragment.args.length)) =
      .ok (some ("SELECT name FROM people WHERE id = ?", 2)) := by decide +kernel
  obtain ⟨part, renders, equal⟩ := map_eq_ok_iff.mp rendered
  obtain ⟨fragment, rfl, pair⟩ := Option.map_eq_some_iff.mp equal
  exact ⟨fragment, renders, Prod.mk.inj pair⟩

theorem columnQuery_made : flowing columnSource = .ok columnQuery := by decide +kernel

theorem render_marks_columnQuery :
    placeholder ∉ columnSource.toList ∧ MadeOf columnSource columnQuery ∧
      ∃ fragment, columnQuery.render (.root columnParams) = .ok (some fragment) ∧
        fragment.sql.toList.count placeholder + columnQuery.swallowed.count placeholder =
            fragment.args.length ∧
          (fragment.sql.toList.count placeholder = fragment.args.length ↔
            placeholder ∉ columnQuery.swallowed) := by
  have unmarked : placeholder ∉ columnSource.toList := by decide +kernel
  have made : MadeOf columnSource columnQuery := .inl columnQuery_made
  obtain ⟨fragment, renders, _⟩ := columnQuery_renders
  exact ⟨unmarked, made, fragment, renders, render_marks unmarked made renders⟩

/-- **A bound marker between the braces of a spliced one shifts the values.** The row of the query
is bound to the type of the column. -/
theorem columnQuery_unaligned :
    placeholder ∉ columnSource.toList ∧ flowing columnSource = .ok columnQuery ∧
      ∃ fragment, columnQuery.render (.root columnParams) = .ok (some fragment) ∧
        fragment.sql = "SELECT name FROM people WHERE id = ?" ∧
          fragment.sql.toList.count placeholder ≠ fragment.args.length := by
  obtain ⟨fragment, renders, sql, values⟩ := columnQuery_renders
  refine ⟨by decide +kernel, columnQuery_made, fragment, renders, sql, ?_⟩
  rw [sql, values]
  decide +kernel

end TextNode

end SqlTemplate
