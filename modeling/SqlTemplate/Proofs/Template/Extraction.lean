import SqlTemplate.Proofs.Template.TextNode
import SqlTemplate.Proofs.Text.Division

/-!
# Extraction of bound names

A text is divided at its bound markers.  What is extracted from it is said here by the division
(`TextNode.Extracts`): one question mark in the place of each marker, everything between as it is,
and the names of the markers from left to right; or the fault of the text, if one of its markers
has no name.

A question mark neither opens a marker nor ends one, so the characters that come together around it
make no new marker.  Hence nothing is left to extract, and a marker of spliced text that shows in
the statement text was in the text before (`TextNode.extract_iff`).
-/

namespace SqlTemplate

set_option autoImplicit false

open Outcome

namespace Text

/-- What a span names: the text in front of the first comma or colon, without the blanks at its
ends. -/
def Span.Names (span : Span) (name : List Char) : Prop :=
  ∃ front behind, span.inside = front ++ behind ∧ ',' ∉ front ∧ ':' ∉ front ∧
    (∀ c after, behind = c :: after → c = ',' ∨ c = ':') ∧ name = trim front

/-- A span names what a reader takes for its name. -/
theorem Span.names_iff {span : Span} {name : List Char} :
    span.Names name ↔ name = markedName span.inside := by
  have goesOn_iff (c : Char) : (c != ',' && c != ':') = true ↔ c ≠ ',' ∧ c ≠ ':' := by
    rw [Bool.and_eq_true, bne_iff_ne, bne_iff_ne]
  have stops_iff (c : Char) : (c != ',' && c != ':') = false ↔ c = ',' ∨ c = ':' := by
    rw [← Bool.not_eq_true, goesOn_iff, ← not_or, not_not]
  rw [markedName]
  generalize reader : (fun c => c != ',' && c != ':') = goesOn at *
  have goesOn_iff (c : Char) : goesOn c = true ↔ c ≠ ',' ∧ c ≠ ':' := reader ▸ goesOn_iff c
  have stops_iff (c : Char) : goesOn c = false ↔ c = ',' ∨ c = ':' := reader ▸ stops_iff c
  constructor
  · rintro ⟨front, behind, inside, noComma, noColon, ends, rfl⟩
    have stops : StopsAt goesOn behind :=
      fun c after equal => (stops_iff c).mpr (ends c after equal)
    rw [inside, stops.takeWhile_append]
    exact fun c listed => (goesOn_iff c).mpr
      ⟨ne_of_mem_of_not_mem listed noComma, ne_of_mem_of_not_mem listed noColon⟩
  · rintro rfl
    have inFront (c : Char) (listed : c ∈ span.inside.takeWhile goesOn) : c ≠ ',' ∧ c ≠ ':' :=
      (goesOn_iff c).mp (List.mem_takeWhile_imp listed)
    exact ⟨_, _, List.takeWhile_append_dropWhile.symm, fun comma => (inFront _ comma).1 rfl,
      fun colon => (inFront _ colon).2 rfl,
      fun c after equal => (stops_iff c).mp (stopsAt_dropWhile goesOn _ c after equal), rfl⟩

/-- The text outside of the spans of a division. -/
def Division.outside (division : Division) : List Char :=
  division.spans.flatMap Span.before ++ division.last

end Text

namespace TextNode

open Text

/-- A division with question marks in the places of its markers. -/
def marked (division : Division) : List Char :=
  division.fill (division.spans.map fun _ => [placeholder])

/-- What is extracted from a text, if it is divided so. -/
inductive Extracts (text : String) (division : Division) :
    Except ConfigFault (String × List String) → Prop
  | names {names : List String}
      (read : List.Forall₂ (fun span name => span.Names name.toList) division.spans names)
      (named : "" ∉ names) : Extracts text division (.ok (.ofList (marked division), names))
  | nameless {span : Span} (listed : span ∈ division.spans) (nameless : span.Names []) :
      Extracts text division (.error (.emptyPlaceholder text))

/-! ## Divided texts -/

/-- The names of the markers are those of the spans. -/
theorem boundNames_pieces (division : Division) :
    boundNames division.pieces = division.spans.map fun span => markedName span.inside := by
  obtain ⟨spans, last⟩ := division
  induction spans with
  | nil => simp [boundNames, Division.pieces]
  | cons span spans ih =>
      rw [boundNames] at ih ⊢
      simp [Division.pieces_cons, ih]

/-- Question marks stand in the places of the markers. -/
theorem withPlaceholders_pieces (division : Division) :
    withPlaceholders division.pieces = marked division := by
  have chars (text : List Char) : withPlaceholders (text.map Piece.char) = text := by
    rw [withPlaceholders, List.map_map]
    exact List.map_id _
  obtain ⟨spans, last⟩ := division
  induction spans with
  | nil => simp [Division.pieces, chars, marked, Division.fill]
  | cons span spans ih =>
      rw [Division.pieces_cons, withPlaceholders, List.map_append, List.map_cons,
        ← withPlaceholders, ← withPlaceholders, chars, ih]
      simp [marked, Division.fill]

/-- The question marks are those in the places of the markers and those outside of them. -/
theorem count_marked (division : Division) :
    (marked division).count placeholder =
      division.spans.length + division.outside.count placeholder := by
  obtain ⟨spans, last⟩ := division
  induction spans with
  | nil => simp [marked, Division.fill, Division.outside]
  | cons span spans ih =>
      simp only [marked, Division.fill, Division.outside] at ih ⊢
      simp [List.count_append] at ih ⊢
      omega

section

variable {text : String} {division : Division}

/-- What is extracted is what the division says. -/
theorem extract_extracts (divides : Marker.bound.Divides text.toList division) :
    Extracts text division (extract text) := by
  rw [extract, divides.pieces_eq, boundNames_pieces, withPlaceholders_pieces]
  split
  · rename_i nameless
    rw [List.any_map, List.any_eq_true] at nameless
    obtain ⟨span, listed, empty⟩ := nameless
    exact .nameless listed (Span.names_iff.mpr (List.isEmpty_iff.mp empty).symm)
  · rename_i named
    refine .names ?_ fun empty => named ?_
    · rw [List.map_map, List.forall₂_map_right_iff, List.forall₂_same]
      intro span _
      rw [Function.comp_apply, String.toList_ofList]
      exact Span.names_iff.mpr rfl
    · obtain ⟨name, listed, empty⟩ := List.mem_map.mp empty
      rw [List.any_eq_true]
      exact ⟨name, listed, List.isEmpty_iff.mpr (String.ofList_eq_empty_iff.mp empty)⟩

/-- The names of a divided text, if all its markers have one. -/
theorem eq_map_of_read {spans : List Span} {names : List String}
    (read : List.Forall₂ (fun span name => span.Names name.toList) spans names) :
    names = spans.map fun span => .ofList (markedName span.inside) := by
  induction read with
  | nil => rfl
  | cons here _ ih =>
      rw [List.map_cons, ← Span.names_iff.mp here, String.ofList_toList, ← ih]

/-- One thing is extracted from a divided text. -/
theorem Extracts.unique {first second : Except ConfigFault (String × List String)}
    (left : Extracts text division first) (right : Extracts text division second) :
    first = second := by
  have apart {names : List String} {span : Span}
      (read : List.Forall₂ (fun span name => span.Names name.toList) division.spans names)
      (named : "" ∉ names) (listed : span ∈ division.spans) : ¬ span.Names [] := by
    intro nameless
    rw [eq_map_of_read read, List.mem_map, not_exists] at named
    exact named span ⟨listed, by rw [← Span.names_iff.mp nameless]⟩
  cases left with
  | names read named =>
      cases right with
      | names other => rw [eq_map_of_read read, eq_map_of_read other]
      | nameless listed nameless => exact absurd nameless (apart read named listed)
  | nameless listed nameless =>
      cases right with
      | names read named => exact absurd nameless (apart read named listed)
      | nameless => rfl

theorem extract_eq_iff (divides : Marker.bound.Divides text.toList division)
    (outcome : Except ConfigFault (String × List String)) :
    extract text = outcome ↔ Extracts text division outcome := by
  constructor
  · rintro rfl
    exact extract_extracts divides
  · exact (extract_extracts divides).unique

/-- Where no marker begins, there is nothing to extract. -/
theorem extract_of_free (free : ¬ Marker.bound.BeginsIn text.toList []) :
    extract text = .ok (text, []) := by
  have named : "" ∉ ([] : List String) := List.not_mem_nil
  have nothing : Extracts text ⟨[], text.toList⟩ _ := Extracts.names .nil named
  rw [marked, Division.fill] at nothing
  simpa using (extract_eq_iff (.last free) _).mpr nothing

/-- What is extracted from a text makes its node. -/
theorem ofRaw_of_extract {sql : String} {names : List String}
    (extracted : extract text = .ok (sql, names)) :
    ofRaw text = .ok ⟨text, sql, names, hasMarker .spliced text⟩ := by
  rw [ofRaw, extracted]
  rfl

/-- The statement text of a node has no marker of a bound value. -/
theorem free_of_ofRaw {node : TextNode} (made : ofRaw text = .ok node) :
    ¬ Marker.bound.BeginsIn node.sql.toList [] := by
  rw [← occursIn_iff_beginsIn, eq_of_ofRaw made, String.toList_ofList]
  exact not_occursIn_withPlaceholders false text.toList

/-- A node that shows a marker of spliced text is one into which text is spliced. -/
theorem isSpliced_of_ofRaw {node : TextNode} (made : ofRaw text = .ok node)
    (shows : Marker.spliced.BeginsIn node.sql.toList []) : node.isSpliced = true := by
  rw [← Bool.not_eq_false]
  intro fixed
  have unmarked := hasMarker_sql_of_ofRaw made fixed
  rw [← Bool.not_eq_true, hasMarker_iff_occursIn, occursIn_iff_beginsIn] at unmarked
  exact unmarked shows

end

/-- **What is extracted from a text.** A text divides at its bound markers in exactly one way, and
exactly what the division says is extracted from it.  If that is statement text and names, then its
question marks are one for each name and those between the markers; no bound marker is left in it,
so a second time it is extracted as it is; and if it shows a marker of spliced text, then its nodes
are such into which text is spliced. -/
theorem extract_iff (text : String) :
    ∃ division, (∀ other, Marker.bound.Divides text.toList other ↔ other = division) ∧
      (∀ outcome, extract text = outcome ↔ Extracts text division outcome) ∧
        (∀ sql names, extract text = .ok (sql, names) →
          sql.toList.count placeholder = names.length + division.outside.count placeholder ∧
            ¬ Marker.bound.BeginsIn sql.toList [] ∧ extract sql = .ok (sql, []) ∧
              ∃ isSpliced, ofRaw text = .ok ⟨text, sql, names, isSpliced⟩ ∧
                (Marker.spliced.BeginsIn sql.toList [] → isSpliced = true)) ∧
          ∀ node, MadeOf text node → Marker.spliced.BeginsIn node.sql.toList [] →
            node.isSpliced = true := by
  obtain ⟨division, divides, unique⟩ := existsUnique_divides .bound text.toList
  refine ⟨division, fun other => ⟨unique other, fun same => same ▸ divides⟩,
    extract_eq_iff divides, fun sql names extracted => ?_,
    fun node made => isSpliced_of_ofRaw made.ofRaw⟩
  have made := ofRaw_of_extract extracted
  have free : ¬ Marker.bound.BeginsIn sql.toList [] := free_of_ofRaw made
  refine ⟨?_, free, extract_of_free free, _, made, isSpliced_of_ofRaw made⟩
  cases (extract_eq_iff divides _).mp extracted with
  | names read => rw [String.toList_ofList, count_marked, read.length_eq]

example : extract "id = #{id:INT} ? '#\x7ba #{b}' #\x7b" =
    .ok ("id = ? ? '?' #\x7b", ["id", "a #\x7bb"]) := by
  decide +kernel

end TextNode

end SqlTemplate
