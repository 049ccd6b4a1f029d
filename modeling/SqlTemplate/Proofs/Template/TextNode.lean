import SqlTemplate.Proofs.Outcome
import SqlTemplate.Proofs.Text.Blank
import SqlTemplate.Proofs.Text.Marker
import SqlTemplate.Proofs.Text.Spacing
import SqlTemplate.Template.TextNode

/-!
# Nodes made of text

A text node is made of a source text in two ways, and both take the text as it is once its spacing
is settled.  So every such node is determined by its raw text (`TextNode.eq_of_ofRaw`), its raw
text has only spaces besides the characters of the source (`TextNode.MadeOf.mem_raw`), and it has
text when the source is not blank (`TextNode.MadeOf.sql_ne`).
-/

namespace SqlTemplate

set_option autoImplicit false

open Outcome

namespace TextNode

/-- What a node made of a raw text holds. -/
theorem eq_of_ofRaw {raw : String} {text : TextNode} (made : ofRaw raw = .ok text) :
    text = { raw
             sql := .ofList (withPlaceholders (Text.pieces .bound raw.toList))
             parameters := (boundNames (Text.pieces .bound raw.toList)).map String.ofList
             isSpliced := Text.hasMarker .spliced raw } := by
  obtain ⟨⟨sql, parameters⟩, extracted, equal⟩ := map_eq_ok_iff.mp made
  rw [extract] at extracted
  split at extracted
  · cases extracted
  · cases extracted
    exact equal.symm

/-- A node that is made of a source text, with its spacing made uniform or kept. -/
def MadeOf (source : String) (text : TextNode) : Prop :=
  flowing source = .ok text ∨ verbatim source = .ok text

namespace MadeOf

variable {source : String} {text : TextNode}

/-- A node is made of its raw text as it is. -/
theorem ofRaw (made : MadeOf source text) : ofRaw text.raw = .ok text := by
  rcases made with made | made
  · have raw : text.raw = Text.uniform source := by rw [eq_of_ofRaw made]
    rw [raw]
    exact made
  · have raw : text.raw = Text.trimmed source := by rw [eq_of_ofRaw made]
    rw [raw]
    exact made

/-- The raw text has only spaces besides the characters of the source. -/
theorem mem_raw (made : MadeOf source text) {c : Char} (member : c ∈ text.raw.toList) :
    c = ' ' ∨ c ∈ source.toList := by
  rcases made with made | made
  · rw [eq_of_ofRaw made, Text.uniform, String.toList_ofList] at member
    exact (Text.mem_respace member).imp_right Text.mem_of_mem_trim
  · rw [eq_of_ofRaw made, Text.trimmed, String.toList_ofList] at member
    exact .inr (Text.mem_of_mem_trim member)

/-- The raw text has no question mark outside of its markers if the source has none. -/
theorem char_not_mem (unmarked : placeholder ∉ source.toList) (made : MadeOf source text) :
    .char placeholder ∉ Text.pieces .bound text.raw.toList := by
  intro member
  rcases made.mem_raw (Text.mem_of_char_mem_pieces member) with space | inSource
  · exact absurd space (by decide)
  · exact unmarked inSource

/-- A source that is not blank gives a raw text with characters. -/
theorem raw_ne (made : MadeOf source text) (notBlank : Text.isAllBlank source = false) :
    text.raw.toList ≠ [] := by
  have some : Text.trim source.toList ≠ [] := fun none => by
    rw [Text.trim_eq_nil_iff] at none
    rw [Text.isAllBlank, none] at notBlank
    cases notBlank
  rcases made with made | made
  · rw [eq_of_ofRaw made, Text.uniform, String.toList_ofList]
    exact Text.respace_word_ne_nil some
  · rw [eq_of_ofRaw made, Text.trimmed, String.toList_ofList]
    exact some

/-- A source that is not blank gives statement text with characters. -/
theorem sql_ne (made : MadeOf source text) (notBlank : Text.isAllBlank source = false) :
    text.sql ≠ "" := by
  intro none
  have noChars := congrArg String.toList none
  rw [eq_of_ofRaw made.ofRaw, String.toList_ofList, withPlaceholders, String.toList_empty,
    List.map_eq_nil_iff] at noChars
  exact Text.pieces_ne_nil (made.raw_ne notBlank) noChars

end MadeOf

/-! ## Sound text nodes -/

/-- A closing brace outside of the markers of bound values is one of the text. -/
theorem mem_of_mem_withPlaceholders {c : Char} (other : c ≠ placeholder) {inside : Bool}
    {chars : List Char}
    (member : c ∈ withPlaceholders (Text.piecesFrom .bound inside chars)) : c ∈ chars := by
  obtain ⟨piece, listed, shown⟩ := List.mem_map.mp member
  cases piece with
  | char d =>
      cases shown
      exact Text.mem_of_char_mem_piecesFrom listed
  | marker enclosed => exact absurd shown.symm other

/-- Question marks make no marker: one that starts at a character in statement text starts there in
the source as well. -/
theorem startsAt_of_withPlaceholders {marker : Text.Marker} {c : Char} {after : List Char}
    (starts : marker.startsAt c (withPlaceholders (Text.piecesFrom .bound false after)) = true) :
    marker.startsAt c after = true := by
  obtain ⟨sign, behind, shown, closed⟩ := Text.startsAt_iff.mp starts
  refine Text.startsAt_iff.mpr ⟨sign, ?_⟩
  cases after with
  | nil => cases shown
  | cons second rest =>
      rw [Text.piecesFrom] at shown
      split at shown
      · have noBrace : placeholder ≠ '{' := by decide
        injection shown with brace _
        exact absurd brace noBrace
      · injection shown with brace same
        subst brace same
        exact ⟨rest, rfl, mem_of_mem_withPlaceholders (by decide) closed⟩

/-- No marker starts at a question mark. -/
theorem not_startsAt_placeholder (marker : Text.Marker) (after : List Char) :
    marker.startsAt placeholder after ≠ true := by
  intro starts
  have noSign : placeholder ≠ marker.sign := by cases marker <;> decide
  exact noSign (Text.eq_of_startsAt starts).1

/-- A marker of spliced text that shows in statement text stands in the source as well. -/
theorem occursIn_of_withPlaceholders {inside : Bool} {chars : List Char}
    (occurs : Text.Marker.OccursIn .spliced
      (withPlaceholders (Text.piecesFrom .bound inside chars))) :
    Text.Marker.OccursIn .spliced chars := by
  fun_induction Text.piecesFrom .bound inside chars with
  | case1 => cases occurs
  | case2 first after ih => exact .later (ih occurs)
  | case3 first after starts ih =>
      cases occurs with
      | here spliced => exact absurd spliced (not_startsAt_placeholder .spliced _)
      | later occurs => exact .later (ih occurs)
  | case4 first after plain ih =>
      cases occurs with
      | here spliced => exact .here (startsAt_of_withPlaceholders spliced)
      | later occurs => exact .later (ih occurs)

/-- No marker of a bound value is left in statement text. -/
theorem not_occursIn_withPlaceholders (inside : Bool) (chars : List Char) :
    ¬ Text.Marker.OccursIn .bound
      (withPlaceholders (Text.piecesFrom .bound inside chars)) := by
  intro occurs
  fun_induction Text.piecesFrom .bound inside chars with
  | case1 => cases occurs
  | case2 first after ih => exact ih occurs
  | case3 first after starts ih =>
      cases occurs with
      | here bound => exact absurd bound (not_startsAt_placeholder .bound _)
      | later occurs => exact ih occurs
  | case4 first after plain ih =>
      cases occurs with
      | here bound => exact plain (startsAt_of_withPlaceholders bound)
      | later occurs => exact ih occurs

/-- The statement text of a node into which nothing is spliced has no marker of spliced text. -/
theorem hasMarker_sql_of_ofRaw {raw : String} {text : TextNode} (made : ofRaw raw = .ok text)
    (fixed : text.isSpliced = false) : Text.hasMarker .spliced text.sql = false := by
  rw [← Bool.not_eq_true, Text.hasMarker_iff_occursIn]
  intro occurs
  rw [eq_of_ofRaw made] at occurs fixed
  rw [String.toList_ofList] at occurs
  have spliced := Text.hasMarker_iff_occursIn.mpr (occursIn_of_withPlaceholders occurs)
  exact absurd spliced (Bool.not_eq_true _ ▸ fixed)

/-- A text node as reading makes it: a raw text that is trimmed and not empty, and beside it what
is taken from the raw text. -/
structure IsSound (text : TextNode) : Prop where
  raw_ne : text.raw ≠ ""
  raw_trimmed : Text.trimmed text.raw = text.raw
  extracted : extract text.raw = .ok (text.sql, text.parameters)
  isSpliced_eq : text.isSpliced = Text.hasMarker .spliced text.raw

/-- A source that is not blank makes a sound node. -/
theorem MadeOf.isSound {source : String} {text : TextNode} (made : MadeOf source text)
    (notBlank : Text.isAllBlank source = false) : text.IsSound := by
  obtain ⟨⟨sql, parameters⟩, extracted, equal⟩ := map_eq_ok_iff.mp made.ofRaw
  refine ⟨fun none => made.raw_ne notBlank (by rw [none, String.toList_empty]), ?_, ?_, ?_⟩
  · rcases made with made | made
    · rw [eq_of_ofRaw made]
      exact Text.trimmed_uniform source
    · rw [eq_of_ofRaw made]
      exact Text.trimmed_trimmed source
  · rw [extracted, ← equal]
  · rw [← equal]

/-- A sound node is made of its raw text as it is. -/
theorem IsSound.ofRaw {text : TextNode} (sound : text.IsSound) : ofRaw text.raw = .ok text := by
  rw [TextNode.ofRaw, sound.extracted]
  simp only [Except.map, ← sound.isSpliced_eq]

/-- The statement text of a node into which nothing is spliced has no marker of spliced text. -/
theorem IsSound.hasMarker_sql {text : TextNode} (sound : text.IsSound)
    (fixed : text.isSpliced = false) : Text.hasMarker .spliced text.sql = false :=
  hasMarker_sql_of_ofRaw sound.ofRaw fixed

end TextNode

end SqlTemplate
