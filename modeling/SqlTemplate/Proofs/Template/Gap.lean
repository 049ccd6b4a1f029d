import SqlTemplate.Proofs.Template.TextNode
import SqlTemplate.Proofs.Text.Gap

/-!
# Text nodes on both sides of a gap

A text with a gap makes a text node exactly when both sides of the gap do
(`TextNode.succeeds_flowing_gap`), and its node is made of the nodes of the sides with a space
between their texts (`TextNode.flowing_gap`).  Blanks that are left at the end of a side make no
difference.
-/

namespace SqlTemplate.TextNode

set_option autoImplicit false

open Outcome

/-- Two text nodes with a space between their texts. -/
def beside (front back : TextNode) : TextNode where
  raw := front.raw ++ " " ++ back.raw
  sql := front.sql ++ " " ++ back.sql
  parameters := front.parameters ++ back.parameters
  isSpliced := front.isSpliced || back.isSpliced

/-- A raw text makes a node if no marker of a bound value in it is without a name. -/
theorem succeeds_ofRaw_iff {raw : String} :
    Succeeds (ofRaw raw) ↔ [] ∉ boundNames (Text.pieces .bound raw.toList) := by
  have nameless : (boundNames (Text.pieces .bound raw.toList)).any List.isEmpty = true ↔
      [] ∈ boundNames (Text.pieces .bound raw.toList) := by simp
  rw [← nameless, ofRaw, extract]
  split
  · rename_i empty
    refine iff_of_false ?_ (not_not_intro empty)
    rintro ⟨text, made⟩
    cases made
  · rename_i named
    exact iff_of_true ⟨_, rfl⟩ named

/-- Blanks behind a text make no difference to its node. -/
theorem flowing_append_blank (text : String) {blanks : String}
    (blank : Text.isAllBlank blanks = true) : flowing (text ++ blanks) = flowing text := by
  have surrounded : (text ++ blanks).toList = [] ++ text.toList ++ blanks.toList :=
    String.toList_append
  rw [flowing, flowing, Text.uniform_surrounded surrounded rfl blank]

/-- Blanks in front of a text make no difference to its node. -/
theorem flowing_blank_append {blanks : String} (blank : Text.isAllBlank blanks = true)
    (text : String) : flowing (blanks ++ text) = flowing text := by
  have surrounded : (blanks ++ text).toList = blanks.toList ++ text.toList ++ [] := by
    rw [String.toList_append, List.append_nil]
  rw [flowing, flowing, Text.uniform_surrounded surrounded blank rfl]

variable {left gap right : String}

section

variable (isGap : Text.IsGap left gap right) (leftSome : Text.isAllBlank left = false)
  (rightSome : Text.isAllBlank right = false)

include isGap leftSome rightSome

/-- The markers of bound values around a gap are those of both sides. -/
theorem boundNames_gap :
    boundNames (Text.pieces .bound (Text.uniform (left ++ gap ++ right)).toList) =
      boundNames (Text.pieces .bound (Text.uniform left).toList) ++
        boundNames (Text.pieces .bound (Text.uniform right).toList) := by
  rw [isGap.pieces_eq leftSome rightSome, boundNames, boundNames, boundNames,
    List.filterMap_append, List.filterMap_cons_none rfl]

/-- A text with a gap makes a node exactly when both sides of the gap do. -/
theorem succeeds_flowing_gap : Succeeds (flowing (left ++ gap ++ right)) ↔
    Succeeds (flowing left) ∧ Succeeds (flowing right) := by
  rw [flowing, flowing, flowing, succeeds_ofRaw_iff, succeeds_ofRaw_iff, succeeds_ofRaw_iff,
    boundNames_gap isGap leftSome rightSome, List.mem_append, not_or]

/-- The node of a text with a gap has the nodes of both sides with a space between. -/
theorem flowing_gap {front back : TextNode} (makesFront : flowing left = .ok front)
    (makesBack : flowing right = .ok back) :
    flowing (left ++ gap ++ right) = .ok (front.beside back) := by
  obtain ⟨text, makes⟩ := (succeeds_flowing_gap isGap leftSome rightSome).mpr
    ⟨⟨front, makesFront⟩, back, makesBack⟩
  have bound := isGap.pieces_eq leftSome rightSome .bound
  have spliced := isGap.pieces_eq leftSome rightSome .spliced
  rw [makes]
  refine congrArg Except.ok ?_
  rw [eq_of_ofRaw makes, eq_of_ofRaw makesFront, eq_of_ofRaw makesBack, beside, mk.injEq]
  refine ⟨isGap.uniform_eq leftSome rightSome, ?_, ?_, ?_⟩
  · rw [bound, ← String.toList_inj]
    simp [withPlaceholders]
  · rw [boundNames_gap isGap leftSome rightSome, List.map_append]
  · simp only [Text.hasMarker, spliced, List.any_append, List.any_cons, Bool.false_or]

end

/-- Nothing is spliced into the node of a text without markers of spliced text. -/
theorem isSpliced_eq_false_of_flowing {text : String} {node : TextNode}
    (makes : flowing text = .ok node) (fixed : Text.hasMarker .spliced text = false) :
    node.isSpliced = false := by
  rw [eq_of_ofRaw makes, ← Bool.not_eq_true, Text.hasMarker_iff_occursIn]
  intro occurs
  have stands := Text.hasMarker_iff_occursIn.mpr (Text.occursIn_of_uniform occurs)
  rw [fixed] at stands
  cases stands

end SqlTemplate.TextNode
