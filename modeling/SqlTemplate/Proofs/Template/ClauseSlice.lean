import SqlTemplate.Proofs.Template.Clause
import SqlTemplate.Proofs.Template.Condition
import SqlTemplate.Proofs.Text.Slice

/-!
# Clauses by slices

The clauses once more, as they are made of a text that is stored as bytes: an affix is compared with
a slice of as many bytes, and what is left is the slice behind these bytes or in front of them.  A
slice that begins or ends inside of a character has no text, and making the clause stops there.

This never happens (`ClauseKind.sliced?_eq`): each slice lies between two characters, whatever the
text and the affixes are, and so the clause by slices is the clause.
-/

namespace SqlTemplate

set_option autoImplicit false

namespace Clause.Sliced

open Text

/-- The text behind the first listed opening that it begins with, by slices. -/
def dropOpening : List String → List Char → Option (List Char)
  | [], chars => some chars
  | opening :: openings, chars =>
      (sliceBegins? opening.toList chars).bind fun fits =>
        if fits then backSlice? (byteCount opening.toList) chars else dropOpening openings chars

/-- The text in front of the first listed ending that it ends with, by slices. -/
def dropEnding : List String → List Char → Option (List Char)
  | [], chars => some chars
  | ending :: endings, chars =>
      (sliceEnds? ending.toList chars).bind fun fits =>
        if fits then frontSlice? (byteCount chars - byteCount ending.toList) chars
        else dropEnding endings chars

/-- The text behind the first listed word that leads it as a whole word, by slices. -/
def dropWord : List String → List Char → Option (List Char)
  | [], chars => some chars
  | word :: words, chars =>
      if SameLetters word.toList chars then some []
      else
        (sliceBegins? word.toList chars).bind fun fits =>
          if fits then
            (backSlice? (byteCount word.toList) chars).bind fun behind =>
              if behind.head?.any isBlank then some (trimStart behind) else dropWord words chars
          else dropWord words chars

/-- The general clause of a text, by slices. -/
def trimmed? (trimming : Trimming) (chars : List Char) : Option (Option (List Char)) :=
  (dropOpening trimming.openingOverrides (trim chars)).bind fun left =>
    (dropEnding trimming.endingOverrides left).map fun inner =>
      (nonempty? (trim inner)).map fun text =>
        conclude trimming.ending (introduce trimming.opening text)

/-- The `WHERE` clause of a text, by slices. -/
def where? (chars : List Char) : Option (Option (List Char)) :=
  (dropWord connectives (trim chars)).bind fun text =>
    if text.isEmpty then some none
    else (sliceBegins? "where ".toList text).map fun own =>
      some (if own then text else "WHERE ".toList ++ text)

/-! ## The same clauses -/

theorem dropOpening_eq (openings : List String) (chars : List Char) :
    dropOpening openings chars = some (Clause.dropOpening openings chars) := by
  induction openings with
  | nil => rfl
  | cons opening openings ih =>
      rw [dropOpening, sliceBegins?_eq, Option.bind_some, Clause.dropOpening, List.findSome?_cons]
      cases found : afterFront? opening.toList chars with
      | none => exact ih
      | some rest => exact backSlice?_of_afterFront? found

theorem dropEnding_eq (endings : List String) (chars : List Char) :
    dropEnding endings chars = some (Clause.dropEnding endings chars) := by
  induction endings with
  | nil => rfl
  | cons ending endings ih =>
      rw [dropEnding, sliceEnds?_eq, Option.bind_some, Clause.dropEnding, List.findSome?_cons]
      cases found : beforeEnd? ending.toList chars with
      | none => exact ih
      | some rest => exact frontSlice?_of_beforeEnd? found

theorem dropWord_eq (words : List String) (chars : List Char) :
    dropWord words chars =
      some ((words.findSome? fun word => afterConnective? word chars).getD chars) := by
  induction words with
  | nil => rfl
  | cons word words ih =>
      rw [dropWord, List.findSome?_cons]
      split
      · rename_i alone
        have nothing : afterConnective? word chars = some [] :=
          afterConnective?_eq_some_iff.mpr
            ⟨[], ⟨chars, (List.append_nil chars).symm, alone, .nil⟩, rfl⟩
        rw [nothing, Option.getD_some]
      · rename_i notAlone
        rw [sliceBegins?_eq, Option.bind_some, afterConnective?]
        cases found : afterFront? word.toList chars with
        | none => exact ih
        | some behind =>
            rw [Option.isSome_some, if_pos rfl, backSlice?_of_afterFront? found, Option.bind_some]
            cases behind with
            | nil =>
                obtain ⟨front, split, letters⟩ := afterFront?_eq_some_iff.mp found
                rw [List.append_nil] at split
                exact absurd (split ▸ letters) notAlone
            | cons c after =>
                rw [List.head?_cons, Option.any_some]
                dsimp only
                split
                · rename_i blank
                  rw [trimStart, List.dropWhile_cons_of_pos blank, Option.getD_some, trimStart]
                · exact ih

theorem trimmed?_eq (trimming : Trimming) (chars : List Char) :
    trimmed? trimming chars = some (Clause.trimmed? trimming chars) := by
  rw [trimmed?, dropOpening_eq, Option.bind_some, dropEnding_eq, Option.map_some, Clause.trimmed?]

theorem where?_eq (chars : List Char) : where? chars = some (Clause.where? chars) := by
  have left : dropWord connectives (trim chars) = some (dropConnective (trim chars)) :=
    dropWord_eq connectives (trim chars)
  rw [where?, left, Option.bind_some, Clause.where?, nonempty?]
  split
  · rfl
  · rw [sliceBegins?_eq]
    rfl

end Clause.Sliced

namespace ClauseKind

/-- The clause that is made of a text by slices.  The comma at the end of assignments is found and
cut off as a character. -/
def sliced? : ClauseKind → List Char → Option (Option (List Char))
  | general trimming => Clause.Sliced.trimmed? trimming
  | condition => Clause.Sliced.where?
  | assignment => fun chars => some (Clause.set? chars)

/-- No slice lies inside of a character, and the clause by slices is the clause. -/
theorem sliced?_eq (kind : ClauseKind) (chars : List Char) :
    kind.sliced? chars = some (kind.make? chars) := by
  cases kind with
  | general trimming => exact Clause.Sliced.trimmed?_eq trimming chars
  | condition => exact Clause.Sliced.where?_eq chars
  | assignment => rfl

end ClauseKind

end SqlTemplate
