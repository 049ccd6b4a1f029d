import SqlTemplate.Proofs.Template.ClauseSlice
import SqlTemplate.Proofs.Template.Shorthand

/-!
# What clauses take away

A clause keeps the text of its parts but for its ends.  In front of what it keeps there are blanks
and at most one item, and behind it the same (`Clause.Parts`).  Which item is taken away is said here
without the functions that cut it off: it shows the letters of the first listed affix that fits, and
if none fits there is no item (`Clause.FirstFitting`).

* A general clause looks for its openings at the front of the trimmed text, and for its endings at
  the end of what is left then, blanks included.
* A `WHERE` clause looks for `and` and `or` as whole words at the front.
* A `SET` clause looks for a comma at the end.

**Nothing else is lost** (`ClauseKind.loses_onlyEnds`): what is kept is not empty and has no blanks
at its ends, it stands in the clause with nothing but the words of the clause around it, and all
values are kept.  No cut is made inside of a character.
-/

namespace SqlTemplate

set_option autoImplicit false

namespace Clause

open Text

/-! ## Items -/

/-- What is taken away for a list of affixes: the item that the first fitting affix fits, or nothing
where no affix fits any item. -/
inductive FirstFitting (fits : String → List Char → Prop) (affixes : List String) :
    List Char → Prop
  | taken {earlier later : List String} {affix : String} {item : List Char}
      (listed : affixes = earlier ++ affix :: later)
      (unfit : ∀ other ∈ earlier, ∀ item, ¬ fits other item) (here : fits affix item) :
      FirstFitting fits affixes item
  | nothing (unfit : ∀ affix ∈ affixes, ∀ item, ¬ fits affix item) :
      FirstFitting fits affixes []

/-- Cutting off the first affix that can be cut off takes away what the first fitting affix
fits. -/
theorem exists_firstFitting {fits : String → List Char → Prop}
    {cut? : String → Option (List Char)} {whole : List Char} (affixes : List String)
    (joins : List Char → List Char → Prop)
    (found : ∀ affix rest, cut? affix = some rest → ∃ item, fits affix item ∧ joins item rest)
    (missing : ∀ affix, cut? affix = none → ∀ item, ¬ fits affix item)
    (nothing : joins [] whole) :
    ∃ item, FirstFitting fits affixes item ∧ joins item ((affixes.findSome? cut?).getD whole) := by
  cases cuts : affixes.findSome? cut? with
  | none =>
      refine ⟨[], .nothing ?_, nothing⟩
      intro affix listed
      exact missing affix (List.findSome?_eq_none_iff.mp cuts affix listed)
  | some rest =>
      obtain ⟨earlier, affix, later, listed, here, before⟩ := List.findSome?_eq_some_iff.mp cuts
      obtain ⟨item, fits, joined⟩ := found affix rest here
      refine ⟨item, .taken listed ?_ fits, joined⟩
      intro other earlierListed
      exact missing other (before other earlierListed)

/-- Whether an item at the front of a text has the letters of an affix, and what is behind it is as
the clause wants it. -/
def FitsFront (ends : List Char → Prop) (chars : List Char) (affix : String)
    (item : List Char) : Prop :=
  ∃ behind, chars = item ++ behind ∧ SameLetters affix.toList item ∧ ends behind

/-- Whether an item at the end of a text has the letters of an affix. -/
def FitsEnd (chars : List Char) (affix : String) (item : List Char) : Prop :=
  ∃ front, chars = front ++ item ∧ SameLetters affix.toList item

theorem exists_opening (openings : List String) (chars : List Char) :
    ∃ item, FirstFitting (FitsFront (fun _ => True) chars) openings item ∧
      chars = item ++ dropOpening openings chars := by
  refine exists_firstFitting openings (fun item rest => chars = item ++ rest) ?_ ?_ rfl
  · intro affix rest found
    obtain ⟨front, split, letters⟩ := afterFront?_eq_some_iff.mp found
    exact ⟨front, ⟨rest, split, letters, trivial⟩, split⟩
  · rintro affix missing item ⟨behind, split, letters, _⟩
    rw [afterFront?_eq_some_iff.mpr ⟨item, split, letters⟩] at missing
    cases missing

theorem exists_ending (endings : List String) (chars : List Char) :
    ∃ item, FirstFitting (FitsEnd chars) endings item ∧
      chars = dropEnding endings chars ++ item := by
  refine exists_firstFitting endings (fun item rest => chars = rest ++ item) ?_ ?_
    (List.append_nil chars).symm
  · intro affix rest found
    obtain ⟨behind, split, letters⟩ := beforeEnd?_eq_some_iff.mp found
    exact ⟨behind, ⟨rest, split, letters⟩, split⟩
  · rintro affix missing item ⟨front, split, letters⟩
    rw [beforeEnd?_eq_some_iff.mpr ⟨item, split, letters⟩] at missing
    cases missing

theorem exists_connective {chars : List Char} (stops : StopsAt isBlank chars) :
    ∃ item, FirstFitting (FitsFront EndsWord chars) connectives item ∧
      ∃ behind, chars = item ++ behind ∧ dropConnective chars = trimStart behind := by
  refine exists_firstFitting connectives
    (fun item rest => ∃ behind, chars = item ++ behind ∧ rest = trimStart behind) ?_ ?_
    ⟨chars, rfl, (trimStart_eq_self stops).symm⟩
  · intro affix rest found
    obtain ⟨behind, ⟨front, split, letters, ends⟩, equal⟩ := afterConnective?_eq_some_iff.mp found
    exact ⟨front, ⟨behind, split, letters, ends⟩, behind, split, equal⟩
  · rintro affix missing item ⟨behind, split, letters, ends⟩
    rw [afterConnective?_eq_some_iff.mpr ⟨behind, ⟨item, split, letters, ends⟩, rfl⟩] at missing
    cases missing

/-! ## Words around a text -/

/-- A word that a clause puts in front, with a space behind it; a blank word is none. -/
def wordBefore (word : String) : List Char :=
  if trim word.toList = [] then [] else trim word.toList ++ [' ']

/-- A word that a clause puts behind, with a space in front of it; a blank word is none. -/
def wordBehind (word : String) : List Char :=
  if trim word.toList = [] then [] else ' ' :: trim word.toList

theorem introduce_eq (word : String) (chars : List Char) :
    introduce word chars = wordBefore word ++ chars := by
  rw [introduce, wordBefore]
  simp only [List.isEmpty_iff]
  split
  · rfl
  · simp

theorem conclude_eq (word : String) (chars : List Char) :
    conclude word chars = chars ++ wordBehind word := by
  rw [conclude, wordBehind]
  simp only [List.isEmpty_iff]
  split
  · exact (List.append_nil chars).symm
  · rfl

/-! ## Parts of a text -/

/-- The parts of a text of which a clause is made: the core that is kept, the items that are taken
away in front of it and behind it, and the blanks around the items. -/
structure Parts where
  frontBlank : List Char
  opening : List Char
  openingBlank : List Char
  core : List Char
  endingBlank : List Char
  ending : List Char
  backBlank : List Char

namespace Parts

/-- What is taken away in front of the core. -/
def head (parts : Parts) : List Char := parts.frontBlank ++ parts.opening ++ parts.openingBlank

/-- What is taken away behind the core. -/
def tail (parts : Parts) : List Char := parts.endingBlank ++ parts.ending ++ parts.backBlank

/-- What is left of the trimmed text behind the item at its front. -/
def behindOpening (parts : Parts) : List Char :=
  parts.openingBlank ++ parts.core ++ parts.endingBlank ++ parts.ending

end Parts

end Clause

namespace ClauseKind

open Text Clause

/-- The affixes that a clause takes off the front. -/
def openings : ClauseKind → List String
  | general trimming => trimming.openingOverrides
  | condition => connectives
  | assignment => []

/-- What has to be behind an item at the front: in a condition only whole words are taken away. -/
def EndsOpening : ClauseKind → List Char → Prop
  | condition => EndsWord
  | general _ | assignment => fun _ => True

/-- The affixes that a clause takes off the end. -/
def endings : ClauseKind → List String
  | general trimming => trimming.endingOverrides
  | condition => []
  | assignment => [","]

/-- What a clause puts in front of a core: its word, or nothing if the core of a condition has a
keyword of its own. -/
def before : ClauseKind → List Char → List Char
  | general trimming, _ => wordBefore trimming.opening
  | condition, core => if hasWhere core then [] else "WHERE ".toList
  | assignment, _ => "SET ".toList

/-- What a clause puts behind a core. -/
def behind : ClauseKind → List Char
  | general trimming => wordBehind trimming.ending
  | condition | assignment => []

/-- The parts of a text as a clause cuts them. -/
structure Cuts (kind : ClauseKind) (whole : List Char) (parts : Parts) : Prop where
  whole_eq : whole = parts.head ++ parts.core ++ parts.tail
  trim_eq : trim whole = parts.opening ++ parts.behindOpening
  blank : ∀ c ∈ parts.frontBlank ++ parts.openingBlank ++ parts.endingBlank ++ parts.backBlank,
    isBlank c = true
  opening : FirstFitting (FitsFront kind.EndsOpening (trim whole)) kind.openings parts.opening
  ending : FirstFitting (FitsEnd parts.behindOpening) kind.endings parts.ending
  core_ne_nil : parts.core ≠ []
  core_trimmed : trim parts.core = parts.core

/-- A clause takes an item off the front of the trimmed text and an item off the end of what is
left, and trims what is between them. -/
theorem exists_items (kind : ClauseKind) (chars : List Char) :
    ∃ opening inner ending, trim chars = opening ++ (inner ++ ending) ∧
      FirstFitting (FitsFront kind.EndsOpening (trim chars)) kind.openings opening ∧
        FirstFitting (FitsEnd (inner ++ ending)) kind.endings ending ∧
          kind.make? chars = (nonempty? (trim inner)).map fun core =>
            kind.before core ++ core ++ kind.behind := by
  have generally (trimming : Trimming) : ∃ opening inner ending,
      trim chars = opening ++ (inner ++ ending) ∧
        FirstFitting (FitsFront (fun _ => True) (trim chars)) trimming.openingOverrides opening ∧
          FirstFitting (FitsEnd (inner ++ ending)) trimming.endingOverrides ending ∧
            trimmed? trimming chars = (nonempty? (trim inner)).map fun core =>
              wordBefore trimming.opening ++ core ++ wordBehind trimming.ending := by
    obtain ⟨opening, opens, front⟩ := exists_opening trimming.openingOverrides (trim chars)
    obtain ⟨ending, ends, back⟩ := exists_ending trimming.endingOverrides
      (dropOpening trimming.openingOverrides (trim chars))
    rw [back] at front ends
    refine ⟨opening, _, ending, front, opens, ends, ?_⟩
    simp only [trimmed?, introduce_eq, conclude_eq]
  cases kind with
  | general trimming => exact generally trimming
  | assignment =>
      obtain ⟨opening, inner, ending, split, opens, ends, makes⟩ := generally setTrimming
      refine ⟨opening, inner, ending, split, opens, ends, ?_⟩
      rw [make?, ← trimmed?_setTrimming, makes]
      rfl
  | condition =>
      obtain ⟨opening, opens, inner, split, left⟩ := exists_connective (trim_stopsAt chars).1
      have noEnding : FirstFitting (FitsEnd (inner ++ [])) [] [] :=
        .nothing fun affix listed => absurd listed List.not_mem_nil
      refine ⟨opening, inner, [], by rwa [List.append_nil], opens, noEnding, ?_⟩
      have ends : StopsAt isBlank (trimStart inner).reverse := by
        refine (trim_stopsAt chars).2.of_front (List.reverse_prefix.mpr ?_)
        rw [split]
        exact (List.dropWhile_suffix _).trans (List.suffix_append opening inner)
      rw [make?, Clause.where?, left, trim, trimEnd_eq_self ends]
      apply Option.map_congr
      intro core _
      rw [before, behind, List.append_nil]
      split <;> rfl

/-- The clause that is made of a text is its core with the words of the clause around it. -/
theorem exists_parts {kind : ClauseKind} {whole text : List Char}
    (makes : kind.make? whole = some text) :
    ∃ parts, kind.Cuts whole parts ∧ text = kind.before parts.core ++ parts.core ++ kind.behind := by
  obtain ⟨opening, inner, ending, split, opens, ends, made⟩ := kind.exists_items whole
  rw [makes] at made
  obtain ⟨core, keeps, rfl⟩ := Option.map_eq_some_iff.mp made.symm
  obtain ⟨rfl, some⟩ := nonempty?_eq_some_iff.mp keeps
  obtain ⟨frontBlank, backBlank, around, frontAll, backAll⟩ := exists_blanks whole
  obtain ⟨openingBlank, endingBlank, within, openingAll, endingAll⟩ := exists_blanks inner
  refine ⟨⟨frontBlank, opening, openingBlank, trim inner, endingBlank, ending, backBlank⟩, ?_, rfl⟩
  have behindOpening : openingBlank ++ trim inner ++ endingBlank ++ ending = inner ++ ending :=
    congrArg (· ++ ending) within.symm
  constructor
  case whole_eq =>
    calc whole
        = frontBlank ++ trim whole ++ backBlank := around
      _ = frontBlank ++ (opening ++ (openingBlank ++ trim inner ++ endingBlank ++ ending)) ++
            backBlank := by rw [behindOpening, ← split]
      _ = _ := by simp only [Parts.head, Parts.tail, List.append_assoc]
  case trim_eq => rw [Parts.behindOpening, behindOpening, split]
  case blank =>
    intro c member
    rcases List.mem_append.mp member with inFront | inBack
    · rcases List.mem_append.mp inFront with inFront | inEnding
      · rcases List.mem_append.mp inFront with inFront | inOpening
        · exact List.all_eq_true.mp frontAll c inFront
        · exact List.all_eq_true.mp openingAll c inOpening
      · exact List.all_eq_true.mp endingAll c inEnding
    · exact List.all_eq_true.mp backAll c inBack
  case opening => exact opens
  case ending =>
    rw [Parts.behindOpening, behindOpening]
    exact ends
  case core_ne_nil => exact some
  case core_trimmed => exact trim_trim inner

/-- **A clause loses nothing but its ends.** A clause that is there is made of what its parts
contribute: it is a core of that text with nothing but the words of the clause around it, and has
all its values.  What is lost in front of the core and behind it are blanks and at most one item,
the one that the first fitting affix fits.  Whatever the text is, no cut lies inside of a
character. -/
theorem loses_onlyEnds (kind : ClauseKind) (scope : Scope) (body : List Node) :
    (∀ clause, (kind.node body).render scope = .ok (some clause) →
        ∃ whole parts, renderAll scope body = .ok (some whole) ∧
          kind.Cuts whole.sql.toList parts ∧
            clause.sql.toList = kind.before parts.core ++ parts.core ++ kind.behind ∧
              clause.args = whole.args) ∧
      ∀ text, kind.sliced? text = some (kind.make? text) := by
  refine ⟨fun clause renders => ?_, kind.sliced?_eq⟩
  obtain ⟨whole, text, gives, makes, rfl⟩ := render_node_eq_some_iff.mp renders
  obtain ⟨parts, cuts, rfl⟩ := exists_parts makes
  exact ⟨whole, parts, gives, cuts, String.toList_ofList, rfl⟩

/-- A clause for a list of columns, of which some affixes overlap and some cannot be compared with
a text without looking inside of a character. -/
def sizes : Trimming := ⟨"(", ["ß,", ", ", ","], ")", ["ö", ", ö", ","]⟩

/-- A list of columns with a comma too many at either end. -/
def sizesList : List Node := [.text ⟨", größe, width ,", ", größe, width ,", [], false⟩]

theorem loses_onlyEnds_sizes : ∃ clause,
    ((general sizes).node sizesList).render (.root (.named [])) = .ok (some clause) ∧
      clause.sql = "( größe, width )" ∧
        ∃ whole parts, renderAll (.root (.named [])) sizesList = .ok (some whole) ∧
          (general sizes).Cuts whole.sql.toList parts ∧
            clause.sql.toList =
                (general sizes).before parts.core ++ parts.core ++ (general sizes).behind ∧
              clause.args = whole.args := by
  have rendered : (((general sizes).node sizesList).render (.root (.named []))).map
      (Option.map Fragment.sql) = .ok (some "( größe, width )") := by decide +kernel
  obtain ⟨part, renders, equal⟩ := Outcome.map_eq_ok_iff.mp rendered
  obtain ⟨clause, rfl, sql⟩ := Option.map_eq_some_iff.mp equal
  exact ⟨clause, renders, sql,
    (loses_onlyEnds (general sizes) (.root (.named [])) sizesList).1 clause renders⟩

end ClauseKind

end SqlTemplate
