import SqlTemplate.Proofs.Template.Condition

/-!
# Clauses that abbreviate general ones

A `SET` clause and a `WHERE` clause are written for general clauses: the one with the word `SET` and
a comma to take off the end, the other with the word `WHERE` and the openings `AND ` and `OR ` to
take off the front.

**A `SET` clause is that general clause** for every text.  **A `WHERE` clause is that general clause
exactly for plain conditions** (`Node.shorthand_agrees`): what leads the text as a connective has a
space behind it, and what is left has no keyword of its own (`Clause.IsPlain`).  For other texts they
differ, because the general clause looks for the openings letter by letter and puts its word in
front of everything, while a connective ends at any blank or with the text, and a keyword is kept.
-/

namespace SqlTemplate

set_option autoImplicit false

namespace Clause

open Text

/-- The general clause that a `SET` clause abbreviates. -/
def setTrimming : Trimming := ⟨"SET", [], "", [","]⟩

/-- The general clause that a `WHERE` clause abbreviates. -/
def whereTrimming : Trimming := ⟨"WHERE", ["AND ", "OR "], "", []⟩

/-! ## Assignments -/

/-- A comma at the end is the ending that fits. -/
theorem dropEnding_comma (chars : List Char) : dropEnding [","] chars = dropComma chars := by
  rw [dropComma]
  split
  · rename_i comma
    obtain ⟨front, rfl⟩ := List.getLast?_eq_some_iff.mp comma
    have found : beforeEnd? ",".toList (front ++ [',']) = some front :=
      beforeEnd?_eq_some_iff.mpr ⟨[','], rfl, rfl⟩
    rw [dropEnding, List.findSome?_singleton, found, Option.getD_some, List.dropLast_concat]
  · rename_i noComma
    have missing : beforeEnd? ",".toList chars = none := by
      rw [Option.eq_none_iff_forall_ne_some]
      intro rest found
      obtain ⟨behind, rfl, letters⟩ := beforeEnd?_eq_some_iff.mp found
      obtain ⟨c, others, rfl, first, none⟩ := sameLetters_cons_iff.mp letters
      have comma : c = ',' := eq_of_toLower (by decide) (sameLetter_iff.mp first).symm
      rw [sameLetters_nil_iff.mp none, comma] at noComma
      exact noComma (by simp)
    rw [dropEnding, List.findSome?_singleton, missing, Option.getD_none]

/-- Where a comma was taken off the end, no blank stands at the front. -/
theorem trim_dropComma (chars : List Char) :
    trim (dropComma (trim chars)) = trimEnd (dropComma (trim chars)) := by
  have front : dropComma (trim chars) <+: trim chars := by
    rw [dropComma]
    split
    · exact List.dropLast_prefix _
    · exact List.prefix_refl _
  rw [trim, trimStart_eq_self ((trim_stopsAt chars).1.of_front front)]

/-- A `SET` clause is the general clause that it abbreviates. -/
theorem trimmed?_setTrimming (chars : List Char) : trimmed? setTrimming chars = set? chars := by
  have left : trim (dropEnding setTrimming.endingOverrides
      (dropOpening setTrimming.openingOverrides (trim chars))) =
        trimEnd (dropComma (trim chars)) := by
    rw [← trim_dropComma, ← dropEnding_comma]
    rfl
  rw [trimmed?, set?, left]
  rfl

/-! ## Leading connectives with a space -/

section

variable {chars behind : List Char}

/-- A connective with a space behind it is an opening, letter by letter. -/
theorem afterFront?_eq_some_iff_beginsWith {word opening : String}
    (spaced : SameLetters opening.toList (word.toList ++ [' '])) {left : List Char} :
    afterFront? opening.toList chars = some left ↔ BeginsWith word chars (' ' :: left) := by
  rw [afterFront?_congr spaced, afterFront?_append, Option.bind_eq_some_iff]
  constructor
  · rintro ⟨behind, found, space⟩
    obtain ⟨front, split, letters⟩ := afterFront?_eq_some_iff.mp found
    obtain rfl := (afterFront?_mark_eq_some_iff rfl (by decide)).mp space
    exact ⟨front, split, letters, .cons rfl⟩
  · rintro ⟨front, split, letters, _⟩
    exact ⟨' ' :: left, afterFront?_eq_some_iff.mpr ⟨front, split, letters⟩,
      (afterFront?_mark_eq_some_iff rfl (by decide)).mpr rfl⟩

theorem afterFront?_and {left : List Char} :
    afterFront? "AND ".toList chars = some left ↔ BeginsWith "and" chars (' ' :: left) := by
  apply afterFront?_eq_some_iff_beginsWith
  rfl

theorem afterFront?_or {left : List Char} :
    afterFront? "OR ".toList chars = some left ↔ BeginsWith "or" chars (' ' :: left) := by
  apply afterFront?_eq_some_iff_beginsWith
  rfl

/-- No connective is empty. -/
theorem toList_ne_nil_of_listed {connective : String} (listed : connective ∈ connectives) :
    connective.toList ≠ [] := by
  rcases List.mem_pair.mp listed with rfl | rfl
  · exact List.cons_ne_nil _ _
  · exact List.cons_ne_nil _ _

/-- At most one connective leads a text, and one text is behind it. -/
theorem BeginsWith.unique {first second : String} (firstListed : first ∈ connectives)
    (secondListed : second ∈ connectives) {other : List Char}
    (begins : BeginsWith first chars behind) (beginsToo : BeginsWith second chars other) :
    first = second ∧ behind = other := by
  have letters := (begins.head? (toList_ne_nil_of_listed firstListed)).symm.trans
    (beginsToo.head? (toList_ne_nil_of_listed secondListed))
  have same : first = second := by
    rcases List.mem_pair.mp firstListed with rfl | rfl <;>
      rcases List.mem_pair.mp secondListed with rfl | rfl
    · rfl
    · exact absurd letters (by decide)
    · exact absurd letters (by decide)
    · rfl
  subst same
  obtain ⟨front, split, letters, _⟩ := begins
  obtain ⟨otherFront, otherSplit, otherLetters, _⟩ := beginsToo
  have found := afterFront?_eq_some_iff.mpr ⟨front, split, letters⟩
  have foundToo := afterFront?_eq_some_iff.mpr ⟨otherFront, otherSplit, otherLetters⟩
  exact ⟨rfl, Option.some.inj (found.symm.trans foundToo)⟩

/-- What is left behind a leading connective is shorter than the text. -/
theorem BeginsWith.length_lt {connective : String} (listed : connective ∈ connectives)
    (begins : BeginsWith connective chars behind) : (trimStart behind).length < chars.length := by
  obtain ⟨front, rfl, letters, _⟩ := begins
  have kept : (trimStart behind).length ≤ behind.length := (List.dropWhile_suffix _).length_le
  have some : front ≠ [] := by
    rintro rfl
    exact toList_ne_nil_of_listed listed (List.map_eq_nil_iff.mp letters)
  have longer : 0 < front.length := List.length_pos_iff.mpr some
  rw [List.length_append]
  omega

/-- A leading connective with a space behind it is taken off the front. -/
theorem dropOpening_of_space {connective : String} (listed : connective ∈ connectives)
    (begins : BeginsWith connective chars (' ' :: behind)) :
    dropOpening whereTrimming.openingOverrides chars = behind := by
  have andListed : "and" ∈ connectives := List.mem_cons_self ..
  rw [dropOpening, whereTrimming, List.findSome?_cons]
  cases found : afterFront? "AND ".toList chars with
  | some left =>
      have same := (begins.unique listed andListed (afterFront?_and.mp found)).2
      exact (List.cons.inj same).2.symm
  | none =>
      rcases List.mem_pair.mp listed with rfl | rfl
      · rw [afterFront?_and.mpr begins] at found
        cases found
      · rw [List.findSome?_singleton, afterFront?_or.mpr begins, Option.getD_some]

/-- A text without such a connective has none of the openings. -/
theorem dropOpening_of_none (none : ∀ connective ∈ connectives, ∀ behind,
      ¬ BeginsWith connective chars (' ' :: behind)) :
    dropOpening whereTrimming.openingOverrides chars = chars := by
  have noAnd : afterFront? "AND ".toList chars = Option.none := by
    rw [Option.eq_none_iff_forall_ne_some]
    intro left found
    exact none "and" (by simp [connectives]) left (afterFront?_and.mp found)
  have noOr : afterFront? "OR ".toList chars = Option.none := by
    rw [Option.eq_none_iff_forall_ne_some]
    intro left found
    exact none "or" (by simp [connectives]) left (afterFront?_or.mp found)
  rw [dropOpening, whereTrimming, List.findSome?_cons, noAnd, List.findSome?_singleton, noOr,
    Option.getD_none]

end

/-! ## Plain conditions -/

/-- A text of which a `WHERE` clause makes what the general clause makes: a connective that leads it
has a space behind it (so it does not stand alone), and what is left without the connective, or all
of the text if it has none, does not begin with a keyword. -/
structure IsPlain (chars : List Char) : Prop where
  space : ∀ connective ∈ connectives, ∀ behind,
    BeginsWith connective (trim chars) behind → behind.head? = some ' '
  noKeyword : ∀ rest, Remains (trim chars) rest → hasWhere rest = false

section

variable {chars rest : List Char}

/-- What the general clause for conditions leaves of a text. -/
def leftGenerally (chars : List Char) : List Char :=
  trim (dropOpening whereTrimming.openingOverrides (trim chars))

theorem trimmed?_whereTrimming (chars : List Char) :
    trimmed? whereTrimming chars =
      (nonempty? (leftGenerally chars)).map ("WHERE ".toList ++ ·) := rfl

/-- The general clause takes off what the `WHERE` clause takes off, where a space is behind it, and
nothing else. -/
theorem leftGenerally_of_space {connective : String} (listed : connective ∈ connectives)
    {behind : List Char} (begins : BeginsWith connective (trim chars) (' ' :: behind)) :
    leftGenerally chars = trimStart (' ' :: behind) := by
  obtain ⟨front, split, _⟩ := id begins
  have suffix : trimStart behind <:+ trim chars := by
    rw [split]
    exact (List.dropWhile_suffix _).trans ((List.suffix_cons ' ' behind).trans
      (List.suffix_append front _))
  have ends : StopsAt isBlank (trimStart behind).reverse :=
    (trim_stopsAt chars).2.of_front (List.reverse_prefix.mpr suffix)
  rw [leftGenerally, dropOpening_of_space listed begins, trim, trimEnd_eq_self ends]
  rfl

theorem leftGenerally_of_none (none : ∀ connective ∈ connectives, ∀ behind,
      ¬ BeginsWith connective (trim chars) (' ' :: behind)) :
    leftGenerally chars = trim chars := by
  rw [leftGenerally, dropOpening_of_none none, trim_trim]

theorem Remains.unique {other : List Char} (remains : Remains chars rest)
    (remainsToo : Remains chars other) : rest = other :=
  (dropConnective_eq_iff.mpr remains).symm.trans (dropConnective_eq_iff.mpr remainsToo)

/-- The general clause leaves what the `WHERE` clause leaves, or all of the text. -/
theorem leftGenerally_eq_or (remains : Remains (trim chars) rest) :
    leftGenerally chars = rest ∨ leftGenerally chars = trim chars := by
  by_cases spaced : ∃ connective ∈ connectives, ∃ behind,
      BeginsWith connective (trim chars) (' ' :: behind)
  · obtain ⟨connective, listed, behind, begins⟩ := spaced
    rw [leftGenerally_of_space listed begins]
    exact .inl (Remains.unique (.inl ⟨connective, listed, _, begins, rfl⟩) remains)
  · refine .inr (leftGenerally_of_none ?_)
    intro connective listed behind begins
    exact spaced ⟨connective, listed, behind, begins⟩

/-- The two clauses leave the same exactly where a space is behind the leading connective. -/
theorem leftGenerally_eq_iff (remains : Remains (trim chars) rest) :
    leftGenerally chars = rest ↔ ∀ connective ∈ connectives, ∀ behind,
      BeginsWith connective (trim chars) behind → behind.head? = some ' ' := by
  constructor
  · intro same connective listed behind begins
    by_contra other
    have none : ∀ connective ∈ connectives, ∀ behind,
        ¬ BeginsWith connective (trim chars) (' ' :: behind) := by
      intro connective listedToo behind beginsToo
      rw [(begins.unique listed listedToo beginsToo).2] at other
      exact other rfl
    have behindLeft := remains.unique (.inl ⟨connective, listed, behind, begins, rfl⟩)
    have shorter := begins.length_lt listed
    rw [← leftGenerally_of_none none, same, behindLeft] at shorter
    exact Nat.lt_irrefl _ shorter
  · intro space
    rcases remains with ⟨connective, listed, behind, begins, rfl⟩ | ⟨none, rfl⟩
    · obtain ⟨after, rfl⟩ := List.head?_eq_some_iff.mp (space connective listed behind begins)
      exact leftGenerally_of_space listed begins
    · exact leftGenerally_of_none fun connective listed behind =>
        none connective listed (' ' :: behind)

theorem isPlain_iff (remains : Remains (trim chars) rest) :
    IsPlain chars ↔ leftGenerally chars = rest ∧ hasWhere rest = false := by
  rw [leftGenerally_eq_iff remains]
  constructor
  · intro plain
    exact ⟨plain.space, plain.noKeyword rest remains⟩
  · rintro ⟨space, noKeyword⟩
    refine ⟨space, fun other remainsToo => ?_⟩
    rwa [← remains.unique remainsToo]

/-- **The two clauses for conditions agree exactly on plain texts.** -/
theorem where?_eq_trimmed?_iff : where? chars = trimmed? whereTrimming chars ↔ IsPlain chars := by
  obtain ⟨rest, remains⟩ : ∃ rest, Remains (trim chars) rest := ⟨_, dropConnective_eq_iff.mp rfl⟩
  rw [isPlain_iff remains, where?, dropConnective_eq_iff.mpr remains, trimmed?_whereTrimming]
  constructor
  · intro same
    by_cases nothing : rest = []
    · subst nothing
      have noClause := Option.map_eq_none_iff.mp same.symm
      refine ⟨?_, rfl⟩
      by_contra some
      rw [ClauseKind.nonempty?_eq_some_iff.mpr ⟨rfl, some⟩] at noClause
      cases noClause
    · rw [ClauseKind.nonempty?_eq_some_iff.mpr ⟨rfl, nothing⟩, Option.map_some] at same
      obtain ⟨kept, keeps, equal⟩ := Option.map_eq_some_iff.mp same.symm
      obtain ⟨rfl, _⟩ := ClauseKind.nonempty?_eq_some_iff.mp keeps
      -- With a keyword of its own the text would have to be longer than what is left of it.
      have notLonger : rest.length ≤ (leftGenerally chars).length := by
        rcases leftGenerally_eq_or remains with left | left
        · rw [left]
        · rw [left]
          exact remains.isSuffix.length_le
      cases own : hasWhere rest with
      | true =>
          rw [if_pos own] at equal
          have lengths := congrArg List.length equal
          rw [List.length_append] at lengths
          have word : "WHERE ".toList.length = 6 := rfl
          omega
      | false =>
          rw [own, if_neg Bool.false_ne_true] at equal
          exact ⟨List.append_cancel_left equal, rfl⟩
  · rintro ⟨rfl, noKeyword⟩
    apply Option.map_congr
    intro text keeps
    obtain ⟨rfl, _⟩ := ClauseKind.nonempty?_eq_some_iff.mp keeps
    rw [noKeyword, if_neg Bool.false_ne_true]

end

end Clause

namespace Node

/-- **Which clauses abbreviate general ones.** A `SET` clause is the general clause with the word
`SET` and a comma as its only ending, whatever its parts contribute.  A `WHERE` clause is the
general clause with the word `WHERE` and the openings `AND ` and `OR ` exactly if what its parts
contribute, if anything, is a plain text. -/
theorem shorthand_agrees (scope : Scope) (body : List Node) :
    (setClause body).render scope = (trim Clause.setTrimming body).render scope ∧
      ((whereClause body).render scope = (trim Clause.whereTrimming body).render scope ↔
        ∀ fragment, renderAll scope body = .ok (some fragment) →
          Clause.IsPlain fragment.sql.toList) := by
  have assignments := @ClauseKind.render_node_eq_iff .assignment (.general Clause.setTrimming)
    scope body
  have conditions := @ClauseKind.render_node_eq_iff .condition (.general Clause.whereTrimming)
    scope body
  constructor
  · apply assignments.mpr
    intro fragment _
    exact (Clause.trimmed?_setTrimming fragment.sql.toList).symm
  · refine conditions.trans (forall₂_congr fun fragment _ => ?_)
    exact Clause.where?_eq_trimmed?_iff

/-- What the parts of a search contribute is plain: a space is behind its connective. -/
theorem orderFilter_isPlain {fragment : Fragment}
    (renders : renderAll (.root orderOwner) orderFilter = .ok (some fragment)) :
    Clause.IsPlain fragment.sql.toList := by
  have sql : (renderAll (.root orderOwner) orderFilter).map (Option.map Fragment.sql) =
      .ok (some "AND owner = ? OR order_no = 1") := by decide +kernel
  rw [renders] at sql
  have text : fragment.sql = "AND owner = ? OR order_no = 1" := by
    simpa [Except.map] using sql
  rw [text]
  have remains : Clause.Remains (Text.trim "AND owner = ? OR order_no = 1".toList)
      "owner = ? OR order_no = 1".toList := Clause.dropConnective_eq_iff.mp (by decide +kernel)
  exact (Clause.isPlain_iff remains).mpr (by decide +kernel)

theorem shorthand_agrees_orderFilter :
    (∀ fragment, renderAll (.root orderOwner) orderFilter = .ok (some fragment) →
        Clause.IsPlain fragment.sql.toList) ∧
      (whereClause orderFilter).render (.root orderOwner) =
        (trim Clause.whereTrimming orderFilter).render (.root orderOwner) :=
  ⟨fun _ => orderFilter_isPlain,
    (shorthand_agrees (.root orderOwner) orderFilter).2.mpr fun _ => orderFilter_isPlain⟩

/-- A connective in front of a line break is no opening of the general clause. -/
example : Clause.where? "and\nid = 1".toList ≠
    Clause.trimmed? Clause.whereTrimming "and\nid = 1".toList := by
  decide +kernel

end Node

end SqlTemplate
