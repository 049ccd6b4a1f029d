import SqlTemplate.Proofs.Template.Clause
import SqlTemplate.Proofs.Text.Affix
import SqlTemplate.Proofs.Text.Blank
import SqlTemplate.Proofs.Text.Letter

/-!
# Conditions

The text of a `WHERE` clause is trimmed, loses one leading connective and is introduced by `WHERE`,
unless it brings a `where` of its own.  What the removal of a connective leaves is said here without
the function that removes it (`Clause.Remains`): only a whole word is a connective, and whatever
blank ends the word, the connective goes.

**A clause has a normal form** (`Node.where_normalForm`): it is missing exactly where nothing is
left, and otherwise it is the word `where` in some case, one space, and a text that is not blank and
ends with no blank.  The texts of this form are the ones that making a clause leaves as they are
(`Clause.where?_of_isCondition`), so a clause inside of a clause changes nothing.

**A `where` of its own is kept exactly where a space follows it** (`Node.where_ownKeyword`).  A
connective is a word in front of any blank, and the keyword is one in front of a space only: a text
that goes on in the next line gets a second keyword (`Node.where_doubledKeyword`).
-/

namespace SqlTemplate

set_option autoImplicit false

open Outcome

namespace Clause

open Text

/-! ## Leading connectives -/

/-- Whether a word ends in front of a text: it is empty or starts with a blank. -/
def EndsWord (behind : List Char) : Prop := StopsAt (fun c => !isBlank c) behind

/-- A text that begins with a whole word, the case ignored, and what is behind the word. -/
def BeginsWith (word : String) (chars behind : List Char) : Prop :=
  ∃ front, chars = front ++ behind ∧ SameLetters word.toList front ∧ EndsWord behind

/-- What is left of a text when one leading connective is taken away, with the blanks behind it. -/
def Remains (chars rest : List Char) : Prop :=
  (∃ connective ∈ connectives, ∃ behind,
      BeginsWith connective chars behind ∧ rest = trimStart behind) ∨
    ((∀ connective ∈ connectives, ∀ behind, ¬ BeginsWith connective chars behind) ∧ rest = chars)

theorem afterConnective?_eq_some_iff {connective : String} {chars rest : List Char} :
    afterConnective? connective chars = some rest ↔
      ∃ behind, BeginsWith connective chars behind ∧ rest = trimStart behind := by
  constructor
  · intro found
    rw [afterConnective?] at found
    split at found
    · rename_i whole
      obtain ⟨front, split, letters⟩ := afterFront?_eq_some_iff.mp whole
      cases found
      exact ⟨[], ⟨front, split, letters, .nil⟩, rfl⟩
    · rename_i c behind front
      split at found
      · rename_i blank
        obtain ⟨front, split, letters⟩ := afterFront?_eq_some_iff.mp front
        cases found
        refine ⟨c :: behind, ⟨front, split, letters, .cons (by simp [blank])⟩, ?_⟩
        rw [trimStart, trimStart, List.dropWhile_cons_of_pos blank]
      · cases found
    · cases found
  · rintro ⟨behind, ⟨front, split, letters, ends⟩, rfl⟩
    have after := afterFront?_eq_some_iff.mpr ⟨front, split, letters⟩
    rw [afterConnective?, after]
    cases behind with
    | nil => rfl
    | cons c behind =>
        have blank : isBlank c = true := by simpa using ends c behind rfl
        show (if isBlank c then some (trimStart behind) else none) = _
        rw [if_pos blank, trimStart, trimStart, List.dropWhile_cons_of_pos blank]

/-- A text that begins with a word begins with its first letter. -/
theorem BeginsWith.head? {word : String} {chars behind : List Char}
    (begins : BeginsWith word chars behind) (some : word.toList ≠ []) :
    chars.head?.map Char.toLower = word.toList.head?.map Char.toLower := by
  obtain ⟨front, rfl, letters, _⟩ := begins
  exact letters.head?_append some behind

/-- No text begins with two connectives. -/
theorem afterConnective?_and_eq_none {chars behind : List Char}
    (begins : BeginsWith "or" chars behind) : afterConnective? "and" chars = none := by
  rw [Option.eq_none_iff_forall_ne_some]
  intro rest found
  obtain ⟨other, beginsToo, _⟩ := afterConnective?_eq_some_iff.mp found
  have letters := (begins.head? (by decide)).symm.trans (beginsToo.head? (by decide))
  exact absurd letters (by decide)

/-- What is left without a leading connective. -/
theorem dropConnective_eq_iff {chars rest : List Char} :
    dropConnective chars = rest ↔ Remains chars rest := by
  constructor
  · rintro rfl
    rw [dropConnective]
    cases found : connectives.findSome? fun connective => afterConnective? connective chars with
    | none =>
        refine .inr ⟨fun connective listed behind begins => ?_, rfl⟩
        have missing := List.findSome?_eq_none_iff.mp found connective listed
        rw [afterConnective?_eq_some_iff.mpr ⟨behind, begins, rfl⟩] at missing
        cases missing
    | some left =>
        obtain ⟨connective, listed, leaves⟩ := List.exists_of_findSome?_eq_some found
        obtain ⟨behind, begins, equal⟩ := afterConnective?_eq_some_iff.mp leaves
        exact .inl ⟨connective, listed, behind, begins, equal⟩
  · rintro (⟨connective, listed, behind, begins, rfl⟩ | ⟨none, rfl⟩)
    · have leaves := afterConnective?_eq_some_iff.mpr ⟨behind, begins, rfl⟩
      rcases List.mem_pair.mp listed with rfl | rfl
      · simp [dropConnective, connectives, leaves]
      · simp [dropConnective, connectives, afterConnective?_and_eq_none begins, leaves]
    · have missing : (connectives.findSome? fun connective => afterConnective? connective rest) =
          Option.none := by
        refine List.findSome?_eq_none_iff.mpr fun connective listed => ?_
        rw [Option.eq_none_iff_forall_ne_some]
        intro left found
        obtain ⟨behind, begins, _⟩ := afterConnective?_eq_some_iff.mp found
        exact none connective listed behind begins
      rw [dropConnective, missing]
      rfl

/-- What is left of a text stands at its end. -/
theorem Remains.isSuffix {chars rest : List Char} (remains : Remains chars rest) :
    rest <:+ chars := by
  rcases remains with ⟨connective, _, behind, ⟨front, rfl, _⟩, rfl⟩ | ⟨_, rfl⟩
  · exact (List.dropWhile_suffix isBlank).trans (List.suffix_append front behind)
  · exact List.suffix_refl rest

/-- Nothing is left exactly of a text that is empty or a connective alone. -/
theorem remains_nil_iff {chars : List Char} (stops : StopsAt isBlank chars.reverse) :
    Remains chars [] ↔
      chars = [] ∨ ∃ connective ∈ connectives, SameLetters connective.toList chars := by
  constructor
  · rintro (⟨connective, listed, behind, ⟨front, rfl, letters, _⟩, nothing⟩ | ⟨_, nothing⟩)
    · rw [List.reverse_append] at stops
      have behindStops : StopsAt isBlank behind.reverse :=
        stops.of_front (List.prefix_append _ _)
      have blank : behind.all isBlank = true :=
        List.all_eq_true.mpr (List.dropWhile_eq_nil_iff.mp nothing.symm)
      have none : behind = [] := by
        by_contra some
        rw [all_isBlank_eq_false behindStops some] at blank
        cases blank
      rw [none, List.append_nil]
      exact .inr ⟨connective, listed, letters⟩
    · exact .inl nothing.symm
  · rintro (rfl | ⟨connective, listed, letters⟩)
    · refine .inr ⟨fun connective listed behind begins => ?_, rfl⟩
      obtain ⟨front, split, letters, _⟩ := begins
      obtain ⟨rfl, _⟩ := List.append_eq_nil_iff.mp split.symm
      rcases List.mem_pair.mp listed with rfl | rfl <;> exact absurd letters (by decide)
    · exact .inl ⟨connective, listed, [],
        ⟨chars, (List.append_nil chars).symm, letters, .nil⟩, rfl⟩

/-! ## Keywords -/

/-- Behind a `where` only a space shows that the text has a keyword of its own. -/
theorem hasWhere_append {word : List Char} (keyword : SameLetters "where".toList word)
    (behind : List Char) : hasWhere (word ++ behind) = true ↔ behind.head? = some ' ' := by
  have after : afterFront? "where".toList (word ++ behind) = some behind :=
    afterFront?_eq_some_iff.mpr ⟨word, rfl, keyword⟩
  have split : "where ".toList = "where".toList ++ [' '] := rfl
  rw [hasWhere, split, afterFront?_append, after, Option.bind_some]
  cases behind with
  | nil => simp [afterFront?]
  | cons c behind =>
      rw [List.head?_cons, Option.some_inj, ← sameLetter_space_iff, afterFront?]
      split
      · rename_i same
        exact iff_of_true rfl same
      · rename_i other
        exact iff_of_false Bool.false_ne_true other

/-- A text with a keyword of its own: the word, a space, and what the condition is. -/
theorem exists_of_hasWhere {chars : List Char} (own : hasWhere chars = true) :
    ∃ word text, chars = word ++ ' ' :: text ∧ SameLetters "where".toList word := by
  have split : "where ".toList = "where".toList ++ [' '] := rfl
  obtain ⟨left, found⟩ := Option.isSome_iff_exists.mp own
  rw [split, afterFront?_append] at found
  obtain ⟨behind, after, _⟩ := Option.bind_eq_some_iff.mp found
  obtain ⟨word, rfl, keyword⟩ := afterFront?_eq_some_iff.mp after
  obtain ⟨text, rfl⟩ := List.head?_eq_some_iff.mp ((hasWhere_append keyword behind).mp own)
  exact ⟨word, text, rfl, keyword⟩

/-! ## The form of a condition -/

/-- A condition in its form: the keyword in some case, one space, and a text that is not blank and
ends with no blank. -/
def IsCondition (chars : List Char) : Prop :=
  ∃ word text, chars = word ++ ' ' :: text ∧ SameLetters "where".toList word ∧
    text.all isBlank = false ∧ StopsAt isBlank text.reverse

/-- The clause of a text is what is left of it, with a keyword. -/
theorem where?_eq_some_iff {chars text : List Char} :
    where? chars = some text ↔
      ∃ rest, Remains (trim chars) rest ∧ rest ≠ [] ∧
        text = if hasWhere rest then rest else "WHERE ".toList ++ rest := by
  rw [where?, Option.map_eq_some_iff]
  constructor
  · rintro ⟨rest, kept, rfl⟩
    rw [nonempty?] at kept
    split at kept
    · cases kept
    · rename_i some
      cases kept
      exact ⟨_, dropConnective_eq_iff.mp rfl, mt List.isEmpty_iff.mpr some, rfl⟩
  · rintro ⟨rest, remains, some, rfl⟩
    refine ⟨rest, ?_, rfl⟩
    rw [dropConnective_eq_iff.mpr remains, nonempty?, if_neg (mt List.isEmpty_iff.mp some)]

/-- A text has no clause exactly where nothing is left of it. -/
theorem where?_eq_none_iff {chars : List Char} :
    where? chars = none ↔ Remains (trim chars) [] := by
  rw [where?, Option.map_eq_none_iff, nonempty?, ← dropConnective_eq_iff, ← List.isEmpty_iff]
  split
  · rename_i none
    exact iff_of_true rfl none
  · rename_i some
    exact iff_of_false (Option.some_ne_none _) some

/-- Every clause has the form of a condition. -/
theorem isCondition_of_where? {chars text : List Char} (makes : where? chars = some text) :
    IsCondition text := by
  obtain ⟨rest, remains, some, rfl⟩ := where?_eq_some_iff.mp makes
  have ends : StopsAt isBlank rest.reverse :=
    (trim_stopsAt chars).2.of_front (List.reverse_prefix.mpr remains.isSuffix)
  split
  · rename_i own
    obtain ⟨word, behind, rfl, keyword⟩ := exists_of_hasWhere own
    rw [List.reverse_append, List.reverse_cons, List.append_assoc] at ends
    have behindEnds : StopsAt isBlank behind.reverse := ends.of_front (List.prefix_append _ _)
    have nonempty : behind ≠ [] := by
      rintro rfl
      exact absurd (ends ' ' word.reverse rfl) (by decide)
    exact ⟨word, behind, rfl, keyword, all_isBlank_eq_false behindEnds nonempty, behindEnds⟩
  · exact ⟨"WHERE".toList, rest, rfl, by decide, all_isBlank_eq_false ends some, ends⟩

/-- Lower case turns no blank into the first letter of the keyword. -/
theorem isBlank_of_toLower {c : Char} (lower : c.toLower = 'w') : isBlank c = false := by
  rw [← Bool.not_eq_true]
  intro blank
  exact of_isBlank (fun c => c.toLower ≠ 'w') (by decide +kernel) blank lower

/-- A text in the form of a condition is its own clause. -/
theorem where?_of_isCondition {chars : List Char} (condition : IsCondition chars) :
    where? chars = some chars := by
  obtain ⟨word, text, rfl, keyword, notBlank, ends⟩ := condition
  have first := keyword.head?_append (by decide) (' ' :: text)
  have own : hasWhere (word ++ ' ' :: text) = true := (hasWhere_append keyword _).mpr rfl
  have nonempty : text.reverse ≠ [] := by
    intro none
    rw [List.reverse_eq_nil_iff.mp none] at notBlank
    cases notBlank
  have trimmed : trim (word ++ ' ' :: text) = word ++ ' ' :: text := by
    refine trim_eq_self_iff.mpr ⟨fun c after equal => ?_, ?_⟩
    · rw [equal] at first
      exact isBlank_of_toLower (Option.some.inj first)
    · rw [List.reverse_append, List.reverse_cons, List.append_assoc]
      exact ends.append_of_ne_nil nonempty
  have whole : Remains (word ++ ' ' :: text) (word ++ ' ' :: text) := by
    refine .inr ⟨fun connective listed behind begins => ?_, rfl⟩
    rcases List.mem_pair.mp listed with rfl | rfl <;>
      exact absurd (first.symm.trans (begins.head? (by decide))) (by decide)
  refine where?_eq_some_iff.mpr ⟨word ++ ' ' :: text, ?_, by simp, (if_pos own).symm⟩
  rw [trimmed]
  exact whole

end Clause

/-! ## Clauses of fragments -/

namespace Fragment

/-- The clause of a fragment has the text of a condition and all values of the fragment. -/
theorem clause?_where (fragment : Fragment) :
    fragment.clause? Clause.where? =
      (Clause.where? fragment.sql.toList).map fun text => ⟨.ofList text, fragment.args⟩ := by
  rw [clause?]
  cases makes : Clause.where? fragment.sql.toList with
  | none => rfl
  | some text =>
      obtain ⟨word, behind, rfl, _⟩ := Clause.isCondition_of_where? makes
      exact nonempty?_of_ne (by simp)

/-- A fragment of which nothing is left as a condition: it is blank, or a connective alone. -/
def IsVoid (fragment : Fragment) : Prop :=
  Text.trim fragment.sql.toList = [] ∨
    ∃ connective ∈ Clause.connectives,
      Text.SameLetters connective.toList (Text.trim fragment.sql.toList)

/-- A fragment that is a condition made of another one: it has the form of a condition and the
values of the other one, and its text is what one leading connective leaves of the other text, or
the same behind a keyword. -/
structure IsConditionOf (clause whole : Fragment) : Prop where
  isCondition : Clause.IsCondition clause.sql.toList
  args_eq : clause.args = whole.args
  remains : ∃ rest, Clause.Remains (Text.trim whole.sql.toList) rest ∧
    (clause.sql.toList = rest ∨ clause.sql.toList = "WHERE ".toList ++ rest)

theorem clause?_where_eq_none_iff {fragment : Fragment} :
    fragment.clause? Clause.where? = none ↔ fragment.IsVoid := by
  rw [clause?_where, Option.map_eq_none_iff, Clause.where?_eq_none_iff,
    Clause.remains_nil_iff (Text.trim_stopsAt _).2, IsVoid]

theorem isConditionOf_of_clause? {fragment clause : Fragment}
    (makes : fragment.clause? Clause.where? = some clause) : clause.IsConditionOf fragment := by
  rw [clause?_where] at makes
  obtain ⟨text, kept, rfl⟩ := Option.map_eq_some_iff.mp makes
  have chars : (String.ofList text).toList = text := String.toList_ofList
  obtain ⟨rest, remains, _, equal⟩ := Clause.where?_eq_some_iff.mp kept
  refine ⟨chars.symm ▸ Clause.isCondition_of_where? kept, rfl, rest, remains, ?_⟩
  rw [chars, equal]
  split
  · exact .inl rfl
  · exact .inr rfl

/-- The clause of a clause is the clause. -/
theorem clause?_where_clause {fragment clause : Fragment}
    (makes : fragment.clause? Clause.where? = some clause) :
    clause.clause? Clause.where? = some clause := by
  have condition := (isConditionOf_of_clause? makes).isCondition
  rw [clause?_where, Clause.where?_of_isCondition condition]
  exact congrArg (fun sql => some (Fragment.mk sql clause.args)) String.ofList_toList

/-- The clause of a fragment at whose front a keyword is left. -/
theorem clause?_where_keyword {fragment : Fragment} {word behind : List Char}
    (remains : Clause.Remains (Text.trim fragment.sql.toList) (word ++ behind))
    (keyword : Text.SameLetters "where".toList word) :
    fragment.clause? Clause.where? =
      some ⟨.ofList (if behind.head? = some ' ' then word ++ behind
        else "WHERE ".toList ++ (word ++ behind)), fragment.args⟩ := by
  have some : word ++ behind ≠ [] := by
    have first := keyword.head?_append (by decide) behind
    intro none
    rw [none] at first
    cases first
  have makes := Clause.where?_eq_some_iff.mpr ⟨word ++ behind, remains, some, rfl⟩
  simp only [Clause.hasWhere_append keyword] at makes
  rw [clause?_where, makes]
  rfl

end Fragment

namespace Node

/-- A `WHERE` clause makes a condition of what its parts contribute together. -/
theorem render_whereClause (scope : Scope) (body : List Node) :
    (whereClause body).render scope =
      (renderAll scope body).map fun part => part.bind (Fragment.clause? Clause.where?) :=
  ClauseKind.condition.render_node scope body

/-- A clause inside of a clause changes nothing. -/
theorem render_whereClause_whereClause (scope : Scope) (body : List Node) :
    (whereClause [whereClause body]).render scope = (whereClause body).render scope := by
  rw [render_whereClause, renderAll_singleton, render_whereClause]
  cases renderAll scope body with
  | error fault => rfl
  | ok part =>
      show Except.ok ((part.bind (Fragment.clause? Clause.where?)).bind
        (Fragment.clause? Clause.where?)) = .ok (part.bind (Fragment.clause? Clause.where?))
      cases made : part.bind (Fragment.clause? Clause.where?) with
      | none => rfl
      | some clause =>
          obtain ⟨fragment, _, makes⟩ := Option.bind_eq_some_iff.mp made
          exact congrArg Except.ok (Fragment.clause?_where_clause makes)

/-- **A clause has a normal form.** Where the parts of a clause can be rendered, so can the clause.
It is missing exactly where its parts contribute nothing, or nothing that is left as a condition;
otherwise it is a condition made of what they contribute.  A clause inside of a clause changes
nothing, whether its parts can be rendered or not. -/
theorem where_normalForm (scope : Scope) (body : List Node) :
    (∀ part, renderAll scope body = .ok part →
        ∃ clause, (whereClause body).render scope = .ok clause ∧
          (clause = none ↔ part = none ∨ ∃ whole, part = some whole ∧ whole.IsVoid) ∧
            ∀ made, clause = some made → ∃ whole, part = some whole ∧ made.IsConditionOf whole) ∧
      (whereClause [whereClause body]).render scope = (whereClause body).render scope := by
  refine ⟨fun part renders => ?_, render_whereClause_whereClause scope body⟩
  refine ⟨part.bind (Fragment.clause? Clause.where?), ?_, ?_, fun made makes => ?_⟩
  · rw [render_whereClause, renders]
    rfl
  · cases part with
    | none => simp
    | some whole => simp [Fragment.clause?_where_eq_none_iff]
  · obtain ⟨whole, rfl, makes⟩ := Option.bind_eq_some_iff.mp makes
    exact ⟨whole, rfl, Fragment.isConditionOf_of_clause? makes⟩

/-- The parts of a search: each begins with a connective, and one has a name that begins like
one. -/
def orderFilter : List Node :=
  [.text ⟨"AND owner = #{owner}", "AND owner = ?", ["owner"], false⟩,
    .text ⟨"OR order_no = 1", "OR order_no = 1", [], false⟩]

/-- The owner of orders. -/
def orderOwner : Params := .named [("owner", .text "Ada")]

theorem where_normalForm_orderFilter : ∃ whole,
    renderAll (.root orderOwner) orderFilter = .ok (some whole) ∧
      whole.sql = "AND owner = ? OR order_no = 1" ∧
        ∃ clause, (whereClause orderFilter).render (.root orderOwner) = .ok clause ∧
          (clause = none ↔
            some whole = none ∨ ∃ other, some whole = some other ∧ other.IsVoid) ∧
            ∀ made, clause = some made →
              ∃ other, some whole = some other ∧ made.IsConditionOf other := by
  have rendered : (renderAll (.root orderOwner) orderFilter).map (Option.map Fragment.sql) =
      .ok (some "AND owner = ? OR order_no = 1") := by decide +kernel
  obtain ⟨part, renders, equal⟩ := map_eq_ok_iff.mp rendered
  obtain ⟨whole, rfl, sql⟩ := Option.map_eq_some_iff.mp equal
  exact ⟨whole, renders, sql, (where_normalForm (.root orderOwner) orderFilter).1 _ renders⟩

/-- A name that begins like a connective stays whole. -/
example : Clause.where? "order_no = 1".toList = some "WHERE order_no = 1".toList := by
  decide +kernel

/-! ## Keywords of parts -/

/-- **A `where` of its own is kept exactly where a space follows it.** If the text that the parts of
a clause give begins with the keyword, trimmed and without a leading connective, then the clause is
that text where a space is behind the keyword, and has a second keyword in front of it where
something else is. -/
theorem where_ownKeyword (scope : Scope) (body : List Node) {fragment : Fragment}
    (renders : renderAll scope body = .ok (some fragment)) {word behind : List Char}
    (remains : Clause.Remains (Text.trim fragment.sql.toList) (word ++ behind))
    (keyword : Text.SameLetters "where".toList word) :
    (whereClause body).render scope =
      .ok (some ⟨.ofList (if behind.head? = some ' ' then word ++ behind
        else "WHERE ".toList ++ (word ++ behind)), fragment.args⟩) := by
  rw [render_whereClause, renders]
  exact congrArg Except.ok (Fragment.clause?_where_keyword remains keyword)

/-- A condition with a keyword of its own that goes on in the next line. -/
def nextLine : TextNode := ⟨"where\nid = 1", "where\nid = 1", [], false⟩

/-- What is left of the condition is all of it: no connective leads it. -/
theorem nextLine_remains :
    Clause.Remains (Text.trim nextLine.sql.toList) ("where".toList ++ '\n' :: "id = 1".toList) :=
  Clause.dropConnective_eq_iff.mp (by decide +kernel)

theorem where_ownKeyword_nextLine :
    renderAll (.root .none) [.text nextLine] = .ok (some ⟨nextLine.sql, []⟩) ∧
      Clause.Remains (Text.trim nextLine.sql.toList)
          ("where".toList ++ '\n' :: "id = 1".toList) ∧
        Text.SameLetters "where".toList "where".toList ∧
          (whereClause [.text nextLine]).render (.root .none) =
            .ok (some ⟨.ofList (if ('\n' :: "id = 1".toList).head? = some ' '
                then "where".toList ++ '\n' :: "id = 1".toList
                else "WHERE ".toList ++ ("where".toList ++ '\n' :: "id = 1".toList)), []⟩) := by
  have renders : renderAll (.root .none) [.text nextLine] = .ok (some ⟨nextLine.sql, []⟩) := rfl
  have keyword : Text.SameLetters "where".toList "where".toList := rfl
  exact ⟨renders, nextLine_remains, keyword,
    where_ownKeyword (.root .none) [.text nextLine] renders nextLine_remains keyword⟩

/-- **A keyword in front of a line break is doubled.** The text is kept as it stands, and begins
with the keyword and a blank; its clause begins with two keywords. -/
theorem where_doubledKeyword :
    TextNode.verbatim "where\nid = 1" = .ok nextLine ∧
      renderAll (.root .none) [.text nextLine] = .ok (some ⟨"where\nid = 1", []⟩) ∧
        Clause.Remains (Text.trim nextLine.sql.toList)
            ("where".toList ++ '\n' :: "id = 1".toList) ∧
          Text.isBlank '\n' = true ∧
            (whereClause [.text nextLine]).render (.root .none) =
              .ok (some ⟨"WHERE where\nid = 1", []⟩) := by
  have kept : TextNode.verbatim "where\nid = 1" = .ok nextLine := by decide +kernel
  refine ⟨kept, rfl, nextLine_remains, rfl, ?_⟩
  have makes : Clause.where? nextLine.sql.toList = some "WHERE where\nid = 1".toList := by
    decide +kernel
  have made := Fragment.clause?_where ⟨nextLine.sql, []⟩
  rw [makes, Option.map_some, String.ofList_toList] at made
  rw [render_whereClause]
  exact congrArg Except.ok made

end Node

end SqlTemplate
