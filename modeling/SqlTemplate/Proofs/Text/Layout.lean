import Mathlib.Data.List.DropRight
import Mathlib.Data.List.Forall2
import SqlTemplate.Proofs.Text.Spacing

/-!
# The layout of statement text

Read from left to right, a text is made of closed quoted literals, runs of blanks and other
characters.  A quote with a partner to its right begins a literal, whatever stands in between; a
quote without one is a character as any other.  This is said here by what the portions of a text
are and where they end (`LaidOut`), and not by the state of a reader.  Every text reads so in
exactly one way.

Uniform spacing writes one space for each run between other portions, nothing for the runs at the
ends, and all other portions as they are; and what it writes is read in these portions again
(`uniform_laidOut`).  So uniform spacing is a canonical form: two texts have the same one exactly
when they differ in nothing but the blanks of their runs and those at their ends
(`uniform_isCanonical`).
-/

namespace SqlTemplate.Text

set_option autoImplicit false

/-! ## Portions of a text -/

/-- A portion of a text: a closed quoted literal, a run of blanks, or another character. -/
inductive Portion where
  | literal (quote : Char) (inside : List Char)
  | gap (blanks : List Char)
  | other (c : Char)
  deriving DecidableEq

namespace Portion

/-- The characters of a portion. -/
def chars : Portion → List Char
  | literal quote inside => quote :: (inside ++ [quote])
  | gap blanks => blanks
  | other c => [c]

/-- Whether a portion is a run of blanks. -/
def isGap : Portion → Bool
  | gap _ => true
  | _ => false

/-- A portion with one space in the place of a run of blanks. -/
def tightened : Portion → Portion
  | gap _ => gap [' ']
  | portion => portion

/-- Portions that differ at most in the blanks of a run. -/
inductive Alike : Portion → Portion → Prop
  | same (portion : Portion) : Alike portion portion
  | gap (left right : List Char) : Alike (gap left) (gap right)

end Portion

/-- A quote of either kind. -/
def IsQuote (c : Char) : Prop := c = '\'' ∨ c = '"'

/-- How a text reads from left to right.  A quote with a partner to its right begins a literal,
which the first such partner ends; a run of blanks goes on as long as there are blanks; every other
character stands alone. -/
inductive LaidOut : List Char → List Portion → Prop
  | nil : LaidOut [] []
  | literal {quote : Char} {inside behind : List Char} {portions : List Portion}
      (isQuote : IsQuote quote) (closed : quote ∉ inside) (later : LaidOut behind portions) :
      LaidOut (quote :: (inside ++ quote :: behind)) (.literal quote inside :: portions)
  | gap {blanks behind : List Char} {portions : List Portion} (some : blanks ≠ [])
      (blank : blanks.all isBlank = true) (whole : StopsAt isBlank behind)
      (later : LaidOut behind portions) : LaidOut (blanks ++ behind) (.gap blanks :: portions)
  | other {c : Char} {behind : List Char} {portions : List Portion} (notBlank : isBlank c = false)
      (unpaired : IsQuote c → c ∉ behind) (later : LaidOut behind portions) :
      LaidOut (c :: behind) (.other c :: portions)

theorem IsQuote.notBlank {c : Char} (isQuote : IsQuote c) : isBlank c = false := by
  rcases isQuote with rfl | rfl <;> rfl

theorem opensLiteral_iff {c : Char} {after : List Char} :
    opensLiteral c after = true ↔ IsQuote c ∧ c ∈ after := by
  simp [opensLiteral, IsQuote]

/-- Every text can be read so. -/
theorem exists_laidOut (chars : List Char) : ∃ portions, LaidOut chars portions := by
  -- Behind a portion the text is shorter.
  induction shorter : chars.length using Nat.strongRecOn generalizing chars with
  | ind length ih =>
      cases chars with
      | nil => exact ⟨[], .nil⟩
      | cons c after =>
          by_cases blank : isBlank c = true
          · have stops : StopsAt isBlank (after.dropWhile isBlank) := trimStart_stopsAt after
            have less : (after.dropWhile isBlank).length < length := by
              have dropped := (List.dropWhile_suffix isBlank (l := after)).length_le
              rw [← shorter, List.length_cons]
              omega
            obtain ⟨portions, later⟩ := ih _ less _ rfl
            have run : (c :: after.takeWhile isBlank).all isBlank = true := by
              rw [List.all_cons, blank, List.all_takeWhile]
              rfl
            have whole := LaidOut.gap (List.cons_ne_nil _ _) run stops later
            rw [List.cons_append, List.takeWhile_append_dropWhile] at whole
            exact ⟨_, whole⟩
          · rw [Bool.not_eq_true] at blank
            by_cases opens : IsQuote c ∧ c ∈ after
            · obtain ⟨inside, behind, rfl, closed⟩ := List.eq_append_cons_of_mem opens.2
              have less : behind.length < length := by
                rw [← shorter]
                simp
                omega
              obtain ⟨portions, later⟩ := ih _ less _ rfl
              exact ⟨_, .literal opens.1 closed later⟩
            · obtain ⟨portions, later⟩ := ih after.length (by rw [← shorter]; simp) after rfl
              exact ⟨_, .other blank (fun isQuote member => opens ⟨isQuote, member⟩) later⟩

namespace LaidOut

variable {chars : List Char} {portions : List Portion}

/-- A text is the characters of its portions one behind the other. -/
theorem chars_eq (laidOut : LaidOut chars portions) : portions.flatMap Portion.chars = chars := by
  induction laidOut with
  | nil => rfl
  | literal _ _ _ ih => simp [Portion.chars, ih]
  | gap _ _ _ _ ih => simp [Portion.chars, ih]
  | other _ _ _ ih => simp [Portion.chars, ih]

/-- What the first portion is, by the first character. -/
theorem cons_cases {c : Char} {after : List Char} (laidOut : LaidOut (c :: after) portions) :
    (∃ inside behind more, IsQuote c ∧ c ∉ inside ∧ after = inside ++ c :: behind ∧
        portions = .literal c inside :: more ∧ LaidOut behind more) ∨
      (∃ more, isBlank c = true ∧ portions = .gap (c :: after.takeWhile isBlank) :: more ∧
        LaidOut (after.dropWhile isBlank) more) ∨
      ∃ more, isBlank c = false ∧ (IsQuote c → c ∉ after) ∧ portions = .other c :: more ∧
        LaidOut after more := by
  generalize whole : c :: after = chars at laidOut
  cases laidOut with
  | nil => cases whole
  | literal isQuote closed later =>
      cases whole
      exact .inl ⟨_, _, _, isQuote, closed, rfl, rfl, later⟩
  | @gap blanks behind more some blank stops later =>
      obtain ⟨first, blanks, rfl⟩ := List.exists_cons_of_ne_nil some
      rw [List.cons_append] at whole
      obtain ⟨rfl, rfl⟩ := List.cons.inj whole
      rw [List.all_cons, Bool.and_eq_true, List.all_eq_true] at blank
      have taken := stops.takeWhile_append blank.2
      have dropped := stops.dropWhile_append blank.2
      exact .inr (.inl ⟨_, blank.1, by rw [taken], by rwa [dropped]⟩)
  | other notBlank unpaired later =>
      cases whole
      exact .inr (.inr ⟨_, notBlank, unpaired, rfl, later⟩)

/-- A text reads in only one way. -/
theorem unique (laidOut : LaidOut chars portions) {others : List Portion}
    (other : LaidOut chars others) : portions = others := by
  induction laidOut generalizing others with
  | nil =>
      generalize none : ([] : List Char) = chars at other
      cases other with
      | nil => rfl
      | literal | other => cases none
      | gap some => exact absurd (List.append_eq_nil_iff.mp none.symm).1 some
  | @literal quote inside behind portions isQuote closed _ ih =>
      rcases other.cons_cases with ⟨_, _, more, _, otherClosed, same, rfl, later⟩ |
        ⟨_, blank, _⟩ | ⟨_, _, unpaired, _⟩
      · obtain ⟨rfl, rfl⟩ := front_mark_inj closed otherClosed same
        rw [ih later]
      · rw [isQuote.notBlank] at blank
        cases blank
      · exact absurd (by simp) (unpaired isQuote)
  | @gap blanks behind portions some blank stops _ ih =>
      obtain ⟨first, blanks, rfl⟩ := List.exists_cons_of_ne_nil some
      rw [List.cons_append] at other
      rw [List.all_cons, Bool.and_eq_true, List.all_eq_true] at blank
      have taken := stops.takeWhile_append blank.2
      have dropped := stops.dropWhile_append blank.2
      rcases other.cons_cases with ⟨_, _, _, isQuote, _⟩ | ⟨more, _, rfl, later⟩ |
        ⟨_, notBlank, _⟩
      · rw [isQuote.notBlank] at blank
        cases blank.1
      · rw [taken]
        rw [dropped] at later
        rw [ih later]
      · rw [blank.1] at notBlank
        cases notBlank
  | other notBlank unpaired _ ih =>
      rcases other.cons_cases with ⟨_, _, _, isQuote, _, rfl, _⟩ | ⟨_, blank, _⟩ |
        ⟨more, _, _, rfl, later⟩
      · exact absurd (by simp) (unpaired isQuote)
      · rw [notBlank] at blank
        cases blank
      · rw [ih later]

/-- The parts of a sequence of portions are read on their own as they are read together. -/
theorem split {lefts rights : List Portion} (laidOut : LaidOut chars (lefts ++ rights)) :
    LaidOut (lefts.flatMap Portion.chars) lefts ∧
      LaidOut (rights.flatMap Portion.chars) rights := by
  induction lefts generalizing chars with
  | nil =>
      rw [List.nil_append] at laidOut
      rw [laidOut.chars_eq]
      exact ⟨.nil, laidOut⟩
  | cons portion lefts ih =>
      rw [List.cons_append] at laidOut
      rw [List.flatMap_cons]
      cases laidOut with
      | @literal quote inside behind _ isQuote closed later =>
          obtain ⟨front, back⟩ := ih later
          refine ⟨?_, back⟩
          simpa [Portion.chars] using LaidOut.literal isQuote closed front
      | @gap blanks behind _ some blank whole later =>
          obtain ⟨front, back⟩ := ih later
          rw [← later.chars_eq, List.flatMap_append] at whole
          exact ⟨.gap some blank (whole.of_front (List.prefix_append _ _)) front, back⟩
      | @other c behind _ notBlank unpaired later =>
          obtain ⟨front, back⟩ := ih later
          rw [← later.chars_eq, List.flatMap_append] at unpaired
          exact ⟨.other notBlank (fun isQuote member =>
            unpaired isQuote (List.mem_append_left _ member)) front, back⟩

end LaidOut

/-! ## Uniform spacing -/

/-- Portions without the runs of blanks at their ends. -/
def inner (portions : List Portion) : List Portion :=
  (portions.dropWhile Portion.isGap).rdropWhile Portion.isGap

/-- Portions with one space for each run of blanks between others, and with none at the ends. -/
def settled (portions : List Portion) : List Portion := (inner portions).map Portion.tightened

/-- A closed literal is written as it is. -/
theorem respace_literal {quote : Char} {inside : List Char} (closed : quote ∉ inside)
    (behind : List Char) :
    respace (.literal quote) (inside ++ quote :: behind) =
      inside ++ quote :: respace .word behind := by
  induction inside with
  | nil => rw [List.nil_append, respace, if_pos rfl, List.nil_append]
  | cons c inside ih =>
      obtain ⟨other, later⟩ := List.ne_and_not_mem_of_not_mem_cons closed
      rw [List.cons_append, respace, if_neg other.symm, ih later, List.cons_append]

/-- No blank opens a literal. -/
theorem opensLiteral_of_isBlank {c : Char} (blank : isBlank c = true) (after : List Char) :
    opensLiteral c after = false := by
  rw [← Bool.not_eq_true, opensLiteral_iff]
  rintro ⟨isQuote, _⟩
  rw [isQuote.notBlank] at blank
  cases blank

/-- Inside of a run, nothing more is written for its blanks. -/
theorem respace_gap {blanks behind : List Char} (blank : ∀ c ∈ blanks, isBlank c = true)
    (stops : StopsAt isBlank behind) :
    respace .gap (blanks ++ behind) = respace .word behind := by
  induction blanks with
  | nil =>
      cases behind with
      | nil => rfl
      | cons c after =>
          have notBlank := stops c after rfl
          rw [List.nil_append, respace, respace, notBlank, if_neg Bool.false_ne_true,
            if_neg Bool.false_ne_true]
  | cons c blanks ih =>
      obtain ⟨here, others⟩ := List.forall_mem_cons.mp blank
      rw [List.cons_append, respace, opensLiteral_of_isBlank here, if_neg Bool.false_ne_true,
        if_pos here, ih others]

namespace LaidOut

variable {chars : List Char} {portions : List Portion}

/-- Uniform spacing writes one space for each run of blanks and all other portions as they are, and
what it writes is read in these portions. -/
theorem respace_laidOut (laidOut : LaidOut chars portions) :
    LaidOut (respace .word chars) (portions.map Portion.tightened) := by
  induction laidOut with
  | nil => exact .nil
  | @literal quote inside behind portions isQuote closed _ ih =>
      have opens : opensLiteral quote (inside ++ quote :: behind) = true :=
        opensLiteral_iff.mpr ⟨isQuote, by simp⟩
      rw [respace, if_pos opens, respace_literal closed]
      exact .literal isQuote closed ih
  | @gap blanks behind portions some blank whole _ ih =>
      obtain ⟨first, blanks, rfl⟩ := List.exists_cons_of_ne_nil some
      rw [List.all_cons, Bool.and_eq_true, List.all_eq_true] at blank
      rw [List.cons_append, respace, opensLiteral_of_isBlank blank.1, if_neg Bool.false_ne_true,
        if_pos blank.1, respace_gap blank.2 whole]
      exact .gap (List.cons_ne_nil ' ' []) rfl (stopsAt_respace whole) ih
  | @other c behind portions notBlank unpaired _ ih =>
      have alone : opensLiteral c behind = false := by
        rw [← Bool.not_eq_true, opensLiteral_iff]
        exact fun opens => unpaired opens.1 opens.2
      rw [respace, alone, if_neg Bool.false_ne_true, notBlank, if_neg Bool.false_ne_true]
      refine .other notBlank (fun isQuote member => ?_) ih
      rcases mem_respace member with rfl | before
      · cases notBlank
      · exact unpaired isQuote before

/-- Without the run at its front a text is read in the other portions. -/
theorem trimStart_laidOut (laidOut : LaidOut chars portions) :
    LaidOut (trimStart chars) (portions.dropWhile Portion.isGap) := by
  induction laidOut with
  | nil => exact .nil
  | literal isQuote closed later _ =>
      rw [trimStart_eq_self (.cons isQuote.notBlank)]
      exact .literal isQuote closed later
  | @gap blanks behind _ some blank whole later ih =>
      have dropped : trimStart (blanks ++ behind) = behind :=
        whole.dropWhile_append (List.all_eq_true.mp blank)
      rw [trimStart_eq_self whole] at ih
      rw [dropped]
      exact ih
  | other notBlank unpaired later _ =>
      rw [trimStart_eq_self (.cons notBlank)]
      exact .other notBlank unpaired later

/-- Runs of blanks have no other characters. -/
theorem isBlank_of_mem (laidOut : LaidOut chars portions)
    (gaps : ∀ portion ∈ portions, portion.isGap = true) : ∀ c ∈ chars, isBlank c = true := by
  induction laidOut with
  | nil => exact List.forall_mem_nil _
  | literal | other => cases gaps _ (List.mem_cons_self ..)
  | gap _ blank _ _ ih =>
      have ⟨_, others⟩ := List.forall_mem_cons.mp gaps
      exact List.forall_mem_append.mpr ⟨List.all_eq_true.mp blank, ih others⟩

/-- A text whose last portion is no run of blanks ends with no blank. -/
theorem stopsAt_reverse (laidOut : LaidOut chars portions)
    (ends : ∀ last, portions.getLast? = some last → last.isGap = false) :
    StopsAt isBlank chars.reverse := by
  induction laidOut with
  | nil => exact .nil
  | @literal quote inside behind portions isQuote _ _ ih =>
      have later : StopsAt isBlank behind.reverse := ih fun last listed =>
        ends last (by rw [List.getLast?_cons, listed, Option.getD_some])
      have reversed : (quote :: (inside ++ quote :: behind)).reverse =
          behind.reverse ++ quote :: (inside.reverse ++ [quote]) := by simp
      rw [reversed]
      exact later.append (.cons isQuote.notBlank)
  | @gap blanks behind portions _ _ _ laidOut ih =>
      have later : StopsAt isBlank behind.reverse := ih fun last listed =>
        ends last (by rw [List.getLast?_cons, listed, Option.getD_some])
      rw [List.reverse_append]
      refine later.append_of_ne_nil fun none => ?_
      rw [List.reverse_eq_nil_iff] at none
      subst none
      cases laidOut.unique .nil
      cases ends _ rfl
  | @other c behind portions notBlank _ _ ih =>
      have later : StopsAt isBlank behind.reverse := ih fun last listed =>
        ends last (by rw [List.getLast?_cons, listed, Option.getD_some])
      rw [List.reverse_cons]
      exact later.append (.cons notBlank)

/-- Without the run at its end a text is read in the other portions. -/
theorem trimEnd_laidOut (laidOut : LaidOut chars portions) :
    LaidOut (trimEnd chars) (portions.rdropWhile Portion.isGap) := by
  have parts := List.rdropWhile_append_rtakeWhile (p := Portion.isGap) (l := portions)
  have whole := laidOut.chars_eq
  rw [← parts] at laidOut
  rw [← parts, List.flatMap_append] at whole
  obtain ⟨front, back⟩ := laidOut.split
  have blanks := back.isBlank_of_mem fun portion member => List.mem_rtakeWhile_imp member
  have stops := front.stopsAt_reverse fun last listed => by
    have some : portions.rdropWhile Portion.isGap ≠ [] := fun none => by
      rw [none] at listed
      cases listed
    rw [List.getLast?_eq_some_getLast some, Option.some.injEq] at listed
    simpa [listed] using List.rdropWhile_last_not Portion.isGap portions some
  have kept : trimEnd chars = (portions.rdropWhile Portion.isGap).flatMap Portion.chars := by
    rw [← whole, trimEnd, List.reverse_append, stops.dropWhile_append, List.reverse_reverse]
    exact fun c member => blanks c (List.mem_reverse.mp member)
  rw [kept]
  exact front

/-- A trimmed text is read in the portions without the runs at the ends. -/
theorem trim_laidOut (laidOut : LaidOut chars portions) : LaidOut (trim chars) (inner portions) :=
  laidOut.trimStart_laidOut.trimEnd_laidOut

end LaidOut

/-- A text with uniform spacing is read in the settled portions. -/
theorem uniform_laidOut {text : String} {portions : List Portion}
    (laidOut : LaidOut text.toList portions) :
    LaidOut (uniform text).toList (settled portions) := by
  rw [uniform, String.toList_ofList]
  exact laidOut.trim_laidOut.respace_laidOut

/-- Making the spacing uniform twice is making it uniform once. -/
theorem uniform_uniform (text : String) : uniform (uniform text) = uniform text := by
  obtain ⟨portions, laidOut⟩ := exists_laidOut text.toList
  have once := uniform_laidOut laidOut
  have trimmed := congrArg String.toList (trimmed_uniform text)
  rw [Text.trimmed, String.toList_ofList] at trimmed
  have tightened : (settled portions).map Portion.tightened = settled portions := by
    rw [settled, List.map_map]
    exact List.map_congr_left fun portion _ => by cases portion <;> rfl
  have twice := once.respace_laidOut
  rw [tightened] at twice
  rw [uniform, trimmed, ← twice.chars_eq, once.chars_eq, String.ofList_toList]

/-- Portions are alike exactly when they are the same once runs have become spaces. -/
theorem Portion.alike_iff {left right : Portion} :
    left.Alike right ↔ left.tightened = right.tightened := by
  constructor
  · rintro (_ | _) <;> rfl
  · intro same
    cases left with
    | gap =>
        cases right with
        | gap => exact .gap _ _
        | literal | other => cases same
    | literal =>
        cases right with
        | literal =>
            cases same
            exact .same _
        | gap | other => cases same
    | other =>
        cases right with
        | other =>
            cases same
            exact .same _
        | gap | literal => cases same

/-- Texts that differ at most in the blanks of the runs between their portions and in the blanks at
their ends. -/
def SpacedAlike (left right : List Char) : Prop :=
  ∃ lefts rights, LaidOut left lefts ∧ LaidOut right rights ∧
    List.Forall₂ Portion.Alike (inner lefts) (inner rights)

theorem settled_eq_iff {lefts rights : List Portion} :
    settled lefts = settled rights ↔ List.Forall₂ Portion.Alike (inner lefts) (inner rights) := by
  have same : Portion.Alike = fun left right => left.tightened = right.tightened :=
    funext fun left => funext fun right => propext Portion.alike_iff
  rw [same, settled, settled, ← List.forall₂_eq_eq_eq, List.forall₂_map_left_iff,
    List.forall₂_map_right_iff]

/-- **Uniform spacing is a canonical form.** A text has one reading; its uniform spacing has the
portions of that reading in order, with one space for each run of blanks between others and none at
the ends.  A second time it changes nothing, and it takes two texts to the same one exactly when
they differ at most in blanks outside of closed literals. -/
theorem uniform_isCanonical (text : String) :
    ∃ portions, (∀ others, LaidOut text.toList others ↔ others = portions) ∧
      (uniform text).toList = (settled portions).flatMap Portion.chars ∧
        uniform (uniform text) = uniform text ∧
          ∀ other, uniform text = uniform other ↔ SpacedAlike text.toList other.toList := by
  obtain ⟨portions, laidOut⟩ := exists_laidOut text.toList
  refine ⟨portions, fun others => ⟨fun other => other.unique laidOut, fun same => same ▸ laidOut⟩,
    (uniform_laidOut laidOut).chars_eq.symm, uniform_uniform text, fun other => ?_⟩
  constructor
  · intro same
    obtain ⟨others, otherLaidOut⟩ := exists_laidOut other.toList
    have left := uniform_laidOut laidOut
    rw [same] at left
    exact ⟨portions, others, laidOut, otherLaidOut,
      settled_eq_iff.mp (left.unique (uniform_laidOut otherLaidOut))⟩
  · rintro ⟨lefts, rights, left, right, alike⟩
    rw [← String.toList_inj, ← (uniform_laidOut left).chars_eq, ← (uniform_laidOut right).chars_eq,
      settled_eq_iff.mpr alike]

example : uniform "\t two  \"or  three\" \u00a0isn't " = "two \"or  three\" isn't" := by
  decide +kernel

end SqlTemplate.Text
