import SqlTemplate.Proofs.Text.Division
import SqlTemplate.Proofs.Text.Spacing

/-!
# Markers that are left open

A marker that is opened in a text may be closed there, behind it or not at all.  What is read across
the end of a text begins with a marker that the text leaves open (`Marker.LeavesOpen`): if there is
none, or if nothing behind the text closes it, the markers of the whole are those of the text and of
what is behind (`pieces_separate`).

Uniform spacing neither opens nor closes a marker.  So a text with uniform spacing leaves no marker
open that the text itself does not (`leavesOpen_of_uniform`), and has none that does not occur in
the text (`occursIn_of_uniform`).
-/

namespace SqlTemplate.Text

set_option autoImplicit false

/-! ## Markers that are left open -/

/-- A text whose last opening of a marker is not closed. -/
def Marker.LeavesOpen (marker : Marker) (chars : List Char) : Prop :=
  ∃ front behind, chars = front ++ marker.sign :: '{' :: behind ∧ '}' ∉ behind

section

variable {marker : Marker}

theorem Marker.sign_ne (marker : Marker) : marker.sign ≠ '}' := by
  cases marker <;> decide

/-- An opening that is not closed stands at the front or behind the first character. -/
theorem leavesOpen_cons_iff {c : Char} {after : List Char} :
    marker.LeavesOpen (c :: after) ↔
      (c = marker.sign ∧ ∃ behind, after = '{' :: behind ∧ '}' ∉ behind) ∨
        marker.LeavesOpen after := by
  constructor
  · rintro ⟨front, behind, split, unclosed⟩
    cases front with
    | nil =>
        obtain ⟨rfl, rfl⟩ := List.cons.inj split
        exact .inl ⟨rfl, behind, rfl, unclosed⟩
    | cons d front => exact .inr ⟨front, behind, (List.cons.inj split).2, unclosed⟩
  · rintro (⟨rfl, behind, rfl, unclosed⟩ | ⟨front, behind, rfl, unclosed⟩)
    · exact ⟨[], behind, rfl, unclosed⟩
    · exact ⟨c :: front, behind, rfl, unclosed⟩

theorem Marker.LeavesOpen.append_left {behind : List Char} (leavesOpen : marker.LeavesOpen behind)
    (front : List Char) : marker.LeavesOpen (front ++ behind) := by
  obtain ⟨before, rest, rfl, unclosed⟩ := leavesOpen
  exact ⟨front ++ before, rest, by simp, unclosed⟩

/-- What is not closed stands behind every closing brace. -/
theorem leavesOpen_behind_closed {front behind : List Char}
    (leavesOpen : marker.LeavesOpen (front ++ '}' :: behind)) : marker.LeavesOpen behind := by
  induction front with
  | nil =>
      rcases leavesOpen_cons_iff.mp leavesOpen with ⟨closing, _⟩ | later
      · exact absurd closing.symm marker.sign_ne
      · exact later
  | cons c front ih =>
      rcases leavesOpen_cons_iff.mp leavesOpen with ⟨_, rest, split, unclosed⟩ | later
      · cases front with
        | nil =>
            have noBrace : ('}' : Char) ≠ '{' := by decide
            exact absurd (List.cons.inj split).1 noBrace
        | cons d front =>
            obtain ⟨_, rfl⟩ := List.cons.inj split
            exact absurd (by simp) unclosed
      · exact ih later

/-- A text is read marker by marker, and character by character where none starts. -/
theorem marker_induction (marker : Marker) {motive : List Char → Prop} (nil : motive [])
    (whole : ∀ inside behind, '}' ∉ inside → motive behind →
      motive (marker.written inside ++ behind))
    (single : ∀ c after, ¬ marker.startsAt c after = true → motive after → motive (c :: after))
    (chars : List Char) : motive chars := by
  -- Behind a marker the text is shorter.
  induction shorter : chars.length using Nat.strongRecOn generalizing chars with
  | ind length ih =>
      cases chars with
      | nil => exact nil
      | cons c after =>
          by_cases starts : marker.startsAt c after = true
          · obtain ⟨inside, behind, closed, split⟩ := heads_cons_iff.mpr starts
            rw [split] at shorter ⊢
            refine whole inside behind closed (ih behind.length ?_ behind rfl)
            rw [← shorter]
            simp [Marker.written]
            omega
          · exact single c after starts (ih after.length (by rw [← shorter]; simp) after rfl)

/-- A marker that starts only with what is behind a text is opened in the text and closed there. -/
theorem startsAt_append {c : Char} {after behind : List Char}
    (noOpening : ∀ rest, behind ≠ '{' :: rest)
    (starts : marker.startsAt c (after ++ behind) = true) :
    marker.startsAt c after = true ∨
      (c = marker.sign ∧ ∃ rest, after = '{' :: rest ∧ '}' ∉ rest) ∧ '}' ∈ behind := by
  obtain ⟨sign, rest, split, closes⟩ := startsAt_iff.mp starts
  cases after with
  | nil => exact absurd split (noOpening rest)
  | cons d after =>
      obtain ⟨rfl, rfl⟩ := List.cons.inj split
      by_cases closed : '}' ∈ after
      · exact .inl (startsAt_iff.mpr ⟨sign, after, rfl, closed⟩)
      · exact .inr ⟨⟨sign, after, rfl, closed⟩, (List.mem_append.mp closes).resolve_left closed⟩

/-- At a character at which no marker starts, none is read. -/
theorem pieces_cons {c : Char} {after : List Char} (plain : ¬ marker.startsAt c after = true) :
    pieces marker (c :: after) = .char c :: pieces marker after := by
  rw [pieces, piecesFrom, if_neg plain, pieces]

/-- No marker is read across a space unless it is opened in front of it and closed behind it. -/
theorem pieces_separate {front back : List Char}
    (separate : ¬ (marker.LeavesOpen front ∧ '}' ∈ back)) :
    pieces marker (front ++ ' ' :: back) =
      pieces marker front ++ .char ' ' :: pieces marker back := by
  have noOpening : ∀ rest, ' ' :: back ≠ '{' :: rest := by
    intro rest same
    have other : (' ' : Char) ≠ '{' := by decide
    exact other (List.cons.inj same).1
  induction front using marker_induction marker with
  | nil =>
      refine pieces_cons fun starts => ?_
      have other : ' ' ≠ marker.sign := by cases marker <;> decide
      exact other (startsAt_iff.mp starts).1
  | whole inside behind closed ih =>
      have later : ¬ (marker.LeavesOpen behind ∧ '}' ∈ back) :=
        fun both => separate ⟨both.1.append_left _, both.2⟩
      rw [List.append_assoc, pieces_written closed, pieces_written closed, ih later,
        List.cons_append]
  | single c after plain ih =>
      have later : ¬ (marker.LeavesOpen after ∧ '}' ∈ back) :=
        fun both => separate ⟨leavesOpen_cons_iff.mpr (.inr both.1), both.2⟩
      have starts : ¬ marker.startsAt c (after ++ ' ' :: back) = true := fun starts =>
        (startsAt_append noOpening starts).elim plain fun both =>
          separate ⟨leavesOpen_cons_iff.mpr (.inl both.1), by simpa using both.2⟩
      rw [List.cons_append, pieces_cons starts, pieces_cons plain, ih later, List.cons_append]

/-! ## Markers and uniform spacing -/

/-- Uniform spacing keeps all characters that are not blank. -/
theorem mem_respace_of_mem {c : Char} (notBlank : isBlank c = false) {spot : Spot}
    {chars : List Char} (member : c ∈ chars) : c ∈ respace spot chars := by
  fun_induction respace spot chars with
  | case1 => exact member
  | case2 | case3 | case5 | case6 | case8 =>
      rename_i ih
      rcases List.mem_cons.mp member with rfl | later
      · exact List.mem_cons_self ..
      · exact List.mem_cons_of_mem _ (ih later)
  | case4 first after _ blank ih =>
      rcases List.mem_cons.mp member with rfl | later
      · rw [blank] at notBlank
        cases notBlank
      · exact List.mem_cons_of_mem _ (ih later)
  | case7 first after _ blank ih =>
      rcases List.mem_cons.mp member with rfl | later
      · rw [blank] at notBlank
        cases notBlank
      · exact ih later

/-- What uniform spacing writes first, outside of a run of blanks, stands first, unless it is a
space. -/
theorem exists_of_respace_eq_cons {spot : Spot} (noGap : spot ≠ .gap) {c : Char}
    (noSpace : c ≠ ' ') {chars written : List Char} (writes : respace spot chars = c :: written) :
    ∃ after next, chars = c :: after ∧ written = respace next after := by
  cases chars with
  | nil =>
      rw [respace.eq_def] at writes
      cases writes
  | cons d after =>
      cases spot with
      | gap => exact absurd rfl noGap
      | literal quote =>
          rw [respace] at writes
          obtain ⟨rfl, rfl⟩ := List.cons.inj writes
          exact ⟨after, _, rfl, rfl⟩
      | word =>
          rw [respace] at writes
          split at writes
          · obtain ⟨rfl, rfl⟩ := List.cons.inj writes
            exact ⟨after, _, rfl, rfl⟩
          · split at writes
            · exact absurd (List.cons.inj writes).1.symm noSpace
            · obtain ⟨rfl, rfl⟩ := List.cons.inj writes
              exact ⟨after, _, rfl, rfl⟩

/-- A marker is opened in a text, and this is the rest of the text with uniform spacing. -/
def Marker.OpensBefore (marker : Marker) (behind chars : List Char) : Prop :=
  ∃ front rest spot, chars = front ++ marker.sign :: '{' :: rest ∧ behind = respace spot rest

theorem Marker.OpensBefore.cons {behind chars : List Char}
    (opens : marker.OpensBefore behind chars) (c : Char) :
    marker.OpensBefore behind (c :: chars) := by
  obtain ⟨front, rest, spot, rfl, same⟩ := opens
  exact ⟨c :: front, rest, spot, rfl, same⟩

/-- In front of a character that is kept, a marker is opened with the character or later. -/
theorem opensBefore_of_kept {c : Char} {spot : Spot} {after front behind : List Char}
    (noGap : spot ≠ .gap)
    (later : ∀ {front}, respace spot after = front ++ marker.sign :: '{' :: behind →
      marker.OpensBefore behind after)
    (writes : c :: respace spot after = front ++ marker.sign :: '{' :: behind) :
    marker.OpensBefore behind (c :: after) := by
  cases front with
  | nil =>
      obtain ⟨rfl, written⟩ := List.cons.inj writes
      obtain ⟨rest, next, rfl, same⟩ := exists_of_respace_eq_cons noGap (by decide) written
      exact ⟨[], rest, next, rfl, same⟩
  | cons d front => exact (later (List.cons.inj writes).2).cons c

/-- What is opened in a text with uniform spacing is opened in the text. -/
theorem opensBefore_of_respace {spot : Spot} {chars front behind : List Char}
    (writes : respace spot chars = front ++ marker.sign :: '{' :: behind) :
    marker.OpensBefore behind chars := by
  fun_induction respace spot chars generalizing front with
  | case1 => exact absurd writes.symm (by simp)
  | case2 quote c after ih =>
      refine opensBefore_of_kept ?_ ih writes
      split <;> exact Spot.noConfusion
  | case3 c after _ ih => exact opensBefore_of_kept Spot.noConfusion ih writes
  | case5 c after _ _ ih => exact opensBefore_of_kept Spot.noConfusion ih writes
  | case6 c after _ ih => exact opensBefore_of_kept Spot.noConfusion ih writes
  | case8 c after _ _ ih => exact opensBefore_of_kept Spot.noConfusion ih writes
  | case7 c after _ _ ih => exact (ih writes).cons c
  | case4 c after _ _ ih =>
      have noSign : ' ' ≠ marker.sign := by cases marker <;> decide
      cases front with
      | nil => exact absurd (List.cons.inj writes).1 noSign
      | cons d front => exact (ih (List.cons.inj writes).2).cons c

/-- What is left open in a text with uniform spacing is left open in the text. -/
theorem leavesOpen_of_uniform {text : String}
    (leavesOpen : marker.LeavesOpen (uniform text).toList) : marker.LeavesOpen text.toList := by
  rw [uniform, String.toList_ofList] at leavesOpen
  obtain ⟨front, _, writes, unclosed⟩ := leavesOpen
  obtain ⟨front, behind, next, split, rfl⟩ := opensBefore_of_respace writes
  obtain ⟨before, after, around, _, afterBlank⟩ := exists_blanks text.toList
  refine ⟨before ++ front, behind ++ after, ?_, ?_⟩
  · rw [around, split]
    simp
  · rw [List.mem_append, not_or]
    exact ⟨fun closes => unclosed (mem_respace_of_mem rfl closes),
      fun closes => absurd (List.all_eq_true.mp afterBlank _ closes) (by decide)⟩

/-- A marker stands in a text if one is opened there and there is a closing brace behind. -/
theorem occursIn_iff_exists_opening {chars : List Char} : marker.OccursIn chars ↔
    ∃ front behind, chars = front ++ marker.sign :: '{' :: behind ∧ '}' ∈ behind := by
  constructor
  · intro occurs
    induction occurs with
    | here starts =>
        obtain ⟨rfl, behind, rfl, closes⟩ := startsAt_iff.mp starts
        exact ⟨[], behind, rfl, closes⟩
    | @later c _ _ ih =>
        obtain ⟨front, behind, rfl, closes⟩ := ih
        exact ⟨c :: front, behind, rfl, closes⟩
  · rintro ⟨front, behind, rfl, closes⟩
    induction front with
    | nil => exact .here (startsAt_iff.mpr ⟨rfl, behind, rfl, closes⟩)
    | cons c front ih => exact .later ih

/-- A marker of a text with uniform spacing stands in the text as well. -/
theorem occursIn_of_uniform {text : String} (occurs : marker.OccursIn (uniform text).toList) :
    marker.OccursIn text.toList := by
  rw [uniform, String.toList_ofList, occursIn_iff_exists_opening] at occurs
  obtain ⟨front, _, writes, closes⟩ := occurs
  obtain ⟨front, behind, next, split, rfl⟩ := opensBefore_of_respace writes
  obtain ⟨before, after, around, _, _⟩ := exists_blanks text.toList
  rw [occursIn_iff_exists_opening, around, split]
  have closed := (mem_respace closes).resolve_left (by decide)
  exact ⟨before ++ front, behind ++ after, by simp, List.mem_append_left _ closed⟩

/-- Uniform spacing brings no other characters than spaces. -/
theorem mem_of_mem_uniform {c : Char} (noSpace : c ≠ ' ') {text : String}
    (member : c ∈ (uniform text).toList) : c ∈ text.toList := by
  rw [uniform, String.toList_ofList] at member
  exact mem_of_mem_trim ((mem_respace member).resolve_left noSpace)

end

end SqlTemplate.Text
