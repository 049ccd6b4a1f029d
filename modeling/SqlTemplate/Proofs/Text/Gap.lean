import SqlTemplate.Proofs.Text.Layout
import SqlTemplate.Proofs.Text.Opening

/-!
# Gaps between texts

A statement text may be cut where blanks stand, if no part of it goes on over them: no closed
literal and no marker of either kind (`IsGap`).  This is said of the whole text; the two texts on
the sides are then read on their own as they are read in it.

* The blanks lie in one run (`LaidOut.liesInRun`), so the uniform spacing of the whole text is that
  of both texts with one space between (`IsGap.uniform_eq`).
* A marker that is opened in front of a gap and closed behind it would extend over the gap.  So
  none is, also not in the texts with uniform spacing, and the parts of the whole text are those of
  both texts with the space between (`IsGap.pieces_eq`).
-/

namespace SqlTemplate.Text

set_option autoImplicit false

/-! ## Parts that extend over a gap -/

/-- A part of a text, among all its parts, that goes on over a gap behind a front. -/
def ExtendsOver {α : Type} (chars : α → List Char) (parts : List α) (part : α)
    (front gap : List Char) : Prop :=
  ∃ lefts rights inFront behind, parts = lefts ++ part :: rights ∧
    front = lefts.flatMap chars ++ inFront ∧ chars part = inFront ++ (gap ++ behind)

section

variable {α : Type} {chars : α → List Char} {parts : List α} {part : α} {front gap : List Char}

/-- A part goes on over the gap with another part in front of it as well. -/
theorem ExtendsOver.cons (goesOn : ExtendsOver chars parts part front gap) (first : α) :
    ExtendsOver chars (first :: parts) part (chars first ++ front) gap := by
  obtain ⟨lefts, rights, inFront, behind, rfl, rfl, across⟩ := goesOn
  exact ⟨first :: lefts, rights, inFront, behind, rfl, by simp, across⟩

/-- No part goes on over a gap that belongs to other parts. -/
theorem not_extendsOver {lefts middles rights : List α} {before behind : List Char}
    (inFront : front = lefts.flatMap chars ++ before)
    (inside : middles.flatMap chars = before ++ (gap ++ behind)) (some : gap ≠ [])
    (absent : part ∉ middles) :
    ¬ ExtendsOver chars (lefts ++ (middles ++ rights)) part front gap := by
  rintro ⟨others, after, start, later, split, begins, across⟩
  have someChars := List.length_pos_iff.mpr some
  have frontLength := congrArg List.length (inFront.symm.trans begins)
  have insideLength := congrArg List.length inside
  have overLength := congrArg List.length across
  simp only [List.length_append] at frontLength insideLength overLength
  rcases List.append_eq_append_iff.mp split with ⟨between, rfl, rest⟩ | ⟨between, rfl, rest⟩
  · -- The part stands behind the front parts: in front of the end of the middle ones, or behind it.
    rcases List.append_eq_append_iff.mp rest with ⟨more, rfl, _⟩ | ⟨more, rfl, listed⟩
    · simp only [List.flatMap_append, List.length_append] at frontLength
      omega
    · cases more with
      | nil =>
          rw [List.append_nil] at insideLength
          simp only [List.flatMap_append, List.length_append] at frontLength
          omega
      | cons first more =>
          obtain ⟨rfl, _⟩ := List.cons.inj listed
          exact absent (by simp)
  · cases between with
    | nil =>
        cases middles with
        | nil =>
            simp only [List.flatMap_nil, List.length_nil] at insideLength
            omega
        | cons first middles =>
            obtain ⟨rfl, _⟩ := List.cons.inj rest
            exact absent (List.mem_cons_self ..)
    | cons first between =>
        obtain ⟨rfl, _⟩ := List.cons.inj rest
        simp only [List.flatMap_append, List.flatMap_cons, List.length_append] at frontLength
        omega

end

/-- Where a gap stands in a text with a part at its front: behind the part, inside of it, or over
its end. -/
theorem place_of_gap {front gap back part behind : List Char}
    (same : front ++ (gap ++ back) = part ++ behind) :
    (∃ rest, front = part ++ rest ∧ behind = rest ++ (gap ++ back)) ∨
      (∃ rest, part = front ++ (gap ++ rest) ∧ back = rest ++ behind) ∨
        ∃ inPart after, inPart ≠ [] ∧ part = front ++ inPart ∧ gap = inPart ++ after ∧
          behind = after ++ back := by
  rcases List.append_eq_append_iff.mp same with ⟨inPart, rfl, rest⟩ | ⟨rest, rfl, rfl⟩
  · rcases List.append_eq_append_iff.mp rest with ⟨later, rfl, rfl⟩ | ⟨after, rfl, rfl⟩
    · exact .inr (.inl ⟨later, rfl, rfl⟩)
    · cases inPart with
      | nil => exact .inl ⟨[], by simp, rfl⟩
      | cons c inPart => exact .inr (.inr ⟨c :: inPart, after, List.cons_ne_nil _ _, rfl, rfl, rfl⟩)
  · exact .inl ⟨rest, rfl, rfl⟩

/-- A gap that begins in a part and goes on to its end or over it has the last character of the
part. -/
theorem last_mem_of_suffix {front inPart inside : List Char} {last : Char} (some : inPart ≠ [])
    (same : inside ++ [last] = front ++ inPart) : last ∈ inPart := by
  have ends := congrArg List.getLast? same
  rw [List.getLast?_concat, List.getLast?_append_of_ne_nil _ some] at ends
  exact List.mem_of_getLast? ends.symm

/-! ## Literals -/

/-- A run of blanks among portions in which a gap lies between a front and a back. -/
def LiesInRun (portions : List Portion) (front gap back : List Char) : Prop :=
  ∃ lefts before behind rights, portions = lefts ++ .gap (before ++ (gap ++ behind)) :: rights ∧
    front = lefts.flatMap Portion.chars ++ before ∧ back = behind ++ rights.flatMap Portion.chars

/-- A gap lies in the same run with another portion in front. -/
theorem LiesInRun.cons {portions : List Portion} {front gap back : List Char}
    (liesIn : LiesInRun portions front gap back) (first : Portion) :
    LiesInRun (first :: portions) (first.chars ++ front) gap back := by
  obtain ⟨lefts, before, behind, rights, rfl, rfl, same⟩ := liesIn
  exact ⟨first :: lefts, before, behind, rights, rfl, by simp, same⟩

/-- A gap over which no literal extends lies in one run of blanks. -/
theorem LaidOut.liesInRun {front gap back : List Char} {portions : List Portion}
    (laidOut : LaidOut (front ++ (gap ++ back)) portions) (some : gap ≠ [])
    (blank : ∀ c ∈ gap, isBlank c = true)
    (noLiteral : ∀ quote inside,
      ¬ ExtendsOver Portion.chars portions (.literal quote inside) front gap) :
    LiesInRun portions front gap back := by
  generalize whole : front ++ (gap ++ back) = chars at laidOut
  induction laidOut generalizing front with
  | nil => exact absurd (List.append_eq_nil_iff.mp (List.append_eq_nil_iff.mp whole).2).1 some
  | @literal quote inside after portions isQuote _ _ ih =>
      have split : front ++ (gap ++ back) =
          (quote :: inside ++ [quote]) ++ after := by rw [whole]; simp
      rcases place_of_gap split with ⟨rest, rfl, later⟩ | ⟨rest, across, _⟩ |
        ⟨inPart, later, someInPart, across, rfl, _⟩
      · refine (ih ?_ later.symm).cons (.literal quote inside)
        exact fun other inside' goesOn => noLiteral other inside' (goesOn.cons _)
      · exact absurd ⟨[], portions, front, rest, rfl, rfl, across⟩ (noLiteral quote inside)
      · have quoteBlank := blank quote
          (List.mem_append_left _ (last_mem_of_suffix someInPart across))
        rw [isQuote.notBlank] at quoteBlank
        cases quoteBlank
  | @gap blanks after portions _ _ stops later ih =>
      rcases place_of_gap whole with ⟨rest, rfl, same⟩ | ⟨rest, rfl, same⟩ |
        ⟨inPart, across, _, rfl, rfl, rfl⟩
      · refine (ih ?_ same.symm).cons (.gap blanks)
        exact fun other inside goesOn => noLiteral other inside (goesOn.cons _)
      · exact ⟨[], front, rest, portions, rfl, rfl, by rw [same, later.chars_eq]⟩
      · cases across with
        | nil =>
            refine ⟨[], front, [], portions, by simp, rfl, ?_⟩
            rw [later.chars_eq]
            rfl
        | cons c across =>
            have noBlank := stops c (across ++ back) rfl
            rw [blank c (by simp)] at noBlank
            cases noBlank
  | @other c after portions notBlank _ _ ih =>
      have split : front ++ (gap ++ back) = [c] ++ after := whole
      rcases place_of_gap split with ⟨rest, rfl, later⟩ | ⟨rest, across, _⟩ |
        ⟨inPart, across, someInPart, same, rfl, _⟩
      · refine (ih ?_ later.symm).cons (.other c)
        exact fun other inside goesOn => noLiteral other inside (goesOn.cons _)
      · obtain ⟨first, gap, rfl⟩ := List.exists_cons_of_ne_nil some
        have same : c = first := by
          cases front with
          | nil => exact (List.cons.inj across).1
          | cons d front => simp at across
        rw [same, blank first (List.mem_cons_self ..)] at notBlank
        cases notBlank
      · have ends : [] ++ [c] = front ++ inPart := same
        have cBlank := blank c (List.mem_append_left _ (last_mem_of_suffix someInPart ends))
        rw [notBlank] at cBlank
        cases cBlank

/-- Characters that are neither blanks nor quotes stand alone. -/
theorem LaidOut.append_plain {plain behind : List Char} {portions : List Portion}
    (laidOut : LaidOut behind portions)
    (ordinary : ∀ c ∈ plain, isBlank c = false ∧ ¬ IsQuote c) :
    LaidOut (plain ++ behind) (plain.map .other ++ portions) := by
  induction plain with
  | nil => exact laidOut
  | cons c plain ih =>
      obtain ⟨⟨notBlank, noQuote⟩, later⟩ := List.forall_mem_cons.mp ordinary
      exact .other notBlank (fun isQuote => absurd isQuote noQuote) (ih later)

/-- Around a portion, what is laid out divides into the portions in front of it, itself and those
behind it. -/
theorem LaidOut.around {chars : List Char} {lefts rights : List Portion} {portion : Portion}
    (laidOut : LaidOut chars (lefts ++ portion :: rights)) :
    LaidOut (lefts.flatMap Portion.chars) lefts ∧ LaidOut portion.chars [portion] ∧
      LaidOut (rights.flatMap Portion.chars) rights := by
  obtain ⟨front, rest⟩ := laidOut.split
  rw [← List.singleton_append] at rest
  obtain ⟨here, back⟩ := rest.split
  rw [List.flatMap_singleton] at here
  exact ⟨front, here, back⟩

/-- No two runs of blanks follow each other. -/
theorem LaidOut.isGap_behind_gap {chars : List Char} {lefts rights : List Portion}
    {blanks : List Char} {next : Portion}
    (laidOut : LaidOut chars (lefts ++ .gap blanks :: next :: rights)) : next.isGap = false := by
  have ⟨_, laidOut⟩ := laidOut.split
  generalize (Portion.gap blanks :: next :: rights).flatMap Portion.chars = chars at laidOut
  cases laidOut with
  | gap _ _ stops later =>
      cases later with
      | literal | other => rfl
      | @gap blanks behind _ some blank =>
          obtain ⟨first, blanks, rfl⟩ := List.exists_cons_of_ne_nil some
          have noBlank := stops first (blanks ++ behind) rfl
          rw [List.all_cons, noBlank] at blank
          cases blank

/-- A text that is not blank has another portion than runs of blanks. -/
theorem LaidOut.exists_other {chars : List Char} {portions : List Portion}
    (laidOut : LaidOut chars portions) (some : chars.all isBlank = false) :
    ∃ portion ∈ portions, portion.isGap = false := by
  by_contra none
  have gaps : ∀ portion ∈ portions, portion.isGap = true := by
    intro portion listed
    rw [← Bool.not_eq_false]
    exact fun other => none ⟨portion, listed, other⟩
  rw [List.all_eq_true.mpr (laidOut.isBlank_of_mem gaps)] at some
  cases some

/-- Cutting off at the front stops before a portion that is kept. -/
theorem dropWhile_append_of_exists {portions : List Portion}
    (some : ∃ portion ∈ portions, portion.isGap = false) (behind : List Portion) :
    portions.dropWhile Portion.isGap ≠ [] ∧
      (portions ++ behind).dropWhile Portion.isGap =
        portions.dropWhile Portion.isGap ++ behind := by
  have kept : portions.dropWhile Portion.isGap ≠ [] := by
    obtain ⟨portion, listed, other⟩ := some
    intro none
    have gap := List.dropWhile_eq_nil_iff.mp none portion listed
    rw [other] at gap
    cases gap
  refine ⟨kept, ?_⟩
  rw [List.dropWhile_append, if_neg (mt List.isEmpty_iff.mp kept)]

/-- The portions between the ends of a text with a run of blanks inside are those of the texts on
both sides, with the run between them. -/
theorem inner_cut (blanks : List Char) {lefts rights : List Portion}
    (leftSome : ∃ portion ∈ lefts, portion.isGap = false)
    (rightSome : ∃ portion ∈ rights, portion.isGap = false)
    (leftEnds : ∀ last, lefts.getLast? = some last → last.isGap = false)
    (rightBegins : ∀ first, rights.head? = some first → first.isGap = false) :
    inner (lefts ++ .gap blanks :: rights) = inner lefts ++ .gap blanks :: inner rights := by
  have ⟨leftKept, front⟩ := dropWhile_append_of_exists leftSome (.gap blanks :: rights)
  have leftInner : inner lefts = lefts.dropWhile Portion.isGap := by
    rw [inner, List.rdropWhile_eq_self_iff]
    intro some
    have last := List.getLast?_append_of_ne_nil (lefts.takeWhile Portion.isGap) some
    rw [List.takeWhile_append_dropWhile, List.getLast?_eq_some_getLast some] at last
    rw [leftEnds _ last]
    exact Bool.false_ne_true
  have rightInner : inner rights = rights.rdropWhile Portion.isGap := by
    have kept : rights.dropWhile Portion.isGap = rights := by
      cases rights with
      | nil => rfl
      | cons first rights => exact List.dropWhile_cons_of_neg (by simp [rightBegins first rfl])
    rw [inner, kept]
  have back : (lefts.dropWhile Portion.isGap ++ .gap blanks :: rights).rdropWhile Portion.isGap =
      lefts.dropWhile Portion.isGap ++ .gap blanks :: rights.rdropWhile Portion.isGap := by
    have reversed : ∃ portion ∈ rights.reverse, portion.isGap = false := by
      simpa only [List.mem_reverse] using rightSome
    have ⟨_, cut⟩ := dropWhile_append_of_exists reversed
      (.gap blanks :: (lefts.dropWhile Portion.isGap).reverse)
    simp only [List.rdropWhile, List.reverse_append, List.reverse_cons, List.append_assoc,
      List.singleton_append, cut, List.reverse_reverse]
  rw [leftInner, rightInner, inner, front, back]

/-- The settled portions of a text with a run of blanks inside are those of the texts on both
sides, with a space between them. -/
theorem LaidOut.settled_cut {chars blanks : List Char} {lefts rights : List Portion}
    (laidOut : LaidOut chars (lefts ++ .gap blanks :: rights))
    (leftSome : (lefts.flatMap Portion.chars).all isBlank = false)
    (rightSome : (rights.flatMap Portion.chars).all isBlank = false) :
    settled (lefts ++ .gap blanks :: rights) = settled lefts ++ .gap [' '] :: settled rights := by
  have ⟨leftLaidOut, _, rightLaidOut⟩ := laidOut.around
  have cut := inner_cut blanks (leftLaidOut.exists_other leftSome)
    (rightLaidOut.exists_other rightSome) ?_ ?_
  · rw [settled, cut, List.map_append, List.map_cons]
    rfl
  · intro last ends
    obtain ⟨others, rfl⟩ := List.getLast?_eq_some_iff.mp ends
    cases last with
    | gap blanks =>
        rw [List.append_assoc, List.singleton_append] at laidOut
        cases laidOut.isGap_behind_gap
    | literal | other => rfl
  · intro first begins
    obtain ⟨others, rfl⟩ := List.head?_eq_some_iff.mp begins
    exact laidOut.isGap_behind_gap

/-- The uniform spacing of a text is that of the text between blanks at its ends. -/
theorem toList_uniform {text : String} {before inside behind : List Char}
    {portions : List Portion} (whole : text.toList = before ++ inside ++ behind)
    (beforeBlank : before.all isBlank = true) (behindBlank : behind.all isBlank = true)
    (laidOut : LaidOut inside portions) :
    (uniform text).toList = (settled portions).flatMap Portion.chars := by
  have trimmed := laidOut.trim_laidOut.respace_laidOut
  rw [uniform, String.toList_ofList, whole, trim_surrounded beforeBlank behindBlank, settled,
    trimmed.chars_eq]

/-- Between two texts, a gap over which no literal extends becomes one space. -/
theorem uniform_cut {left gap right : String} (leftSome : isAllBlank left = false)
    (rightSome : isAllBlank right = false) (some : gap ≠ "") (blank : isAllBlank gap = true)
    (noLiteral : ∀ portions, LaidOut (left ++ gap ++ right).toList portions →
      ∀ quote inside, ¬ ExtendsOver Portion.chars portions (.literal quote inside) left.toList
        gap.toList) :
    uniform (left ++ gap ++ right) = uniform left ++ " " ++ uniform right := by
  obtain ⟨portions, laidOut⟩ := exists_laidOut (left ++ gap ++ right).toList
  have chars : (left ++ gap ++ right).toList = left.toList ++ (gap.toList ++ right.toList) := by
    simp
  have someChars : gap.toList ≠ [] := mt String.toList_eq_nil_iff.mp some
  obtain ⟨lefts, before, behind, rights, rfl, leftChars, rightChars⟩ :=
    (chars ▸ laidOut).liesInRun someChars (List.all_eq_true.mp blank) (noLiteral portions laidOut)
  have ⟨leftLaidOut, run, rightLaidOut⟩ := laidOut.around
  have runBlank := List.all_eq_true.mpr (run.isBlank_of_mem (List.forall_mem_singleton.mpr rfl))
  rw [Portion.chars, List.all_append, List.all_append, Bool.and_eq_true,
    Bool.and_eq_true] at runBlank
  obtain ⟨beforeBlank, _, behindBlank⟩ := runBlank
  have leftWhole : left.toList = [] ++ lefts.flatMap Portion.chars ++ before := leftChars
  have rightWhole : right.toList = behind ++ rights.flatMap Portion.chars ++ [] := by
    rw [rightChars, List.append_nil]
  have leftUniform := toList_uniform leftWhole rfl beforeBlank leftLaidOut
  have rightUniform := toList_uniform rightWhole behindBlank rfl rightLaidOut
  rw [isAllBlank, leftChars, List.all_append, beforeBlank, Bool.and_true] at leftSome
  rw [isAllBlank, rightChars, List.all_append, behindBlank, Bool.true_and] at rightSome
  rw [← String.toList_inj, ← (uniform_laidOut laidOut).chars_eq,
    laidOut.settled_cut leftSome rightSome, List.flatMap_append, List.flatMap_cons]
  simp [leftUniform, rightUniform, Portion.chars]

/-! ## Markers -/

/-- The characters of a part of a text. -/
def Piece.chars (marker : Marker) : Piece → List Char
  | .char c => [c]
  | .marker inside => marker.written inside

/-- A marker that is opened in front of a gap and closed behind it extends over the gap. -/
theorem extendsOver_of_leavesOpen {marker : Marker} {front gap back : List Char} (some : gap ≠ [])
    (blank : ∀ c ∈ gap, isBlank c = true) (leavesOpen : marker.LeavesOpen front)
    (closes : '}' ∈ back) : ∃ inside,
      ExtendsOver (Piece.chars marker) (pieces marker (front ++ (gap ++ back))) (.marker inside)
        front gap := by
  have noBlank {c : Char} (other : isBlank c = false) : c ∉ gap := by
    intro member
    rw [blank c member] at other
    cases other
  have noOpening : ∀ rest, gap ++ back ≠ '{' :: rest := by
    obtain ⟨first, gap, rfl⟩ := List.exists_cons_of_ne_nil some
    intro rest same
    exact noBlank (c := '{') rfl ((List.cons.inj same).1 ▸ List.mem_cons_self ..)
  induction front using marker_induction marker with
  | nil =>
      obtain ⟨front, behind, split, _⟩ := leavesOpen
      cases front <;> cases split
  | whole inside behind closed ih =>
      have split : marker.written inside ++ behind =
          (marker.sign :: '{' :: inside) ++ '}' :: behind := by simp [Marker.written]
      obtain ⟨across, goesOn⟩ := ih (leavesOpen_behind_closed (split ▸ leavesOpen))
      refine ⟨across, ?_⟩
      rw [List.append_assoc, pieces_written closed]
      exact goesOn.cons (.marker inside)
  | single c after plain ih =>
      by_cases opens : c = marker.sign ∧ ∃ rest, after = '{' :: rest ∧ '}' ∉ rest
      · obtain ⟨rfl, rest, rfl, unclosed⟩ := opens
        obtain ⟨before, later, rfl, first⟩ := List.eq_append_cons_of_mem closes
        have closed : '}' ∉ rest ++ (gap ++ before) := by
          simp [unclosed, noBlank (c := '}') rfl, first]
        have split : marker.sign :: '{' :: rest ++ (gap ++ (before ++ '}' :: later)) =
            marker.written (rest ++ (gap ++ before)) ++ later := by simp [Marker.written]
        refine ⟨rest ++ (gap ++ before), ?_⟩
        rw [split, pieces_written closed]
        exact ⟨[], _, _, before ++ ['}'], rfl, rfl, by simp [Piece.chars, Marker.written]⟩
      · have starts : ¬ marker.startsAt c (after ++ (gap ++ back)) = true := fun starts =>
          (startsAt_append noOpening starts).elim plain fun both => opens both.1
        obtain ⟨across, goesOn⟩ := ih ((leavesOpen_cons_iff.mp leavesOpen).resolve_left opens)
        refine ⟨across, ?_⟩
        rw [List.cons_append, pieces_cons starts]
        exact goesOn.cons (.char c)

/-! ## Gaps -/

/-- A gap between two texts: blanks over which no closed literal and no marker of the whole text
extends. -/
structure IsGap (left gap right : String) : Prop where
  some : gap ≠ ""
  blank : isAllBlank gap = true
  noLiteral : ∀ portions, LaidOut (left ++ gap ++ right).toList portions →
    ∀ quote inside,
      ¬ ExtendsOver Portion.chars portions (.literal quote inside) left.toList gap.toList
  noMarker : ∀ (marker : Marker) division,
    marker.Divides (left ++ gap ++ right).toList division →
      ∀ inside,
        ¬ ExtendsOver (Piece.chars marker) division.pieces (.marker inside) left.toList gap.toList

namespace IsGap

variable {left gap right : String}

/-- The uniform spacing of the whole text has one space for the gap. -/
theorem uniform_eq (isGap : IsGap left gap right) (leftSome : isAllBlank left = false)
    (rightSome : isAllBlank right = false) :
    uniform (left ++ gap ++ right) = uniform left ++ " " ++ uniform right :=
  uniform_cut leftSome rightSome isGap.some isGap.blank isGap.noLiteral

/-- No marker is opened in front of a gap and closed behind it. -/
theorem separate (isGap : IsGap left gap right) (marker : Marker) :
    ¬ (marker.LeavesOpen left.toList ∧ '}' ∈ right.toList) := by
  rintro ⟨leavesOpen, closes⟩
  have chars : (left ++ gap ++ right).toList = left.toList ++ (gap.toList ++ right.toList) := by
    simp
  obtain ⟨division, divides⟩ := exists_divides marker (left ++ gap ++ right).toList
  obtain ⟨inside, goesOn⟩ := extendsOver_of_leavesOpen (mt String.toList_eq_nil_iff.mp isGap.some)
    (List.all_eq_true.mp isGap.blank) leavesOpen closes
  rw [← chars, divides.pieces_eq] at goesOn
  exact isGap.noMarker marker division divides inside goesOn

/-- The parts of the whole text with uniform spacing are those of both texts, with a space
between. -/
theorem pieces_eq (isGap : IsGap left gap right) (leftSome : isAllBlank left = false)
    (rightSome : isAllBlank right = false) (marker : Marker) :
    pieces marker (uniform (left ++ gap ++ right)).toList =
      pieces marker (uniform left).toList ++ .char ' ' :: pieces marker (uniform right).toList := by
  have chars : (uniform left ++ " " ++ uniform right).toList =
      (uniform left).toList ++ ' ' :: (uniform right).toList := by simp
  rw [isGap.uniform_eq leftSome rightSome, chars]
  apply pieces_separate
  rintro ⟨leavesOpen, closes⟩
  exact isGap.separate marker
    ⟨leavesOpen_of_uniform leavesOpen, mem_of_mem_uniform (by decide) closes⟩

end IsGap

end SqlTemplate.Text
