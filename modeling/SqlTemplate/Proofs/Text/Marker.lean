import SqlTemplate.Text.Marker

/-!
# The parts of statement text

Telling text apart by markers takes nothing away at the front: a text that is not empty has a first
part, a marker starts with its sign and a brace, and the characters outside of markers are
characters of the text.  A character with which no marker is written is in the text as often as
outside of the markers and between their braces together (`count_pieces`).
-/

namespace SqlTemplate.Text

set_option autoImplicit false

/-- What a part has between its braces. -/
def Piece.enclosed : Piece → List Char
  | .char _ => []
  | .marker inside => inside

/-- A marker starts with its sign and an opening brace. -/
theorem eq_of_startsAt {marker : Marker} {c : Char} {after : List Char}
    (starts : marker.startsAt c after = true) :
    c = marker.sign ∧ ∃ behind, after = '{' :: behind := by
  rw [Marker.startsAt.eq_def] at starts
  split at starts
  · rename_i behind
    exact ⟨by simpa using (Bool.and_eq_true_iff.mp starts).1, behind, rfl⟩
  · cases starts

theorem mem_of_char_mem_piecesFrom {marker : Marker} {inside : Bool} {c : Char}
    {chars : List Char} (member : .char c ∈ piecesFrom marker inside chars) : c ∈ chars := by
  fun_induction piecesFrom marker inside chars with
  | case1 => cases member
  | case2 first after ih => exact List.mem_cons_of_mem _ (ih member)
  | case3 first after starts ih =>
      rcases List.mem_cons.mp member with equal | later
      · cases equal
      · exact List.mem_cons_of_mem _ (ih later)
  | case4 first after plain ih =>
      rcases List.mem_cons.mp member with equal | later
      · cases equal
        exact List.mem_cons_self ..
      · exact List.mem_cons_of_mem _ (ih later)

/-- The characters outside of markers are characters of the text. -/
theorem mem_of_char_mem_pieces {marker : Marker} {c : Char} {chars : List Char}
    (member : .char c ∈ pieces marker chars) : c ∈ chars :=
  mem_of_char_mem_piecesFrom member

theorem pieces_ne_nil {marker : Marker} {chars : List Char} (some : chars ≠ []) :
    pieces marker chars ≠ [] := by
  cases chars with
  | nil => exact absurd rfl some
  | cons c after =>
      rw [pieces, piecesFrom]
      split <;> exact List.cons_ne_nil _ _

/-! ## Texts with markers -/

/-- A marker stands at the front of the characters or behind their first. -/
inductive Marker.OccursIn (marker : Marker) : List Char → Prop where
  | here {c : Char} {after : List Char} (starts : marker.startsAt c after = true) :
      OccursIn marker (c :: after)
  | later {c : Char} {after : List Char} (occurs : OccursIn marker after) :
      OccursIn marker (c :: after)

theorem startsAt_iff {marker : Marker} {c : Char} {after : List Char} :
    marker.startsAt c after = true ↔
      c = marker.sign ∧ ∃ behind, after = '{' :: behind ∧ '}' ∈ behind := by
  constructor
  · intro starts
    obtain ⟨sign, behind, rfl⟩ := eq_of_startsAt starts
    have closed := (Bool.and_eq_true_iff.mp starts).2
    exact ⟨sign, behind, rfl, by simpa using closed⟩
  · rintro ⟨rfl, behind, rfl, closed⟩
    simp [Marker.startsAt, closed]

/-- A text with a marker has its sign. -/
theorem Marker.OccursIn.sign_mem {marker : Marker} {chars : List Char}
    (occurs : marker.OccursIn chars) : marker.sign ∈ chars := by
  induction occurs with
  | here starts =>
      rw [(startsAt_iff.mp starts).1]
      exact List.mem_cons_self ..
  | later _ ih => exact List.mem_cons_of_mem _ ih

theorem occursIn_of_marker_mem {marker : Marker} {inside : Bool} {enclosed chars : List Char}
    (found : .marker enclosed ∈ piecesFrom marker inside chars) : marker.OccursIn chars := by
  fun_induction piecesFrom marker inside chars with
  | case1 => cases found
  | case2 first after ih => exact .later (ih found)
  | case3 first after starts ih => exact .here starts
  | case4 first after plain ih =>
      rcases List.mem_cons.mp found with equal | later
      · cases equal
      · exact .later (ih later)

/-- A reader outside of markers finds one if there is any, though not always the same. -/
theorem exists_marker_mem {marker : Marker} {chars : List Char} (occurs : marker.OccursIn chars) :
    ∃ enclosed, .marker enclosed ∈ pieces marker chars := by
  induction occurs with
  | here starts =>
      rw [pieces, piecesFrom, if_pos starts]
      exact ⟨_, List.mem_cons_self ..⟩
  | later occurs ih =>
      obtain ⟨enclosed, found⟩ := ih
      rw [pieces, piecesFrom]
      split
      · exact ⟨_, List.mem_cons_self ..⟩
      · exact ⟨enclosed, List.mem_cons_of_mem _ found⟩

/-- A text has a marker exactly where one starts at some character. -/
theorem hasMarker_iff_occursIn {marker : Marker} {text : String} :
    hasMarker marker text = true ↔ marker.OccursIn text.toList := by
  rw [hasMarker, List.any_eq_true]
  constructor
  · rintro ⟨piece, found, holds⟩
    cases piece with
    | char c => cases holds
    | marker enclosed => exact occursIn_of_marker_mem found
  · intro occurs
    obtain ⟨enclosed, found⟩ := exists_marker_mem occurs
    exact ⟨_, found, rfl⟩

/-! ## Counting characters -/

/-- A character with which no marker is written stands outside of the markers or between their
braces; while a reader is inside a marker, those up to the closing brace are left out. -/
theorem count_piecesFrom {marker : Marker} {c : Char} (other : c ≠ marker.sign)
    (noOpening : c ≠ '{') (noClosing : c ≠ '}') (inside : Bool) (chars : List Char) :
    chars.count c =
      (if inside then (chars.takeWhile (· != '}')).count c else 0) +
        (piecesFrom marker inside chars).count (.char c) +
          ((piecesFrom marker inside chars).flatMap Piece.enclosed).count c := by
  fun_induction piecesFrom marker inside chars with
  | case1 inside => simp
  | case2 first after ih =>
      by_cases closes : first = '}'
      · subst closes
        simpa [Ne.symm noClosing] using ih
      · have goesOn : (first != '}') = true := by simpa using closes
        have taken : (first :: after).takeWhile (· != '}') = first :: after.takeWhile (· != '}') :=
          List.takeWhile_cons_of_pos goesOn
        simp only [goesOn, if_true] at ih
        simp only [goesOn, if_true, taken, List.count_cons, ih]
        omega
  | case3 first after starts ih =>
      obtain ⟨rfl, behind, rfl⟩ := eq_of_startsAt starts
      have skipped : ('{' :: behind).takeWhile (· != '}') = '{' :: behind.takeWhile (· != '}') :=
        List.takeWhile_cons_of_pos (by decide)
      simp only [if_true, skipped, List.count_cons_of_ne (Ne.symm noOpening)] at ih
      simp only [List.count_cons_of_ne (Ne.symm other), List.count_cons_of_ne (Ne.symm noOpening),
        List.tail_cons, List.flatMap_cons, List.count_append, Piece.enclosed, ih]
      simp
      omega
  | case4 first after plain ih =>
      simp only [List.count_cons, List.flatMap_cons, Piece.enclosed, List.nil_append, ih]
      simp
      omega

/-- A character with which no marker is written stands outside of the markers or between their
braces. -/
theorem count_pieces {marker : Marker} {c : Char} (other : c ≠ marker.sign)
    (noOpening : c ≠ '{') (noClosing : c ≠ '}') (chars : List Char) :
    chars.count c = (pieces marker chars).count (.char c) +
      ((pieces marker chars).flatMap Piece.enclosed).count c := by
  have counted := count_piecesFrom other noOpening noClosing false chars
  rwa [if_neg Bool.false_ne_true, Nat.zero_add] at counted

end SqlTemplate.Text
