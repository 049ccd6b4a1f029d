import Mathlib.Data.List.Basic
import SqlTemplate.Proofs.Text.Front
import SqlTemplate.Proofs.Text.Marker

/-!
# Dividing text at its markers

The markers of one kind divide a text: the first one is the leftmost that the text has, the next one
the leftmost behind it, and so on until there is none.  Each runs from its opening brace up to the
first closing brace.  This is said here by the places at which markers stand (`Marker.Divides`), and
not by the reader that goes through the text character by character.

Every text has exactly one division (`existsUnique_divides`), and the parts that the reader tells
apart are those of the division (`Marker.Divides.pieces_eq`).
-/

namespace SqlTemplate.Text

set_option autoImplicit false

/-- A marker that encloses the characters, as it is written. -/
def Marker.written (marker : Marker) (inside : List Char) : List Char :=
  marker.sign :: '{' :: (inside ++ ['}'])

/-- Whether a text begins with a marker. -/
def Marker.Heads (marker : Marker) (chars : List Char) : Prop :=
  ∃ inside behind, '}' ∉ inside ∧ chars = marker.written inside ++ behind

/-- Whether a marker begins at a character of a text, given what stands behind the text. -/
def Marker.BeginsIn (marker : Marker) (chars behind : List Char) : Prop :=
  ∃ front after, chars = front ++ after ∧ after ≠ [] ∧ marker.Heads (after ++ behind)

/-- What a marker encloses, with the text between it and the marker in front of it. -/
structure Span where
  before : List Char
  inside : List Char
  deriving DecidableEq

/-- The spans of a text and the text behind the last of them. -/
structure Division where
  spans : List Span
  last : List Char
  deriving DecidableEq

/-- How the markers of one kind divide a text. -/
inductive Marker.Divides (marker : Marker) : List Char → Division → Prop
  | last {chars : List Char} (free : ¬ marker.BeginsIn chars []) : Divides marker chars ⟨[], chars⟩
  | next {before inside behind : List Char} {rest : Division}
      (leftmost : ¬ marker.BeginsIn before (marker.written inside ++ behind))
      (closed : '}' ∉ inside) (later : Divides marker behind rest) :
      Divides marker (before ++ (marker.written inside ++ behind))
        ⟨⟨before, inside⟩ :: rest.spans, rest.last⟩

namespace Division

/-- The text of a division with other texts in the places of its markers. -/
def fill (division : Division) (texts : List (List Char)) : List Char :=
  (List.zipWith (fun span text => span.before ++ text) division.spans texts).flatten ++
    division.last

/-- The parts of a division. -/
def pieces (division : Division) : List Piece :=
  (division.spans.flatMap fun span => span.before.map Piece.char ++ [.marker span.inside]) ++
    division.last.map Piece.char

theorem pieces_cons (span : Span) (spans : List Span) (last : List Char) :
    pieces ⟨span :: spans, last⟩ =
      span.before.map Piece.char ++ .marker span.inside :: pieces ⟨spans, last⟩ := by
  simp [pieces]

/-- Of two lists of parts, the first markers and what is in front of and behind them are equal. -/
theorem first_marker_inj {firsts seconds first second : List Char} {lefts rights : List Piece}
    (same : firsts.map Piece.char ++ .marker first :: lefts =
      seconds.map Piece.char ++ .marker second :: rights) :
    firsts = seconds ∧ first = second ∧ lefts = rights := by
  induction firsts generalizing seconds with
  | nil =>
      cases seconds with
      | nil => simpa using same
      | cons c seconds => simp at same
  | cons c firsts ih =>
      cases seconds with
      | nil => simp at same
      | cons d seconds =>
          obtain ⟨char, same⟩ := List.cons.inj same
          obtain ⟨rfl, equal⟩ := ih same
          exact ⟨by rw [Piece.char.inj char], equal⟩

/-- A division is determined by its parts. -/
theorem pieces_injective : Function.Injective pieces := by
  rintro ⟨lefts, leftLast⟩ ⟨rights, rightLast⟩ same
  have listed (span : Span) (spans : List Span) (last : List Char) :
      .marker span.inside ∈ pieces ⟨span :: spans, last⟩ := by
    simp [pieces_cons]
  have unmarked (inside last : List Char) : .marker inside ∉ pieces ⟨[], last⟩ := by
    simp [pieces]
  induction lefts generalizing rights with
  | nil =>
      cases rights with
      | nil =>
          have equal : leftLast = rightLast :=
            List.map_injective_iff.mpr (fun _ _ => Piece.char.inj) same
          rw [equal]
      | cons span spans => exact absurd (same ▸ listed span spans rightLast) (unmarked _ _)
  | cons first lefts ih =>
      cases rights with
      | nil => exact absurd (same ▸ listed first lefts leftLast) (unmarked _ _)
      | cons second rights =>
          rw [pieces_cons, pieces_cons] at same
          obtain ⟨before, inside, later⟩ := first_marker_inj same
          obtain ⟨rfl, rfl⟩ := Division.mk.inj (ih rights later)
          cases first
          cases second
          cases before
          cases inside
          rfl

end Division

/-! ## Where markers begin -/

section

variable {marker : Marker} {c : Char} {chars after behind inside : List Char}

/-- A marker starts at the character with which a text begins. -/
theorem heads_cons_iff : marker.Heads (c :: after) ↔ marker.startsAt c after = true := by
  rw [startsAt_iff]
  constructor
  · rintro ⟨inside, behind, _, equal⟩
    rw [Marker.written, List.cons_append, List.cons_append, List.cons.injEq] at equal
    exact ⟨equal.1, _, equal.2, by simp⟩
  · rintro ⟨rfl, behind, rfl, closes⟩
    obtain ⟨inside, later, rfl, closed⟩ := List.eq_append_cons_of_mem closes
    exact ⟨inside, later, closed, by simp [Marker.written]⟩

theorem not_beginsIn_nil : ¬ marker.BeginsIn [] behind := by
  rintro ⟨front, after, split, some, _⟩
  exact some (List.append_eq_nil_iff.mp split.symm).2

/-- A marker begins at the first character or at a later one. -/
theorem beginsIn_cons_iff : marker.BeginsIn (c :: after) behind ↔
    marker.startsAt c (after ++ behind) = true ∨ marker.BeginsIn after behind := by
  rw [← heads_cons_iff]
  constructor
  · rintro ⟨front, rest, split, some, heads⟩
    cases front with
    | nil =>
        rw [List.nil_append] at split
        rw [← split] at heads
        exact .inl heads
    | cons first front =>
        exact .inr ⟨front, rest, (List.cons.inj split).2, some, heads⟩
  · rintro (heads | ⟨front, rest, rfl, some, heads⟩)
    · exact ⟨[], c :: after, rfl, List.cons_ne_nil c after, heads⟩
    · exact ⟨c :: front, rest, rfl, some, heads⟩

/-- A text in which a marker begins has a leftmost one. -/
theorem exists_leftmost (begins : marker.BeginsIn chars []) : ∃ before inside behind,
    chars = before ++ (marker.written inside ++ behind) ∧
      ¬ marker.BeginsIn before (marker.written inside ++ behind) ∧ '}' ∉ inside := by
  induction chars with
  | nil => exact absurd begins not_beginsIn_nil
  | cons c after ih =>
      rw [beginsIn_cons_iff, List.append_nil] at begins
      by_cases starts : marker.startsAt c after = true
      · obtain ⟨inside, behind, closed, split⟩ := heads_cons_iff.mpr starts
        exact ⟨[], inside, behind, split, not_beginsIn_nil, closed⟩
      · obtain ⟨before, inside, behind, rfl, leftmost, closed⟩ :=
          ih (begins.resolve_left starts)
        refine ⟨c :: before, inside, behind, rfl, ?_, closed⟩
        rw [beginsIn_cons_iff, not_or]
        exact ⟨starts, leftmost⟩

/-- A marker stands somewhere in a text exactly when one begins in it with nothing behind. -/
theorem occursIn_iff_beginsIn : marker.OccursIn chars ↔ marker.BeginsIn chars [] := by
  induction chars with
  | nil =>
      have absent : ¬ marker.OccursIn [] := by
        intro occurs
        cases occurs
      exact iff_of_false absent not_beginsIn_nil
  | cons c after ih =>
      rw [beginsIn_cons_iff, List.append_nil, ← ih]
      constructor
      · intro occurs
        cases occurs with
        | here starts => exact .inl starts
        | later occurs => exact .inr occurs
      · rintro (starts | occurs)
        · exact .here starts
        · exact .later occurs

/-! ## Parts and divisions -/

/-- Characters at which no marker begins belong to none. -/
theorem pieces_append (free : ¬ marker.BeginsIn chars behind) :
    pieces marker (chars ++ behind) = chars.map Piece.char ++ pieces marker behind := by
  induction chars with
  | nil => rfl
  | cons c after ih =>
      rw [beginsIn_cons_iff, not_or] at free
      rw [List.cons_append, pieces, piecesFrom, if_neg free.1, List.map_cons, List.cons_append]
      exact congrArg (Piece.char c :: ·) (ih free.2)

/-- A reader inside of a marker goes on behind the closing brace. -/
theorem piecesFrom_closed (closed : '}' ∉ inside) :
    piecesFrom marker true (inside ++ '}' :: behind) = pieces marker behind := by
  induction inside with
  | nil => rfl
  | cons c inside ih =>
      rw [List.mem_cons, not_or] at closed
      have goesOn : (c != '}') = true := by simpa using Ne.symm closed.1
      rw [List.cons_append, piecesFrom, goesOn, ih closed.2]

/-- A marker at the front is one part, with what it encloses. -/
theorem pieces_written (closed : '}' ∉ inside) :
    pieces marker (marker.written inside ++ behind) = .marker inside :: pieces marker behind := by
  have starts : marker.startsAt marker.sign ('{' :: (inside ++ '}' :: behind)) = true :=
    startsAt_iff.mpr ⟨rfl, _, rfl, by simp⟩
  have taken : (inside ++ '}' :: behind).takeWhile (· != '}') = inside := by
    apply StopsAt.takeWhile_append (.cons rfl)
    intro c member
    simpa using ne_of_mem_of_not_mem member closed
  have brace : '}' ∉ '{' :: inside := by simp [closed]
  calc pieces marker (marker.written inside ++ behind)
      = piecesFrom marker false (marker.sign :: '{' :: (inside ++ '}' :: behind)) := by
        simp [pieces, Marker.written]
    _ = .marker inside :: piecesFrom marker true (('{' :: inside) ++ '}' :: behind) := by
        rw [piecesFrom, if_pos starts, List.tail_cons, taken, List.cons_append]
    _ = .marker inside :: pieces marker behind := by rw [piecesFrom_closed brace]

end

namespace Marker.Divides

variable {marker : Marker} {chars : List Char} {division : Division}

/-- The parts that a reader tells apart are those of the division. -/
theorem pieces_eq (divides : marker.Divides chars division) :
    Text.pieces marker chars = division.pieces := by
  induction divides with
  | @last chars free =>
      have parts := pieces_append free
      rw [List.append_nil] at parts
      rw [parts]
      simp [Division.pieces, Text.pieces, piecesFrom]
  | next leftmost closed later ih =>
      rw [pieces_append leftmost, pieces_written closed, ih]
      simp [Division.pieces]

/-- A division leaves nothing out: with its own markers in their places it is the text. -/
theorem fill_eq (divides : marker.Divides chars division) :
    division.fill (division.spans.map fun span => marker.written span.inside) = chars := by
  induction divides with
  | last free => rfl
  | next leftmost closed later ih =>
      rw [← ih]
      simp [Division.fill]

end Marker.Divides

/-- Every text has a division. -/
theorem exists_divides (marker : Marker) (chars : List Char) :
    ∃ division, marker.Divides chars division := by
  -- Behind a marker the text is shorter.
  induction shorter : chars.length using Nat.strongRecOn generalizing chars with
  | ind length ih =>
      by_cases begins : marker.BeginsIn chars []
      · obtain ⟨before, inside, behind, rfl, leftmost, closed⟩ := exists_leftmost begins
        have less : behind.length < length := by
          rw [← shorter]
          simp [Marker.written]
          omega
        obtain ⟨rest, later⟩ := ih behind.length less behind rfl
        exact ⟨_, .next leftmost closed later⟩
      · exact ⟨_, .last begins⟩

/-- **Every text divides in exactly one way.** -/
theorem existsUnique_divides (marker : Marker) (chars : List Char) :
    ∃! division, marker.Divides chars division := by
  obtain ⟨division, divides⟩ := exists_divides marker chars
  refine ⟨division, divides, ?_⟩
  intro other divided
  apply Division.pieces_injective
  rw [← divided.pieces_eq, divides.pieces_eq]

end SqlTemplate.Text
