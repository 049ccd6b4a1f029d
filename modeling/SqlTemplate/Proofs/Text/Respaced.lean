import SqlTemplate.Proofs.Text.Layout
import SqlTemplate.Proofs.Text.Marker

/-!
# Texts with other blanks

Two texts may differ in nothing but their blanks: where one has a run of blanks, the other has a run
as well, though not the same one (`Respaced`).  Uniform spacing makes such a text of every text
(`respaced_uniform`), whether its literals begin and end inside of markers or not.

What is cut out of such texts at characters that are not blank differs in blanks only.  So the
markers of both stand in the same order and enclose the same up to blanks
(`Respaced.enclosures_pieces`): blanks neither open a marker nor close one, and a sign next to its
brace has no blank between.
-/

namespace SqlTemplate.Text

set_option autoImplicit false

/-- Texts that differ at most in the blanks of their runs. -/
inductive Respaced : List Char → List Char → Prop
  | nil : Respaced [] []
  | char {left right : List Char} (c : Char) (later : Respaced left right) :
      Respaced (c :: left) (c :: right)
  | gap {blanks others left right : List Char} (some : blanks ≠ []) (otherSome : others ≠ [])
      (blank : ∀ c ∈ blanks, isBlank c = true) (otherBlank : ∀ c ∈ others, isBlank c = true)
      (later : Respaced left right) : Respaced (blanks ++ left) (others ++ right)

namespace Respaced

variable {left right : List Char}

theorem refl (chars : List Char) : Respaced chars chars := by
  induction chars with
  | nil => exact .nil
  | cons c chars ih => exact .char c ih

theorem symm (respaced : Respaced left right) : Respaced right left := by
  induction respaced with
  | nil => exact .nil
  | char c _ ih => exact .char c ih
  | gap some otherSome blank otherBlank _ ih => exact .gap otherSome some otherBlank blank ih

theorem append {lefts rights : List Char} (front : Respaced left right)
    (behind : Respaced lefts rights) : Respaced (left ++ lefts) (right ++ rights) := by
  induction front with
  | nil => exact behind
  | char c _ ih => exact .char c ih
  | gap some otherSome blank otherBlank _ ih =>
      rw [List.append_assoc, List.append_assoc]
      exact .gap some otherSome blank otherBlank ih

theorem reverse (respaced : Respaced left right) : Respaced left.reverse right.reverse := by
  induction respaced with
  | nil => exact .nil
  | char c _ ih =>
      rw [List.reverse_cons, List.reverse_cons]
      exact ih.append (.refl [c])
  | @gap blanks others _ _ some otherSome blank otherBlank _ ih =>
      have gap : Respaced (blanks.reverse ++ []) (others.reverse ++ []) :=
        .gap (by simpa using some) (by simpa using otherSome) (by simpa using blank)
          (by simpa using otherBlank) .nil
      rw [List.append_nil, List.append_nil] at gap
      rw [List.reverse_append, List.reverse_append]
      exact ih.append gap

/-- Without their blanks the texts are the same. -/
theorem filter_eq (respaced : Respaced left right) :
    left.filter (fun c => !isBlank c) = right.filter (fun c => !isBlank c) := by
  induction respaced with
  | nil => rfl
  | char c _ ih => rw [List.filter_cons, List.filter_cons, ih]
  | gap _ _ blank otherBlank _ ih =>
      have none {blanks : List Char} (blank : ∀ c ∈ blanks, isBlank c = true) :
          blanks.filter (fun c => !isBlank c) = [] := by simpa using blank
      rw [List.filter_append, List.filter_append, none blank, none otherBlank, ih]

/-- Texts of which one has no blanks are the same. -/
theorem eq_of_noBlank (respaced : Respaced left right)
    (noBlank : (∀ c ∈ left, isBlank c = false) ∨ ∀ c ∈ right, isBlank c = false) :
    left = right := by
  induction respaced with
  | nil => rfl
  | char c _ ih =>
      simp only [List.forall_mem_cons] at noBlank
      rw [ih (noBlank.imp And.right And.right)]
  | gap some otherSome blank otherBlank _ _ =>
      have absent {blanks rest : List Char} (some : blanks ≠ [])
          (blank : ∀ c ∈ blanks, isBlank c = true) :
          ¬ ∀ c ∈ blanks ++ rest, isBlank c = false := by
        intro noBlank
        obtain ⟨c, member⟩ := List.exists_mem_of_ne_nil blanks some
        have other := noBlank c (List.mem_append_left _ member)
        rw [blank c member] at other
        cases other
      exact (noBlank.elim (absent some blank) (absent otherSome otherBlank)).elim

/-- A character that is not blank stands in both texts or in none. -/
theorem mem_iff (respaced : Respaced left right) {c : Char} (notBlank : isBlank c = false) :
    c ∈ left ↔ c ∈ right := by
  have kept (chars : List Char) : c ∈ chars ↔ c ∈ chars.filter fun c => !isBlank c := by
    simp [notBlank]
  rw [kept left, kept right, respaced.filter_eq]

/-- Texts of which one is empty. -/
theorem eq_nil_iff (respaced : Respaced left right) : left = [] ↔ right = [] := by
  cases respaced with
  | nil => exact Iff.rfl
  | char => simp
  | gap some otherSome => simp [some, otherSome]

/-- A first character that is not blank stands first in both texts. -/
theorem exists_of_cons {c : Char} (respaced : Respaced (c :: left) right)
    (notBlank : isBlank c = false) : ∃ behind, right = c :: behind ∧ Respaced left behind := by
  generalize whole : c :: left = chars at respaced
  cases respaced with
  | nil => cases whole
  | char c later =>
      cases whole
      exact ⟨_, rfl, later⟩
  | gap some _ blank =>
      obtain ⟨first, blanks, rfl⟩ := List.exists_cons_of_ne_nil some
      cases whole
      rw [blank c (List.mem_cons_self ..)] at notBlank
      cases notBlank

/-! ## Cutting -/

/-- Up to a character that is not blank the texts differ in blanks only. -/
theorem takeWhile (respaced : Respaced left right) {inFront : Char → Bool}
    (goesOn : ∀ c, isBlank c = true → inFront c = true) :
    Respaced (left.takeWhile inFront) (right.takeWhile inFront) := by
  induction respaced with
  | nil => exact .nil
  | char c _ ih =>
      rw [List.takeWhile_cons, List.takeWhile_cons]
      split
      · exact .char c ih
      · exact .nil
  | gap some otherSome blank otherBlank _ ih =>
      rw [List.takeWhile_append_of_pos fun c member => goesOn c (blank c member),
        List.takeWhile_append_of_pos fun c member => goesOn c (otherBlank c member)]
      exact .gap some otherSome blank otherBlank ih

theorem trimStart (respaced : Respaced left right) :
    Respaced (Text.trimStart left) (Text.trimStart right) := by
  induction respaced with
  | nil => exact .nil
  | @char left right c later ih =>
      rw [Text.trimStart, Text.trimStart, List.dropWhile_cons, List.dropWhile_cons]
      split
      · exact ih
      · exact .char c later
  | gap _ _ blank otherBlank _ ih =>
      rw [Text.trimStart, Text.trimStart, List.dropWhile_append_of_pos blank,
        List.dropWhile_append_of_pos otherBlank]
      exact ih

theorem trim (respaced : Respaced left right) : Respaced (Text.trim left) (Text.trim right) :=
  respaced.trimStart.reverse.trimStart.reverse

/-! ## Markers -/

/-- A name that a marker encloses differs in blanks only, if what it encloses does. -/
theorem markedName (respaced : Respaced left right) :
    Respaced (Text.markedName left) (Text.markedName right) := by
  refine (respaced.takeWhile fun c blank => ?_).trim
  have noComma : c ≠ ',' := fun same => by rw [same] at blank; cases blank
  have noColon : c ≠ ':' := fun same => by rw [same] at blank; cases blank
  simp [noComma, noColon]

end Respaced

/-- What the markers of a text enclose. -/
def enclosures (pieces : List Piece) : List (List Char) :=
  pieces.filterMap fun
    | .char _ => none
    | .marker inside => some inside

section

variable {marker : Marker} {left right : List Char}

theorem not_startsAt_of_isBlank {c : Char} (blank : isBlank c = true) (after : List Char) :
    ¬ marker.startsAt c after = true := by
  intro starts
  rw [(startsAt_iff.mp starts).1] at blank
  cases marker <;> cases blank

theorem bne_brace_of_isBlank {c : Char} (blank : isBlank c = true) : (c != '}') = true :=
  bne_iff_ne.mpr fun same => by
    rw [same] at blank
    cases blank

/-- Blanks outside of markers stay as they are, and those inside go with their marker. -/
theorem piecesFrom_blanks {blanks : List Char} (blank : ∀ c ∈ blanks, isBlank c = true)
    (inside : Bool) (behind : List Char) :
    piecesFrom marker inside (blanks ++ behind) =
      (if inside then [] else blanks.map .char) ++ piecesFrom marker inside behind := by
  induction blanks with
  | nil => cases inside <;> rfl
  | cons c blanks ih =>
      have ⟨here, others⟩ := List.forall_mem_cons.mp blank
      rw [List.cons_append]
      cases inside with
      | false =>
          rw [piecesFrom, if_neg (not_startsAt_of_isBlank here _)]
          exact congrArg (.char c :: ·) (ih others)
      | true =>
          rw [piecesFrom, bne_brace_of_isBlank here]
          exact ih others

/-- Markers do not enclose more or less where blanks are put in front. -/
theorem enclosures_blanks {blanks : List Char} (blank : ∀ c ∈ blanks, isBlank c = true)
    (inside : Bool) (behind : List Char) :
    enclosures (piecesFrom marker inside (blanks ++ behind)) =
      enclosures (piecesFrom marker inside behind) := by
  have nothing : enclosures (blanks.map .char) = [] := by simp [enclosures]
  rw [piecesFrom_blanks blank, enclosures, List.filterMap_append]
  cases inside with
  | false => exact congrArg (· ++ _) nothing
  | true => rfl

/-- A marker that starts in one text starts in the other, and what stands behind its brace differs
in blanks only. -/
theorem Respaced.startsAt (respaced : Respaced left right) {c : Char}
    (starts : marker.startsAt c left = true) :
    marker.startsAt c right = true ∧ Respaced left.tail right.tail := by
  obtain ⟨rfl, behind, rfl, closes⟩ := startsAt_iff.mp starts
  obtain ⟨after, rfl, later⟩ := respaced.exists_of_cons rfl
  exact ⟨startsAt_iff.mpr ⟨rfl, after, rfl, (later.mem_iff rfl).mp closes⟩, later⟩

theorem Respaced.startsAt_eq (respaced : Respaced left right) (c : Char) :
    marker.startsAt c left = marker.startsAt c right :=
  Bool.eq_iff_iff.mpr ⟨fun starts => (respaced.startsAt starts).1,
    fun starts => (respaced.symm.startsAt starts).1⟩

/-- The markers of both texts enclose the same up to blanks. -/
theorem Respaced.enclosures_piecesFrom (respaced : Respaced left right) (inside : Bool) :
    List.Forall₂ Respaced (enclosures (piecesFrom marker inside left))
      (enclosures (piecesFrom marker inside right)) := by
  induction respaced generalizing inside with
  | nil => exact .nil
  | @char left right c later ih =>
      cases inside with
      | true => exact ih _
      | false =>
          rw [piecesFrom, piecesFrom, later.startsAt_eq c]
          split
          · rename_i starts
            rw [← later.startsAt_eq c] at starts
            exact .cons ((later.startsAt starts).2.takeWhile fun _ => bne_brace_of_isBlank) (ih true)
          · exact ih false
  | gap _ _ blank otherBlank _ ih =>
      rw [enclosures_blanks blank, enclosures_blanks otherBlank]
      exact ih inside

theorem Respaced.enclosures_pieces (respaced : Respaced left right) (marker : Marker) :
    List.Forall₂ Respaced (enclosures (pieces marker left)) (enclosures (pieces marker right)) :=
  respaced.enclosures_piecesFrom false

/-- A text has markers if they enclose something. -/
theorem hasMarker_iff_enclosures {text : String} :
    hasMarker marker text = true ↔ enclosures (pieces marker text.toList) ≠ [] := by
  rw [hasMarker, enclosures, ne_eq, List.filterMap_eq_nil_iff, List.any_eq_true]
  push Not
  refine exists_congr fun piece => and_congr_right fun _ => ?_
  cases piece <;> simp

/-- Both texts have markers or none has. -/
theorem Respaced.hasMarker_eq {left right : String} (respaced : Respaced left.toList right.toList)
    (marker : Marker) : hasMarker marker left = hasMarker marker right := by
  rw [Bool.eq_iff_iff, hasMarker_iff_enclosures, hasMarker_iff_enclosures]
  have counted := (respaced.enclosures_pieces marker).length_eq
  rw [ne_eq, ne_eq, ← List.length_eq_zero_iff, counted, List.length_eq_zero_iff]

end

/-! ## Uniform spacing -/

/-- Uniform spacing changes no more than blanks. -/
theorem LaidOut.respaced {chars : List Char} {portions : List Portion}
    (laidOut : LaidOut chars portions) :
    Respaced ((portions.map Portion.tightened).flatMap Portion.chars) chars := by
  induction laidOut with
  | nil => exact .nil
  | @literal quote inside behind _ _ _ _ ih =>
      have whole : quote :: (inside ++ quote :: behind) =
          (Portion.literal quote inside).chars ++ behind := by simp [Portion.chars]
      rw [whole]
      exact (Respaced.refl _).append ih
  | gap some blank _ _ ih =>
      have space : ∀ c ∈ [' '], isBlank c = true := List.forall_mem_singleton.mpr rfl
      exact .gap (List.cons_ne_nil ' ' []) some space (List.all_eq_true.mp blank) ih
  | other _ _ _ ih => exact .char _ ih

/-- A text with uniform spacing differs from the text between its outer blanks in blanks only. -/
theorem respaced_uniform (text : String) :
    Respaced (uniform text).toList (trimmed text).toList := by
  rw [uniform, trimmed, String.toList_ofList, String.toList_ofList]
  obtain ⟨portions, laidOut⟩ := exists_laidOut (trim text.toList)
  have respaced := laidOut.respaced
  rwa [laidOut.respace_laidOut.chars_eq] at respaced

end SqlTemplate.Text
