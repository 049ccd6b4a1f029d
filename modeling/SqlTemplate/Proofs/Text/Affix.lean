import SqlTemplate.Text.Affix

/-!
# Letters and marks in affixes

An affix is found at the front of a text exactly where the text begins with the letters of the
affix, their case ignored, and what is left is the rest of the text (`afterFront?_eq_some_iff`); in
the same way it is found at the end (`beforeEnd?_eq_some_iff`).

Ignoring the case of letters makes no other character equal to one that is no letter: an affix
without question marks matches no question mark, and only a space matches a space.
-/

namespace SqlTemplate.Text

set_option autoImplicit false

/-! ## Texts with the same letters -/

/-- Texts that are equal up to the case of ASCII letters. -/
def SameLetters (left right : List Char) : Prop := left.map Char.toLower = right.map Char.toLower

instance (left right : List Char) : Decidable (SameLetters left right) :=
  inferInstanceAs (Decidable (left.map Char.toLower = right.map Char.toLower))

theorem sameLetter_iff {left right : Char} :
    sameLetter left right = true ↔ left.toLower = right.toLower := by
  rw [sameLetter, beq_iff_eq]

theorem sameLetters_nil_iff {chars : List Char} : SameLetters [] chars ↔ chars = [] := by
  rw [SameLetters, List.map_nil, eq_comm, List.map_eq_nil_iff]

theorem sameLetters_cons_iff {a : Char} {affix chars : List Char} :
    SameLetters (a :: affix) chars ↔
      ∃ c rest, chars = c :: rest ∧ sameLetter a c = true ∧ SameLetters affix rest := by
  constructor
  · intro same
    cases chars with
    | nil => cases same
    | cons c rest =>
        obtain ⟨first, others⟩ := List.cons.inj same
        exact ⟨c, rest, rfl, sameLetter_iff.mpr first, others⟩
  · rintro ⟨c, rest, rfl, first, others⟩
    exact List.cons_eq_cons.mpr ⟨sameLetter_iff.mp first, others⟩

/-- An affix is found exactly where a text begins with its letters. -/
theorem afterFront?_eq_some_iff {affix chars rest : List Char} :
    afterFront? affix chars = some rest ↔
      ∃ front, chars = front ++ rest ∧ SameLetters affix front := by
  induction affix generalizing chars with
  | nil => simp [afterFront?, sameLetters_nil_iff]
  | cons a affix ih =>
      constructor
      · intro found
        cases chars with
        | nil => cases found
        | cons c chars =>
            rw [afterFront?] at found
            split at found
            · rename_i same
              obtain ⟨front, rfl, letters⟩ := ih.mp found
              exact ⟨c :: front, rfl, sameLetters_cons_iff.mpr ⟨c, front, rfl, same, letters⟩⟩
            · cases found
      · rintro ⟨front, rfl, letters⟩
        obtain ⟨c, others, rfl, same, letters⟩ := sameLetters_cons_iff.mp letters
        rw [List.cons_append, afterFront?, if_pos same]
        exact ih.mpr ⟨others, rfl, letters⟩

/-- Two affixes are found one behind the other where the two together are found. -/
theorem afterFront?_append (first second chars : List Char) :
    afterFront? (first ++ second) chars = (afterFront? first chars).bind (afterFront? second) := by
  induction first generalizing chars with
  | nil => rfl
  | cons a first ih =>
      cases chars with
      | nil => rfl
      | cons c chars =>
          rw [List.cons_append, afterFront?, afterFront?]
          split
          · exact ih chars
          · rfl

/-- Affixes with the same letters are found in the same places. -/
theorem afterFront?_congr {left right : List Char} (same : SameLetters left right)
    (chars : List Char) : afterFront? left chars = afterFront? right chars := by
  apply Option.ext
  intro rest
  rw [afterFront?_eq_some_iff, afterFront?_eq_some_iff]
  constructor
  · rintro ⟨front, split, letters⟩
    exact ⟨front, split, same.symm.trans letters⟩
  · rintro ⟨front, split, letters⟩
    exact ⟨front, split, same.trans letters⟩

/-- A text that begins with the letters of a word begins with the first of them. -/
theorem SameLetters.head?_append {word front : List Char} (same : SameLetters word front)
    (some : word ≠ []) (behind : List Char) :
    (front ++ behind).head?.map Char.toLower = word.head?.map Char.toLower := by
  cases word with
  | nil => exact absurd rfl some
  | cons a word =>
      obtain ⟨c, rest, rfl, first, _⟩ := sameLetters_cons_iff.mp same
      exact congrArg Option.some (sameLetter_iff.mp first).symm

theorem SameLetters.reverse {left right : List Char} (same : SameLetters left right) :
    SameLetters left.reverse right.reverse := by
  rw [SameLetters, List.map_reverse, List.map_reverse, same]

/-- An affix is found at the end exactly where a text ends with its letters. -/
theorem beforeEnd?_eq_some_iff {affix chars rest : List Char} :
    beforeEnd? affix chars = some rest ↔
      ∃ behind, chars = rest ++ behind ∧ SameLetters affix behind := by
  rw [beforeEnd?, Option.map_eq_some_iff]
  constructor
  · rintro ⟨reversed, found, rfl⟩
    obtain ⟨front, split, letters⟩ := afterFront?_eq_some_iff.mp found
    refine ⟨front.reverse, ?_, ?_⟩
    · rw [← List.reverse_append, ← split, List.reverse_reverse]
    · simpa using letters.reverse
  · rintro ⟨behind, rfl, letters⟩
    refine ⟨rest.reverse, afterFront?_eq_some_iff.mpr ?_, List.reverse_reverse rest⟩
    exact ⟨behind.reverse, List.reverse_append, letters.reverse⟩

/-! ## Characters that are no letters -/

/-- Capitals become letters in lower case, so what comes before the letters does not change its
case. -/
theorem eq_of_toLower {c mark : Char} (noLetter : mark.toNat < 97) (lower : c.toLower = mark) :
    c = mark := by
  delta Char.toLower at lower
  split at lower
  · rename_i capital
    have first : 65 ≤ c.toNat := capital.1
    have last : c.toNat ≤ 90 := capital.2
    have value := congrArg UInt32.toNat (congrArg Char.val lower)
    rw [UInt32.toNat_add] at value
    have point : mark.val.toNat < 97 := noLetter
    simp at value
    omega
  · exact lower

theorem eq_mark_of_sameLetter {c : Char} (same : sameLetter c '?' = true) : c = '?' :=
  eq_of_toLower (by decide) (sameLetter_iff.mp same)

theorem sameLetter_space_iff {c : Char} : sameLetter ' ' c = true ↔ c = ' ' := by
  constructor
  · intro same
    exact eq_of_toLower (by decide) (sameLetter_iff.mp same).symm
  · rintro rfl
    rfl

/-- A mark that is no letter is found at the front exactly where a text begins with it. -/
theorem afterFront?_mark_eq_some_iff {mark : Char} (noCapital : mark.toLower = mark)
    (noLetter : mark.toNat < 97) {chars rest : List Char} :
    afterFront? [mark] chars = some rest ↔ chars = mark :: rest := by
  rw [afterFront?_eq_some_iff]
  constructor
  · rintro ⟨front, rfl, letters⟩
    obtain ⟨c, others, rfl, first, none⟩ := sameLetters_cons_iff.mp letters
    rw [sameLetters_nil_iff.mp none, List.singleton_append]
    rw [sameLetter_iff, noCapital] at first
    rw [eq_of_toLower noLetter first.symm]
  · rintro rfl
    exact ⟨[mark], rfl, rfl⟩

end SqlTemplate.Text
