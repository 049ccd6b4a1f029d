import SqlTemplate.Proofs.Text.Affix

/-!
# Slices by bytes

A text is stored as bytes, and an affix is cut off by the number of its bytes.  The text can only be
cut between two characters: a slice that begins or ends inside of one has no characters
(`splitAtByte?`).

An affix is compared with a slice as long as itself, once it is clear that the slice ends between
two characters.  Such a comparison is never without an answer, and the answer is whether the affix
is found character by character (`sliceBegins?_eq`, `sliceEnds?_eq`): the case of ASCII letters makes
no difference to the number of bytes (`SameLetters.byteCount_eq`).  So an affix that is found can be
cut off (`backSlice?_of_afterFront?`, `frontSlice?_of_beforeEnd?`).
-/

namespace SqlTemplate.Text

set_option autoImplicit false

/-! ## Bytes of characters -/

/-- The number of bytes that write the characters. -/
def byteCount (chars : List Char) : Nat := (chars.flatMap String.utf8EncodeChar).length

@[simp] theorem byteCount_append (front behind : List Char) :
    byteCount (front ++ behind) = byteCount front + byteCount behind := by
  simp [byteCount]

@[simp] theorem byteCount_cons (c : Char) (chars : List Char) :
    byteCount (c :: chars) = c.utf8Size + byteCount chars := by
  simp [byteCount]

/-- The case of an ASCII letter makes no difference to its bytes. -/
theorem utf8Size_toLower (c : Char) : c.toLower.utf8Size = c.utf8Size := by
  delta Char.toLower
  split
  · rename_i capital
    have last : c.val.toNat ≤ 90 := capital.2
    have shift : ('a'.val - 'A'.val).toNat = 32 := rfl
    have bound : (127 : UInt32).toNat = 127 := rfl
    have own : c.utf8Size = 1 := by
      rw [Char.utf8Size_eq_one_iff, UInt32.le_iff_toNat_le]
      exact Nat.le_trans last (by decide)
    rw [own, Char.utf8Size_eq_one_iff, UInt32.le_iff_toNat_le, UInt32.toNat_add, shift, bound]
    omega
  · rfl

theorem SameLetters.byteCount_eq {affix front : List Char} (same : SameLetters affix front) :
    byteCount affix = byteCount front := by
  induction affix generalizing front with
  | nil => rw [sameLetters_nil_iff.mp same]
  | cons a affix ih =>
      obtain ⟨c, rest, rfl, first, others⟩ := sameLetters_cons_iff.mp same
      have size : a.utf8Size = c.utf8Size := by
        rw [← utf8Size_toLower a, sameLetter_iff.mp first, utf8Size_toLower]
      rw [byteCount_cons, byteCount_cons, size, ih others]

/-! ## Slices -/

/-- The characters in front of a number of bytes and those behind, if the number ends between two
characters. -/
def splitAtByte? : Nat → List Char → Option (List Char × List Char)
  | 0, chars => some ([], chars)
  | _ + 1, [] => none
  | count + 1, c :: chars =>
      if c.utf8Size ≤ count + 1 then
        (splitAtByte? (count + 1 - c.utf8Size) chars).map fun parts => (c :: parts.1, parts.2)
      else none

/-- A text is split where the characters in front have the number of bytes. -/
theorem splitAtByte?_eq_some_iff {count : Nat} {chars front behind : List Char} :
    splitAtByte? count chars = some (front, behind) ↔
      chars = front ++ behind ∧ byteCount front = count := by
  fun_induction splitAtByte? count chars generalizing front with
  | case1 chars =>
      constructor
      · intro split
        cases split
        exact ⟨rfl, rfl⟩
      · rintro ⟨rfl, none⟩
        cases front with
        | nil => rfl
        | cons c front =>
            have some := c.utf8Size_pos
            rw [byteCount_cons] at none
            omega
  | case2 count =>
      refine iff_of_false (fun split => by cases split) ?_
      rintro ⟨empty, counted⟩
      rw [(List.append_eq_nil_iff.mp empty.symm).1] at counted
      cases counted
  | case3 count c chars fits ih =>
      constructor
      · intro split
        obtain ⟨⟨rest, _⟩, inner, equal⟩ := Option.map_eq_some_iff.mp split
        cases equal
        obtain ⟨rfl, counted⟩ := ih.mp inner
        refine ⟨rfl, ?_⟩
        rw [byteCount_cons, counted]
        omega
      · rintro ⟨split, counted⟩
        cases front with
        | nil => cases counted
        | cons d front =>
            obtain ⟨rfl, rfl⟩ := List.cons.inj split
            rw [byteCount_cons] at counted
            exact Option.map_eq_some_iff.mpr ⟨(front, behind), ih.mpr ⟨rfl, by omega⟩, rfl⟩
  | case4 count c chars short =>
      refine iff_of_false (fun split => by cases split) ?_
      rintro ⟨split, counted⟩
      cases front with
      | nil => cases counted
      | cons d front =>
          obtain ⟨rfl, rfl⟩ := List.cons.inj split
          rw [byteCount_cons] at counted
          omega

/-- Whether a number of bytes ends between two characters of the text, or at one of its ends. -/
def isBoundary (count : Nat) (chars : List Char) : Bool := (splitAtByte? count chars).isSome

/-- The slice of the first bytes. -/
def frontSlice? (count : Nat) (chars : List Char) : Option (List Char) :=
  (splitAtByte? count chars).map Prod.fst

/-- The slice of the bytes behind the first. -/
def backSlice? (count : Nat) (chars : List Char) : Option (List Char) :=
  (splitAtByte? count chars).map Prod.snd

theorem isBoundary_append (front behind : List Char) :
    isBoundary (byteCount front) (front ++ behind) = true := by
  rw [isBoundary, splitAtByte?_eq_some_iff.mpr ⟨rfl, rfl⟩, Option.isSome_some]

theorem frontSlice?_append (front behind : List Char) :
    frontSlice? (byteCount front) (front ++ behind) = some front := by
  rw [frontSlice?, splitAtByte?_eq_some_iff.mpr ⟨rfl, rfl⟩, Option.map_some]

theorem backSlice?_append (front behind : List Char) :
    backSlice? (byteCount front) (front ++ behind) = some behind := by
  rw [backSlice?, splitAtByte?_eq_some_iff.mpr ⟨rfl, rfl⟩, Option.map_some]

/-- Between two characters a text has characters in front. -/
theorem exists_of_isBoundary {count : Nat} {chars : List Char}
    (boundary : isBoundary count chars = true) :
    ∃ front behind, chars = front ++ behind ∧ byteCount front = count := by
  obtain ⟨⟨front, behind⟩, split⟩ := Option.isSome_iff_exists.mp boundary
  exact ⟨front, behind, splitAtByte?_eq_some_iff.mp split⟩

/-! ## Affixes at the front -/

/-- Whether a text begins with an affix: a slice of as many bytes is compared with it. -/
def sliceBegins? (affix chars : List Char) : Option Bool :=
  if byteCount affix ≤ byteCount chars && isBoundary (byteCount affix) chars then
    (frontSlice? (byteCount affix) chars).map fun front => decide (SameLetters affix front)
  else some false

/-- Comparing a slice at the front always has an answer, and it is whether the affix is found
there. -/
theorem sliceBegins?_eq (affix chars : List Char) :
    sliceBegins? affix chars = some (afterFront? affix chars).isSome := by
  rw [sliceBegins?]
  cases found : afterFront? affix chars with
  | some rest =>
      obtain ⟨front, rfl, letters⟩ := afterFront?_eq_some_iff.mp found
      have shorter : byteCount front ≤ byteCount (front ++ rest) := by simp
      rw [letters.byteCount_eq, isBoundary_append, frontSlice?_append, Bool.and_true,
        if_pos (decide_eq_true shorter), Option.map_some, decide_eq_true letters]
      rfl
  | none =>
      split
      · rename_i fits
        obtain ⟨front, behind, rfl, counted⟩ :=
          exists_of_isBoundary (Bool.and_eq_true_iff.mp fits).2
        have other : ¬ SameLetters affix front := by
          intro letters
          rw [afterFront?_eq_some_iff.mpr ⟨front, rfl, letters⟩] at found
          cases found
        rw [← counted, frontSlice?_append, Option.map_some, decide_eq_false other]
        rfl
      · rfl

/-- What is behind an affix at the front can be sliced off. -/
theorem backSlice?_of_afterFront? {affix chars rest : List Char}
    (found : afterFront? affix chars = some rest) :
    backSlice? (byteCount affix) chars = some rest := by
  obtain ⟨front, rfl, letters⟩ := afterFront?_eq_some_iff.mp found
  rw [letters.byteCount_eq, backSlice?_append]

/-! ## Affixes at the end -/

/-- Whether a text ends with an affix: a slice of as many bytes is compared with it. -/
def sliceEnds? (affix chars : List Char) : Option Bool :=
  if byteCount affix ≤ byteCount chars &&
      isBoundary (byteCount chars - byteCount affix) chars then
    (backSlice? (byteCount chars - byteCount affix) chars).map fun behind =>
      decide (SameLetters affix behind)
  else some false

/-- The bytes of a text without those of its end. -/
theorem byteCount_sub {affix behind : List Char} (letters : SameLetters affix behind)
    (front : List Char) : byteCount (front ++ behind) - byteCount affix = byteCount front := by
  rw [byteCount_append, letters.byteCount_eq, Nat.add_sub_cancel]

/-- Comparing a slice at the end always has an answer, and it is whether the affix is found
there. -/
theorem sliceEnds?_eq (affix chars : List Char) :
    sliceEnds? affix chars = some (beforeEnd? affix chars).isSome := by
  rw [sliceEnds?]
  cases found : beforeEnd? affix chars with
  | some rest =>
      obtain ⟨behind, rfl, letters⟩ := beforeEnd?_eq_some_iff.mp found
      have shorter : byteCount affix ≤ byteCount (rest ++ behind) := by
        simp [letters.byteCount_eq]
      rw [byteCount_sub letters, isBoundary_append, backSlice?_append, Bool.and_true,
        if_pos (decide_eq_true shorter), Option.map_some, decide_eq_true letters]
      rfl
  | none =>
      split
      · rename_i fits
        obtain ⟨front, behind, rfl, counted⟩ :=
          exists_of_isBoundary (Bool.and_eq_true_iff.mp fits).2
        have other : ¬ SameLetters affix behind := by
          intro letters
          rw [beforeEnd?_eq_some_iff.mpr ⟨behind, rfl, letters⟩] at found
          cases found
        rw [← counted, backSlice?_append, Option.map_some, decide_eq_false other]
        rfl
      · rfl

/-- What is in front of an affix at the end can be sliced off. -/
theorem frontSlice?_of_beforeEnd? {affix chars rest : List Char}
    (found : beforeEnd? affix chars = some rest) :
    frontSlice? (byteCount chars - byteCount affix) chars = some rest := by
  obtain ⟨behind, rfl, letters⟩ := beforeEnd?_eq_some_iff.mp found
  rw [byteCount_sub letters, frontSlice?_append]

end SqlTemplate.Text
