import SqlTemplate.Markup.Byte
import SqlTemplate.Proofs.Text.Slice
import SqlTemplate.Proofs.Text.Utf8

/-!
# Affixes by the bytes of texts

Whether a text begins or ends with an affix can be asked of its bytes alone: there are as many as
the affix has, they can be cut off without cutting a character (`isCut`), and they are those of the
affix up to the case of ASCII letters (`bytesBegin`, `bytesEnd`).

Bytes answer as characters do (`affixes_bytewise`).  The first byte of a character does not continue
a character and all others do, so bytes can be cut exactly between characters
(`isCut_flatMap_encodeChar`).  The capitals of ASCII are single bytes and no byte of another
character is one of them, so characters have the same letters exactly if their bytes have
(`sameBytes_eq`).  Hence no match ends inside of a character, and what is cut off with as many bytes
as the affix has is the part of the text that matches it.
-/

namespace SqlTemplate.Text

set_option autoImplicit false

open Markup (lower)

/-! ## The tests -/

/-- Whether bytes can be cut at a place: at one of their ends, or in front of a byte that does not
continue a character. -/
def isCut (bytes : List UInt8) (place : Nat) : Bool :=
  place == 0 || place == bytes.length || bytes[place]?.any fun byte => !isContinuation byte

/-- Whether bytes are the same up to the case of ASCII letters. -/
def sameBytes (left right : List UInt8) : Bool := left.map lower == right.map lower

/-- Whether bytes begin with those of an affix. -/
def bytesBegin (affix bytes : List UInt8) : Bool :=
  affix.length ≤ bytes.length && isCut bytes affix.length &&
    sameBytes affix (bytes.take affix.length)

/-- Whether bytes end with those of an affix. -/
def bytesEnd (affix bytes : List UInt8) : Bool :=
  affix.length ≤ bytes.length && isCut bytes (bytes.length - affix.length) &&
    sameBytes affix (bytes.drop (bytes.length - affix.length))

/-- A text can be cut at a place, and these are the two texts that it is cut into. -/
structure CutsInto (text front behind : String) (place : Nat) : Prop where
  isCut : isCut (encode text) place = true
  take : (encode text).take place = encode front
  drop : (encode text).drop place = encode behind

/-! ## The case of bytes -/

theorem lower_of_long {byte : UInt8} (long : 128 ≤ byte.toNat) : lower byte = byte := by
  have noCapital : ¬ byte ≤ 0x5A := by
    rw [UInt8.le_iff_toNat_le]
    simp
    omega
  simp [lower, noCapital]

theorem toLower_of_long {c : Char} (long : 127 < c.val.toNat) : c.toLower = c := by
  delta Char.toLower
  split
  · rename_i capital
    have last : c.val.toNat ≤ 90 := capital.2
    omega
  · rfl

/-- The byte of an ASCII character in lower case is that of the character in lower case. -/
theorem lower_toUInt8 {c : Char} (ascii : c.toNat < 128) :
    lower c.toUInt8 = c.toLower.toUInt8 := by
  have all : ∀ number < 128,
      lower (Char.ofNat number).toUInt8 = (Char.ofNat number).toLower.toUInt8 := by
    decide
  simpa using all c.toNat ascii

theorem toLower_ascii {c : Char} (ascii : c.toNat < 128) : c.toLower.toNat < 128 := by
  have all : ∀ number < 128, (Char.ofNat number).toLower.toNat < 128 := by decide
  simpa using all c.toNat ascii

/-- The bytes of a character in lower case are those of the character in lower case. -/
theorem map_lower_encodeChar (c : Char) :
    (String.utf8EncodeChar c).map lower = String.utf8EncodeChar c.toLower := by
  by_cases long : 127 < c.val.toNat
  · rw [toLower_of_long long]
    refine (List.map_congr_left fun byte inside => ?_).trans (List.map_id _)
    exact lower_of_long (le_toNat_of_mem_encodeChar long byte inside)
  · have ascii : c.toNat < 128 := Nat.lt_of_not_le long
    rw [encodeChar_of_ascii ascii, encodeChar_of_ascii (toLower_ascii ascii), List.map_singleton,
      lower_toUInt8 ascii]

theorem map_lower_flatMap_encodeChar (chars : List Char) :
    (chars.flatMap String.utf8EncodeChar).map lower =
      (chars.map Char.toLower).flatMap String.utf8EncodeChar := by
  rw [List.map_flatMap, List.flatMap_map]
  simp only [map_lower_encodeChar]

/-- Characters with the same bytes are the same. -/
theorem flatMap_encodeChar_inj {left right : List Char} :
    left.flatMap String.utf8EncodeChar = right.flatMap String.utf8EncodeChar ↔ left = right := by
  constructor
  · intro same
    have read := congrArg units same
    rw [units_flatMap_encodeChar, units_flatMap_encodeChar] at read
    exact (List.map_inj_right fun _ _ => Option.some.inj).mp read
  · rintro rfl
    rfl

/-- Characters have the same letters exactly if their bytes have. -/
theorem sameBytes_eq (left right : List Char) :
    sameBytes (left.flatMap String.utf8EncodeChar) (right.flatMap String.utf8EncodeChar) =
      decide (SameLetters left right) := by
  rw [sameBytes, map_lower_flatMap_encodeChar, map_lower_flatMap_encodeChar, Bool.eq_iff_iff,
    beq_iff_eq, decide_eq_true_iff, flatMap_encodeChar_inj, SameLetters]

/-! ## Places between characters -/

/-- A byte that begins a character of more than one byte does not continue one. -/
theorem not_isContinuation_lead {number : Nat} (high : 192 ≤ number) (fits : number < 256) :
    isContinuation (UInt8.ofNat number) = false := by
  have value : (UInt8.ofNat number).toNat = number := toNat_ofNat_of_lt fits
  have above : ¬ UInt8.ofNat number ≤ 0xBF := by
    rw [UInt8.le_iff_toNat_le, value]
    simp
    omega
  simp [isContinuation, above]

/-- The first byte of a character continues no character, and all others do. -/
theorem exists_encodeChar_eq_cons (c : Char) :
    ∃ lead tail, String.utf8EncodeChar c = lead :: tail ∧ isContinuation lead = false ∧
      ∀ byte ∈ tail, isContinuation byte = true := by
  rw [String.utf8EncodeChar]
  have none : ∀ byte ∈ ([] : List UInt8), isContinuation byte = true :=
    fun _ member => absurd member List.not_mem_nil
  generalize c.val.toNat = number
  split
  · rename_i ascii
    have value : (UInt8.ofNat number).toNat = number := toNat_ofNat_of_lt (by omega)
    have below : ¬ (0x80 : UInt8) ≤ UInt8.ofNat number := by
      rw [UInt8.le_iff_toNat_le, value]
      simp
      omega
    exact ⟨_, _, rfl, by simp [isContinuation, below], none⟩
  · split
    · refine ⟨_, _, rfl, not_isContinuation_lead (by omega) (by omega), ?_⟩
      exact List.forall_mem_cons.mpr ⟨(continues (by omega)).1, none⟩
    · split
      · refine ⟨_, _, rfl, not_isContinuation_lead (by omega) (by omega), ?_⟩
        refine List.forall_mem_cons.mpr ⟨(continues (by omega)).1, ?_⟩
        exact List.forall_mem_cons.mpr ⟨(continues (by omega)).1, none⟩
      · refine ⟨_, _, rfl, not_isContinuation_lead (by omega) (by omega), ?_⟩
        refine List.forall_mem_cons.mpr ⟨(continues (by omega)).1, ?_⟩
        refine List.forall_mem_cons.mpr ⟨(continues (by omega)).1, ?_⟩
        exact List.forall_mem_cons.mpr ⟨(continues (by omega)).1, none⟩

/-- Behind the bytes of characters, bytes can be cut where the bytes of the others can be cut. -/
theorem isCut_append_flatMap_encodeChar (front : List UInt8) (chars : List Char) (place : Nat) :
    isCut (front ++ chars.flatMap String.utf8EncodeChar) (front.length + place) =
      isCut (chars.flatMap String.utf8EncodeChar) place := by
  cases place with
  | zero =>
      cases chars with
      | nil => simp [isCut]
      | cons c chars =>
          -- Here the byte at the place is the first one of the next character.
          obtain ⟨lead, tail, whole, first, _⟩ := exists_encodeChar_eq_cons c
          simp [isCut, whole, first]
  | succ place =>
      generalize chars.flatMap String.utf8EncodeChar = rest
      have atEnd : (front.length + (place + 1) == (front ++ rest).length) =
          (place + 1 == rest.length) := by
        rw [List.length_append, Bool.eq_iff_iff, beq_iff_eq, beq_iff_eq]
        omega
      have inside : (front ++ rest)[front.length + (place + 1)]? = rest[place + 1]? := by
        simp [List.getElem?_append_right]
      have notFront : front.length + (place + 1) ≠ 0 := by omega
      rw [isCut, isCut, atEnd, inside, beq_false_of_ne notFront,
        beq_false_of_ne place.succ_ne_zero]

/-- Inside of a character, bytes cannot be cut. -/
theorem isCut_encodeChar_append {c : Char} {place : Nat} (some : place ≠ 0)
    (inside : place < c.utf8Size) (rest : List UInt8) :
    isCut (String.utf8EncodeChar c ++ rest) place = false := by
  obtain ⟨lead, tail, whole, _, others⟩ := exists_encodeChar_eq_cons c
  rw [← String.length_utf8EncodeChar, whole, List.length_cons] at inside
  rw [whole]
  cases place with
  | zero => exact absurd rfl some
  | succ place =>
      have short : place < tail.length := Nat.lt_of_succ_lt_succ inside
      have other := others tail[place] (List.getElem_mem short)
      have found : (lead :: tail ++ rest)[place + 1]? = Option.some tail[place] := by
        simp [List.getElem?_append_left short]
      rw [isCut, found, Option.any_some, other]
      simp
      omega

/-- The bytes of characters can be cut exactly between two characters. -/
theorem isCut_flatMap_encodeChar (place : Nat) (chars : List Char) :
    isCut (chars.flatMap String.utf8EncodeChar) place = isBoundary place chars := by
  rw [isBoundary]
  fun_induction splitAtByte? place chars with
  | case1 chars => rfl
  | case2 count => simp [isCut]
  | case3 count c chars fits ih =>
      have place : count + 1 = (String.utf8EncodeChar c).length + (count + 1 - c.utf8Size) := by
        rw [String.length_utf8EncodeChar]
        omega
      rw [List.flatMap_cons, Option.isSome_map, ← ih, Nat.succ_eq_add_one]
      conv => lhs; rw [place]
      exact isCut_append_flatMap_encodeChar _ chars _
  | case4 count c chars short =>
      exact isCut_encodeChar_append (by omega) (by omega) _

/-! ## Slices -/

/-- Asking the bytes at the front is comparing a slice. -/
theorem sliceBegins?_eq_bytesBegin (affix chars : List Char) :
    sliceBegins? affix chars =
      some (bytesBegin (affix.flatMap String.utf8EncodeChar)
        (chars.flatMap String.utf8EncodeChar)) := by
  have tests : bytesBegin (affix.flatMap String.utf8EncodeChar)
      (chars.flatMap String.utf8EncodeChar) =
        (byteCount affix ≤ byteCount chars && isBoundary (byteCount affix) chars &&
          sameBytes (affix.flatMap String.utf8EncodeChar)
            ((chars.flatMap String.utf8EncodeChar).take (byteCount affix))) := by
    rw [bytesBegin, isCut_flatMap_encodeChar]
    rfl
  rw [sliceBegins?, tests]
  split
  · rename_i fits
    obtain ⟨front, behind, rfl, counted⟩ := exists_of_isBoundary (Bool.and_eq_true_iff.mp fits).2
    have cut : ((front ++ behind).flatMap String.utf8EncodeChar).take (byteCount affix) =
        front.flatMap String.utf8EncodeChar := by
      rw [List.flatMap_append, ← counted]
      exact List.take_left
    rw [fits, cut, sameBytes_eq, ← counted, frontSlice?_append, Option.map_some, Bool.true_and]
  · rename_i short
    rw [Bool.eq_false_iff.mpr short, Bool.false_and]

/-- Asking the bytes at the end is comparing a slice. -/
theorem sliceEnds?_eq_bytesEnd (affix chars : List Char) :
    sliceEnds? affix chars =
      some (bytesEnd (affix.flatMap String.utf8EncodeChar)
        (chars.flatMap String.utf8EncodeChar)) := by
  have tests : bytesEnd (affix.flatMap String.utf8EncodeChar)
      (chars.flatMap String.utf8EncodeChar) =
        (byteCount affix ≤ byteCount chars &&
          isBoundary (byteCount chars - byteCount affix) chars &&
            sameBytes (affix.flatMap String.utf8EncodeChar)
              ((chars.flatMap String.utf8EncodeChar).drop
                (byteCount chars - byteCount affix))) := by
    rw [bytesEnd, isCut_flatMap_encodeChar]
    rfl
  rw [sliceEnds?, tests]
  split
  · rename_i fits
    obtain ⟨front, behind, rfl, counted⟩ := exists_of_isBoundary (Bool.and_eq_true_iff.mp fits).2
    have cut : ((front ++ behind).flatMap String.utf8EncodeChar).drop (byteCount front) =
        behind.flatMap String.utf8EncodeChar := by
      rw [List.flatMap_append]
      exact List.drop_left
    rw [fits, ← counted, cut, sameBytes_eq, backSlice?_append, Option.map_some, Bool.true_and]
  · rename_i short
    rw [Bool.eq_false_iff.mpr short, Bool.false_and]

/-! ## Texts -/

theorem encode_append (front behind : String) :
    encode (front ++ behind) = encode front ++ encode behind := by
  rw [encode, String.toList_append, List.flatMap_append, encode, encode]

/-- A text can be cut behind each of its beginnings. -/
theorem cutsInto_append (front behind : String) :
    CutsInto (front ++ behind) front behind (encode front).length where
  isCut := by
    rw [encode, isCut_flatMap_encodeChar, String.toList_append]
    exact isBoundary_append front.toList behind.toList
  take := by rw [encode_append, List.take_left]
  drop := by rw [encode_append, List.drop_left]

/-- The bytes answer whether a text begins with an affix. -/
theorem bytesBegin_encode (text affix : String) :
    bytesBegin (encode affix) (encode text) = beginsWith text affix :=
  Option.some.inj ((sliceBegins?_eq_bytesBegin affix.toList text.toList).symm.trans
    (sliceBegins?_eq affix.toList text.toList))

/-- The bytes answer whether a text ends with an affix. -/
theorem bytesEnd_encode (text affix : String) :
    bytesEnd (encode affix) (encode text) = endsWith text affix :=
  Option.some.inj ((sliceEnds?_eq_bytesEnd affix.toList text.toList).symm.trans
    (sliceEnds?_eq affix.toList text.toList))

/-- A text begins with an affix exactly if a text that begins it has the letters of the affix. -/
theorem beginsWith_iff {text affix : String} :
    beginsWith text affix = true ↔
      ∃ front behind, text = front ++ behind ∧ SameLetters affix.toList front.toList := by
  rw [beginsWith, Option.isSome_iff_exists]
  constructor
  · rintro ⟨rest, found⟩
    obtain ⟨front, split, letters⟩ := afterFront?_eq_some_iff.mp found
    refine ⟨.ofList front, .ofList rest, ?_, by rwa [String.toList_ofList]⟩
    rw [← String.ofList_append, ← split, String.ofList_toList]
  · rintro ⟨front, behind, rfl, letters⟩
    exact ⟨behind.toList,
      afterFront?_eq_some_iff.mpr ⟨front.toList, String.toList_append, letters⟩⟩

/-- A text ends with an affix exactly if a text that ends it has the letters of the affix. -/
theorem endsWith_iff {text affix : String} :
    endsWith text affix = true ↔
      ∃ front behind, text = front ++ behind ∧ SameLetters affix.toList behind.toList := by
  rw [endsWith, Option.isSome_iff_exists]
  constructor
  · rintro ⟨rest, found⟩
    obtain ⟨behind, split, letters⟩ := beforeEnd?_eq_some_iff.mp found
    refine ⟨.ofList rest, .ofList behind, ?_, by rwa [String.toList_ofList]⟩
    rw [← String.ofList_append, ← split, String.ofList_toList]
  · rintro ⟨front, behind, rfl, letters⟩
    exact ⟨front.toList,
      beforeEnd?_eq_some_iff.mpr ⟨behind.toList, String.toList_append, letters⟩⟩

/-- **Bytes answer as characters do.**  The tests on bytes are the tests on characters.  A text
begins with an affix exactly if some beginning of it is equal to the affix character by character,
up to the case of ASCII letters.  That beginning has as many bytes as the affix; the text can be cut
at this place, and is cut there into the beginning and what is left behind it, which is also what
clauses go on with.  The same is true of the ends of a text. -/
theorem affixes_bytewise (text affix : String) :
    (bytesBegin (encode affix) (encode text) = beginsWith text affix ∧
      (beginsWith text affix = true ↔
        ∃ front behind, text = front ++ behind ∧ SameLetters affix.toList front.toList) ∧
      ∀ front behind, text = front ++ behind → SameLetters affix.toList front.toList →
        (encode front).length = (encode affix).length ∧
          CutsInto text front behind (encode affix).length ∧
          afterFront? affix.toList text.toList = some behind.toList) ∧
    bytesEnd (encode affix) (encode text) = endsWith text affix ∧
      (endsWith text affix = true ↔
        ∃ front behind, text = front ++ behind ∧ SameLetters affix.toList behind.toList) ∧
      ∀ front behind, text = front ++ behind → SameLetters affix.toList behind.toList →
        (encode behind).length = (encode affix).length ∧
          CutsInto text front behind ((encode text).length - (encode affix).length) ∧
          beforeEnd? affix.toList text.toList = some front.toList := by
  refine ⟨⟨bytesBegin_encode text affix, beginsWith_iff, ?_⟩, bytesEnd_encode text affix,
    endsWith_iff, ?_⟩
  · rintro front behind rfl letters
    have counted : (encode front).length = (encode affix).length := letters.byteCount_eq.symm
    refine ⟨counted, counted ▸ cutsInto_append front behind, ?_⟩
    exact afterFront?_eq_some_iff.mpr ⟨front.toList, String.toList_append, letters⟩
  · rintro front behind rfl letters
    have counted : (encode behind).length = (encode affix).length := letters.byteCount_eq.symm
    have place : (encode (front ++ behind)).length - (encode affix).length =
        (encode front).length := by
      rw [encode_append, List.length_append, counted, Nat.add_sub_cancel]
    refine ⟨counted, place ▸ cutsInto_append front behind, ?_⟩
    exact beforeEnd?_eq_some_iff.mpr ⟨behind.toList, String.toList_append, letters⟩

end SqlTemplate.Text
