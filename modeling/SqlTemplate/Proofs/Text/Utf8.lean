import SqlTemplate.Text.Utf8

/-!
# Texts as bytes and back

The bytes that write a text are read as the characters of the text (`decode?_encode`).  A character
of ASCII is written as one byte, and every other only with bytes outside of ASCII, so a byte of
ASCII in the bytes of a text stands for its character.
-/

namespace SqlTemplate.Text

set_option autoImplicit false

/-! ## Bytes with a part of a number -/

theorem toNat_ofNat_of_lt {number : Nat} (small : number < 256) :
    (UInt8.ofNat number).toNat = number := by
  rw [UInt8.toNat_ofNat']
  exact Nat.mod_eq_of_lt small

/-- The byte that continues a character with six bits of its number. -/
theorem continues {part : Nat} (small : part < 64) :
    isContinuation (UInt8.ofNat (part + 128)) = true ∧
      payload (UInt8.ofNat (part + 128)) = part := by
  have value : (UInt8.ofNat (part + 128)).toNat = part + 128 := toNat_ofNat_of_lt (by omega)
  constructor
  · rw [isContinuation, Bool.and_eq_true, decide_eq_true_iff, decide_eq_true_iff,
      UInt8.le_iff_toNat_le, UInt8.le_iff_toNat_le, value]
    exact ⟨by simp, by simp; omega⟩
  · rw [payload, value]
    omega

/-- Where the leading byte allows a second byte. -/
theorem second_isInRange (lead : UInt8) {second : UInt8} (tail : isContinuation second = true)
    (notShort : lead.toNat = 0xE0 → 0xA0 ≤ second.toNat)
    (noSurrogate : lead.toNat = 0xED → second.toNat ≤ 0x9F)
    (notShortest : lead.toNat = 0xF0 → 0x90 ≤ second.toNat)
    (notBeyond : lead.toNat = 0xF4 → second.toNat ≤ 0x8F) :
    ((secondRange lead).1 ≤ second && second ≤ (secondRange lead).2) = true := by
  rw [isContinuation, Bool.and_eq_true, decide_eq_true_iff, decide_eq_true_iff,
    UInt8.le_iff_toNat_le, UInt8.le_iff_toNat_le] at tail
  rw [Bool.and_eq_true, decide_eq_true_iff, decide_eq_true_iff, UInt8.le_iff_toNat_le,
    UInt8.le_iff_toNat_le, secondRange]
  split
  · rename_i equal
    exact ⟨notShort (congrArg UInt8.toNat equal), tail.2⟩
  · split
    · rename_i equal
      exact ⟨tail.1, noSurrogate (congrArg UInt8.toNat equal)⟩
    · split
      · rename_i equal
        exact ⟨notShortest (congrArg UInt8.toNat equal), tail.2⟩
      · split
        · rename_i equal
          exact ⟨tail.1, notBeyond (congrArg UInt8.toNat equal)⟩
        · exact tail

/-! ## One character -/

section Leads

variable {lead second third fourth : UInt8}

theorem lt_of_toNat {bound : UInt8} (below : lead.toNat < bound.toNat) : lead < bound :=
  UInt8.lt_iff_toNat_lt.mpr below

theorem not_lt_of_toNat {bound : UInt8} (above : bound.toNat ≤ lead.toNat) : ¬lead < bound :=
  fun below => Nat.not_lt.mpr above (UInt8.lt_iff_toNat_lt.mp below)

/-- A byte of ASCII is a character. -/
theorem unitAt_one (ascii : lead.toNat < 0x80) (rest : List UInt8) :
    unitAt lead rest = ⟨some (Char.ofNat lead.toNat), 0⟩ := by
  have below : lead < 0x80 := lt_of_toNat ascii
  simp only [unitAt, if_pos below]

theorem unitAt_two (proper : 0xC2 ≤ lead.toNat) (bound : lead.toNat < 0xE0)
    (inRange : ((secondRange lead).1 ≤ second && second ≤ (secondRange lead).2) = true)
    (rest : List UInt8) :
    unitAt lead (second :: rest) =
      ⟨some (Char.ofNat (lead.toNat % 32 * 64 + payload second)), 1⟩ := by
  have noAscii : ¬lead < 0x80 := not_lt_of_toNat (Nat.le_trans (by decide) proper)
  have noTail : ¬lead < 0xC2 := not_lt_of_toNat proper
  have noExcess : ¬0xF4 < lead := not_lt_of_toNat (Nat.le_trans (Nat.le_of_lt bound) (by decide))
  have two : lead < 0xE0 := lt_of_toNat bound
  simp [unitAt, noAscii, noTail, noExcess, two, inRange, Option.filter_some]

theorem unitAt_three (proper : 0xE0 ≤ lead.toNat) (bound : lead.toNat < 0xF0)
    (inRange : ((secondRange lead).1 ≤ second && second ≤ (secondRange lead).2) = true)
    (tail : isContinuation third = true) (rest : List UInt8) :
    unitAt lead (second :: third :: rest) =
      ⟨some (Char.ofNat ((lead.toNat % 16 * 64 + payload second) * 64 + payload third)), 2⟩ := by
  have noAscii : ¬lead < 0x80 := not_lt_of_toNat (Nat.le_trans (by decide) proper)
  have noTail : ¬lead < 0xC2 := not_lt_of_toNat (Nat.le_trans (by decide) proper)
  have noExcess : ¬0xF4 < lead := not_lt_of_toNat (Nat.le_trans (Nat.le_of_lt bound) (by decide))
  have notTwo : ¬lead < 0xE0 := not_lt_of_toNat proper
  have three : lead < 0xF0 := lt_of_toNat bound
  simp [unitAt, noAscii, noTail, noExcess, notTwo, three, inRange, tail, Option.filter_some]

theorem unitAt_four (proper : 0xF0 ≤ lead.toNat) (bound : lead.toNat ≤ 0xF4)
    (inRange : ((secondRange lead).1 ≤ second && second ≤ (secondRange lead).2) = true)
    (tail : isContinuation third = true) (lastTail : isContinuation fourth = true)
    (rest : List UInt8) :
    unitAt lead (second :: third :: fourth :: rest) =
      ⟨some (Char.ofNat (((lead.toNat % 8 * 64 + payload second) * 64 + payload third) * 64 +
        payload fourth)), 3⟩ := by
  have noAscii : ¬lead < 0x80 := not_lt_of_toNat (Nat.le_trans (by decide) proper)
  have noTail : ¬lead < 0xC2 := not_lt_of_toNat (Nat.le_trans (by decide) proper)
  have noExcess : ¬0xF4 < lead := not_lt_of_toNat bound
  have notTwo : ¬lead < 0xE0 := not_lt_of_toNat (Nat.le_trans (by decide) proper)
  have notThree : ¬lead < 0xF0 := not_lt_of_toNat proper
  simp [unitAt, noAscii, noTail, noExcess, notTwo, notThree, inRange, tail, lastTail,
    Option.filter_some]

end Leads

/-! Characters by the parts of their numbers, six bits in each byte behind the first. -/

theorem units_one {number : Nat} (ascii : number < 128) (rest : List UInt8) :
    units (UInt8.ofNat number :: rest) = some (Char.ofNat number) :: units rest := by
  have value : (UInt8.ofNat number).toNat = number := toNat_ofNat_of_lt (by omega)
  rw [units, unitAt_one (by omega), value]
  rfl

theorem units_two {first second : Nat} (proper : 2 ≤ first) (bound : first < 32)
    (small : second < 64) (rest : List UInt8) :
    units (UInt8.ofNat (first + 192) :: UInt8.ofNat (second + 128) :: rest) =
      some (Char.ofNat (first * 64 + second)) :: units rest := by
  have value : (UInt8.ofNat (first + 192)).toNat = first + 192 := toNat_ofNat_of_lt (by omega)
  obtain ⟨tail, part⟩ := continues small
  have inRange := second_isInRange (UInt8.ofNat (first + 192)) tail (by omega) (by omega)
    (by omega) (by omega)
  have bits : (first + 192) % 32 = first := by omega
  rw [units, unitAt_two (by omega) (by omega) inRange, value, part, bits]
  rfl

theorem units_three {first second third : Nat} (bound : first < 16) (small : second < 64)
    (smallThird : third < 64) (notShort : first = 0 → 32 ≤ second)
    (noSurrogate : first = 13 → second < 32) (rest : List UInt8) :
    units (UInt8.ofNat (first + 224) :: UInt8.ofNat (second + 128) :: UInt8.ofNat (third + 128) ::
        rest) =
      some (Char.ofNat ((first * 64 + second) * 64 + third)) :: units rest := by
  have value : (UInt8.ofNat (first + 224)).toNat = first + 224 := toNat_ofNat_of_lt (by omega)
  have secondValue : (UInt8.ofNat (second + 128)).toNat = second + 128 :=
    toNat_ofNat_of_lt (by omega)
  obtain ⟨tail, part⟩ := continues small
  obtain ⟨thirdTail, thirdPart⟩ := continues smallThird
  have inRange := second_isInRange (UInt8.ofNat (first + 224)) tail (by omega) (by omega)
    (by omega) (by omega)
  have bits : (first + 224) % 16 = first := by omega
  rw [units, unitAt_three (by omega) (by omega) inRange thirdTail, value, part, thirdPart, bits]
  rfl

theorem units_four {first second third fourth : Nat} (bound : first < 5) (small : second < 64)
    (smallThird : third < 64) (smallFourth : fourth < 64) (notShort : first = 0 → 16 ≤ second)
    (notBeyond : first = 4 → second < 16) (rest : List UInt8) :
    units (UInt8.ofNat (first + 240) :: UInt8.ofNat (second + 128) :: UInt8.ofNat (third + 128) ::
        UInt8.ofNat (fourth + 128) :: rest) =
      some (Char.ofNat (((first * 64 + second) * 64 + third) * 64 + fourth)) :: units rest := by
  have value : (UInt8.ofNat (first + 240)).toNat = first + 240 := toNat_ofNat_of_lt (by omega)
  have secondValue : (UInt8.ofNat (second + 128)).toNat = second + 128 :=
    toNat_ofNat_of_lt (by omega)
  obtain ⟨tail, part⟩ := continues small
  obtain ⟨thirdTail, thirdPart⟩ := continues smallThird
  obtain ⟨fourthTail, fourthPart⟩ := continues smallFourth
  have inRange := second_isInRange (UInt8.ofNat (first + 240)) tail (by omega) (by omega)
    (by omega) (by omega)
  have bits : (first + 240) % 8 = first := by omega
  rw [units, unitAt_four (by omega) (by omega) inRange thirdTail fourthTail, value, part, thirdPart,
    fourthPart, bits]
  rfl

/-- Behind the bytes of a character the other characters are read. -/
theorem units_encodeChar_append (c : Char) (rest : List UInt8) :
    units (String.utf8EncodeChar c ++ rest) = some c :: units rest := by
  have valid : c.val.toNat < 0xD800 ∨ 0xDFFF < c.val.toNat ∧ c.val.toNat < 0x110000 := c.valid
  have same : Char.ofNat c.val.toNat = c := Char.ofNat_toNat c
  rw [String.utf8EncodeChar]
  generalize c.val.toNat = number at valid same ⊢
  split
  · exact (units_one (by omega) rest).trans (by rw [same])
  · split
    · have parts : number / 64 % 32 * 64 + number % 64 = number := by omega
      exact (units_two (by omega) (by omega) (by omega) rest).trans (by rw [parts, same])
    · split
      · have parts : (number / 4096 % 16 * 64 + number / 64 % 64) * 64 + number % 64 = number := by
          omega
        exact (units_three (by omega) (by omega) (by omega) (by omega) (by omega) rest).trans
          (by rw [parts, same])
      · have parts : ((number / 262144 % 8 * 64 + number / 4096 % 64) * 64 +
            number / 64 % 64) * 64 + number % 64 = number := by
          omega
        exact (units_four (by omega) (by omega) (by omega) (by omega) (by omega) (by omega)
          rest).trans (by rw [parts, same])

/-! ## Texts -/

theorem units_flatMap_encodeChar (chars : List Char) :
    units (chars.flatMap String.utf8EncodeChar) = chars.map some := by
  induction chars with
  | nil => rw [List.flatMap_nil, units, List.map_nil]
  | cons c chars ih => rw [List.flatMap_cons, units_encodeChar_append, ih, List.map_cons]

/-- The bytes that write a text are read as its characters. -/
theorem decode?_encode (text : String) : decode? (encode text) = some text.toList := by
  rw [decode?, encode, units_flatMap_encodeChar]
  induction text.toList with
  | nil => rfl
  | cons c chars ih =>
      rw [List.map_cons, List.mapM_cons, ih]
      rfl

theorem decodeLeniently_encode (text : String) : decodeLeniently (encode text) = text := by
  have chars : (text.toList.map some).map (fun unit => unit.getD '\uFFFD') = text.toList := by
    rw [List.map_map]
    exact List.map_id _
  rw [decodeLeniently, encode, units_flatMap_encodeChar, chars, String.ofList_toList]

/-! ## Bytes of ASCII in a text -/

theorem le_toNat_ofNat {part mark : Nat} (high : 128 ≤ mark) (fits : part + mark < 256) :
    128 ≤ (UInt8.ofNat (part + mark)).toNat := by
  rw [toNat_ofNat_of_lt fits]
  omega

/-- The bytes of a character outside of ASCII are outside of ASCII. -/
theorem le_toNat_of_mem_encodeChar {c : Char} (long : 127 < c.val.toNat) :
    ∀ byte ∈ String.utf8EncodeChar c, 128 ≤ byte.toNat := by
  rw [String.utf8EncodeChar, if_neg (by omega)]
  have none : ∀ byte ∈ ([] : List UInt8), 128 ≤ byte.toNat :=
    fun _ member => absurd member List.not_mem_nil
  generalize c.val.toNat = number
  split
  · refine List.forall_mem_cons.mpr ⟨le_toNat_ofNat (by omega) (by omega), ?_⟩
    exact List.forall_mem_cons.mpr ⟨le_toNat_ofNat (by omega) (by omega), none⟩
  · split
    · refine List.forall_mem_cons.mpr ⟨le_toNat_ofNat (by omega) (by omega), ?_⟩
      refine List.forall_mem_cons.mpr ⟨le_toNat_ofNat (by omega) (by omega), ?_⟩
      exact List.forall_mem_cons.mpr ⟨le_toNat_ofNat (by omega) (by omega), none⟩
    · refine List.forall_mem_cons.mpr ⟨le_toNat_ofNat (by omega) (by omega), ?_⟩
      refine List.forall_mem_cons.mpr ⟨le_toNat_ofNat (by omega) (by omega), ?_⟩
      refine List.forall_mem_cons.mpr ⟨le_toNat_ofNat (by omega) (by omega), ?_⟩
      exact List.forall_mem_cons.mpr ⟨le_toNat_ofNat (by omega) (by omega), none⟩

/-- A character of ASCII is written as one byte. -/
theorem encodeChar_of_ascii {c : Char} (ascii : c.toNat < 128) :
    String.utf8EncodeChar c = [c.toUInt8] := by
  have small : c.val.toNat ≤ 127 := Nat.le_of_lt_succ ascii
  have byte : UInt8.ofNat c.val.toNat = c.toUInt8 := by
    rw [← UInt8.toNat_inj, toNat_ofNat_of_lt (by omega)]
    exact (Nat.mod_eq_of_lt (by omega)).symm
  rw [String.utf8EncodeChar, if_pos small, byte]

/-- A byte of ASCII in a character stands for the character. -/
theorem eq_of_mem_encodeChar {c mark : Char} (ascii : mark.toNat < 128)
    (member : mark.toUInt8 ∈ String.utf8EncodeChar c) : c = mark := by
  have value : mark.toUInt8.toNat = mark.toNat :=
    Nat.mod_eq_of_lt (Nat.lt_trans ascii (by decide))
  by_cases long : 127 < c.val.toNat
  · have := le_toNat_of_mem_encodeChar long _ member
    omega
  · have small : c.toNat < 128 := Nat.lt_of_not_le long
    rw [encodeChar_of_ascii small, List.mem_singleton, ← UInt8.toNat_inj, value] at member
    have number : c.toUInt8.toNat = c.toNat :=
      Nat.mod_eq_of_lt (Nat.lt_trans small (by decide))
    exact Char.toNat_inj.mp (number.symm.trans member.symm)

/-- A byte of ASCII in the bytes of a text stands for its character. -/
theorem mem_of_mem_encode {text : String} {mark : Char} (ascii : mark.toNat < 128)
    (member : mark.toUInt8 ∈ encode text) : mark ∈ text.toList := by
  obtain ⟨c, listed, inside⟩ := List.mem_flatMap.mp member
  rw [← eq_of_mem_encodeChar ascii inside]
  exact listed

end SqlTemplate.Text
