import SqlTemplate.Markup.Event
import SqlTemplate.Proofs.Text.Utf8

/-!
# Names of elements and attributes

The names of the elements and attributes of a mapper document consist of letters of ASCII.  Their
bytes are no spaces, quotes or other marks, and tell the names apart.
-/

namespace SqlTemplate.Markup

set_option autoImplicit false

/-- Whether a text is a name of letters. -/
def isName (name : String) : Bool := name != "" && name.toList.all Char.isAlpha

/-! ## Bytes of letters -/

theorem toNat_lt_of_isAlpha {c : Char} (letter : c.isAlpha = true) : c.toNat < 128 := by
  rcases Bool.or_eq_true_iff.mp letter with upper | lower
  · have last : c.toNat ≤ 90 := (of_decide_eq_true upper).2
    omega
  · have last : c.toNat ≤ 122 := of_decide_eq_true (Bool.and_eq_true_iff.mp lower).2
    omega

theorem byte_inj {left right : Char} (leftAscii : left.toNat < 128)
    (rightAscii : right.toNat < 128) : byte left = byte right ↔ left = right := by
  constructor
  · intro same
    have member : right.toUInt8 ∈ String.utf8EncodeChar left := by
      rw [Text.encodeChar_of_ascii leftAscii]
      exact List.mem_singleton.mpr same.symm
    exact Text.eq_of_mem_encodeChar rightAscii member
  · exact congrArg byte

/-- The byte of a letter is the byte of no mark. -/
theorem byte_ne_of_isAlpha {c : Char} (letter : c.isAlpha = true) (mark : Char)
    (ascii : mark.toNat < 128) (other : mark.isAlpha = false) : byte c ≠ byte mark := by
  intro same
  rw [byte_inj (toNat_lt_of_isAlpha letter) ascii] at same
  rw [same, other] at letter
  cases letter

theorem isSpace_byte {c : Char} (letter : c.isAlpha = true) : isSpace (byte c) = false := by
  have notSpace : byte c ≠ 0x20 := byte_ne_of_isAlpha letter ' ' (by decide) (by decide)
  have notTab : byte c ≠ 0x09 := byte_ne_of_isAlpha letter '\t' (by decide) (by decide)
  have notLine : byte c ≠ 0x0A := byte_ne_of_isAlpha letter '\n' (by decide) (by decide)
  have notReturn : byte c ≠ 0x0D := byte_ne_of_isAlpha letter '\r' (by decide) (by decide)
  simp [isSpace, notSpace, notTab, notLine, notReturn]

theorem isAsciiBlank_byte {c : Char} (letter : c.isAlpha = true) :
    isAsciiBlank (byte c) = false := by
  have notFeed : byte c ≠ 0x0C := byte_ne_of_isAlpha letter '\x0C' (by decide) (by decide)
  simp [isAsciiBlank, isSpace_byte letter, notFeed]

theorem isKeyPart_byte {c : Char} (letter : c.isAlpha = true) : isKeyPart (byte c) = true := by
  have notSign := byte_ne_of_isAlpha letter '=' (by decide) (by decide)
  simp [isKeyPart, isSpace_byte letter, notSign]

theorem isQuote_byte {c : Char} (letter : c.isAlpha = true) : isQuote (byte c) = false := by
  have notDouble := byte_ne_of_isAlpha letter '"' (by decide) (by decide)
  have notSingle := byte_ne_of_isAlpha letter '\'' (by decide) (by decide)
  simp [isQuote, notDouble, notSingle]

/-! ## Bytes of names -/

section Names

variable {name : String} (isName : isName name = true)

include isName

theorem forall_isAlpha : ∀ c ∈ name.toList, c.isAlpha = true :=
  List.all_eq_true.mp (Bool.and_eq_true_iff.mp isName).2

/-- What holds of the bytes of letters holds of the bytes of a name. -/
theorem forall_mem_bytes {holds : UInt8 → Prop}
    (letters : ∀ c : Char, c.isAlpha = true → holds (byte c)) : ∀ b ∈ bytes name, holds b := by
  intro b member
  obtain ⟨c, listed, rfl⟩ := List.mem_map.mp member
  exact letters c (forall_isAlpha isName c listed)

/-- A name starts with a letter. -/
theorem exists_bytes : ∃ (c : Char) (others : List UInt8), c.isAlpha = true ∧
    bytes name = byte c :: others := by
  have letters := forall_isAlpha isName
  have some : name ≠ "" := by simpa using (Bool.and_eq_true_iff.mp isName).1
  cases chars : name.toList with
  | nil => exact absurd (String.toList_eq_nil_iff.mp chars) some
  | cons c after =>
      rw [chars] at letters
      exact ⟨c, after.map byte, letters c (List.mem_cons_self ..), by rw [bytes, chars]; rfl⟩

/-- A name is written in UTF-8 with the bytes of its letters. -/
theorem bytes_eq_encode : bytes name = Text.encode name := by
  have letters := forall_isAlpha isName
  rw [bytes, Text.encode]
  generalize name.toList = chars at letters ⊢
  induction chars with
  | nil => rfl
  | cons c chars ih =>
      obtain ⟨here, later⟩ := List.forall_mem_cons.mp letters
      rw [List.map_cons, List.flatMap_cons, Text.encodeChar_of_ascii (toNat_lt_of_isAlpha here),
        ih later]
      rfl

theorem decodeLeniently_bytes : Text.decodeLeniently (bytes name) = name := by
  rw [bytes_eq_encode isName, Text.decodeLeniently_encode]

end Names

/-- Names with equal bytes are equal. -/
theorem bytes_inj {left right : String} (leftIsName : isName left = true)
    (rightIsName : isName right = true) : bytes left = bytes right ↔ left = right := by
  constructor
  · intro same
    have decoded := congrArg Text.decodeLeniently same
    rwa [decodeLeniently_bytes leftIsName, decodeLeniently_bytes rightIsName] at decoded
  · exact congrArg bytes

end SqlTemplate.Markup
