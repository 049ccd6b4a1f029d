import Mathlib.Data.List.Basic
import SqlTemplate.Markup.Tag
import SqlTemplate.Proofs.Text.Blank
import SqlTemplate.Proofs.Text.Utf8

/-!
# Writing text in markup

An ampersand and an opening angle bracket in a text, and in a quoted text a quote as well, are
written as references.  The bytes of a text that is written so have none of these marks, and are
read as the text (`readText?_escaped`).
-/

namespace SqlTemplate.Markup

set_option autoImplicit false

/-! ## Escaping -/

/-- The characters that write a character, in quotes or outside of them. -/
def escape (quoted : Bool) (c : Char) : List Char :=
  if c = '&' then "&amp;".toList
  else if c = '<' then "&lt;".toList
  else if quoted ∧ c = '"' then "&quot;".toList
  else [c]

/-- The bytes that write a text, in quotes or outside of them. -/
def escaped (quoted : Bool) (text : String) : List UInt8 :=
  Text.encode (.ofList (text.toList.flatMap (escape quoted)))

/-! ## Reading what is escaped -/

/-- A reference is read as the character that it stands for. -/
theorem resolveReferences?_reference {referenced? : List Char → Option Char}
    {inside : List Char} {c : Char}
    (plain : ∀ other ∈ inside, (other != '&' && other != ';') = true)
    (stands : referenced? inside = some c) (after : List Char) :
    resolveReferences? referenced? ('&' :: (inside ++ ';' :: after)) =
      (resolveReferences? referenced? after).map (c :: ·) := by
  have stops : (inside ++ ';' :: after).takeWhile (fun other => other != '&' && other != ';') =
      inside := by
    rw [List.takeWhile_append_of_pos plain, List.takeWhile_cons_of_neg (by decide),
      List.append_nil]
  have behind : (inside ++ ';' :: after).drop (inside.length + 1) = after :=
    List.drop_length_add_append 1
  rw [resolveReferences?, if_pos rfl]
  simp only [stops, List.drop_left, List.head?_cons, if_pos, stands, behind]
  cases resolveReferences? referenced? after with
  | none => rfl
  | some rest => rfl

/-- What is written for a character is read as the character. -/
theorem resolveReferences?_escape (quoted : Bool) (c : Char) (after : List Char) :
    resolveReferences? referenced? (escape quoted c ++ after) =
      (resolveReferences? referenced? after).map (c :: ·) := by
  have plain : ∀ name ∈ ["amp", "lt", "quot"], ∀ other ∈ name.toList,
      (other != '&' && other != ';') = true := by simp
  rw [escape]
  split
  · rename_i equal
    rw [equal]
    exact resolveReferences?_reference (plain "amp" (by simp)) rfl after
  · rename_i noAmpersand
    split
    · rename_i equal
      rw [equal]
      exact resolveReferences?_reference (plain "lt" (by simp)) rfl after
    · split
      · rename_i equal
        rw [equal.2]
        exact resolveReferences?_reference (plain "quot" (by simp)) rfl after
      · rw [List.singleton_append, resolveReferences?, if_neg noAmpersand]

theorem resolveReferences?_flatMap_escape (quoted : Bool) (chars : List Char) :
    resolveReferences? referenced? (chars.flatMap (escape quoted)) = some chars := by
  induction chars with
  | nil => rw [List.flatMap_nil, resolveReferences?]
  | cons c chars ih => rw [List.flatMap_cons, resolveReferences?_escape, ih, Option.map_some]

/-- The bytes that write a text are read as the text. -/
theorem readText?_escaped (quoted : Bool) (text : String) :
    readText? (escaped quoted text) = some text := by
  rw [readText?, escaped, Text.decode?_encode, String.toList_ofList]
  rw [Option.bind_eq_bind, Option.bind_some, resolveReferences?_flatMap_escape]
  exact congrArg some String.ofList_toList

/-! ## Marks that do not occur -/

/-- No character that is written opens a tag. -/
theorem not_mem_escape_angle (quoted : Bool) (c : Char) : '<' ∉ escape quoted c := by
  rw [escape]
  split
  · decide
  · split
    · decide
    · rename_i other
      split
      · decide
      · exact fun member => other (List.mem_singleton.mp member).symm

/-- No character that is written in quotes ends them. -/
theorem not_mem_escape_quote (c : Char) : '"' ∉ escape true c := by
  rw [escape]
  split
  · decide
  · split
    · decide
    · split
      · decide
      · rename_i other
        exact fun member => other ⟨rfl, (List.mem_singleton.mp member).symm⟩

theorem not_mem_escaped {quoted : Bool} {mark : Char} (ascii : mark.toNat < 128)
    (unwritten : ∀ c, mark ∉ escape quoted c) (text : String) :
    byte mark ∉ escaped quoted text := by
  intro member
  have listed := Text.mem_of_mem_encode ascii member
  rw [String.toList_ofList] at listed
  obtain ⟨c, _, inside⟩ := List.mem_flatMap.mp listed
  exact unwritten c inside

theorem angle_not_mem_escaped (quoted : Bool) (text : String) :
    byte '<' ∉ escaped quoted text :=
  not_mem_escaped (by decide) (not_mem_escape_angle quoted) text

theorem quote_not_mem_escaped (text : String) : byte '"' ∉ escaped true text :=
  not_mem_escaped (by decide) not_mem_escape_quote text

/-! ## Spaces at the ends -/

theorem dropWhile_eq_self {inClass : UInt8 → Bool} {content : List UInt8}
    (front : ∀ b, content.head? = some b → inClass b = false) :
    content.dropWhile inClass = content := by
  cases content with
  | nil => rfl
  | cons b rest => exact List.dropWhile_cons_of_neg (by simp [front b rfl])

theorem trimEnd_eq_self {inClass : UInt8 → Bool} {content : List UInt8}
    (behind : ∀ b, content.getLast? = some b → inClass b = false) :
    trimEnd inClass content = content := by
  have kept : content.reverse.dropWhile inClass = content.reverse :=
    dropWhile_eq_self fun b last => behind b (List.head?_reverse.symm.trans last)
  rw [trimEnd, kept, List.reverse_reverse]

/-- Bytes without a space at either end stay as they are. -/
theorem trim_eq_self {content : List UInt8}
    (front : ∀ b, content.head? = some b → isSpace b = false)
    (behind : ∀ b, content.getLast? = some b → isSpace b = false) : trim content = content := by
  rw [trim, dropWhile_eq_self front, trimEnd_eq_self behind]

/-- The bytes that write a character of a text. -/
def escapedChar (quoted : Bool) (c : Char) : List UInt8 :=
  (escape quoted c).flatMap String.utf8EncodeChar

theorem escaped_eq_flatMap (quoted : Bool) (text : String) :
    escaped quoted text = text.toList.flatMap (escapedChar quoted) := by
  rw [escaped, Text.encode, String.toList_ofList, List.flatMap_assoc]
  rfl

theorem escapedChar_ne_nil (quoted : Bool) (c : Char) : escapedChar quoted c ≠ [] := by
  have written : ∃ first others, escape quoted c = first :: others := by
    rw [escape]
    split
    · exact ⟨_, _, rfl⟩
    · split
      · exact ⟨_, _, rfl⟩
      · split <;> exact ⟨_, _, rfl⟩
  obtain ⟨first, others, written⟩ := written
  rw [escapedChar, written, List.flatMap_cons]
  exact List.append_ne_nil_of_left_ne_nil String.utf8EncodeChar_ne_nil _

/-- Only a blank is written with blanks. -/
theorem isBlank_of_mem_escape {quoted : Bool} {c : Char} (notBlank : Text.isBlank c = false)
    {shown : Char} (written : shown ∈ escape quoted c) : Text.isBlank shown = false := by
  have references : ∀ reference ∈ ["&amp;", "&lt;", "&quot;"],
      reference.toList.all (fun d => !Text.isBlank d) = true := by
    decide +kernel
  have inside {reference : String} (listed : reference ∈ ["&amp;", "&lt;", "&quot;"])
      (member : shown ∈ reference.toList) : Text.isBlank shown = false := by
    have plain := List.all_eq_true.mp (references reference listed) shown member
    simpa using plain
  rw [escape] at written
  split at written
  · exact inside (by simp) written
  · split at written
    · exact inside (by simp) written
    · split at written
      · exact inside (by simp) written
      · rw [List.mem_singleton.mp written]
        exact notBlank

/-- The characters that are spaces in markup. -/
def spaces : List Char := [' ', '\t', '\n', '\r']

/-- Only a space is written with spaces. -/
theorem isSpace_of_mem_encodeChar {c : Char} (other : c ∉ spaces) {b : UInt8}
    (member : b ∈ String.utf8EncodeChar c) : isSpace b = false := by
  have different (space : Char) (listed : space ∈ spaces) (ascii : space.toNat < 128) :
      b ≠ space.toUInt8 := by
    rintro rfl
    exact other (Text.eq_of_mem_encodeChar ascii member ▸ listed)
  have notSpace : b ≠ 0x20 := different ' ' (by decide) (by decide)
  have notTab : b ≠ 0x09 := different '\t' (by decide) (by decide)
  have notLine : b ≠ 0x0A := different '\n' (by decide) (by decide)
  have notReturn : b ≠ 0x0D := different '\r' (by decide) (by decide)
  simp [isSpace, notSpace, notTab, notLine, notReturn]

/-- Spaces are blank. -/
theorem isBlank_of_mem_spaces {c : Char} (space : c ∈ spaces) : Text.isBlank c = true := by
  have all : spaces.all Text.isBlank = true := by decide
  exact List.all_eq_true.mp all c space

/-- Only a blank is written with spaces. -/
theorem isSpace_of_mem_escapedChar {quoted : Bool} {c : Char} (notBlank : Text.isBlank c = false)
    {b : UInt8} (member : b ∈ escapedChar quoted c) : isSpace b = false := by
  obtain ⟨shown, written, inside⟩ := List.mem_flatMap.mp member
  refine isSpace_of_mem_encodeChar (fun space => ?_) inside
  have blank := isBlank_of_mem_escape notBlank written
  rw [isBlank_of_mem_spaces space] at blank
  cases blank

/-- The bytes of a text without blanks at its ends have no spaces at their ends. -/
theorem trim_escaped {quoted : Bool} {text : String}
    (trimmed : Text.trim text.toList = text.toList) :
    trim (escaped quoted text) = escaped quoted text := by
  have ⟨front, behind⟩ := Text.trim_eq_self_iff.mp trimmed
  rw [escaped_eq_flatMap]
  refine trim_eq_self (fun b first => ?_) (fun b last => ?_)
  · cases chars : text.toList with
    | nil =>
        rw [chars] at first
        cases first
    | cons c after =>
        rw [chars, List.flatMap_cons, List.head?_append_of_ne_nil _ (escapedChar_ne_nil quoted c)]
          at first
        exact isSpace_of_mem_escapedChar (front c after chars) (List.mem_of_head? first)
  · cases chars : text.toList.reverse with
    | nil =>
        rw [List.reverse_eq_nil_iff.mp chars] at last
        cases last
    | cons c before =>
        have whole : text.toList = before.reverse ++ [c] := by
          rw [← List.reverse_cons, ← chars, List.reverse_reverse]
        rw [whole, List.flatMap_append, List.flatMap_singleton,
          List.getLast?_append_of_ne_nil _ (escapedChar_ne_nil quoted c)] at last
        exact isSpace_of_mem_escapedChar (behind c before chars) (List.mem_of_getLast? last)

theorem escaped_ne_nil {quoted : Bool} {text : String} (some : text ≠ "") :
    escaped quoted text ≠ [] := by
  rw [escaped_eq_flatMap]
  cases chars : text.toList with
  | nil => exact absurd (String.toList_eq_nil_iff.mp chars) some
  | cons c after =>
      rw [List.flatMap_cons]
      exact List.append_ne_nil_of_left_ne_nil (escapedChar_ne_nil quoted c) _

end SqlTemplate.Markup
