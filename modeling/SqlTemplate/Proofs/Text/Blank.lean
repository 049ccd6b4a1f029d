import Mathlib.Data.List.TakeWhile
import SqlTemplate.Proofs.Text.Front
import SqlTemplate.Text.Blank

/-!
# Cutting off blanks

Trimming keeps characters and only drops some: what is left was there before, and nothing is left
of blanks alone.  It changes nothing exactly where no blank stands at either end
(`trim_eq_self_iff`), so trimming twice is trimming once.  What it drops are blanks around the text
(`exists_blanks`), and blanks put around a text make no difference to it (`trim_surrounded`).
-/

namespace SqlTemplate.Text

set_option autoImplicit false

theorem mem_of_mem_trimEnd {c : Char} {chars : List Char} (member : c ∈ trimEnd chars) :
    c ∈ chars :=
  List.mem_reverse.mp
    ((List.dropWhile_sublist isBlank).subset (List.mem_reverse.mp member))

theorem mem_of_mem_trim {c : Char} {chars : List Char} (member : c ∈ trim chars) : c ∈ chars :=
  (List.dropWhile_sublist isBlank).subset (mem_of_mem_trimEnd member)

/-- Only of blanks nothing is left. -/
theorem trim_eq_nil_iff {chars : List Char} : trim chars = [] ↔ chars.all isBlank = true := by
  simp only [trim, trimEnd, trimStart, List.reverse_eq_nil_iff, List.dropWhile_eq_nil_iff,
    List.mem_reverse, List.all_eq_true]
  constructor
  · intro blank c member
    by_cases starts : c ∈ chars.dropWhile isBlank
    · exact blank c starts
    · have split := List.takeWhile_append_dropWhile (p := isBlank) (l := chars)
      rw [← split, List.mem_append] at member
      exact List.mem_takeWhile_imp (member.resolve_right starts)
  · intro blank c member
    exact blank c ((List.dropWhile_sublist isBlank).subset member)

/-! ## Texts without blanks at their ends -/

theorem trimStart_stopsAt (chars : List Char) : StopsAt isBlank (trimStart chars) :=
  stopsAt_dropWhile isBlank chars

theorem trimStart_eq_self {chars : List Char} (stops : StopsAt isBlank chars) :
    trimStart chars = chars := by
  have kept : ([] ++ chars).dropWhile isBlank = chars :=
    stops.dropWhile_append fun _ none => absurd none List.not_mem_nil
  exact kept

theorem trimEnd_eq_self {chars : List Char} (stops : StopsAt isBlank chars.reverse) :
    trimEnd chars = chars := by
  have kept := trimStart_eq_self stops
  rw [trimEnd, ← trimStart, kept, List.reverse_reverse]

/-- Cutting off blanks at the end leaves the front as it is. -/
theorem stopsAt_trimEnd {inClass : Char → Bool} {chars : List Char}
    (stops : StopsAt inClass chars) : StopsAt inClass (trimEnd chars) := by
  refine stops.of_front ?_
  rw [trimEnd, ← List.reverse_suffix, List.reverse_reverse]
  exact List.dropWhile_suffix isBlank

/-- A text that ends with no blank is not blank. -/
theorem all_isBlank_eq_false {chars : List Char} (stops : StopsAt isBlank chars.reverse)
    (some : chars ≠ []) : chars.all isBlank = false := by
  cases reversed : chars.reverse with
  | nil => exact absurd (List.reverse_eq_nil_iff.mp reversed) some
  | cons last before =>
      have listed : last ∈ chars := List.mem_reverse.mp (reversed ▸ List.mem_cons_self ..)
      exact List.all_eq_false.mpr ⟨last, listed, by simp [stops last before reversed]⟩

/-- Trimming leaves no blank at either end. -/
theorem trim_stopsAt (chars : List Char) :
    StopsAt isBlank (trim chars) ∧ StopsAt isBlank (trim chars).reverse := by
  refine ⟨stopsAt_trimEnd (trimStart_stopsAt chars), ?_⟩
  rw [trim, trimEnd, List.reverse_reverse]
  exact trimStart_stopsAt _

/-- Trimming changes nothing exactly where no blank stands at either end. -/
theorem trim_eq_self_iff {chars : List Char} :
    trim chars = chars ↔ StopsAt isBlank chars ∧ StopsAt isBlank chars.reverse := by
  constructor
  · intro kept
    have stops := trim_stopsAt chars
    rwa [kept] at stops
  · rintro ⟨front, behind⟩
    rw [trim, trimStart_eq_self front, trimEnd_eq_self behind]

/-- Trimming changes nothing where there is no blank. -/
theorem trim_eq_self {chars : List Char} (noBlank : ∀ c ∈ chars, isBlank c = false) :
    trim chars = chars := by
  apply trim_eq_self_iff.mpr
  constructor
  · intro c after equal
    exact noBlank c (equal ▸ List.mem_cons_self ..)
  · intro c after equal
    exact noBlank c (List.mem_reverse.mp (equal ▸ List.mem_cons_self ..))

theorem trim_trim (chars : List Char) : trim (trim chars) = trim chars :=
  trim_eq_self_iff.mpr (trim_stopsAt chars)

theorem trimmed_trimmed (text : String) : trimmed (trimmed text) = trimmed text := by
  rw [trimmed, trimmed, String.toList_ofList, trim_trim]

/-- Behind a text without blanks at its ends only the blanks at the end are cut off. -/
theorem trim_append {front behind : List Char} (kept : trim front = front)
    (stops : StopsAt isBlank behind) : trim (front ++ behind) = front ++ trimEnd behind := by
  obtain ⟨frontStops, backStops⟩ := trim_eq_self_iff.mp kept
  have backKept : front.reverse.dropWhile isBlank = front.reverse := trimStart_eq_self backStops
  rw [trim, trimStart_eq_self (frontStops.append stops), trimEnd, trimEnd, List.reverse_append,
    List.dropWhile_append, backKept]
  cases behind.reverse.dropWhile isBlank with
  | nil => simp
  | cons c rest => simp

/-- Trimming leaves something of a text that is not blank. -/
theorem trimmed_ne_empty {text : String} (notBlank : isAllBlank text = false) :
    trimmed text ≠ "" := by
  intro none
  have noChars := congrArg String.toList none
  rw [trimmed, String.toList_ofList, String.toList_empty, trim_eq_nil_iff] at noChars
  rw [isAllBlank, noChars] at notBlank
  cases notBlank

/-- A text that can be a label: it is not empty, and no blank stands at either end. -/
structure IsLabel (text : String) : Prop where
  ne_empty : text ≠ ""
  trimmed_eq : trimmed text = text

/-- What trimming leaves of a text that is not blank can be a label. -/
theorem trimmed_isLabel {text : String} (notBlank : isAllBlank text = false) :
    IsLabel (trimmed text) :=
  ⟨trimmed_ne_empty notBlank, trimmed_trimmed text⟩

/-- A label is not blank. -/
theorem IsLabel.notBlank {text : String} (label : IsLabel text) : isAllBlank text = false := by
  rw [← Bool.not_eq_true]
  intro blank
  have trimmed := label.trimmed_eq
  rw [Text.trimmed, trim_eq_nil_iff.mpr blank] at trimmed
  exact label.ne_empty trimmed.symm

/-! ## Blanks around a text -/

/-- Blanks behind a text make no difference to what trimming leaves. -/
theorem trim_append_blank {behind : List Char} (blank : behind.all isBlank = true)
    (chars : List Char) : trim (chars ++ behind) = trim chars := by
  have gone : behind.dropWhile isBlank = [] :=
    List.dropWhile_eq_nil_iff.mpr (List.all_eq_true.mp blank)
  have ends : ∀ c ∈ behind.reverse, isBlank c = true := fun c member =>
    List.all_eq_true.mp blank c (List.mem_reverse.mp member)
  rw [trim, trim, trimStart, trimStart, List.dropWhile_append]
  split
  · rename_i none
    rw [gone, List.isEmpty_iff.mp none]
  · rw [trimEnd, List.reverse_append, List.dropWhile_append_of_pos ends, trimEnd]

/-- Blanks around a text make no difference to what trimming leaves. -/
theorem trim_surrounded {before behind : List Char} (frontBlank : before.all isBlank = true)
    (backBlank : behind.all isBlank = true) (chars : List Char) :
    trim (before ++ chars ++ behind) = trim chars := by
  rw [trim_append_blank backBlank, trim, trim, trimStart,
    List.dropWhile_append_of_pos (List.all_eq_true.mp frontBlank), trimStart]

/-- Two texts are all blank together if each of them is. -/
theorem isAllBlank_append (front behind : String) :
    isAllBlank (front ++ behind) = (isAllBlank front && isAllBlank behind) := by
  rw [isAllBlank, String.toList_append, List.all_append, isAllBlank, isAllBlank]

/-- A text is what trimming leaves of it, between blanks. -/
theorem exists_blanks (chars : List Char) :
    ∃ before behind, chars = before ++ trim chars ++ behind ∧
      before.all isBlank = true ∧ behind.all isBlank = true := by
  have front := List.takeWhile_append_dropWhile (p := isBlank) (l := chars)
  have back := List.takeWhile_append_dropWhile (p := isBlank) (l := (trimStart chars).reverse)
  have ends := congrArg List.reverse back
  rw [List.reverse_append, List.reverse_reverse] at ends
  refine ⟨chars.takeWhile isBlank, ((trimStart chars).reverse.takeWhile isBlank).reverse, ?_, ?_, ?_⟩
  · rw [List.append_assoc, trim, trimEnd, ends, trimStart, front]
  · exact List.all_takeWhile
  · rw [List.all_reverse]
    exact List.all_takeWhile

end SqlTemplate.Text
