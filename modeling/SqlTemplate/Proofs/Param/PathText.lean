import SqlTemplate.Param.Path
import SqlTemplate.Proofs.Text.Blank
import SqlTemplate.Proofs.Text.Letter

/-!
# Paths written one behind the other

A text that is empty or begins with a step may stand behind a path (`Path.Continues`).  Then the
whole is a path exactly when the text behind is a sequence of steps, and it has the root of the path
in front and the steps of both (`Path.ofChars?_append`): reading never looks past the point where
a step begins.

So a path may be built up in text: a name is a path of its own, and a position between brackets,
written in decimal digits (`Path.position?_toString`) or as a name (`Path.position?_name`), is one
more step.
-/

namespace SqlTemplate

set_option autoImplicit false

namespace Path

variable {front behind : List Char} {segments : List Segment} {path : Path}

/-! ## Steps behind steps -/

/-- A text that may stand behind a path: it is empty or begins with a step. -/
abbrev Continues (chars : List Char) : Prop := Text.StopsAt (!beginsStep ·) chars

theorem nameChars_append (continues : Continues behind) (front : List Char) :
    nameChars (front ++ behind) = nameChars front :=
  Text.StopsAt.takeWhile_append_left continues front

/-- What is left of a text behind the characters of its first name. -/
theorem drop_nameChars_append (continues : Continues behind) (front : List Char) :
    (front ++ behind).drop (nameChars (front ++ behind)).length =
      front.drop (nameChars front).length ++ behind := by
  rw [nameChars_append continues]
  exact List.drop_append_of_le_length (List.takeWhile_prefix _).length_le

/-- The steps of two texts are those of the one and then those of the other. -/
theorem segments?_append (continues : Continues behind) (reads : segments? front = some segments) :
    segments? (front ++ behind) = (segments? behind).map (segments ++ ·) := by
  induction front using segments?.induct generalizing segments with
  | case1 =>
      rw [segments?] at reads
      cases reads
      simp
  | case2 after ih =>
      rw [segments?, if_pos rfl] at reads
      obtain ⟨segment, member, reads⟩ := Option.bind_eq_some_iff.mp reads
      obtain ⟨more, others, reads⟩ := Option.bind_eq_some_iff.mp reads
      cases reads
      rw [List.cons_append, segments?, if_pos rfl, drop_nameChars_append continues,
        nameChars_append continues, member, ih others]
      cases segments? behind with
      | none => rfl
      | some rest => rfl
  | case3 after inside closed noPoint =>
      rename_i ih
      rw [segments?, if_neg noPoint, if_pos rfl] at reads
      dsimp only at reads
      rw [if_pos closed] at reads
      obtain ⟨position, written, reads⟩ := Option.bind_eq_some_iff.mp reads
      obtain ⟨more, others, reads⟩ := Option.bind_eq_some_iff.mp reads
      cases reads
      have same : (after ++ behind).takeWhile (· != ']') = after.takeWhile (· != ']') := by
        rw [List.takeWhile_append, if_neg closed.ne]
      have longer : (after.takeWhile (· != ']')).length < (after ++ behind).length := by
        rw [List.length_append]
        exact Nat.lt_add_right _ closed
      rw [List.cons_append, segments?, if_neg noPoint, if_pos rfl]
      dsimp only
      rw [same, if_pos longer, List.drop_append_of_le_length closed, written, ih others]
      cases segments? behind with
      | none => rfl
      | some rest => rfl
  | case4 after inside unclosed =>
      rw [segments?, if_neg (by decide), if_pos rfl] at reads
      dsimp only at reads
      rw [if_neg unclosed] at reads
      cases reads
  | case5 c after noPoint noBracket =>
      rw [segments?, if_neg noPoint, if_neg noBracket] at reads
      cases reads

/-! ## Steps behind a path -/

theorem beginsStep_iff {c : Char} : beginsStep c = true ↔ c = '.' ∨ c = '[' := by
  simp [beginsStep]

/-- A path with more steps. -/
def followedBy (path : Path) (more : List Segment) : Path := ⟨path.root, path.segments ++ more⟩

/-- No step begins with a blank. -/
theorem stopsAt_blank (continues : Continues behind) : Text.StopsAt Text.isBlank behind := by
  intro c after equal
  have begins : beginsStep c = true := by simpa using continues c after equal
  rcases beginsStep_iff.mp begins with rfl | rfl
  · decide
  · decide

/-- **A path and what stands behind it.** The whole has the steps of the path and then those of the
text behind, blanks at its end apart. -/
theorem ofChars?_append (kept : Text.trim front = front) (reads : ofChars? front = some path)
    (continues : Continues behind) :
    ofChars? (front ++ behind) = (segments? (Text.trimEnd behind)).map path.followedBy := by
  have noBlank : Text.StopsAt Text.isBlank behind := stopsAt_blank continues
  have goesOn : Continues (Text.trimEnd behind) := Text.stopsAt_trimEnd continues
  rw [ofChars?, kept] at reads
  rw [ofChars?, Text.trim_append kept noBlank, drop_nameChars_append goesOn,
    nameChars_append goesOn]
  split at reads
  · rename_i named
    obtain ⟨segments, steps, rfl⟩ := Option.map_eq_some_iff.mp reads
    rw [if_pos named, segments?_append goesOn steps, Option.map_map]
    rfl
  · cases reads

theorem ofString?_eq_ok_iff {text : String} :
    ofString? text = .ok path ↔ ofChars? text.toList = some path := by
  rw [ofString?]
  cases ofChars? text.toList with
  | none => simp
  | some found => simp

/-! ## Names and positions -/

/-- Without a plus sign in front only digits write a fixed position. -/
theorem fixedPosition?_of_ne {chars : List Char} (noPlus : ∀ after, chars ≠ '+' :: after) :
    fixedPosition? chars = digitsPosition? chars := by
  unfold fixedPosition?
  split
  · rename_i after
    exact absurd rfl (noPlus after)
  · rfl

section

variable {name : List Char} (named : Text.isName name = true)
include named

theorem trim_name : Text.trim name = name := by
  apply Text.trim_eq_self
  intro c member
  cases blank : Text.isBlank c with
  | false => rfl
  | true =>
      have part := Text.isNamePart_of_mem named member
      rw [Text.isNamePart_of_isBlank blank] at part
      cases part

/-- No step begins inside of a name. -/
theorem nameChars_name : nameChars name = name := by
  apply List.takeWhile_eq_self_iff.mpr
  intro c member
  have part := Text.isNamePart_of_mem named member
  rw [Bool.not_eq_true', ← Bool.not_eq_true, beginsStep_iff]
  rintro (rfl | rfl)
  · exact absurd part (by decide)
  · exact absurd part (by decide)

/-- A name is a path without steps. -/
theorem ofChars?_name : ofChars? name = some ⟨.ofList name, []⟩ := by
  rw [ofChars?, trim_name named, nameChars_name named, if_pos named, List.drop_length, segments?]
  rfl

theorem not_mem_name : ']' ∉ name := by
  intro member
  exact absurd (Text.isNamePart_of_mem named member) (by decide)

/-- A name writes no fixed position. -/
theorem fixedPosition?_name : fixedPosition? name = none := by
  cases name with
  | nil => cases named
  | cons first rest =>
      have starts := (Bool.and_eq_true_iff.mp named).1
      have noPlus : first ≠ '+' := by
        rintro rfl
        exact absurd starts (by decide)
      rw [fixedPosition?_of_ne fun after equal => noPlus (List.cons.inj equal).1, digitsPosition?]
      exact if_pos (by simp [Text.isDigit_of_isNameStart starts])

/-- A name between brackets is a named position. -/
theorem position?_name : position? name = some (.named (.ofList name)) := by
  rw [position?, trim_name named, fixedPosition?_name named]
  exact if_pos named

end

section

variable (position : Nat)

theorem toList_toString : (toString position).toList = Nat.toDigits 10 position := by
  rw [Nat.toString_eq_repr, Nat.repr_eq_ofList_toDigits, String.toList_ofList]

theorem isDigit_of_mem_toString {c : Char} (member : c ∈ (toString position).toList) :
    c.isDigit = true := by
  rw [toList_toString] at member
  exact Nat.isDigit_of_mem_toDigits (by decide) (by decide) member

theorem not_mem_toString : ']' ∉ (toString position).toList := by
  intro member
  exact absurd (isDigit_of_mem_toString position member) (by decide)

/-- Decimal digits between brackets are the position that they write. -/
theorem position?_toString (bounded : position < positionBound) :
    position? (toString position).toList = some (.fixed position) := by
  have digit (c : Char) := isDigit_of_mem_toString (c := c) position
  have noPlus : ∀ after, (toString position).toList ≠ '+' :: after := by
    intro after equal
    exact absurd (digit '+' (equal ▸ List.mem_cons_self ..)) (by decide)
  have value : Decimal.digitsValue (toString position).toList = position := by
    rw [toList_toString]
    exact Nat.ofDigitChars_toDigits (by decide) (by decide)
  have written : ¬ ((toString position).toList.isEmpty ||
      !(toString position).toList.all Char.isDigit) = true := by
    rw [toList_toString] at digit ⊢
    simpa using digit
  rw [position?, Text.trim_eq_self fun c member => Text.isBlank_of_isDigit (digit c member),
    fixedPosition?_of_ne noPlus, digitsPosition?, if_neg written, value]
  dsimp only
  rw [if_pos bounded]

end

/-- A position between brackets is one step. -/
theorem segments?_item {inside : List Char} {position : Position} (unclosed : ']' ∉ inside)
    (reads : position? inside = some position) :
    segments? ('[' :: (inside ++ [']'])) = some [.item position] := by
  have stops : Text.StopsAt (· != ']') [']'] := .cons (by decide)
  have closes : (inside ++ [']']).takeWhile (· != ']') = inside :=
    stops.takeWhile_append fun c member => by
      rw [bne_iff_ne]
      rintro rfl
      exact unclosed member
  have shorter : inside.length < (inside ++ [']']).length := by
    simp
  rw [segments?, if_neg (by decide), if_pos rfl]
  dsimp only
  rw [closes, if_pos shorter, reads, List.drop_eq_nil_of_le (by simp), segments?]
  rfl

/-- What stands behind a name in a path is a sequence of steps. -/
theorem exists_steps {name rest : String} (named : Text.isName name.toList = true)
    (continues : Continues rest.toList) (reads : ofString? (name ++ rest) = .ok path) :
    ∃ more, segments? (Text.trimEnd rest.toList) = some more ∧
      path = followedBy ⟨name, []⟩ more := by
  have chars := ofString?_eq_ok_iff.mp reads
  rw [String.toList_append, ofChars?_append (trim_name named) (ofChars?_name named) continues,
    String.ofList_toList] at chars
  obtain ⟨more, steps, rfl⟩ := Option.map_eq_some_iff.mp chars
  exact ⟨more, steps, rfl⟩

theorem followedBy_followedBy (path : Path) (first second : List Segment) :
    (path.followedBy first).followedBy second = path.followedBy (first ++ second) :=
  congrArg (Path.mk path.root) (List.append_assoc ..)

/-- **A path, a position between brackets, and what stands behind it.** -/
theorem ofString?_item {collection inside rest : String} {position : Position}
    {more : List Segment} (untrimmed : Text.trim collection.toList = collection.toList)
    (reads : ofString? collection = .ok path) (unclosed : ']' ∉ inside.toList)
    (written : position? inside.toList = some position) (continues : Continues rest.toList)
    (steps : segments? (Text.trimEnd rest.toList) = some more) :
    ofString? (collection ++ "[" ++ inside ++ "]" ++ rest) =
      .ok (path.followedBy (.item position :: more)) := by
  -- The brackets end in a character that is not blank, so the path with them is untrimmed again.
  have ends : Text.trimEnd ('[' :: (inside.toList ++ [']'])) = '[' :: (inside.toList ++ [']']) := by
    apply Text.trimEnd_eq_self
    rw [← List.cons_append, List.reverse_append]
    exact .cons (by decide)
  have opens : Continues ('[' :: (inside.toList ++ [']'])) := .cons (by decide)
  have front := ofChars?_append untrimmed (ofString?_eq_ok_iff.mp reads) opens
  rw [ends, segments?_item unclosed written, Option.map_some] at front
  have kept := Text.trim_append untrimmed
    (.cons (by decide) : Text.StopsAt Text.isBlank ('[' :: (inside.toList ++ [']'])))
  rw [ends] at kept
  have whole := ofChars?_append kept front continues
  rw [steps, Option.map_some, followedBy_followedBy] at whole
  rw [ofString?_eq_ok_iff]
  simpa using whole

end Path

end SqlTemplate
