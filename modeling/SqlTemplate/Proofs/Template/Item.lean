import SqlTemplate.Proofs.Template.Joining
import SqlTemplate.Proofs.Text.Blank
import SqlTemplate.Template.Clause

/-!
# Fragments as sequences of items

A fragment keeps its text and its values apart.  Here both are one sequence: an item is a character
of the text or a bound value, and a bound value counts as the question mark that it shows.

`Items.fragment` takes a sequence apart again.  What it gives fits together when no question mark
is a mere character (`Items.NoStray`): there are as many question marks as values
(`Items.count_glyphs`), and each value stands in the order of its question mark
(`Items.value_of_placeholder`).  Joining sequences shows as joining fragments
(`Items.fragment_join`).
-/

namespace SqlTemplate

set_option autoImplicit false

/-- A position of a fragment: a character of its text, or a bound value. -/
inductive Item where
  | char (c : Char)
  | bound (value : Value)

namespace Item

/-- The character that an item shows in the text. -/
def glyph : Item → Char
  | char c => c
  | bound _ => TextNode.placeholder

/-- The value that is bound at an item. -/
def value? : Item → Option Value
  | char _ => none
  | bound value => some value

/-- An item that shows no question mark has no value. -/
theorem value?_of_glyph_ne {item : Item} (shows : item.glyph ≠ TextNode.placeholder) :
    item.value? = none := by
  cases item with
  | char c => rfl
  | bound value => exact absurd rfl shows

end Item

namespace Items

/-- Characters as a sequence of items. -/
def ofChars (chars : List Char) : List Item := chars.map Item.char

/-- The text of a sequence. -/
def glyphs (items : List Item) : List Char := items.map Item.glyph

/-- The values that are bound in a sequence, in order. -/
def values (items : List Item) : List Value := items.filterMap Item.value?

/-- The fragment of a sequence. -/
def fragment (items : List Item) : Fragment := ⟨.ofList (glyphs items), values items⟩

/-- No question mark of a sequence is a mere character. -/
def NoStray (items : List Item) : Prop := .char TextNode.placeholder ∉ items

/-! ## Text and values -/

@[simp] theorem glyphs_ofChars (chars : List Char) : glyphs (ofChars chars) = chars := by
  rw [glyphs, ofChars, List.map_map]
  exact List.map_id chars

@[simp] theorem ofChars_append (front back : List Char) :
    ofChars (front ++ back) = ofChars front ++ ofChars back := List.map_append

@[simp] theorem glyphs_cons (item : Item) (items : List Item) :
    glyphs (item :: items) = item.glyph :: glyphs items := rfl

@[simp] theorem glyphs_append (left right : List Item) :
    glyphs (left ++ right) = glyphs left ++ glyphs right := List.map_append

@[simp] theorem values_ofChars (chars : List Char) : values (ofChars chars) = [] := by
  rw [values, ofChars, List.filterMap_map, List.filterMap_eq_nil_iff]
  intro c _
  rfl

@[simp] theorem values_append (left right : List Item) :
    values (left ++ right) = values left ++ values right := List.filterMap_append

@[simp] theorem values_char_cons (c : Char) (items : List Item) :
    values (.char c :: items) = values items := rfl

theorem fragment_sql_eq_empty_iff {items : List Item} : (fragment items).sql = "" ↔ items = [] := by
  rw [fragment, String.ofList_eq_empty_iff, glyphs, List.map_eq_nil_iff]

theorem fragment_isCarried (items : List Item) : (fragment items).IsCarried := by
  intro noText
  rw [fragment_sql_eq_empty_iff.mp noText]
  rfl

/-! ## Each value at its question mark -/

/-- There are as many question marks as values. -/
theorem count_glyphs {items : List Item} (noStray : NoStray items) :
    (glyphs items).count TextNode.placeholder = (values items).length := by
  induction items with
  | nil => rfl
  | cons item items ih =>
      rw [NoStray, List.mem_cons, not_or] at noStray
      have rest := ih noStray.2
      cases item with
      | char c =>
          have other : c ≠ TextNode.placeholder := fun same => noStray.1 (same ▸ rfl)
          rw [values_char_cons, ← rest]
          exact List.count_cons_of_ne other
      | bound value => exact List.count_cons_self.trans (congrArg Nat.succ rest)

/-- The value at a question mark is the one that is bound there: as many values come before it as
there are question marks before this one. -/
theorem value_of_placeholder {items : List Item} (noStray : NoStray items) {position : Nat}
    (shows : (glyphs items)[position]? = some TextNode.placeholder) :
    ∃ value, items[position]? = some (.bound value) ∧
      (values items)[((glyphs items).take position).count TextNode.placeholder]? =
        some value := by
  induction items generalizing position with
  | nil => cases shows
  | cons item items ih =>
      rw [NoStray, List.mem_cons, not_or] at noStray
      cases position with
      | zero =>
          cases item with
          | char c =>
              obtain rfl : c = TextNode.placeholder := Option.some.inj shows
              exact absurd rfl noStray.1
          | bound value => exact ⟨value, rfl, rfl⟩
      | succ position =>
          obtain ⟨value, here, inOrder⟩ := ih noStray.2 shows
          refine ⟨value, here, ?_⟩
          cases item with
          | char c =>
              have other : c ≠ TextNode.placeholder := fun same => noStray.1 (same ▸ rfl)
              rw [values_char_cons, ← inOrder]
              exact congrArg _ (List.count_cons_of_ne other)
          | bound other =>
              rw [← inOrder]
              exact (congrArg _ List.count_cons_self).trans List.getElem?_cons_succ

/-! ## Sequences without stray question marks -/

theorem NoStray.append {left right : List Item} (leftFree : NoStray left)
    (rightFree : NoStray right) : NoStray (left ++ right) := by
  rw [NoStray, List.mem_append, not_or]
  exact ⟨leftFree, rightFree⟩

theorem NoStray.char_cons {c : Char} {items : List Item} (other : c ≠ TextNode.placeholder)
    (free : NoStray items) : NoStray (.char c :: items) := by
  rw [NoStray, List.mem_cons, not_or]
  exact ⟨fun same => other (Item.char.inj same).symm, free⟩

theorem NoStray.bound_cons (value : Value) {items : List Item} (free : NoStray items) :
    NoStray (.bound value :: items) := by
  rw [NoStray, List.mem_cons, not_or]
  exact ⟨fun same => (by cases same), free⟩

theorem NoStray.ofChars {chars : List Char} (free : TextNode.placeholder ∉ chars) :
    NoStray (ofChars chars) := by
  intro member
  obtain ⟨c, inChars, same⟩ := List.mem_map.mp member
  cases same
  exact free inChars

/-! ## Joining -/

/-- Two sequences with a space between them; a sequence without items adds nothing. -/
def join (left right : List Item) : List Item :=
  if right.isEmpty then left else if left.isEmpty then right else left ++ .char ' ' :: right

/-- Joining sequences shows as joining their fragments. -/
theorem fragment_join (left right : List Item) :
    fragment (join left right) = fragment left ++ fragment right := by
  by_cases rightNone : right = []
  · subst rightNone
    exact (Fragment.append_empty (fragment left)).symm
  by_cases leftNone : left = []
  · subst leftNone
    have joined : join [] right = right := by cases right <;> rfl
    rw [joined]
    exact (Fragment.empty_append (fragment right)).symm
  have leftHas : (fragment left).sql ≠ "" := mt fragment_sql_eq_empty_iff.mp leftNone
  have rightHas : (fragment right).sql ≠ "" := mt fragment_sql_eq_empty_iff.mp rightNone
  have text : (fragment left ++ fragment right).sql =
      .ofList (glyphs (left ++ .char ' ' :: right)) := by
    rw [Fragment.sql_append, Fragment.joinText_of_ne leftHas rightHas, List.append_cons,
      glyphs_append, glyphs_append, String.ofList_append, String.ofList_append]
    rfl
  have args : (fragment left ++ fragment right).args =
      values (left ++ .char ' ' :: right) := by
    rw [values_append, values_char_cons]
    rfl
  rw [join, if_neg (by simpa using rightNone), if_neg (by simpa using leftNone), fragment, ← text,
    ← args]

theorem NoStray.join {left right : List Item} (leftFree : NoStray left)
    (rightFree : NoStray right) : NoStray (join left right) := by
  rw [Items.join]
  split
  · exact leftFree
  · split
    · exact rightFree
    · exact leftFree.append (rightFree.char_cons (by decide))

end Items

end SqlTemplate
