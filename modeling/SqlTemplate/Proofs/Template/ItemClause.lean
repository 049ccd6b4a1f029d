import SqlTemplate.Proofs.Template.ItemCut
import SqlTemplate.Template.Render

/-!
# Clauses of items

The three clauses are given here on sequences of items.  Each of them cuts something off at the
ends, and puts its words around what is left, unless nothing is left.  A sequence without items
stands for nothing.

So a clause is put together from operations that cut (`Items.Cuts`) and operations that put words
around a sequence (`Items.Wraps`).  Both show in the text and lose no value, and so the clause of a
sequence shows as the clause of its fragment (`Items.MakesClause.clause?_fragment`).
-/

namespace SqlTemplate.Items

set_option autoImplicit false

/-! ## Words around a sequence -/

/-- An operation that puts words around texts, and one that puts them around sequences. -/
structure Wraps (wrapText : List Char → List Char) (wrap : List Item → List Item) : Prop where
  shows (items : List Item) : glyphs (wrap items) = wrapText (glyphs items)
  values_eq (items : List Item) : values (wrap items) = values items
  ne_nil {items : List Item} : items ≠ [] → wrap items ≠ []
  noStray {items : List Item} : NoStray items → NoStray (wrap items)

/-- Putting nothing around a sequence. -/
theorem Wraps.nothing : Wraps id id where
  shows _ := rfl
  values_eq _ := rfl
  ne_nil nonempty := nonempty
  noStray free := free

/-- Putting words around a sequence twice. -/
theorem Wraps.comp {innerText outerText : List Char → List Char}
    {inner outer : List Item → List Item} (outside : Wraps outerText outer)
    (inside : Wraps innerText inner) : Wraps (outerText ∘ innerText) (outer ∘ inner) where
  shows items := (outside.shows (inner items)).trans (congrArg outerText (inside.shows items))
  values_eq items := (outside.values_eq (inner items)).trans (inside.values_eq items)
  ne_nil nonempty := outside.ne_nil (inside.ne_nil nonempty)
  noStray free := outside.noStray (inside.noStray free)

/-- Characters in front of a sequence. -/
theorem front_wraps {chars : List Char} (free : TextNode.placeholder ∉ chars) :
    Wraps (chars ++ ·) (ofChars chars ++ ·) where
  shows items := by rw [glyphs_append, glyphs_ofChars]
  values_eq items := by rw [values_append, values_ofChars, List.nil_append]
  ne_nil nonempty := List.append_ne_nil_of_right_ne_nil _ nonempty
  noStray itemsFree := (NoStray.ofChars free).append itemsFree

/-- Characters behind a sequence. -/
theorem back_wraps {chars : List Char} (free : TextNode.placeholder ∉ chars) :
    Wraps (· ++ chars) (· ++ ofChars chars) where
  shows items := by rw [glyphs_append, glyphs_ofChars]
  values_eq items := by rw [values_append, values_ofChars, List.append_nil]
  ne_nil nonempty := List.append_ne_nil_of_left_ne_nil nonempty _
  noStray itemsFree := itemsFree.append (NoStray.ofChars free)

/-- A word in front of a sequence, and a space between them; a blank word adds nothing. -/
def introduce (word : String) (items : List Item) : List Item :=
  let word := Text.trim word.toList
  if word.isEmpty then items else ofChars word ++ .char ' ' :: items

/-- A word behind a sequence, and a space between them; a blank word adds nothing. -/
def conclude (word : String) (items : List Item) : List Item :=
  let word := Text.trim word.toList
  if word.isEmpty then items else items ++ .char ' ' :: ofChars word

theorem introduce_wraps {word : String} (free : TextNode.placeholder ∉ word.toList) :
    Wraps (Clause.introduce word) (introduce word) := by
  by_cases blank : (Text.trim word.toList).isEmpty = true
  · have asText : Clause.introduce word = id := funext fun _ => if_pos blank
    have asItems : introduce word = id := funext fun _ => if_pos blank
    rw [asText, asItems]
    exact .nothing
  · have asText : Clause.introduce word = (Text.trim word.toList ++ [' '] ++ ·) :=
      funext fun _ => (if_neg blank).trans (List.append_cons ..)
    have asItems : introduce word = (ofChars (Text.trim word.toList ++ [' ']) ++ ·) :=
      funext fun items => (if_neg blank).trans <| by
        rw [ofChars_append, List.append_cons]
        rfl
    rw [asText, asItems]
    refine front_wraps ?_
    rw [List.mem_append, not_or]
    exact ⟨mt Text.mem_of_mem_trim free, by decide⟩

theorem conclude_wraps {word : String} (free : TextNode.placeholder ∉ word.toList) :
    Wraps (Clause.conclude word) (conclude word) := by
  by_cases blank : (Text.trim word.toList).isEmpty = true
  · have asText : Clause.conclude word = id := funext fun _ => if_pos blank
    have asItems : conclude word = id := funext fun _ => if_pos blank
    rw [asText, asItems]
    exact .nothing
  · have asText : Clause.conclude word = (· ++ ' ' :: Text.trim word.toList) :=
      funext fun _ => if_neg blank
    have asItems : conclude word = (· ++ ofChars (' ' :: Text.trim word.toList)) :=
      funext fun _ => if_neg blank
    rw [asText, asItems]
    refine back_wraps ?_
    rw [List.mem_cons, not_or]
    exact ⟨by decide, mt Text.mem_of_mem_trim free⟩

/-! ## Making clauses -/

/-- An operation on sequences that shows in the text as the making of a clause, and that loses no
value. -/
structure MakesClause (make : List Char → Option (List Char))
    (onItems : List Item → List Item) : Prop where
  nothing : onItems [] = []
  shows (items : List Item) : make (glyphs items) = Clause.nonempty? (glyphs (onItems items))
  values_eq (items : List Item) : values (onItems items) = values items
  noStray {items : List Item} : NoStray items → NoStray (onItems items)

/-- The sequence that is left after a cut with words around it, or nothing where nothing is left. -/
def clauseOf (cut wrap : List Item → List Item) (items : List Item) : List Item :=
  if (cut items).isEmpty then [] else wrap (cut items)

/-- A cut and the words around what it leaves make a clause. -/
theorem makesClause {cutText wrapText : List Char → List Char} {cut wrap : List Item → List Item}
    (cuts : Cuts cutText cut) (wraps : Wraps wrapText wrap) :
    MakesClause (fun chars => (Clause.nonempty? (cutText chars)).map wrapText)
      (clauseOf cut wrap) where
  nothing := by
    rw [clauseOf, List.subset_nil.mp (cuts.keeps []).subset]
    rfl
  shows items := by
    rw [clauseOf, ← cuts.shows items]
    cases left : cut items with
    | nil => rfl
    | cons item rest =>
        have wrapped : glyphs (wrap (item :: rest)) ≠ [] :=
          mt List.map_eq_nil_iff.mp (wraps.ne_nil (List.cons_ne_nil item rest))
        show some (wrapText (glyphs (item :: rest))) =
          Clause.nonempty? (glyphs (wrap (item :: rest)))
        rw [← wraps.shows, Clause.nonempty?, if_neg (mt List.isEmpty_iff.mp wrapped)]
  values_eq items := by
    rw [clauseOf, ← (cuts.keeps items).values_eq]
    split
    · rename_i none
      rw [List.isEmpty_iff.mp none]
    · exact wraps.values_eq (cut items)
  noStray {items} free := by
    rw [clauseOf]
    split
    · exact List.not_mem_nil
    · exact wraps.noStray ((cuts.keeps items).noStray free)

/-- Making a clause of a sequence shows as making it of the fragment. -/
theorem MakesClause.clause?_fragment {make : List Char → Option (List Char)}
    {onItems : List Item → List Item} (makes : MakesClause make onItems) (items : List Item) :
    (fragment items).nonempty?.bind (Fragment.clause? make) =
      (fragment (onItems items)).nonempty? := by
  by_cases none : items = []
  · subst none
    rw [makes.nothing]
    rfl
  · have hasText : (fragment items).sql ≠ "" := mt fragment_sql_eq_empty_iff.mp none
    rw [Fragment.nonempty?_of_ne hasText, Option.bind_some, Fragment.clause?, fragment,
      String.toList_ofList, makes.shows, Clause.nonempty?]
    by_cases nothingLeft : onItems items = []
    · rw [nothingLeft]
      rfl
    · have someLeft : glyphs (onItems items) ≠ [] := mt List.map_eq_nil_iff.mp nothingLeft
      rw [if_neg (mt List.isEmpty_iff.mp someLeft), Option.bind_some, fragment, makes.values_eq]

/-! ## The three clauses -/

/-- A general clause whose words and affixes have no question marks. -/
structure FreeOfMarks (trimming : Trimming) : Prop where
  opening : TextNode.placeholder ∉ trimming.opening.toList
  ending : TextNode.placeholder ∉ trimming.ending.toList
  openingOverrides : ∀ affix ∈ trimming.openingOverrides, TextNode.placeholder ∉ affix.toList
  endingOverrides : ∀ affix ∈ trimming.endingOverrides, TextNode.placeholder ∉ affix.toList

/-- The general clause of a sequence. -/
def trimmed (trimming : Trimming) : List Item → List Item :=
  clauseOf
    (trim ∘ dropEnding trimming.endingOverrides ∘ dropOpening trimming.openingOverrides ∘ trim)
    (conclude trimming.ending ∘ introduce trimming.opening)

theorem trimmed_makesClause {trimming : Trimming} (free : FreeOfMarks trimming) :
    MakesClause (Clause.trimmed? trimming) (trimmed trimming) :=
  makesClause
    (trim_cuts.comp ((dropEnding_cuts free.endingOverrides).comp
      ((dropOpening_cuts free.openingOverrides).comp trim_cuts)))
    ((conclude_wraps free.ending).comp (introduce_wraps free.opening))

/-- Whether a sequence begins with a `where` of its own. -/
def hasWhere (items : List Item) : Bool := (afterFront? "where ".toList items).isSome

/-- A sequence with a `WHERE` in front, unless it begins with one. -/
def introduceWhere (items : List Item) : List Item :=
  if hasWhere items then items else ofChars "WHERE ".toList ++ items

/-- The `WHERE` clause of a sequence. -/
def whereClause : List Item → List Item := clauseOf (dropConnective ∘ trim) introduceWhere

theorem hasWhere_glyphs (items : List Item) : Clause.hasWhere (glyphs items) = hasWhere items := by
  rw [Clause.hasWhere, ← map_glyphs_afterFront?, Option.isSome_map, hasWhere]

theorem introduceWhere_wraps :
    Wraps (fun text => if Clause.hasWhere text then text else "WHERE ".toList ++ text)
      introduceWhere := by
  have word : Wraps ("WHERE ".toList ++ ·) (ofChars "WHERE ".toList ++ ·) :=
    front_wraps (by decide)
  refine ⟨fun items => ?_, fun items => ?_, fun {items} nonempty => ?_, fun {items} free => ?_⟩ <;>
    rw [introduceWhere]
  · rw [hasWhere_glyphs]
    split
    · rfl
    · exact word.shows items
  · split
    · rfl
    · exact word.values_eq items
  · split
    · exact nonempty
    · exact word.ne_nil nonempty
  · split
    · exact free
    · exact word.noStray free

theorem where_makesClause : MakesClause Clause.where? whereClause :=
  makesClause (dropConnective_cuts.comp trim_cuts) introduceWhere_wraps

/-- The `SET` clause of a sequence. -/
def setClause : List Item → List Item :=
  clauseOf (trimEnd ∘ dropComma ∘ trim) (ofChars "SET ".toList ++ ·)

theorem set_makesClause : MakesClause Clause.set? setClause :=
  makesClause (trimEnd_cuts.comp (dropComma_cuts.comp trim_cuts)) (front_wraps (by decide))

end SqlTemplate.Items
