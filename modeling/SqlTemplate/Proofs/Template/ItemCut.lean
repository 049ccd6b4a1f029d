import SqlTemplate.Proofs.Template.Item
import SqlTemplate.Proofs.Text.Affix

/-!
# Cutting off items

Clauses cut blanks and affixes off the ends of a text.  Each such operation is given here on
sequences of items, where a bound value counts as the question mark that it shows.

`Items.Cuts` says what an operation on texts and one on sequences have to do with each other: what
is left of a sequence shows what is left of its text, has all values of the sequence, and has no
item that was not there before.  Blanks have no values, and an affix without question marks matches
no value, so all operations here are of this kind.
-/

namespace SqlTemplate.Items

set_option autoImplicit false

/-! ## Keeping the values -/

/-- What is left of a sequence has all its values, and only items of it. -/
structure Keeps (items left : List Item) : Prop where
  values_eq : values left = values items
  subset : left ⊆ items

namespace Keeps

theorem refl (items : List Item) : Keeps items items := ⟨rfl, List.Subset.refl items⟩

theorem trans {first second third : List Item} (earlier : Keeps first second)
    (later : Keeps second third) : Keeps first third :=
  ⟨later.values_eq.trans earlier.values_eq, List.Subset.trans later.subset earlier.subset⟩

theorem reverse {items left : List Item} (keeps : Keeps items.reverse left) :
    Keeps items left.reverse := by
  refine ⟨?_, fun item member => ?_⟩
  · have values_eq := congrArg List.reverse keeps.values_eq
    rwa [values, values, List.filterMap_reverse, List.reverse_reverse,
      ← List.filterMap_reverse] at values_eq
  · exact List.mem_reverse.mp (keeps.subset (List.mem_reverse.mp member))

/-- An item without a value may be left out at the front. -/
theorem tail {item : Item} {items left : List Item} (noValue : item.value? = none)
    (keeps : Keeps items left) : Keeps (item :: items) left := by
  refine ⟨?_, fun member inLeft => List.mem_cons_of_mem _ (keeps.subset inLeft)⟩
  rw [keeps.values_eq, values, values, List.filterMap_cons_none noValue]

theorem noStray {items left : List Item} (keeps : Keeps items left) (free : NoStray items) :
    NoStray left := fun member => free (keeps.subset member)

end Keeps

/-- An operation that cuts something off texts, and one that cuts the same off sequences. -/
structure Cuts (cutText : List Char → List Char) (cut : List Item → List Item) : Prop where
  shows (items : List Item) : glyphs (cut items) = cutText (glyphs items)
  keeps (items : List Item) : Keeps items (cut items)

/-- Operations that cut the same off texts and off sequences where they apply. -/
structure MayCut (cutText? : List Char → Option (List Char))
    (cut? : List Item → Option (List Item)) : Prop where
  shows (items : List Item) : (cut? items).map glyphs = cutText? (glyphs items)
  keeps {items left : List Item} : cut? items = some left → Keeps items left

namespace Cuts

/-- Cutting off one thing after another. -/
theorem comp {firstText secondText : List Char → List Char} {first second : List Item → List Item}
    (later : Cuts secondText second) (earlier : Cuts firstText first) :
    Cuts (secondText ∘ firstText) (second ∘ first) where
  shows items := (later.shows (first items)).trans (congrArg secondText (earlier.shows items))
  keeps items := (earlier.keeps items).trans (later.keeps (first items))

/-- Cutting off the first listed thing that can be cut off. -/
theorem firstOf {affixes : List String} {cutText? : String → List Char → Option (List Char)}
    {cut? : String → List Item → Option (List Item)}
    (each : ∀ affix ∈ affixes, MayCut (cutText? affix) (cut? affix)) :
    Cuts (fun chars => (affixes.findSome? fun affix => cutText? affix chars).getD chars)
      (fun items => (affixes.findSome? fun affix => cut? affix items).getD items) where
  shows items := by
    have found : (affixes.findSome? fun affix => cut? affix items).map glyphs =
        affixes.findSome? fun affix => cutText? affix (glyphs items) := by
      induction affixes with
      | nil => rfl
      | cons affix affixes ih =>
          have here := (each affix (List.mem_cons_self ..)).shows items
          have rest := ih fun other listed => each other (List.mem_cons_of_mem _ listed)
          rw [List.findSome?_cons, List.findSome?_cons, ← here]
          cases cut? affix items with
          | none => exact rest
          | some left => rfl
    rw [← found, Option.getD_map]
  keeps items := by
    cases found : affixes.findSome? fun affix => cut? affix items with
    | none => exact .refl items
    | some left =>
        obtain ⟨affix, listed, cuts⟩ := List.exists_of_findSome?_eq_some found
        exact (each affix listed).keeps cuts

end Cuts

/-! ## Blanks -/

/-- Whether an item shows a blank. -/
def showsBlank (item : Item) : Bool := Text.isBlank item.glyph

/-- The items from the first that is not blank. -/
def trimStart (items : List Item) : List Item := items.dropWhile showsBlank

/-- The items up to the last that is not blank. -/
def trimEnd (items : List Item) : List Item := (items.reverse.dropWhile showsBlank).reverse

/-- The items from the first to the last that is not blank. -/
def trim (items : List Item) : List Item := trimEnd (trimStart items)

theorem value?_of_showsBlank {item : Item} (blank : showsBlank item = true) :
    item.value? = none := by
  refine Item.value?_of_glyph_ne fun shows => ?_
  rw [showsBlank, shows] at blank
  exact absurd blank (by decide)

theorem keeps_dropWhile (items : List Item) : Keeps items (items.dropWhile showsBlank) := by
  induction items with
  | nil => exact .refl []
  | cons item items ih =>
      rw [List.dropWhile_cons]
      split
      · rename_i blank
        exact ih.tail (value?_of_showsBlank blank)
      · exact .refl _

theorem trimStart_cuts : Cuts Text.trimStart trimStart where
  shows _ := List.dropWhile_map.symm
  keeps := keeps_dropWhile

theorem trimEnd_cuts : Cuts Text.trimEnd trimEnd where
  shows items :=
    calc glyphs (trimEnd items)
        = (glyphs (items.reverse.dropWhile showsBlank)).reverse := List.map_reverse
      _ = ((glyphs items.reverse).dropWhile Text.isBlank).reverse :=
          congrArg List.reverse List.dropWhile_map.symm
      _ = Text.trimEnd (glyphs items) := by rw [glyphs, List.map_reverse, Text.trimEnd, glyphs]
  keeps items := (keeps_dropWhile items.reverse).reverse

theorem trim_cuts : Cuts Text.trim trim := trimEnd_cuts.comp trimStart_cuts

/-! ## Affixes -/

/-- What follows an affix at the front of a sequence, if the sequence begins with it. -/
def afterFront? : List Char → List Item → Option (List Item)
  | [], items => some items
  | _ :: _, [] => none
  | a :: affix, item :: items =>
      if Text.sameLetter a item.glyph then afterFront? affix items else none

/-- What precedes an affix at the end of a sequence, if the sequence ends with it. -/
def beforeEnd? (affix : List Char) (items : List Item) : Option (List Item) :=
  (afterFront? affix.reverse items.reverse).map List.reverse

theorem map_glyphs_afterFront? (affix : List Char) (items : List Item) :
    (afterFront? affix items).map glyphs = Text.afterFront? affix (glyphs items) := by
  fun_induction afterFront? affix items with
  | case1 items => rfl
  | case2 a affix => rfl
  | case3 a affix item items same ih =>
      rw [ih]
      exact (if_pos same).symm
  | case4 a affix item items differ => exact (if_neg differ).symm

theorem keeps_of_afterFront? {affix : List Char} {items left : List Item}
    (free : TextNode.placeholder ∉ affix) (cuts : afterFront? affix items = some left) :
    Keeps items left := by
  fun_induction afterFront? affix items with
  | case1 =>
      cases cuts
      exact .refl _
  | case2 a affix => cases cuts
  | case3 a affix item items same ih =>
      rw [List.mem_cons, not_or] at free
      have noValue : item.value? = none := Item.value?_of_glyph_ne fun shows => by
        rw [shows] at same
        exact free.1 (Text.eq_mark_of_sameLetter same).symm
      exact (ih free.2 cuts).tail noValue
  | case4 a affix item items differ => cases cuts

theorem afterFront?_mayCut {affix : List Char} (free : TextNode.placeholder ∉ affix) :
    MayCut (Text.afterFront? affix) (afterFront? affix) where
  shows := map_glyphs_afterFront? affix
  keeps := keeps_of_afterFront? free

theorem beforeEnd?_mayCut {affix : List Char} (free : TextNode.placeholder ∉ affix) :
    MayCut (Text.beforeEnd? affix) (beforeEnd? affix) where
  shows items := by
    have reversed : glyphs items.reverse = (glyphs items).reverse := List.map_reverse
    rw [beforeEnd?, Text.beforeEnd?, ← reversed, ← map_glyphs_afterFront?, Option.map_map,
      Option.map_map]
    congr 1
    funext left
    exact List.map_reverse
  keeps cuts := by
    obtain ⟨reversed, found, rfl⟩ := Option.map_eq_some_iff.mp cuts
    exact (keeps_of_afterFront? (mt List.mem_reverse.mp free) found).reverse

/-- The sequence without the first listed opening that it begins with. -/
def dropOpening (openings : List String) (items : List Item) : List Item :=
  (openings.findSome? fun opening => afterFront? opening.toList items).getD items

/-- The sequence without the first listed ending that it ends with. -/
def dropEnding (endings : List String) (items : List Item) : List Item :=
  (endings.findSome? fun ending => beforeEnd? ending.toList items).getD items

theorem dropOpening_cuts {openings : List String}
    (free : ∀ opening ∈ openings, TextNode.placeholder ∉ opening.toList) :
    Cuts (Clause.dropOpening openings) (dropOpening openings) :=
  .firstOf fun opening listed => afterFront?_mayCut (free opening listed)

theorem dropEnding_cuts {endings : List String}
    (free : ∀ ending ∈ endings, TextNode.placeholder ∉ ending.toList) :
    Cuts (Clause.dropEnding endings) (dropEnding endings) :=
  .firstOf fun ending listed => beforeEnd?_mayCut (free ending listed)

/-! ## Connectives and commas -/

/-- What is left of a sequence after one connective, if it begins with that one as a whole word. -/
def afterConnective? (connective : String) (items : List Item) : Option (List Item) :=
  match afterFront? connective.toList items with
  | some [] => some []
  | some (item :: rest) => if showsBlank item then some (trimStart rest) else none
  | none => none

/-- The sequence without a leading connective. -/
def dropConnective (items : List Item) : List Item :=
  (Clause.connectives.findSome? fun connective => afterConnective? connective items).getD items

theorem afterConnective?_mayCut {connective : String}
    (free : TextNode.placeholder ∉ connective.toList) :
    MayCut (Clause.afterConnective? connective) (afterConnective? connective) where
  shows items := by
    rw [afterConnective?, Clause.afterConnective?, ← map_glyphs_afterFront?]
    cases afterFront? connective.toList items with
    | none => rfl
    | some left =>
        cases left with
        | nil => rfl
        | cons item rest =>
            show Option.map glyphs (if showsBlank item then some (trimStart rest) else none) =
              if showsBlank item then some (Text.trimStart (glyphs rest)) else none
            split
            · exact congrArg some (trimStart_cuts.shows rest)
            · rfl
  keeps {items left} cuts := by
    rw [afterConnective?] at cuts
    cases found : afterFront? connective.toList items with
    | none =>
        rw [found] at cuts
        cases cuts
    | some behind =>
        rw [found] at cuts
        have keeps := keeps_of_afterFront? free found
        cases behind with
        | nil =>
            cases cuts
            exact keeps
        | cons item rest =>
            obtain ⟨blank, equal⟩ := Option.ite_none_right_eq_some.mp cuts
            cases equal
            exact keeps.trans ((trimStart_cuts.keeps rest).tail (value?_of_showsBlank blank))

theorem dropConnective_cuts : Cuts Clause.dropConnective dropConnective :=
  .firstOf fun _ listed => afterConnective?_mayCut <| by
    have free : ∀ connective ∈ Clause.connectives, TextNode.placeholder ∉ connective.toList := by
      decide
    exact free _ listed

/-- The sequence without a comma at its end. -/
def dropComma (items : List Item) : List Item :=
  if items.getLast?.map Item.glyph = some ',' then items.dropLast else items

theorem dropComma_cuts : Cuts Clause.dropComma dropComma where
  shows items := by
    rw [dropComma, Clause.dropComma, glyphs, glyphs, List.getLast?_map]
    split
    · exact List.map_dropLast
    · rfl
  keeps items := by
    rw [dropComma]
    split
    · rename_i comma
      obtain ⟨last, isLast, shows⟩ := Option.map_eq_some_iff.mp comma
      have noValue : last.value? = none :=
        Item.value?_of_glyph_ne (by rw [shows]; decide)
      obtain ⟨front, rfl⟩ := List.getLast?_eq_some_iff.mp isLast
      rw [List.dropLast_concat]
      refine ⟨?_, List.subset_append_left front [last]⟩
      rw [values, values, List.filterMap_append, List.filterMap_cons_none noValue]
      exact (List.append_nil _).symm
    · exact .refl items

end SqlTemplate.Items
