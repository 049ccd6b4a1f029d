import SqlTemplate.Proofs.Template.Item
import SqlTemplate.Proofs.Template.TextNode
import SqlTemplate.Template.Render

/-!
# Text nodes as sequences of items

A text node is rendered here to a sequence of items: each marker of a bound value in its raw text
becomes the value itself (`TextNode.bindPiece`), and then each marker of a spliced value becomes
the characters of that value (`TextNode.fillSlot`).  Where a marker is looked for, a bound value
counts as the question mark that it shows.

`TextNode.compose_related` says that rendering the node gives the fragment of that sequence or the
same fault.  Two things are needed of the node: the text that it is made of has no question mark,
and no marker of a spliced value has one between its braces, so that no bound value is lost
(`TextNode.IsAligned`).
-/

namespace SqlTemplate

set_option autoImplicit false

open Outcome

namespace Items

/-- The fragment that a sequence without stray question marks shows. -/
def ShowsAs (fragment : Fragment) (items : List Item) : Prop :=
  fragment = Items.fragment items ∧ NoStray items

/-- What a node contributes if it composes a sequence: the fragment, or nothing if it is empty. -/
def ShowsAsPart (part : Option Fragment) (items : List Item) : Prop :=
  part = (Items.fragment items).nonempty? ∧ NoStray items

/-! ## Markers in sequences -/

/-- A part of a sequence: an item that belongs to no marker, or what a marker encloses. -/
inductive Slot where
  | item (item : Item)
  | marker (inside : List Char)

/-- The parts of a sequence, told apart by the markers of spliced values that it shows.  The flag
says whether the items still belong to the marker last found. -/
def slotsFrom : Bool → List Item → List Slot
  | _, [] => []
  | true, item :: after => slotsFrom (item.glyph != '}') after
  | false, item :: after =>
      if Text.Marker.spliced.startsAt item.glyph (glyphs after) then
        .marker ((glyphs after).tail.takeWhile (· != '}')) :: slotsFrom true after
      else .item item :: slotsFrom false after

/-- The parts of a sequence, told apart by the markers of spliced values that it shows. -/
def slots (items : List Item) : List Slot := slotsFrom false items

/-- What a part shows. -/
def Slot.piece : Slot → Text.Piece
  | .item kept => .char kept.glyph
  | .marker inside => .marker inside

/-- The value that is bound at a part. -/
def Slot.value? : Slot → Option Value
  | .item kept => kept.value?
  | .marker _ => none

theorem map_piece_slotsFrom (inside : Bool) (items : List Item) :
    (slotsFrom inside items).map Slot.piece =
      Text.piecesFrom .spliced inside (glyphs items) := by
  fun_induction slotsFrom inside items with
  | case1 inside => cases inside <;> rfl
  | case2 item after ih => exact ih
  | case3 item after starts ih =>
      rw [List.map_cons, ih, glyphs_cons, Text.piecesFrom]
      exact (if_pos starts).symm
  | case4 item after plain ih =>
      rw [List.map_cons, ih, glyphs_cons, Text.piecesFrom]
      exact (if_neg plain).symm

/-- The parts of a sequence show the parts of its text. -/
theorem map_piece_slots (items : List Item) :
    (slots items).map Slot.piece = Text.pieces .spliced (glyphs items) :=
  map_piece_slotsFrom false items

theorem mem_of_item_mem_slotsFrom {inside : Bool} {items : List Item} {item : Item}
    (member : .item item ∈ slotsFrom inside items) : item ∈ items := by
  fun_induction slotsFrom inside items with
  | case1 => cases member
  | case2 first after ih => exact List.mem_cons_of_mem _ (ih member)
  | case3 first after starts ih =>
      rcases List.mem_cons.mp member with equal | later
      · cases equal
      · exact List.mem_cons_of_mem _ (ih later)
  | case4 first after plain ih =>
      rcases List.mem_cons.mp member with equal | later
      · cases equal
        exact List.mem_cons_self ..
      · exact List.mem_cons_of_mem _ (ih later)

theorem values_slotsFrom {inside : Bool} {items : List Item}
    (rest : inside = true → TextNode.placeholder ∉ (glyphs items).takeWhile (· != '}'))
    (spans : ∀ span, .marker span ∈ slotsFrom inside items → TextNode.placeholder ∉ span) :
    (slotsFrom inside items).filterMap Slot.value? = values items := by
  fun_induction slotsFrom inside items with
  | case1 => rfl
  | case2 item after ih =>
      have rest := rest rfl
      by_cases closes : item.glyph = '}'
      · have noValue : item.value? = none :=
          Item.value?_of_glyph_ne (by rw [closes]; decide)
        rw [ih (fun inside => absurd closes (by simpa using inside)) spans, values, values,
          List.filterMap_cons_none noValue]
      · rw [glyphs_cons, List.takeWhile_cons_of_pos (by simpa using closes),
          List.mem_cons, not_or] at rest
        have noValue : item.value? = none := Item.value?_of_glyph_ne (Ne.symm rest.1)
        rw [ih (fun _ => rest.2) spans, values, values, List.filterMap_cons_none noValue]
  | case3 item after starts ih =>
      obtain ⟨sign, behind, brace⟩ := Text.eq_of_startsAt starts
      have noValue : item.value? = none :=
        Item.value?_of_glyph_ne (by rw [sign]; decide)
      have span := spans _ (List.mem_cons_self ..)
      have rest : TextNode.placeholder ∉ (glyphs after).takeWhile (· != '}') := by
        rw [brace] at span ⊢
        rw [List.takeWhile_cons_of_pos (by decide), List.mem_cons, not_or]
        exact ⟨by decide, span⟩
      rw [List.filterMap_cons_none rfl,
        ih (fun _ => rest) fun span listed => spans span (List.mem_cons_of_mem _ listed), values,
        values, List.filterMap_cons_none noValue]
  | case4 item after plain ih =>
      have later := ih (fun inside => absurd inside Bool.false_ne_true) fun span listed =>
        spans span (List.mem_cons_of_mem _ listed)
      rw [values, List.filterMap_cons, List.filterMap_cons, later]
      rfl

/-- No value is lost in the parts when no marker has a question mark between its braces. -/
theorem values_slots {items : List Item}
    (spans : ∀ span, .marker span ∈ slots items → TextNode.placeholder ∉ span) :
    (slots items).filterMap Slot.value? = values items :=
  values_slotsFrom (fun inside => absurd inside Bool.false_ne_true) spans

/-- The parts of a sequence without stray question marks have none. -/
theorem NoStray.slots {items : List Item} (free : NoStray items) :
    .item (.char TextNode.placeholder) ∉ slots items :=
  fun member => free (mem_of_item_mem_slotsFrom member)

end Items

/-! ## Values as text -/

/-- How a value is written into text; arrays and objects are not. -/
inductive Value.WrittenAs : Value → String → Prop
  | text (content : String) : WrittenAs (.text content) content
  | number (number : Number) : WrittenAs (.number number) number.text
  | yes : WrittenAs (.bool true) "1"
  | no : WrittenAs (.bool false) "0"
  | null : WrittenAs .null "NULL"

namespace Value

/-- A value is spliced in as it is written, or is a fault. -/
theorem spliceText_of_writtenAs {value : Value} {text : String} (written : value.WrittenAs text) :
    value.spliceText =
      if TextNode.placeholder ∈ text.toList then .error .placeholderCharacter else .ok text := by
  have guarded : (if text.toList.contains TextNode.placeholder then
        .error .placeholderCharacter else .ok text : Except SpliceFault String) =
      if TextNode.placeholder ∈ text.toList then .error .placeholderCharacter else .ok text := by
    simp only [List.contains_iff_mem]
  cases written with
  | text content => exact guarded
  | number number => exact guarded
  | yes => exact guarded
  | no => exact guarded
  | null => exact guarded

theorem spliceText_of_not_writtenAs {value : Value} (unwritten : ∀ text, ¬ value.WrittenAs text) :
    value.spliceText = .error .composite := by
  cases value with
  | null => exact absurd .null (unwritten _)
  | bool truth =>
      cases truth with
      | false => exact absurd .no (unwritten _)
      | true => exact absurd .yes (unwritten _)
  | number number => exact absurd (.number number) (unwritten _)
  | text content => exact absurd (.text content) (unwritten _)
  | array items => rfl
  | object members => rfl

/-- No text with a question mark is spliced in. -/
theorem not_mem_of_spliceText {value : Value} {text : String}
    (splices : value.spliceText = .ok text) : TextNode.placeholder ∉ text.toList := by
  by_cases written : ∃ shown, value.WrittenAs shown
  · obtain ⟨shown, written⟩ := written
    rw [spliceText_of_writtenAs written] at splices
    split at splices
    · cases splices
    · rename_i unmarked
      cases splices
      exact unmarked
  · rw [spliceText_of_not_writtenAs (not_exists.mp written)] at splices
    cases splices

end Value

namespace TextNode

/-! ## Composing a text node -/

/-- The item of one piece of a raw text, with the value of a marker bound. -/
def bindPiece (scope : Scope) (raw : String) : Text.Piece → Except RenderError Item
  | .char c => .ok (.char c)
  | .marker inside => (scope.require raw (.ofList (Text.markedName inside))).map Item.bound

/-- The items of one part of a sequence, with the value of a marker spliced in. -/
def fillSlot (scope : Scope) (raw : String) : Items.Slot → Except RenderError (List Item)
  | .item kept => .ok [kept]
  | .marker inside => do
      let name := String.ofList (Text.markedName inside)
      let value ← scope.require raw name
      let text ← value.spliceText.mapError (RenderError.substitution name)
      .ok (Items.ofChars text.toList)

/-- Renders a text node to a sequence of items. -/
def compose (scope : Scope) (text : TextNode) : Except RenderError (List Item) := do
  let items ← (Text.pieces .bound text.raw.toList).mapM (bindPiece scope text.raw)
  if text.isSpliced then
    ((Items.slots items).mapM (fillSlot scope text.raw)).map List.flatten
  else .ok items

/-- What the names of a text are bound to, and the text with those values in it. -/
structure Binds (pieces : List Text.Piece) (args : List Value) (items : List Item) : Prop where
  glyphs_eq : Items.glyphs items = withPlaceholders pieces
  values_eq : Items.values items = args
  noStray : Items.NoStray items

theorem bindPiece_related (scope : Scope) (raw : String) {pieces : List Text.Piece}
    (free : .char placeholder ∉ pieces) :
    Related Eq (Binds pieces) (((boundNames pieces).map String.ofList).mapM (scope.require raw))
      (pieces.mapM (bindPiece scope raw)) := by
  induction pieces with
  | nil => exact .result ⟨rfl, rfl, List.not_mem_nil⟩
  | cons piece pieces ih =>
      rw [List.mem_cons, not_or] at free
      rw [List.mapM_cons]
      cases piece with
      | char c =>
          have other : c ≠ placeholder := fun same => free.1 (same ▸ rfl)
          show Related _ _ _ ((pieces.mapM (bindPiece scope raw)).map (.char c :: ·))
          refine (ih free.2).map_right fun args items binds => ?_
          exact ⟨congrArg (c :: ·) binds.glyphs_eq, binds.values_eq, binds.noStray.char_cons other⟩
      | marker inside =>
          show Related _ _ (((Text.markedName inside :: boundNames pieces).map String.ofList).mapM
            (scope.require raw)) _
          rw [List.map_cons, List.mapM_cons, bindPiece]
          cases scope.require raw (.ofList (Text.markedName inside)) with
          | error fault => exact .fault rfl
          | ok value =>
              refine (ih free.2).map fun args items binds => ?_
              refine ⟨congrArg (placeholder :: ·) binds.glyphs_eq,
                congrArg (value :: ·) binds.values_eq, ?_⟩
              exact binds.noStray.bound_cons value

/-- What is spliced into one part of a sequence, as text and as items. -/
structure Fills (slot : Items.Slot) (chars : List Char) (items : List Item) : Prop where
  glyphs_eq : Items.glyphs items = chars
  values_eq : Items.values items = slot.value?.toList
  noStray : Items.NoStray items

theorem fillSlot_related (scope : Scope) (raw : String) {slot : Items.Slot}
    (free : .item (.char placeholder) ≠ slot) :
    Related Eq (Fills slot) (splicePiece scope raw slot.piece) (fillSlot scope raw slot) := by
  cases slot with
  | item kept =>
      refine .result ⟨rfl, ?_, ?_⟩
      · cases kept <;> rfl
      · rw [Items.NoStray, List.mem_singleton]
        exact fun same => free (congrArg Items.Slot.item same)
  | marker inside =>
      refine .bind_same fun value _ => .bind_same fun text splices => .result ?_
      have spliced : value.spliceText = .ok text := by
        cases written : value.spliceText with
        | error fault =>
            rw [written] at splices
            cases splices
        | ok other =>
            rw [written] at splices
            cases splices
            rfl
      exact ⟨Items.glyphs_ofChars _, Items.values_ofChars _,
        .ofChars (Value.not_mem_of_spliceText spliced)⟩

/-- What is spliced into the parts of a sequence, as texts and as items. -/
structure FillsAll (slots : List Items.Slot) (texts : List (List Char)) (parts : List (List Item)) :
    Prop where
  glyphs_eq : Items.glyphs parts.flatten = texts.flatten
  values_eq : Items.values parts.flatten = slots.filterMap Items.Slot.value?
  noStray : Items.NoStray parts.flatten

theorem fillSlots_related (scope : Scope) (raw : String) {slots : List Items.Slot}
    (free : .item (.char placeholder) ∉ slots) :
    Related Eq (FillsAll slots) ((slots.map Items.Slot.piece).mapM (splicePiece scope raw))
      (slots.mapM (fillSlot scope raw)) := by
  induction slots with
  | nil => exact .result ⟨rfl, rfl, List.not_mem_nil⟩
  | cons slot slots ih =>
      rw [List.mem_cons, not_or] at free
      rw [List.map_cons, List.mapM_cons, List.mapM_cons]
      refine (fillSlot_related scope raw free.1).bind fun chars items filled => ?_
      refine (ih free.2).map fun texts parts fills => ?_
      refine ⟨?_, ?_, ?_⟩
      · rw [List.flatten_cons, List.flatten_cons, Items.glyphs_append, filled.glyphs_eq,
          fills.glyphs_eq]
      · rw [List.flatten_cons, Items.values_append, filled.values_eq, fills.values_eq,
          List.filterMap_cons]
        cases slot.value? <;> rfl
      · exact filled.noStray.append fills.noStray

/-- A node whose question marks all stand for bound values, and stay when values are spliced in: the
text that it is made of has none, and no marker of a spliced value has one between its braces. -/
structure IsAligned (text : TextNode) : Prop where
  made : ∃ source, placeholder ∉ source.toList ∧ MadeOf source text
  spans : ∀ piece ∈ Text.pieces .spliced text.sql.toList, placeholder ∉ piece.enclosed

/-- The raw text of such a node has no question mark outside of its markers. -/
theorem IsAligned.char_not_mem {text : TextNode} (aligned : text.IsAligned) :
    .char placeholder ∉ Text.pieces .bound text.raw.toList := by
  obtain ⟨source, free, made⟩ := aligned.made
  exact made.char_not_mem free

/-- Rendering a text node gives the fragment of the sequence that it composes. -/
theorem compose_related (scope : Scope) {text : TextNode} (aligned : text.IsAligned) :
    Related Eq Items.ShowsAsPart (text.render scope) (text.compose scope) := by
  obtain ⟨source, _, made⟩ := aligned.made
  have sql_eq : text.sql = .ofList (withPlaceholders (Text.pieces .bound text.raw.toList)) :=
    congrArg TextNode.sql (eq_of_ofRaw made.ofRaw)
  have parameters_eq : text.parameters =
      (boundNames (Text.pieces .bound text.raw.toList)).map String.ofList :=
    congrArg TextNode.parameters (eq_of_ofRaw made.ofRaw)
  rw [render, compose, parameters_eq]
  refine (bindPiece_related scope text.raw aligned.char_not_mem).bind fun args items binds => ?_
  have shown : text.sql.toList = Items.glyphs items := by
    rw [sql_eq, String.toList_ofList, binds.glyphs_eq]
  split
  · have spans : ∀ span, .marker span ∈ Items.slots items → placeholder ∉ span := by
      intro span listed
      refine aligned.spans (.marker span) ?_
      rw [shown, ← Items.map_piece_slots]
      exact List.mem_map_of_mem listed
    rw [splice, bind_assoc, shown, ← Items.map_piece_slots]
    refine (fillSlots_related scope text.raw binds.noStray.slots).bind fun texts parts fills => ?_
    refine .result ⟨?_, fills.noStray⟩
    have kept : Items.values parts.flatten = args := by
      rw [fills.values_eq, Items.values_slots spans, binds.values_eq]
    rw [Items.fragment, fills.glyphs_eq, kept]
  · refine .result ⟨?_, binds.noStray⟩
    rw [Items.fragment, ← shown, binds.values_eq, String.ofList_toList]

end TextNode

end SqlTemplate
