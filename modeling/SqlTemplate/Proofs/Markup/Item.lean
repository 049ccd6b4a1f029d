import SqlTemplate.Markup.Event

/-!
# Items

What follows an opening angle bracket is read as an item, and for most items it does not matter what
stands behind them (`IsItem`).  So an item has its events wherever it stands: a start tag opens an
element, an end tag closes the innermost one if it carries its name, and all other items leave the
open elements as they are.
-/

namespace SqlTemplate.Markup

set_option autoImplicit false

/-- Bytes behind an opening angle bracket that are an item whatever follows them. -/
def IsItem (inside : List UInt8) (item : Item) : Prop :=
  ∀ rest, itemAt (inside ++ rest) = (item, inside.length)

/-- The events of an item that neither opens nor closes an element. -/
def Item.leaf? : Item → Option (List Event)
  | .empty tag => some [.empty tag]
  | .data content => some [.data content]
  | .skipped => some []
  | .start _ | .stop _ | .malformed => none

namespace IsItem

variable {inside : List UInt8}

/-- A start tag opens its element. -/
theorem eventsFrom_start {tag : Tag} (isItem : IsItem inside (.start tag))
    (opened : List (List UInt8)) (rest : List UInt8) :
    eventsFrom opened (byte '<' :: (inside ++ rest)) =
      .start tag :: eventsFrom (tag.name :: opened) rest := by
  rw [eventsFrom, if_pos rfl]
  simp only [isItem rest, List.drop_left]

/-- An end tag closes the innermost element if it carries its name. -/
theorem eventsFrom_stop {name : List UInt8} (isItem : IsItem inside (.stop name))
    (opened : List (List UInt8)) (rest : List UInt8) :
    eventsFrom (name :: opened) (byte '<' :: (inside ++ rest)) = .stop :: eventsFrom opened rest := by
  rw [eventsFrom, if_pos rfl]
  simp only [isItem rest, List.drop_left, if_pos]

/-- Other items leave the open elements as they are. -/
theorem eventsFrom_leaf {item : Item} {events : List Event} (isItem : IsItem inside item)
    (isLeaf : item.leaf? = some events) (opened : List (List UInt8)) (rest : List UInt8) :
    eventsFrom opened (byte '<' :: (inside ++ rest)) = events ++ eventsFrom opened rest := by
  rw [eventsFrom, if_pos rfl]
  simp only [isItem rest, List.drop_left]
  cases item with
  | empty tag | data content | skipped =>
      cases isLeaf
      rfl
  | start tag | stop name | malformed => cases isLeaf

end IsItem

/-- An end tag that does not carry the name of the innermost element is a fault. -/
theorem eventsFrom_mismatch {closing name innermost : List UInt8} {width : Nat}
    (stops : itemAt closing = (.stop name, width)) (other : name ≠ innermost)
    (opened : List (List UInt8)) :
    eventsFrom (innermost :: opened) (byte '<' :: closing) = [.fault] := by
  rw [eventsFrom, if_pos rfl]
  simp only [stops, if_neg other]

end SqlTemplate.Markup
