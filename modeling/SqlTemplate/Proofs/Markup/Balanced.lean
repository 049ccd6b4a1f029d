import SqlTemplate.Proofs.Markup.Source

/-!
# Balanced content

Content is balanced if every element that starts in it also ends in it (`Balanced`): it is made of
text, of items such as comments, character data and empty elements, and of elements with balanced
content.  What names and attributes the elements have does not matter.

Wherever balanced content stands in front of a tag, its events are the same, and they are closed
(`Balanced.exists_events`): each tag that opens has the tag that closes it among them.
-/

namespace SqlTemplate.Markup

set_option autoImplicit false

/-! ## Content -/

/-- Content in which every element that starts also ends. -/
inductive Balanced : List UInt8 → Prop
  | nil : Balanced []
  | text {content behind : List UInt8} (noTag : byte '<' ∉ content) :
      Balanced behind → Balanced (content ++ behind)
  | leaf {inside behind : List UInt8} {item : Item} {events : List Event}
      (isItem : IsItem inside item) (isLeaf : item.leaf? = some events) :
      Balanced behind → Balanced (byte '<' :: (inside ++ behind))
  | element {opening inner closing behind : List UInt8} {tag : Tag}
      (opens : IsItem opening (.start tag)) (closes : IsItem closing (.stop tag.name)) :
      Balanced inner → Balanced behind →
        Balanced (byte '<' :: (opening ++ (inner ++ byte '<' :: (closing ++ behind))))

theorem balanced_text {content : List UInt8} (noTag : byte '<' ∉ content) : Balanced content := by
  rw [← List.append_nil content]
  exact .text noTag .nil

/-- Balanced content with more of it behind. -/
theorem Balanced.append {content behind : List UInt8} (balanced : Balanced content)
    (others : Balanced behind) : Balanced (content ++ behind) := by
  induction balanced with
  | nil => exact others
  | text noTag _ ih =>
      rw [List.append_assoc]
      exact .text noTag ih
  | leaf isItem isLeaf _ ih =>
      rw [List.cons_append, List.append_assoc]
      exact .leaf isItem isLeaf ih
  | element opens closes inner _ _ ih =>
      simp only [List.cons_append, List.append_assoc]
      exact .element opens closes inner ih

/-- The bytes of an element with this tag and balanced content, or without content. -/
inductive IsElement (tag : Tag) : List UInt8 → Prop
  | empty {inside : List UInt8} (isItem : IsItem inside (.empty tag)) :
      IsElement tag (byte '<' :: inside)
  | filled {opening inner closing : List UInt8} (opens : IsItem opening (.start tag))
      (closes : IsItem closing (.stop tag.name)) (balanced : Balanced inner) :
      IsElement tag (byte '<' :: (opening ++ (inner ++ byte '<' :: closing)))

theorem IsElement.balanced {tag : Tag} {element : List UInt8} (isElement : IsElement tag element) :
    Balanced element := by
  cases isElement with
  | @empty inside isItem =>
      rw [← List.append_nil inside]
      exact .leaf isItem rfl .nil
  | @filled opening inner closing opens closes balanced =>
      rw [← List.append_nil closing]
      exact .element opens closes balanced .nil

/-- What is written as an element is one, whatever balanced content it holds. -/
theorem isElement_element {name : String} (isName : isName name = true) {fields : Fields}
    (proper : fields.areProper = true) {inner : List UInt8} (balanced : Balanced inner) :
    IsElement (writtenTag name fields) (element name fields inner) :=
  .filled (isItem_startTag isName proper) (isItem_endTag isName) balanced

/-! ## Events -/

/-- Events in which every tag that opens is closed. -/
inductive Closed : List Event → Prop
  | nil : Closed []
  | empty {tag : Tag} {behind : List Event} : Closed behind → Closed (.empty tag :: behind)
  | text {content : List UInt8} {behind : List Event} :
      Closed behind → Closed (.text content :: behind)
  | data {content : List UInt8} {behind : List Event} :
      Closed behind → Closed (.data content :: behind)
  | element {tag : Tag} {inner behind : List Event} :
      Closed inner → Closed behind → Closed (.start tag :: (inner ++ .stop :: behind))

theorem closed_textEvents (content : List UInt8) {behind : List Event} (closed : Closed behind) :
    Closed (textEvents content ++ behind) := by
  unfold textEvents
  split
  · exact closed
  · exact .text closed

theorem closed_leaf {item : Item} {events behind : List Event}
    (isLeaf : item.leaf? = some events) (closed : Closed behind) : Closed (events ++ behind) := by
  cases item with
  | empty tag =>
      cases isLeaf
      exact .empty closed
  | data content =>
      cases isLeaf
      exact .data closed
  | skipped =>
      cases isLeaf
      exact closed
  | start tag | stop name | malformed => cases isLeaf

theorem isTextEnd_angle (behind : List UInt8) : IsTextEnd (byte '<' :: behind) :=
  fun _ first => (Option.some.inj first).symm

/-- The events of balanced content are closed and the same in front of every tag. -/
theorem Balanced.exists_events {content : List UInt8} (balanced : Balanced content) :
    ∃ events, Closed events ∧ ∀ opened rest, IsTextEnd rest →
      eventsFrom opened (content ++ rest) = events ++ eventsFrom opened rest := by
  -- Text may stand behind text, and both are one event; so the induction is on content with a text
  -- in front of it.
  suffices behind : ∀ text, byte '<' ∉ text → ∃ events, Closed events ∧
      ∀ opened rest, IsTextEnd rest →
        eventsFrom opened (text ++ (content ++ rest)) = events ++ eventsFrom opened rest from
    behind [] List.not_mem_nil
  induction balanced with
  | nil =>
      intro text noTag
      refine ⟨textEvents text ++ [], closed_textEvents text .nil, fun opened rest ends => ?_⟩
      rw [List.nil_append, List.append_nil, eventsFrom_plain noTag opened ends]
  | @text content behind alsoNoTag _ ih =>
      intro text noTag
      have noTags : byte '<' ∉ text ++ content := by
        simp only [List.mem_append, not_or]
        exact ⟨noTag, alsoNoTag⟩
      obtain ⟨events, closed, reads⟩ := ih (text ++ content) noTags
      refine ⟨events, closed, fun opened rest ends => ?_⟩
      rw [← reads opened rest ends, List.append_assoc, List.append_assoc]
  | @leaf inside behind item leafEvents isItem isLeaf _ ih =>
      intro text noTag
      obtain ⟨events, closed, reads⟩ := ih [] List.not_mem_nil
      simp only [List.nil_append] at reads
      refine ⟨textEvents text ++ (leafEvents ++ events),
        closed_textEvents text (closed_leaf isLeaf closed), fun opened rest ends => ?_⟩
      rw [List.cons_append, List.append_assoc, eventsFrom_plain noTag opened (isTextEnd_angle _),
        isItem.eventsFrom_leaf isLeaf, reads opened rest ends, List.append_assoc,
        List.append_assoc]
  | @element opening inner closing behind tag opens closes _ _ ihInner ihBehind =>
      intro text noTag
      obtain ⟨innerEvents, innerClosed, innerReads⟩ := ihInner [] List.not_mem_nil
      obtain ⟨events, closed, reads⟩ := ihBehind [] List.not_mem_nil
      simp only [List.nil_append] at innerReads reads
      refine ⟨textEvents text ++ .start tag :: (innerEvents ++ .stop :: events),
        closed_textEvents text (.element innerClosed closed), fun opened rest ends => ?_⟩
      simp only [List.cons_append, List.append_assoc]
      rw [eventsFrom_plain noTag opened (isTextEnd_angle _), opens.eventsFrom_start,
        innerReads _ _ (isTextEnd_angle _), closes.eventsFrom_stop, reads opened rest ends]

end SqlTemplate.Markup
