import SqlTemplate.Markup.Event

/-!
# Tags that open before tags that close

A closing tag is an event only where it carries the name of the innermost open tag, so in the
events of a whole document some tag opens before any tag closes (`events_opensFirst`), whatever the
bytes are.
-/

namespace SqlTemplate.Markup

set_option autoImplicit false

/-- Events in which a tag opens before any tag closes. -/
def OpensFirst (events : List Event) : Prop :=
  ∀ before after, events = before ++ .stop :: after → ∃ tag, .start tag ∈ before

namespace OpensFirst

theorem nil : OpensFirst [] := by
  intro before after equal
  cases before <;> cases equal

theorem start (tag : Tag) (events : List Event) : OpensFirst (.start tag :: events) := by
  intro before after equal
  cases before with
  | nil => cases equal
  | cons first before =>
      cases equal
      exact ⟨tag, List.mem_cons_self ..⟩

/-- An event that closes no tag may stand in front. -/
theorem cons {event : Event} {events : List Event} (other : event ≠ .stop)
    (opens : OpensFirst events) : OpensFirst (event :: events) := by
  intro before after equal
  cases before with
  | nil =>
      injection equal with same
      exact absurd same other
  | cons first before =>
      injection equal with _ rest
      obtain ⟨tag, member⟩ := opens before after rest
      exact ⟨tag, List.mem_cons_of_mem _ member⟩

/-- Behind an event that opens no tag a tag still opens before any closes. -/
theorem tail {event : Event} {events : List Event} (opens : OpensFirst (event :: events))
    (other : ∀ tag, event ≠ .start tag) : OpensFirst events := by
  intro before after equal
  obtain ⟨tag, member⟩ := opens (event :: before) after (by rw [equal, List.cons_append])
  rcases List.mem_cons.mp member with same | later
  · exact absurd same.symm (other tag)
  · exact ⟨tag, later⟩

end OpensFirst

theorem eventsFrom_opensFirst (content : List UInt8) : OpensFirst (eventsFrom [] content) := by
  have fault : OpensFirst [.fault] := .cons (by decide) .nil
  generalize none : ([] : List (List UInt8)) = opened
  fun_induction eventsFrom opened content with
  | case1 => exact .nil
  | case2 opened rest width events tag => exact .start tag _
  | case3 opened rest width events tag _ ih => exact .cons (by simp) (ih opened none)
  | case5 => cases none
  | case7 opened rest width events content _ ih => exact .cons (by simp) (ih opened none)
  | case8 opened rest width events _ ih => exact ih opened none
  | case4 | case6 | case9 => exact fault
  | case10 opened b rest _ content events _ ih => exact ih none
  | case11 opened b rest _ content events _ ih => exact .cons (by simp) (ih none)

/-- In the events of a document some tag opens before any tag closes. -/
theorem events_opensFirst (document : List UInt8) : OpensFirst (events document) :=
  eventsFrom_opensFirst (withoutMark document)

end SqlTemplate.Markup
