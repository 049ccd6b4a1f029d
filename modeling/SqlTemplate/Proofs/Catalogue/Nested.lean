import SqlTemplate.Catalogue.Reading
import SqlTemplate.Proofs.Catalogue.Listing

/-!
# Nesting of events

The events of a document are properly nested, whatever its bytes are (`events_nested`): the reader
knows which elements are open, and each of its steps completes only events that fit them
(`Reader.step_advances`).  Texts of entities are read by the same steps, so they may open elements,
and have to close what they close like the document itself.
-/

namespace SqlTemplate.Catalogue

set_option autoImplicit false

/-! ## Steps -/

namespace Reader

/-- The names of the open elements, from the inside outwards. -/
def openNames (reader : Reader) : List String := reader.opened.map fun tag => tag.name.localPart

/-- Whether the events of a step fit the open elements before it and behind it. -/
def Advances (reader : Reader) (progress : Progress) : Prop :=
  ∀ {events : List Event}, Nested progress.reader.openNames events →
    Nested reader.openNames (progress.events ++ events)

variable {reader : Reader} {token : Token} {progress : Progress}

/-- A step that completes no events and leaves the elements open that are open. -/
theorem advances_of_same (noEvents : progress.events = [])
    (same : progress.reader.opened = reader.opened) : reader.Advances progress := by
  intro events nested
  rw [noEvents, openNames, ← same]
  exact nested

theorem openElement_advances {written : WrittenTag} {isEmpty : Bool}
    (steps : reader.openElement? written isEmpty = some progress) : reader.Advances progress := by
  obtain ⟨tag, _, rfl⟩ := Option.map_eq_some_iff.mp steps
  intro events nested
  cases isEmpty with
  | true => exact .opens (.closes nested)
  | false => exact .opens nested

theorem closeElement_advances {name : Name} (steps : reader.closeElement? name = some progress) :
    reader.Advances progress := by
  unfold closeElement? at steps
  split at steps
  · cases steps
  · rename_i innermost outer opened
    split at steps
    · rename_i same
      cases steps
      intro events nested
      rw [openNames, opened, List.map_cons, ← same]
      exact .closes nested
    · cases steps

/-- A step to a place of its own, with no events and no element opened or closed. -/
theorem advances_of_some {next : Progress} (steps : some next = some progress)
    (noEvents : next.events = []) (same : next.reader.opened = reader.opened) :
    reader.Advances progress := by
  cases steps
  exact advances_of_same noEvents same

theorem markupStep_advances (steps : reader.markupStep? token = some progress) :
    reader.Advances progress := by
  cases token with
  | tagStart | commentStart | instructionStart => exact advances_of_some steps rfl rfl
  | doctypeStart =>
      obtain ⟨_, goes⟩ := Option.ite_none_right_eq_some.mp steps
      exact advances_of_some goes rfl rfl
  | _ => cases steps

theorem outerStep_advances (steps : reader.outerStep? token = some progress) :
    reader.Advances progress := by
  unfold outerStep? at steps
  split at steps
  · cases steps
    exact advances_of_same rfl rfl
  · exact markupStep_advances steps

theorem innerStep_advances (steps : reader.innerStep? token = some progress) :
    reader.Advances progress := by
  cases token with
  | character c =>
      obtain ⟨_, goes⟩ := Option.ite_none_right_eq_some.mp steps
      exact advances_of_some goes rfl rfl
  | doctypeStart | declarationStart | dataEnd => cases steps
  | _ => exact advances_of_some steps rfl rfl

theorem referenceStep_advances {inside : String}
    (steps : reader.referenceStep? inside token = some progress) : reader.Advances progress := by
  cases token with
  | character c => exact advances_of_some steps rfl rfl
  | referenceEnd =>
      obtain ⟨referent, _, rfl⟩ := Option.map_eq_some_iff.mp steps
      cases referent <;> exact advances_of_same rfl rfl
  | _ => cases steps

theorem tagStep_advances {part : TagPart} (steps : reader.tagStep? part token = some progress) :
    reader.Advances progress := by
  obtain ⟨found, _, steps⟩ := Option.bind_eq_some_iff.mp steps
  cases found with
  | next part =>
      cases steps
      exact advances_of_same rfl rfl
  | finished tag isEmpty => exact openElement_advances steps

theorem closingStep_advances {text : String}
    (steps : reader.closingStep? text token = some progress) : reader.Advances progress := by
  unfold closingStep? at steps
  split at steps
  · obtain ⟨name, _, rfl⟩ := Option.map_eq_some_iff.mp steps
    exact advances_of_same rfl rfl
  · cases token with
    | character c => exact advances_of_some steps rfl rfl
    | tagEnd =>
        obtain ⟨name, _, closes⟩ := Option.bind_eq_some_iff.mp steps
        exact closeElement_advances closes
    | _ => cases steps

theorem passageStep_advances {ending : Token}
    (steps : reader.passageStep? ending token = some progress) : reader.Advances progress := by
  cases token with
  | character c =>
      obtain ⟨_, goes⟩ := Option.ite_none_right_eq_some.mp steps
      exact advances_of_some goes rfl rfl
  | _ => exact advances_of_some steps rfl rfl

theorem instructionNameStep_advances {text : String}
    (steps : reader.instructionNameStep? text token = some progress) :
    reader.Advances progress := by
  rcases ite_eq_iff.mp steps with ⟨_, inSpace⟩ | ⟨_, elsewhere⟩
  · obtain ⟨_, goes⟩ := Option.ite_none_right_eq_some.mp inSpace
    exact advances_of_some goes rfl rfl
  · cases token with
    | character c => exact advances_of_some elsewhere rfl rfl
    | instructionEnd =>
        obtain ⟨_, goes⟩ := Option.ite_none_right_eq_some.mp elsewhere
        exact advances_of_some goes rfl rfl
    | _ => cases elsewhere

theorem doctypeStep_advances {part : DoctypePart}
    (steps : reader.doctypeStep? part token = some progress) : reader.Advances progress := by
  obtain ⟨found, _, rfl⟩ := Option.map_eq_some_iff.mp steps
  cases found <;> exact advances_of_same rfl rfl

/-- Every step completes events that fit the open elements. -/
theorem step_advances (steps : reader.step? token = some progress) :
    reader.Advances progress := by
  unfold step? at steps
  split at steps
  · split at steps
    · exact outerStep_advances steps
    · exact innerStep_advances steps
  · exact referenceStep_advances steps
  · exact tagStep_advances steps
  · exact closingStep_advances steps
  · split at steps
    · cases steps
      exact advances_of_same rfl rfl
    · split at steps
      · exact closeElement_advances steps
      · cases steps
  · exact passageStep_advances steps
  · exact passageStep_advances steps
  · exact instructionNameStep_advances steps
  · exact passageStep_advances steps
  · exact doctypeStep_advances steps

/-- A reader that may end a document has closed all elements. -/
theorem openNames_of_isComplete (complete : reader.isComplete = true) : reader.openNames = [] := by
  simp only [isComplete, Bool.and_eq_true, List.isEmpty_iff] at complete
  rw [openNames, complete.1.1, List.map_nil]

end Reader

/-! ## Runs -/

namespace Cursor

variable {cursor : Cursor} {c : Char} {after : List Char} {step : Step}

theorem step_nested (steps : cursor.step? c after = some step) {events : List Event}
    (nested : Nested step.cursor.reader.openNames events) :
    Nested cursor.reader.openNames (step.events ++ events) := by
  obtain ⟨lexeme, _, reads⟩ := Option.bind_eq_some_iff.mp steps
  obtain ⟨progress, goes, equal⟩ := Option.bind_eq_some_iff.mp reads
  cases equal
  exact Reader.step_advances goes nested

variable {rest : List Char} {onward : Cursor → Nat → List Event}

/-- A text that is put in has nested events if they are nested wherever the reader goes on. -/
theorem textEvents_nested {interrupt : Cursor → String → List Char → List Event}
    (behind : ∀ cursor count, Nested cursor.reader.openNames (onward cursor count))
    (between : ∀ cursor insertion left,
      Nested cursor.reader.openNames (interrupt cursor insertion left))
    (cursor : Cursor) (text : List Char) :
    Nested cursor.reader.openNames (cursor.textEvents rest onward interrupt text) := by
  induction cursor, text using textEvents.induct rest with
  | case1 cursor =>
      rw [textEvents]
      exact behind cursor 0
  | case2 cursor c text fails =>
      rw [textEvents, fails]
      exact .broken
  | case3 cursor c text step steps left ih =>
      rw [textEvents, steps]
      refine step_nested steps ?_
      split
      · exact between step.cursor step.insertion left
      · split
        · exact behind step.cursor (step.width - text.length)
        · rename_i within
          exact ih within

/-- Texts that are put in one before the other have nested events if what follows them has. -/
theorem insertionEvents_nested
    (behind : ∀ cursor count, Nested cursor.reader.openNames (onward cursor count))
    (count : Nat) (cursor : Cursor) (insertion : String) (left : List Char) :
    Nested cursor.reader.openNames (insertionEvents rest onward count cursor insertion left) := by
  induction count generalizing cursor insertion left with
  | zero => exact .broken
  | succ count ih =>
      rw [insertionEvents]
      split
      · exact .broken
      · exact textEvents_nested behind ih cursor _

/-- The events of the rest of a document are nested between the elements that are open. -/
theorem events_nested (isWhole : Bool) (cursor : Cursor) (chars : List Char) :
    Nested cursor.reader.openNames (cursor.events isWhole chars) := by
  induction cursor, chars using events.induct isWhole with
  | case1 cursor complete =>
      rw [events, if_pos complete, Reader.openNames_of_isComplete]
      · exact .done
      · have ready := (Bool.and_eq_true_iff.mp complete).2
        exact (Bool.and_eq_true_iff.mp ready).1
  | case2 cursor incomplete =>
      rw [events, if_neg incomplete]
      exact .broken
  | case3 cursor c text fails =>
      rw [events, fails]
      exact .broken
  | case4 cursor c text step steps after ih =>
      rw [events, steps]
      refine step_nested steps ?_
      split
      · exact ih step.cursor 0
      · exact insertionEvents_nested ih depthLimit step.cursor step.insertion []

end Cursor

/-- The events of every document are properly nested. -/
theorem events_nested (document : List UInt8) : Nested [] (events document) := by
  unfold events
  split
  · exact Cursor.events_nested _ (.start _) _
  · exact .broken

end SqlTemplate.Catalogue
