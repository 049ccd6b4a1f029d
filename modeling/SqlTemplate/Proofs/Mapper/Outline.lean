import SqlTemplate.Proofs.Mapper.Child
import SqlTemplate.Proofs.Markup.Shape

/-!
# The outline of a mapper document

A document that is read as a mapper has an outline (`HoldsMapper`): something that is no element
stands in front of the mapper, and behind the tag that opens the mapper stands balanced content up to
the tag that closes it.  For inside of the mapper, the reader needs the closing tag of every element
that it meets (`Reader.run_unclosing`).

So a place between two children of a mapper has balanced content before it (`InMapper`).  What the
reader makes of a document up to such a place does not depend on what stands behind
(`Reader.exists_front`).
-/

namespace SqlTemplate

set_option autoImplicit false

open Markup (Balanced Closed Event Fields IsItem Tag Unclosing byte eventsFrom isName itemAt startTag)
open Outcome

/-! ## Outlines -/

/-- What may stand in front of the mapper: text, and items that are no elements. -/
inductive IsProlog : List UInt8 → Prop
  | nil : IsProlog []
  | text {content behind : List UInt8} (noTag : byte '<' ∉ content) :
      IsProlog behind → IsProlog (content ++ behind)
  | skipped {inside behind : List UInt8} (isItem : IsItem inside .skipped) :
      IsProlog behind → IsProlog (byte '<' :: (inside ++ behind))
  | data {inside content behind : List UInt8} (isItem : IsItem inside (.data content)) :
      IsProlog behind → IsProlog (byte '<' :: (inside ++ behind))

/-- The front of a document up to a place between the children of its mapper. -/
inductive InMapper : List UInt8 → Prop
  | intro {prolog opening children : List UInt8} {tag : Tag} (isProlog : IsProlog prolog)
      (opens : IsItem opening (.start tag)) (balanced : Balanced children) :
      InMapper (prolog ++ byte '<' :: (opening ++ children))

theorem inMapper_startTag {name : String} (isName : isName name = true) {fields : Fields}
    (proper : fields.areProper = true) : InMapper (startTag name fields) := by
  have front := InMapper.intro .nil (Markup.isItem_startTag isName proper) .nil
  rwa [List.append_nil] at front

/-- A document with a mapper: what stands in front of the mapper, then an element without content,
or a tag, the children of the mapper and the tag that closes it. -/
inductive HoldsMapper : List UInt8 → Prop
  | empty {prolog behind : List UInt8} {tag : Tag} {width : Nat} (isProlog : IsProlog prolog)
      (isEmpty : itemAt behind = (.empty tag, width)) : HoldsMapper (prolog ++ byte '<' :: behind)
  | filled {prolog opening children closing : List UInt8} {tag : Tag} {width : Nat}
      (isProlog : IsProlog prolog) (opens : IsItem opening (.start tag))
      (balanced : Balanced children) (closes : itemAt closing = (.stop tag.name, width)) :
      HoldsMapper (prolog ++ byte '<' :: (opening ++ (children ++ byte '<' :: closing)))

theorem IsProlog.append {prolog others : List UInt8} (isProlog : IsProlog prolog)
    (more : IsProlog others) : IsProlog (prolog ++ others) := by
  induction isProlog with
  | nil => exact more
  | text noTag _ ih =>
      rw [List.append_assoc]
      exact .text noTag ih
  | skipped isItem _ ih =>
      rw [List.cons_append, List.append_assoc]
      exact .skipped isItem ih
  | data isItem _ ih =>
      rw [List.cons_append, List.append_assoc]
      exact .data isItem ih

theorem HoldsMapper.behind {prolog rest : List UInt8} (isProlog : IsProlog prolog)
    (holds : HoldsMapper rest) : HoldsMapper (prolog ++ rest) := by
  cases holds with
  | empty more isEmpty =>
      rw [← List.append_assoc]
      exact .empty (isProlog.append more) isEmpty
  | filled more opens balanced closes =>
      rw [← List.append_assoc]
      exact .filled (isProlog.append more) opens balanced closes

/-! ## Reading up to the mapper -/

namespace Reader

variable {location : String}

/-- What stands in front of the mapper does not matter. -/
theorem run_prologBytes {prolog : List UInt8} (isProlog : IsProlog prolog)
    (opened : List (List UInt8)) (rest : List UInt8) :
    run location .prolog (eventsFrom opened (prolog ++ rest)) =
      run location .prolog (eventsFrom opened rest) := by
  induction isProlog with
  | nil => rfl
  | text noTag _ ih => rw [List.append_assoc, run_text (fun _ => rfl) noTag, ih]
  | skipped isItem _ ih | data isItem _ ih =>
      rw [List.cons_append, List.append_assoc, isItem.eventsFrom_leaf rfl]
      exact ih

/-- The mark of UTF-8 at the start of a document does not matter. -/
theorem run_events (document : List UInt8) :
    run location .prolog (Markup.events document) =
      run location .prolog (eventsFrom [] document) := by
  rw [Markup.events, Markup.withoutMark]
  cases marked : Markup.byteOrderMark.isPrefixOf? document with
  | none => rfl
  | some rest =>
      have whole : Markup.byteOrderMark ++ rest = document :=
        List.isPrefixOf?_eq_some_iff_append_eq.mp marked
      rw [← whole, run_text (fun _ => rfl) (by decide)]
      rfl

/-- The first tag opens the mapper. -/
theorem run_opening (tag : Tag) (more : List Event) :
    (run location .prolog (.start tag :: more)).1 =
      openMapper location tag >>= fun draft => (run location (.mapper draft) more).1 := by
  have steps : step location .prolog (.start tag) =
      (openMapper location tag).map fun draft => .next (.mapper draft) := rfl
  exact run_of_step steps more

/-- The front of a document leads to a draft, or is faulty, whatever stands behind it. -/
theorem exists_front {front : List UInt8} (inMapper : InMapper front) (location : String) :
    ∃ outcome opened, ∀ rest, (run location .prolog (Markup.events (front ++ rest))).1 =
      outcome >>= fun draft => (run location (.mapper draft) (eventsFrom opened rest)).1 := by
  obtain @⟨prolog, opening, children, tag, isProlog, opens, balanced⟩ := inMapper
  obtain ⟨children, reads⟩ := exists_children balanced location
  refine ⟨openMapper location tag >>= Child.readAll children, [tag.name], fun rest => ?_⟩
  rw [run_events, List.append_assoc, run_prologBytes isProlog, List.cons_append, List.append_assoc,
    opens.eventsFrom_start, bind_assoc, run_opening]
  exact congrArg (openMapper location tag >>= ·)
    (funext fun draft => reads [tag.name] rest draft)

/-! ## Reading the mapper -/

/-- Places behind the tag that opens the mapper. -/
inductive IsInside : Place → Prop
  | mapper (draft : Draft) : IsInside (.mapper draft)
  | content (draft : Draft) (target : Target) (frames : List Frame) (nodes : List Node) :
      IsInside (.content draft target frames nodes)
  | choice (draft : Draft) (target : Target) (frames : List Frame) (choice : OpenChoice) :
      IsInside (.choice draft target frames choice)
  | skipped (depth : Nat) (after : Place) : IsInside (.skipped depth after)

section

variable {place : Place} {events : List Event} {result : Draft}

/-- Inside of the mapper, a tag that opens does not lead out of it. -/
theorem IsInside.of_start (inside : IsInside place) {tag : Tag} {progress : Progress}
    (steps : step location place (.start tag) = .ok progress) :
    ∃ next, progress = .next next ∧ IsInside next := by
  cases inside with
  | mapper draft =>
      obtain ⟨next, opens, rfl⟩ := map_eq_ok_iff.mp steps
      obtain ⟨found, _, opens⟩ := bind_eq_ok_iff.mp opens
      cases found with
      | none =>
          cases opens
          exact ⟨_, rfl, .skipped ..⟩
      | some target =>
          cases opens
          exact ⟨_, rfl, .content ..⟩
  | content draft target frames nodes =>
      obtain ⟨next, opens, rfl⟩ := map_eq_ok_iff.mp steps
      obtain ⟨found, _, opens⟩ := bind_eq_ok_iff.mp opens
      cases found with
      | element element =>
          cases opens
          exact ⟨_, rfl, .content ..⟩
      | choice =>
          cases opens
          exact ⟨_, rfl, .choice ..⟩
      | reference name =>
          cases opens
          exact ⟨_, rfl, .skipped ..⟩
  | choice draft target frames choice =>
      obtain ⟨next, opens, rfl⟩ := map_eq_ok_iff.mp steps
      obtain ⟨outcome, branches⟩ := exists_openBranch location choice tag
      have branch := (branches draft target frames).1.symm.trans opens
      obtain ⟨test, _, rfl⟩ := map_eq_ok_iff.mp branch
      exact ⟨_, rfl, .content ..⟩
  | skipped depth after =>
      cases steps
      exact ⟨_, rfl, .skipped ..⟩

/-- Closed events in a mapper lead to another draft. -/
theorem exists_draft_of_closed (closed : Closed events) {draft : Draft} {more : List Event}
    (reads : (run location (.mapper draft) (events ++ more)).1 = .ok result) :
    ∃ next, (run location (.mapper next) more).1 = .ok result := by
  induction closed generalizing draft with
  | nil => exact ⟨draft, reads⟩
  | empty _ ih =>
      rw [List.cons_append, run_empty] at reads
      obtain ⟨next, _, onward⟩ := bind_eq_ok_iff.mp reads
      exact ih onward
  | text _ ih | data _ ih => exact ih reads
  | @element tag inner behind closed _ _ ih =>
      obtain ⟨body, child⟩ := exists_run_element location tag closed
      rw [List.cons_append, List.append_assoc, List.cons_append, child] at reads
      obtain ⟨next, _, onward⟩ := bind_eq_ok_iff.mp reads
      exact ih onward

/-- Inside of the mapper, closed events do not lead out of it. -/
theorem IsInside.of_closed (inside : IsInside place) (closed : Closed events) {more : List Event}
    (reads : (run location place (events ++ more)).1 = .ok result) :
    ∃ next, IsInside next ∧ (run location next more).1 = .ok result := by
  cases inside with
  | mapper draft =>
      obtain ⟨next, onward⟩ := exists_draft_of_closed closed reads
      exact ⟨_, .mapper next, onward⟩
  | content draft target frames nodes =>
      obtain ⟨outcome, yields⟩ := (closed.yields location).1 frames nodes
      obtain ⟨next, _, onward⟩ := bind_eq_ok_iff.mp ((yields draft target more).symm.trans reads)
      exact ⟨_, .content .., onward⟩
  | choice draft target frames choice =>
      obtain ⟨outcome, yields⟩ := (closed.yields location).2 frames choice
      obtain ⟨next, _, onward⟩ := bind_eq_ok_iff.mp ((yields draft target more).symm.trans reads)
      exact ⟨_, .choice .., onward⟩
  | skipped depth after =>
      rw [run_skipped location closed] at reads
      exact ⟨_, .skipped .., reads⟩

/-- Inside of the mapper, the reader does not finish before the mapper is closed. -/
theorem run_unclosing (unclosing : Unclosing events) (inside : IsInside place) :
    (run location place events).1 ≠ .ok result := by
  intro reads
  induction unclosing generalizing place with
  | nil => cases reads
  | fault => cases inside <;> cases reads
  | @start tag behind _ ih =>
      cases steps : step location place (.start tag) with
      | error fault =>
          rw [run, steps] at reads
          cases reads
      | ok progress =>
          obtain ⟨next, rfl, stays⟩ := inside.of_start steps
          rw [run, steps] at reads
          exact ih stays reads
  | append closed _ ih =>
      obtain ⟨next, stays, onward⟩ := inside.of_closed closed reads
      exact ih stays onward

end

/-- A mapper that is opened in front of these bytes is closed in them. -/
theorem exists_closing {tag : Tag} {draft result : Draft} {content : List UInt8}
    (reads : (run location (.mapper draft) (eventsFrom [tag.name] content)).1 = .ok result) :
    ∃ children closing width, content = children ++ byte '<' :: closing ∧ Balanced children ∧
      itemAt closing = (.stop tag.name, width) := by
  cases Markup.splits content with
  | unclosing stays => exact absurd reads (run_unclosing (stays _) (.mapper draft))
  | @closes children closing name width balanced stops =>
      refine ⟨children, closing, width, rfl, balanced, ?_⟩
      obtain ⟨found, children⟩ := exists_children balanced location
      rw [children] at reads
      obtain ⟨draft, _, onward⟩ := bind_eq_ok_iff.mp reads
      by_cases same : name = tag.name
      · rw [stops, same]
      · rw [Markup.eventsFrom_mismatch stops same] at onward
        cases onward

/-- What follows an angle bracket in front of the mapper, if it is known of what is shorter. -/
theorem holdsMapper_of_angle {content : List UInt8} {result : Draft}
    (reads : (run location .prolog (eventsFrom [] (byte '<' :: content))).1 = .ok result)
    (shorter : ∀ rest : List UInt8, rest.length ≤ content.length →
      (run location .prolog (eventsFrom [] rest)).1 = .ok result → HoldsMapper rest) :
    HoldsMapper (byte '<' :: content) := by
  cases read : itemAt content with
  | mk item width =>
    by_cases proper : item = .malformed
    · rw [eventsFrom, if_pos rfl] at reads
      simp only [read, proper] at reads
      cases reads
    cases Markup.beginsWithItem_of_itemAt read proper with
    | last ends =>
        rw [eventsFrom, if_pos rfl] at reads
        simp only [read, ends, eventsFrom] at reads
        cases item with
        | empty tag => exact .empty .nil read
        | start tag =>
            rw [run_opening] at reads
            obtain ⟨draft, _, inMapper⟩ := bind_eq_ok_iff.mp reads
            cases inMapper
        | stop name | data content | skipped | malformed => cases reads
    | @item inside rest isItem =>
        have onward := shorter rest (by simp only [List.length_append]; omega)
        cases item with
        | empty tag => exact .empty .nil read
        | start tag =>
            rw [isItem.eventsFrom_start, run_opening] at reads
            obtain ⟨draft, _, inMapper⟩ := bind_eq_ok_iff.mp reads
            obtain ⟨children, closing, width, rfl, balanced, closes⟩ := exists_closing inMapper
            exact .filled .nil isItem balanced closes
        | data content =>
            rw [isItem.eventsFrom_leaf rfl] at reads
            have front : IsProlog (byte '<' :: (inside ++ [])) := .data isItem .nil
            rw [List.append_nil] at front
            exact (onward reads).behind front
        | skipped =>
            rw [isItem.eventsFrom_leaf rfl] at reads
            have front : IsProlog (byte '<' :: (inside ++ [])) := .skipped isItem .nil
            rw [List.append_nil] at front
            exact (onward reads).behind front
        | stop name =>
            rw [eventsFrom, if_pos rfl] at reads
            simp only [read] at reads
            cases reads
        | malformed => exact absurd rfl proper

/-- The reader finishes only documents that hold a mapper. -/
theorem holdsMapper_of_run {document : List UInt8} {result : Draft}
    (reads : (run location .prolog (eventsFrom [] document)).1 = .ok result) :
    HoldsMapper document := by
  induction size : document.length using Nat.strong_induction_on generalizing document with
  | _ size ih =>
    subst size
    obtain ⟨text, rest, rfl, noTag, ends⟩ := Markup.exists_text document
    rw [run_text (fun _ => rfl) noTag] at reads
    have prolog : IsProlog text := by
      rw [← List.append_nil text]
      exact .text noTag .nil
    cases rest with
    | nil =>
        rw [eventsFrom] at reads
        cases reads
    | cons b content =>
        obtain rfl := ends b rfl
        refine (holdsMapper_of_angle reads fun rest part finishes => ?_).behind prolog
        refine ih rest.length ?_ finishes rfl
        rw [List.length_append, List.length_cons]
        omega

end Reader

namespace Mapper

/-- A document is read event by event and finished. -/
theorem read_eq (location : String) (depth : Nat) (document : List UInt8) :
    read location depth document =
      (Reader.run location .prolog (Markup.events document)).1 >>= fun draft =>
        (draft.finish location depth).mapError .config := rfl

/-- A document that is read as a mapper has the outline of one. -/
theorem holdsMapper_of_read {location : String} {depth : Nat} {document : List UInt8}
    {mapper : Mapper} (reads : read location depth document = .ok mapper) :
    HoldsMapper document := by
  rw [read_eq, Reader.run_events] at reads
  obtain ⟨draft, finishes, _⟩ := bind_eq_ok_iff.mp reads
  exact Reader.holdsMapper_of_run finishes

end Mapper

end SqlTemplate
