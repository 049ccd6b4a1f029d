import SqlTemplate.Catalogue.Scan
import SqlTemplate.Proofs.Outcome

/-!
# Entries of catalogues

The resources of a catalogue are those of its front and then those of its back, read with the list
of mappers as the front leaves it (`Catalogue.resources_append`).  An entry in the list leaves it
open and gives its own resource.

So entries of a catalogue can be put in another order: if one document is a catalogue, then so is
the other, with the same resources in another order (`Catalogue.Rearranged.scan`).
-/

namespace SqlTemplate.Catalogue

set_option autoImplicit false

open Outcome

/-! ## The list of mappers -/

/-- Whether the list of mappers is open behind events. -/
def isOpen : Bool → List Event → Bool
  | listed, [] => listed
  | listed, .start name _ :: events => isOpen (listed || name == "mappers") events
  | listed, .stop name :: events => isOpen (listed && name != "mappers") events
  | listed, .fault :: events => isOpen listed events

/-- Events that are read one after the other. -/
theorem resources_append (location : String) (listed : Bool) (front back : List Event) :
    resources location listed (front ++ back) = (do
      let before ← resources location listed front
      let behind ← resources location (isOpen listed front) back
      .ok (before ++ behind)) := by
  induction front generalizing listed with
  | nil =>
      rw [List.nil_append]
      show _ = resources location listed back >>= fun behind => .ok behind
      cases resources location listed back <;> rfl
  | cons event front ih =>
      cases event with
      | fault => rfl
      | stop name => exact ih _
      | start name attributes =>
          rw [List.cons_append, resources, resources, isOpen]
          by_cases isList : name = "mappers"
          · rw [if_pos isList, if_pos isList, ih, isList, beq_self_eq_true, Bool.or_true]
          · have other : (listed || name == "mappers") = listed := by
              rw [beq_eq_false_iff_ne.mpr isList, Bool.or_false]
            rw [if_neg isList, if_neg isList, other]
            by_cases isEntry : name = "mapper" ∧ listed = true
            · rw [if_pos isEntry, if_pos isEntry]
              cases resource? attributes with
              | none => rfl
              | some resource =>
                  show (resources location listed (front ++ back) >>= _) = _
                  rw [ih]
                  cases resources location listed front with
                  | error cause => rfl
                  | ok before =>
                      show (resources location (isOpen listed front) back >>= _) >>= _ =
                        resources location (isOpen listed front) back >>= _
                      cases resources location (isOpen listed front) back <;> rfl
            · rw [if_neg isEntry, if_neg isEntry, ih]

/-! ## Entries -/

/-- An event that is not about entries or the list of mappers. -/
def Event.IsPlain : Event → Prop
  | .start name _ | .stop name => name ≠ "mapper" ∧ name ≠ "mappers"
  | .fault => False

theorem isOpen_append (listed : Bool) (front back : List Event) :
    isOpen listed (front ++ back) = isOpen (isOpen listed front) back := by
  induction front generalizing listed with
  | nil => rfl
  | cons event front ih => cases event <;> exact ih _

theorem isOpen_of_plain {events : List Event} (plain : ∀ event ∈ events, event.IsPlain)
    (listed : Bool) : isOpen listed events = listed := by
  induction events with
  | nil => rfl
  | cons event events ih =>
      have ⟨here, others⟩ := List.forall_mem_cons.mp plain
      cases event with
      | fault => exact here.elim
      | start name attributes =>
          rw [isOpen, beq_eq_false_iff_ne.mpr here.2, Bool.or_false]
          exact ih others
      | stop name =>
          rw [isOpen, bne_iff_ne.mpr here.2, Bool.and_true]
          exact ih others

/-- An entry of a catalogue: its attributes, and what is inside it. -/
structure Entry where
  attributes : List (String × String)
  inside : List Event
  plain : ∀ event ∈ inside, event.IsPlain

namespace Entry

/-- The events of an entry. -/
def events (entry : Entry) : List Event :=
  .start "mapper" entry.attributes :: (entry.inside ++ [.stop "mapper"])

/-- An entry with nothing inside. -/
def leaf (attributes : List (String × String)) : Entry :=
  ⟨attributes, [], fun _ listed => nomatch listed⟩

/-- An entry leaves the list of mappers open. -/
theorem isOpen_events (entry : Entry) : isOpen true entry.events = true := by
  rw [events, isOpen, Bool.true_or, isOpen_append, isOpen_of_plain entry.plain]
  rfl

/-- The resources of events between which two entries stand in the list of mappers. -/
theorem resources_around (location : String) (listed : Bool) {front between : List Event}
    (left right : Entry) (back : List Event) (isInside : isOpen listed front = true)
    (staysInside : isOpen true between = true) :
    resources location listed
        (front ++ (left.events ++ (between ++ (right.events ++ back)))) = (do
      let before ← resources location listed front
      let first ← resources location true left.events
      let middle ← resources location true between
      let last ← resources location true right.events
      let behind ← resources location true back
      .ok (before ++ (first ++ (middle ++ (last ++ behind))))) := by
  rw [resources_append, isInside, resources_append, left.isOpen_events, resources_append,
    staysInside, resources_append, right.isOpen_events]
  simp only [bind_assoc]
  rfl

end Entry

/-! ## Rearranging -/

/-- Two parts of a list that are separated by others change their places. -/
theorem perm_of_swap {α : Type} (front first middle last back : List α) :
    (front ++ (first ++ (middle ++ (last ++ back)))).Perm
      (front ++ (last ++ (middle ++ (first ++ back)))) := by
  have inward : (first ++ (middle ++ (last ++ back))).Perm (first ++ (last ++ (middle ++ back))) :=
    .append_left first (List.perm_append_comm_assoc ..)
  have across : (first ++ (last ++ (middle ++ back))).Perm (last ++ (first ++ (middle ++ back))) :=
    List.perm_append_comm_assoc ..
  have outward : (last ++ (first ++ (middle ++ back))).Perm (last ++ (middle ++ (first ++ back))) :=
    .append_left last (List.perm_append_comm_assoc ..)
  exact .append_left front (inward.trans (across.trans outward))

/-- Steps of which two change their places give parts of which two change their places. -/
theorem related_of_swap {ε α : Type} (front first middle last back : Except ε (List α)) :
    Related (fun _ _ => True) List.Perm
      (do
        let before ← front
        let one ← first
        let between ← middle
        let two ← last
        let behind ← back
        .ok (before ++ (one ++ (between ++ (two ++ behind)))))
      (do
        let before ← front
        let two ← last
        let between ← middle
        let one ← first
        let behind ← back
        .ok (before ++ (two ++ (between ++ (one ++ behind))))) := by
  cases front <;> cases first <;> cases middle <;> cases last <;> cases back <;>
    first
    | exact .fault trivial
    | exact .result (perm_of_swap ..)

/-- Whether one document is the other with its entries in another order: entries inside the list of
mappers change their places, however often. -/
inductive Rearranged : List Event → List Event → Prop
  | swap {root : String} {attributes : List (String × String)} {front between back : List Event}
      (left right : Entry) :
      root = "configuration" ∨ root = "mappers" → isOpen (root = "mappers") front = true →
        isOpen true between = true →
        Rearranged
          (.start root attributes ::
            (front ++ (left.events ++ (between ++ (right.events ++ back)))))
          (.start root attributes ::
            (front ++ (right.events ++ (between ++ (left.events ++ back)))))
  | trans {first second third : List Event} :
      Rearranged first second → Rearranged second third → Rearranged first third

/-- Two catalogues with the same resources in another order. -/
inductive SameResources : Document → Document → Prop
  | intro {left right : List String} :
      left.Perm right → SameResources (.resources left) (.resources right)

/-- Two documents of which both or none can be understood, with the same resources. -/
abbrev Alike : Except LoadError Document → Except LoadError Document → Prop :=
  Related (fun _ _ => True) SameResources

theorem SameResources.trans {first second third : Document} (before : SameResources first second)
    (after : SameResources second third) : SameResources first third := by
  cases before with
  | intro before =>
      cases after with
      | intro after => exact .intro (before.trans after)

namespace Rearranged

theorem symm {left right : List Event} (rearranged : Rearranged left right) :
    Rearranged right left := by
  induction rearranged with
  | swap left right isRoot isInside staysInside =>
      exact .swap right left isRoot isInside staysInside
  | trans _ _ first second => exact .trans second first

/-- **Rearranged documents are catalogues with the same resources**, or none of them is one. -/
theorem scan {left right : List Event} (rearranged : Rearranged left right) (location : String) :
    Alike (Catalogue.scan location left) (Catalogue.scan location right) := by
  induction rearranged with
  | trans _ _ before after =>
      exact Related.trans (fun _ _ => trivial) SameResources.trans before after
  | @swap root attributes front between back left right isRoot isInside staysInside =>
      have noMapper : root ≠ "mapper" := by
        rcases isRoot with rfl | rfl <;> decide
      rw [Catalogue.scan, Catalogue.scan, if_neg noMapper, if_neg noMapper, if_pos isRoot,
        if_pos isRoot, Entry.resources_around location _ left right back isInside staysInside,
        Entry.resources_around location _ right left back isInside staysInside]
      exact (related_of_swap ..).map fun _ _ => .intro

end Rearranged

end SqlTemplate.Catalogue
