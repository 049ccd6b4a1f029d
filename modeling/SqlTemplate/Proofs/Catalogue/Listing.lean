import SqlTemplate.Catalogue.Scan
import SqlTemplate.Proofs.Outcome

/-!
# Lists of mappers

The scan of a catalogue remembers one thing about the elements around an event: whether the list of
mappers is open.  What it is meant to find is said with all of them.  Every event of a document has
open elements around it (`moments`); an entry is an event that starts a `mapper` with a `mappers`
somewhere around it, at any depth (`Moment.entry?`).

If the events are properly nested and no list of mappers is inside another, the memory of the scan
is right at every event (`resources_eq`).  So a document is a catalogue exactly if it has no fault
and each of its entries names a resource, and these resources are what the scan gives, in order and
with repetitions.  In any other case the first event that spoils the document is the cause
(`scan_gives_entries`).
-/

namespace SqlTemplate.Catalogue

set_option autoImplicit false

open Outcome

/-! ## Open elements -/

/-- The open elements behind an event, from the inside outwards. -/
def Event.behind (names : List String) : Event → List String
  | .start name _ => name :: names
  | .stop _ => names.tail
  | .fault => names

/-- Whether events are properly nested between open elements: a tag that closes an element closes
the innermost one, and at the end all are closed, unless the events break off with a fault. -/
inductive Nested : List String → List Event → Prop
  | done : Nested [] []
  | broken {names : List String} : Nested names [.fault]
  | opens {name : String} {names : List String} {attributes : List (String × String)}
      {events : List Event} :
      Nested (name :: names) events → Nested names (.start name attributes :: events)
  | closes {name : String} {names : List String} {events : List Event} :
      Nested names events → Nested (name :: names) (.stop name :: events)

/-- An event with the names of the open elements around it, from the inside outwards. -/
structure Moment where
  around : List String
  event : Event
  deriving Repr, DecidableEq

/-- The events of a document, each with the elements around it. -/
def moments : List String → List Event → List Moment
  | _, [] => []
  | names, event :: events => ⟨names, event⟩ :: moments (event.behind names) events

/-- The moments of a document have its events, in order. -/
theorem map_event_moments (names : List String) (events : List Event) :
    (moments names events).map Moment.event = events := by
  induction events generalizing names with
  | nil => rfl
  | cons event events ih => rw [moments, List.map_cons, ih]

/-- Whether no list of mappers is inside another. -/
def Apart (around : List String) (events : List Event) : Prop :=
  ∀ moment ∈ moments around events, ∀ attributes, moment.event = .start "mappers" attributes →
    "mappers" ∉ moment.around

/-! ## Entries -/

namespace Moment

/-- The attributes of an entry: a `mapper` that starts inside of a list of mappers. -/
def entry? (moment : Moment) : Option (List (String × String)) :=
  match moment.event with
  | .start name attributes =>
      if name = "mapper" ∧ "mappers" ∈ moment.around then some attributes else none
  | _ => none

end Moment

/-- Whether attributes name a resource: it is the value of the first attribute of that name, without
the blanks around it, if anything is left. -/
def Names (attributes : List (String × String)) (resource : String) : Prop :=
  ∃ before value after, attributes = before ++ ("resource", value) :: after ∧
    (∀ other ∈ before, other.1 ≠ "resource") ∧ Text.trimmed value = resource ∧ resource ≠ ""

/-- Looking a resource up finds what the attributes name. -/
theorem resource?_eq_some_iff {attributes : List (String × String)} {resource : String} :
    resource? attributes = some resource ↔ Names attributes resource := by
  rw [resource?, Option.filter_eq_some_iff, Option.map_eq_some_iff]
  constructor
  · rintro ⟨⟨value, present, rfl⟩, filled⟩
    obtain ⟨before, after, split, earlier⟩ := List.lookup_eq_some_iff.mp present
    refine ⟨before, value, after, split, fun other listed same => ?_, rfl, fun blank => ?_⟩
    · exact bne_iff_ne.mp (earlier other listed) same.symm
    · rw [blank] at filled
      exact absurd filled (by decide)
  · rintro ⟨before, value, after, split, earlier, rfl, filled⟩
    refine ⟨⟨value, List.lookup_eq_some_iff.mpr ⟨before, after, split, ?_⟩, rfl⟩, ?_⟩
    · exact fun other listed => bne_iff_ne.mpr (earlier other listed).symm
    · simpa using filled

namespace Moment

/-- Whether an event with the elements around it spoils a document, and for which cause: it is a
fault, or an entry that names no resource. -/
inductive Spoils (location : String) : Moment → LoadError → Prop
  | fault {around : List String} : Spoils location ⟨around, .fault⟩ (.malformed location)
  | unnamed {around : List String} {attributes : List (String × String)}
      (inside : "mappers" ∈ around) (nothing : ∀ resource, ¬ Names attributes resource) :
      Spoils location ⟨around, .start "mapper" attributes⟩ (.config (.missingResource location))

/-- The resources that an event gives with the elements around it: one or none. -/
def resources (location : String) (moment : Moment) : Except LoadError (List String) :=
  match moment.event with
  | .fault => .error (.malformed location)
  | .stop _ => .ok []
  | .start name attributes =>
      if name = "mapper" ∧ "mappers" ∈ moment.around then
        match resource? attributes with
        | some resource => .ok [resource]
        | none => .error (.config (.missingResource location))
      else .ok []

variable {location : String} {moment : Moment}

theorem resources_of_entry {around : List String} {attributes : List (String × String)}
    (inside : "mappers" ∈ around) :
    resources location ⟨around, .start "mapper" attributes⟩ =
      match resource? attributes with
      | some resource => .ok [resource]
      | none => .error (.config (.missingResource location)) :=
  if_pos ⟨rfl, inside⟩

theorem resources_of_other {around : List String} {name : String}
    {attributes : List (String × String)} (other : ¬(name = "mapper" ∧ "mappers" ∈ around)) :
    resources location ⟨around, .start name attributes⟩ = .ok [] :=
  if_neg other

/-- An event fails to give resources exactly if it spoils the document. -/
theorem resources_eq_error_iff {cause : LoadError} :
    moment.resources location = .error cause ↔ moment.Spoils location cause := by
  constructor
  · intro fails
    obtain ⟨around, event⟩ := moment
    cases event with
    | fault =>
        cases fails
        exact .fault
    | stop name => cases fails
    | start name attributes =>
        by_cases isEntry : name = "mapper" ∧ "mappers" ∈ around
        · obtain ⟨rfl, inside⟩ := isEntry
          rw [resources_of_entry inside] at fails
          cases named : resource? attributes with
          | some resource =>
              rw [named] at fails
              cases fails
          | none =>
              rw [named] at fails
              cases fails
              refine .unnamed inside fun resource names => ?_
              rw [resource?_eq_some_iff.mpr names] at named
              cases named
        · rw [resources_of_other isEntry] at fails
          cases fails
  · rintro (_ | ⟨inside, nothing⟩)
    · rfl
    · have unnamed := Option.eq_none_iff_forall_ne_some.mpr fun resource named =>
        nothing resource (resource?_eq_some_iff.mp named)
      rw [resources_of_entry inside, unnamed]

/-- An event that is no fault gives the resource that its entry names, if it is one. -/
theorem resources_eq_ok_iff {found : List String} :
    moment.resources location = .ok found ↔
      moment.event ≠ .fault ∧ List.Forall₂ Names moment.entry?.toList found := by
  obtain ⟨around, event⟩ := moment
  cases event with
  | fault => simp [resources]
  | stop name => simp [resources, entry?, eq_comm]
  | start name attributes =>
      by_cases isEntry : name = "mapper" ∧ "mappers" ∈ around
      · cases named : resource? attributes <;>
          simp [resources, entry?, isEntry, List.forall₂_cons_left_iff, ← resource?_eq_some_iff,
            named, eq_comm]
      · simp [resources, entry?, isEntry, eq_comm]

/-- An event gives resources exactly if it does not spoil the document. -/
theorem exists_resources_iff :
    (∃ found, moment.resources location = .ok found) ↔ ∀ cause, ¬ moment.Spoils location cause := by
  simp only [← resources_eq_error_iff]
  cases moment.resources location <;> simp

end Moment

/-- The lists that steps give for the items of a list, one behind the other. -/
theorem map_flatten_mapM_cons {ε α β : Type} (step : α → Except ε (List β)) (item : α)
    (items : List α) :
    ((item :: items).mapM step).map List.flatten = (do
      let here ← step item
      let more ← (items.mapM step).map List.flatten
      .ok (here ++ more)) := by
  rw [List.mapM_cons]
  cases step item <;> cases items.mapM step <;> rfl

/-- Events that are no faults give the resources that their entries name. -/
theorem mapM_resources_eq_ok_iff {location : String} {all : List Moment} {found : List String} :
    (all.mapM (Moment.resources location)).map List.flatten = .ok found ↔
      (∀ moment ∈ all, moment.event ≠ .fault) ∧
        List.Forall₂ Names (all.filterMap Moment.entry?) found := by
  induction all generalizing found with
  | nil => simp [Except.map, pure, Except.pure, eq_comm]
  | cons moment all ih =>
      have split (here more : List String) :
          (.ok (here ++ more) : Except LoadError (List String)) = .ok found ↔
            found = here ++ more := by
        rw [Except.ok.injEq, eq_comm]
      simp only [map_flatten_mapM_cons, bind_eq_ok_iff, split, ih, Moment.resources_eq_ok_iff,
        List.forall_mem_cons]
      cases isEntry : moment.entry? with
      | none => simp [isEntry, and_assoc]
      | some attributes =>
          rw [List.filterMap_cons_some isEntry]
          constructor
          · rintro ⟨_, ⟨noFault, named⟩, _, ⟨faultless, others⟩, rfl⟩
            exact ⟨⟨noFault, faultless⟩, List.rel_append named others⟩
          · rintro ⟨⟨noFault, faultless⟩, _ | ⟨named, others⟩⟩
            exact ⟨_, ⟨noFault, .cons named .nil⟩, _, ⟨faultless, others⟩, rfl⟩

/-! ## Scanning -/

/-- Going from one event to the next keeps in mind whether a list of mappers is open. -/
theorem resources_cons {location : String} {names : List String} {event : Event}
    {events : List Event} (nested : Nested names (event :: events))
    (once : names.count "mappers" ≤ 1) :
    resources location ("mappers" ∈ names) (event :: events) = (do
      let here ← Moment.resources location ⟨names, event⟩
      let more ← resources location ("mappers" ∈ event.behind names) events
      .ok (here ++ more)) := by
  have nothing (listed : Bool) : resources location listed events = (do
      let here ← .ok []
      let more ← resources location listed events
      .ok (here ++ more)) := (bind_pure (resources location listed events)).symm
  cases nested with
  | broken => rfl
  | @closes name outer _ nested =>
      have isOpen : (decide ("mappers" ∈ name :: outer) && name != "mappers") =
          decide ("mappers" ∈ outer) := by
        by_cases isList : name = "mappers"
        · subst isList
          have outside : "mappers" ∉ outer := by
            rw [List.count_cons_self] at once
            exact List.count_eq_zero.mp (by omega)
          simp [outside]
        · simp [isList, Ne.symm isList]
      rw [resources, isOpen]
      exact nothing _
  | @opens name _ attributes _ nested =>
      rw [resources]
      by_cases isList : name = "mappers"
      · have noEntry : ¬(name = "mapper" ∧ "mappers" ∈ names) := by
          rintro ⟨isEntry, _⟩
          exact absurd (isList.symm.trans isEntry) (by decide)
        rw [if_pos isList, Moment.resources_of_other noEntry, Event.behind, isList,
          decide_eq_true (List.mem_cons_self ..)]
        exact nothing true
      · have isOpen : decide ("mappers" ∈ name :: names) = decide ("mappers" ∈ names) := by
          simp [Ne.symm isList]
        rw [if_neg isList, Event.behind, isOpen]
        by_cases isEntry : name = "mapper" ∧ "mappers" ∈ names
        · obtain ⟨rfl, inside⟩ := isEntry
          rw [if_pos ⟨rfl, decide_eq_true inside⟩, Moment.resources_of_entry inside]
          cases resource? attributes <;> rfl
        · rw [if_neg fun listed => isEntry ⟨listed.1, of_decide_eq_true listed.2⟩,
            Moment.resources_of_other isEntry]
          exact nothing _

/-- The memory of the scan is right at every event. -/
theorem resources_eq {names : List String} {events : List Event} (nested : Nested names events)
    (apart : Apart names events) (once : names.count "mappers" ≤ 1) (location : String) :
    resources location ("mappers" ∈ names) events =
      ((moments names events).mapM (Moment.resources location)).map List.flatten := by
  induction nested with
  | done => rfl
  | broken => rfl
  | @opens name names attributes events nested ih =>
      have ⟨here, later⟩ := List.forall_mem_cons.mp apart
      have onceMore : (name :: names).count "mappers" ≤ 1 := by
        by_cases isList : name = "mappers"
        · have outside := List.count_eq_zero.mpr (here attributes (isList ▸ rfl))
          rw [isList, List.count_cons_self]
          exact Nat.succ_le_succ (Nat.le_of_eq outside)
        · rwa [List.count_cons_of_ne isList]
      rw [resources_cons (.opens nested) once, moments, map_flatten_mapM_cons, Event.behind,
        ih later onceMore]
  | @closes name names events nested ih =>
      have ⟨_, later⟩ := List.forall_mem_cons.mp apart
      have onceMore : names.count "mappers" ≤ 1 := Nat.le_trans List.count_le_count_cons once
      rw [resources_cons (.closes nested) once, moments, map_flatten_mapM_cons, Event.behind,
        List.tail_cons, ih later onceMore]

/-- Whether a document has the root of a catalogue. -/
def IsCatalogue (document : List Event) : Prop :=
  ∃ root attributes events, document = .start root attributes :: events ∧
    (root = "configuration" ∨ root = "mappers")

/-- A catalogue is scanned for its resources from its root on. -/
theorem IsCatalogue.scan {document : List Event} (isCatalogue : IsCatalogue document)
    (location : String) :
    Catalogue.scan location document = (resources location false document).map .resources := by
  obtain ⟨root, attributes, events, rfl, isRoot⟩ := isCatalogue
  have noMapper : root ≠ "mapper" := by
    rcases isRoot with rfl | rfl <;> decide
  rw [Catalogue.scan, if_neg noMapper, if_pos isRoot, resources]
  by_cases isList : root = "mappers"
  · rw [if_pos isList, decide_eq_true isList]
  · rw [if_neg isList, decide_eq_false isList, if_neg fun isEntry => noMapper isEntry.1]

/-- A catalogue without faults whose entries all name resources is scanned for these resources, in
order and with repetitions.  In all other cases the first event that spoils it is the cause. -/
theorem scan_gives_entries {document : List Event} (isCatalogue : IsCatalogue document)
    (nested : Nested [] document) (apart : Apart [] document) (location : String) :
    (∀ result, scan location document = .ok result ↔
        ∃ found, .fault ∉ document ∧
          List.Forall₂ Names ((moments [] document).filterMap Moment.entry?) found ∧
            result = .resources found) ∧
      ∀ cause, scan location document = .error cause ↔
        ∃ before moment after, moments [] document = before ++ moment :: after ∧
          (∀ earlier ∈ before, ∀ other, ¬ earlier.Spoils location other) ∧
            moment.Spoils location cause := by
  have runs : scan location document =
      (((moments [] document).mapM (Moment.resources location)).map List.flatten).map
        .resources := by
    rw [isCatalogue.scan, ← resources_eq nested apart (by simp) location]
    rfl
  constructor
  · intro result
    rw [runs, map_eq_ok_iff]
    refine exists_congr fun found => ?_
    have faultless : (∀ moment ∈ moments [] document, moment.event ≠ .fault) ↔
        .fault ∉ document := by
      conv_rhs => rw [← map_event_moments [] document]
      simp
    rw [mapM_resources_eq_ok_iff, faultless, eq_comm, and_assoc]
  · intro cause
    rw [runs, map_eq_error_iff, map_eq_error_iff, mapM_eq_error_iff]
    simp only [Moment.resources_eq_error_iff, Moment.exists_resources_iff]

/-- A catalogue with an entry outside of the list of mappers and one in a group inside of it. -/
def groupedCatalogue : List Event :=
  [.start "configuration" [], .start "mapper" [("resource", "stray.xml")], .stop "mapper",
    .start "mappers" [], .start "group" [], .start "mapper" [("resource", " orders.xml ")],
    .stop "mapper", .stop "group", .stop "mappers", .stop "configuration"]

/-- The entry inside of the list is found, the other one is not. -/
theorem scan_gives_entries_grouped :
    scan "config.xml" groupedCatalogue = .ok (.resources ["orders.xml"]) := by
  have nested : Nested [] groupedCatalogue :=
    .opens <| .opens <| .closes <| .opens <| .opens <| .opens <| .closes <| .closes <|
      .closes <| .closes .done
  have apart : Apart [] groupedCatalogue := by
    simp [Apart, groupedCatalogue, moments, Event.behind]
  have named : Names [("resource", " orders.xml ")] "orders.xml" :=
    ⟨[], " orders.xml ", [], rfl, by simp, by decide, by decide⟩
  have reading := scan_gives_entries ⟨_, _, _, rfl, .inl rfl⟩ nested apart "config.xml"
  exact (reading.1 _).mpr ⟨["orders.xml"], by decide, .cons named .nil, rfl⟩

end SqlTemplate.Catalogue
