import SqlTemplate.Mapper.Reader
import SqlTemplate.Proofs.Markup.Balanced
import SqlTemplate.Proofs.Outcome

/-!
# Children of a mapper

The content of a statement or a fragment is read without regard to the draft, and to what the
content is for (`Reader.Yields`).  Events in which every tag is closed take the reader, on every
level, from what was read so far to what is read with them, or they are faulty
(`Markup.Closed.yields`).

So a child of a mapper is a tag and a body, which is a list of nodes or a fault, and reading the
child changes the draft as `Child.read` says.  Balanced content of a mapper is read as its children,
one after the other (`Reader.exists_children`); text and comments between them do not matter.
-/

namespace SqlTemplate

set_option autoImplicit false

open Markup (Balanced Closed Event IsElement IsTextEnd Tag byte eventsFrom textEvents)
open Outcome

namespace Reader

/-! ## Content -/

/-- An event that leads to the place of an outcome, or is its fault. -/
theorem run_of_step {α : Type} {location : String} {place : Place} {event : Event}
    {outcome : Except LoadError α} {next : α → Place}
    (steps : step location place event = outcome.map fun result => .next (next result))
    (more : List Event) :
    (run location place (event :: more)).1 =
      outcome >>= fun result => (run location (next result) more).1 := by
  rw [run, steps]
  cases outcome <;> rfl

/-- Whether events yield an outcome, for every draft and whatever the content is for: from the place
where they begin they lead to the place of their result, or to their fault. -/
def Yields {α : Type} (location : String) (events : List Event) (place : Draft → Target → Place)
    (outcome : Except LoadError α) (next : α → Draft → Target → Place) : Prop :=
  ∀ draft target more, (run location (place draft target) (events ++ more)).1 =
    outcome >>= fun result => (run location (next result draft target) more).1

namespace Yields

variable {α β : Type} {location : String} {events behind : List Event}
  {place : Draft → Target → Place} {outcome : Except LoadError α}
  {next : α → Draft → Target → Place}

theorem nil (result : α) : Yields location [] (next result) (.ok result) next :=
  fun _ _ _ => rfl

/-- One event. -/
theorem event {event : Event}
    (steps : ∀ draft target, step location (place draft target) event =
      outcome.map fun result => .next (next result draft target)) :
    Yields location [event] place outcome next := by
  intro draft target more
  exact run_of_step (steps draft target) more

/-- Events behind events. -/
theorem append {more : α → Except LoadError β} {last : β → Draft → Target → Place}
    (first : Yields location events place outcome next)
    (second : ∀ result, Yields location behind (next result) (more result) last) :
    Yields location (events ++ behind) place (outcome >>= more) last := by
  intro draft target rest
  rw [List.append_assoc, first, bind_assoc]
  refine congrArg (outcome >>= ·) (funext fun result => ?_)
  exact second result draft target rest

end Yields

/-- Inside of a skipped element, closed events do not matter. -/
theorem run_skipped (location : String) {events : List Event} (closed : Closed events) (depth : Nat)
    (after : Place) (more : List Event) :
    run location (.skipped depth after) (events ++ more) =
      run location (.skipped depth after) more := by
  induction closed generalizing depth more with
  | nil => rfl
  | empty _ ih | text _ ih | data _ ih => exact ih depth more
  | @element tag inner behind _ _ ihInner ihBehind =>
      rw [List.cons_append, List.append_assoc]
      show run location (.skipped (depth + 1) after) (inner ++ (.stop :: behind ++ more)) = _
      rw [ihInner]
      exact ihBehind depth more

/-- The place in content behind these nodes. -/
def inContent (frames : List Frame) (nodes : List Node) (draft : Draft) (target : Target) : Place :=
  .content draft target frames nodes

/-- The place in a choice that holds this much so far. -/
def inChoice (frames : List Frame) (choice : OpenChoice) (draft : Draft) (target : Target) :
    Place :=
  .choice draft target frames choice

/-- Whether events yield nodes behind those that are there, or a fault. -/
def YieldsNodes (location : String) (events : List Event) : Prop :=
  ∀ frames nodes, ∃ outcome,
    Yields location events (inContent frames nodes) outcome (inContent frames)

/-- Whether events yield more of a choice, or a fault. -/
def YieldsBranches (location : String) (events : List Event) : Prop :=
  ∀ frames choice, ∃ outcome,
    Yields location events (inChoice frames choice) outcome (inChoice frames)

section

variable {location : String} {events behind inner : List Event} {tag : Tag}

theorem YieldsNodes.append (first : YieldsNodes location events)
    (second : YieldsNodes location behind) : YieldsNodes location (events ++ behind) := by
  intro frames nodes
  obtain ⟨outcome, here⟩ := first frames nodes
  choose more there using second frames
  exact ⟨_, here.append there⟩

theorem YieldsBranches.append (first : YieldsBranches location events)
    (second : YieldsBranches location behind) : YieldsBranches location (events ++ behind) := by
  intro frames choice
  obtain ⟨outcome, here⟩ := first frames choice
  choose more there using second frames
  exact ⟨_, here.append there⟩

/-! ### Elements in content -/

/-- The place inside an element that stands behind these nodes. -/
def inside (frames : List Frame) (nodes : List Node) : Opened → Draft → Target → Place
  | .element element => inContent (.element element nodes :: frames) []
  | .choice => inChoice frames ⟨nodes, [], none⟩
  | .reference name => fun draft target =>
      .skipped 0 (inContent frames (nodes ++ [.reference name]) draft target)

/-- The node of an element without content. -/
def emptyNode : Opened → Node
  | .element element => element.node []
  | .choice => .choice [] none
  | .reference name => .reference name

theorem yieldsNodes_empty (location : String) (tag : Tag) :
    YieldsNodes location [.empty tag] := by
  intro frames nodes
  refine ⟨(opened location tag).map fun found => nodes ++ [emptyNode found],
    .event fun draft target => ?_⟩
  rw [inContent, step, contentStep, openNode]
  cases opened location tag with
  | error fault => rfl
  | ok found => cases found <;> rfl

theorem yieldsNodes_text (location : String) (content : List UInt8) :
    YieldsNodes location [.text content] := by
  intro frames nodes
  refine ⟨(flowingNodes location content).map (nodes ++ ·), .event fun draft target => ?_⟩
  rw [inContent, step, contentStep]
  cases flowingNodes location content <;> rfl

theorem yieldsNodes_data (location : String) (content : List UInt8) :
    YieldsNodes location [.data content] := by
  intro frames nodes
  refine ⟨(verbatimNodes content).map (nodes ++ ·), .event fun draft target => ?_⟩
  rw [inContent, step, contentStep]
  cases verbatimNodes content <;> rfl

theorem yieldsNodes_element (closed : Closed inner) (nodesInside : YieldsNodes location inner)
    (branchesInside : YieldsBranches location inner) :
    YieldsNodes location (.start tag :: (inner ++ [.stop])) := by
  intro frames nodes
  have opens : Yields location [.start tag] (inContent frames nodes) (opened location tag)
      (inside frames nodes) := by
    refine .event fun draft target => ?_
    rw [inContent, step, contentStep, openNode]
    cases opened location tag with
    | error fault => rfl
    | ok found => cases found <;> rfl
  have closes (found : Opened) : ∃ outcome, Yields location (inner ++ [.stop])
      (inside frames nodes found) outcome (inContent frames) := by
    cases found with
    | element element =>
        obtain ⟨outcome, yields⟩ := nodesInside (.element element nodes :: frames) []
        have stops (body : List Node) : Yields location [.stop]
            (inContent (.element element nodes :: frames) body)
            (.ok (nodes ++ [element.node body])) (inContent frames) := .event fun _ _ => rfl
        exact ⟨_, yields.append stops⟩
    | choice =>
        obtain ⟨outcome, yields⟩ := branchesInside frames ⟨nodes, [], none⟩
        have stops (choice : OpenChoice) : Yields location [.stop] (inChoice frames choice)
            (.ok (choice.before ++ [.choice choice.branches choice.otherwise]))
            (inContent frames) := .event fun _ _ => rfl
        exact ⟨_, yields.append stops⟩
    | reference name =>
        refine ⟨.ok (nodes ++ [.reference name]), fun draft target more => ?_⟩
        rw [inside, List.append_assoc, run_skipped location closed]
        rfl
  choose more yields using closes
  exact ⟨_, opens.append yields⟩

/-! ### Elements in choices -/

/-- The frame of a branch with a test, or of the part for the case that no test holds. -/
def branchFrame (choice : OpenChoice) : Option String → Frame
  | some test => .branch test choice
  | none => .otherwise choice

/-- A choice with a branch, or with the part for the case that no test holds. -/
def withBranch (choice : OpenChoice) (body : List Node) : Option String → OpenChoice
  | some test => { choice with branches := choice.branches ++ [(test, body)] }
  | none => { choice with otherwise := some body }

/-- The tag of an element in a choice has a test or none, or is faulty. -/
theorem exists_openBranch (location : String) (choice : OpenChoice) (tag : Tag) :
    ∃ outcome : Except LoadError (Option String), ∀ draft target frames,
      openBranch location draft target frames choice tag false =
          outcome.map (fun test => inContent (branchFrame choice test :: frames) [] draft target) ∧
        openBranch location draft target frames choice tag true =
          outcome.map (fun test => inChoice frames (withBranch choice [] test) draft target) := by
  unfold openBranch
  split
  · refine ⟨(requiredAttribute tag "test").map some, fun draft target frames => ?_⟩
    cases requiredAttribute tag "test" <;> exact ⟨rfl, rfl⟩
  · by_cases second : choice.otherwise.isSome = true
    · refine ⟨.error (.config (.secondOtherwise location)), fun draft target frames => ?_⟩
      simp only [second, if_true]
      exact ⟨rfl, rfl⟩
    · refine ⟨.ok none, fun draft target frames => ?_⟩
      simp only [second]
      exact ⟨rfl, rfl⟩
  · exact ⟨.error (.config (.notABranch location _)), fun draft target frames => ⟨rfl, rfl⟩⟩

theorem yieldsBranches_empty (location : String) (tag : Tag) :
    YieldsBranches location [.empty tag] := by
  intro frames choice
  obtain ⟨outcome, opens⟩ := exists_openBranch location choice tag
  refine ⟨outcome.map (withBranch choice []), .event fun draft target => ?_⟩
  rw [inChoice, step, choiceStep, (opens draft target frames).2]
  cases outcome <;> rfl

theorem yieldsBranches_text (location : String) (content : List UInt8) :
    YieldsBranches location [.text content] := by
  intro frames choice
  by_cases blank : content.all Markup.isAsciiBlank = true
  · refine ⟨.ok choice, .event fun draft target => ?_⟩
    rw [inChoice, step, choiceStep, if_pos blank]
    rfl
  · refine ⟨.error (.config (.textInChoice location)), .event fun draft target => ?_⟩
    rw [inChoice, step, choiceStep, if_neg blank]
    rfl

theorem yieldsBranches_data (location : String) (content : List UInt8) :
    YieldsBranches location [.data content] :=
  fun _ _ => ⟨.error (.config (.textInChoice location)), .event fun _ _ => rfl⟩

theorem yieldsBranches_element (nodesInside : YieldsNodes location inner) :
    YieldsBranches location (.start tag :: (inner ++ [.stop])) := by
  intro frames choice
  obtain ⟨outcome, steps⟩ := exists_openBranch location choice tag
  have opens : Yields location [.start tag] (inChoice frames choice) outcome
      fun test => inContent (branchFrame choice test :: frames) [] := by
    refine .event fun draft target => ?_
    rw [inChoice, step, choiceStep, (steps draft target frames).1]
    cases outcome <;> rfl
  have closes (test : Option String) : ∃ outcome, Yields location (inner ++ [.stop])
      (inContent (branchFrame choice test :: frames) []) outcome (inChoice frames) := by
    obtain ⟨outcome, yields⟩ := nodesInside (branchFrame choice test :: frames) []
    have stops (body : List Node) : Yields location [.stop]
        (inContent (branchFrame choice test :: frames) body) (.ok (withBranch choice body test))
        (inChoice frames) := by
      refine .event fun draft target => ?_
      cases test <;> rfl
    exact ⟨_, yields.append stops⟩
  choose more yields using closes
  exact ⟨_, opens.append yields⟩

end

end Reader

namespace Markup.Closed

open Reader

/-- Closed events yield nodes in content, and branches in a choice, unless they are faulty. -/
theorem yields {events : List Event} (closed : Closed events) (location : String) :
    YieldsNodes location events ∧ YieldsBranches location events := by
  induction closed with
  | nil => exact ⟨fun frames nodes => ⟨_, .nil nodes⟩, fun frames choice => ⟨_, .nil choice⟩⟩
  | @empty tag behind _ ih =>
      exact ⟨(yieldsNodes_empty location tag).append ih.1,
        (yieldsBranches_empty location tag).append ih.2⟩
  | @text content behind _ ih =>
      exact ⟨(yieldsNodes_text location content).append ih.1,
        (yieldsBranches_text location content).append ih.2⟩
  | @data content behind _ ih =>
      exact ⟨(yieldsNodes_data location content).append ih.1,
        (yieldsBranches_data location content).append ih.2⟩
  | @element tag inner behind closed _ ihInner ihBehind =>
      have split : (.start tag :: (inner ++ .stop :: behind) : List Event) =
          .start tag :: (inner ++ [.stop]) ++ behind := by simp
      rw [split]
      exact ⟨(yieldsNodes_element closed ihInner.1 ihInner.2).append ihBehind.1,
        (yieldsBranches_element ihInner.1).append ihBehind.2⟩

end Markup.Closed

/-! ## Children -/

/-- A child of a mapper: its tag, and the nodes in it, or the fault among them. -/
structure Child where
  tag : Tag
  body : Except LoadError (List Node)

namespace Child

/-- What a child makes of a draft. -/
def read (child : Child) (draft : Draft) : Except LoadError Draft := do
  match ← Reader.target? draft child.tag with
  | some target =>
      let nodes ← child.body
      Reader.store draft nodes target
  | none => .ok draft

/-- What children make of a draft, one after the other. -/
def readAll : List Child → Draft → Except LoadError Draft
  | [], draft => .ok draft
  | child :: children, draft => do
      let draft ← child.read draft
      readAll children draft

end Child

namespace Reader

variable {location : String} {draft : Draft}

/-- What is stored leads back to the mapper. -/
theorem map_map_store (draft : Draft) (nodes : List Node) (target : Target) :
    ((store draft nodes target).map Place.mapper).map Progress.next =
      (store draft nodes target).map fun draft => .next (.mapper draft) := by
  cases store draft nodes target <;> rfl

/-- An element without content is a child with nothing in it. -/
theorem run_empty (tag : Tag) (more : List Event) :
    (run location (.mapper draft) (.empty tag :: more)).1 =
      (⟨tag, .ok []⟩ : Child).read draft >>= fun draft => (run location (.mapper draft) more).1 := by
  have steps : step location (.mapper draft) (.empty tag) =
      ((⟨tag, .ok []⟩ : Child).read draft).map fun draft => .next (.mapper draft) := by
    rw [step, openChild, Child.read]
    cases target? draft tag with
    | error fault => rfl
    | ok found =>
        cases found with
        | none => rfl
        | some target => exact map_map_store draft [] target
  exact run_of_step steps more

/-- An element with closed events in it is a child whose body they yield. -/
theorem exists_run_element (location : String) (tag : Tag) {inner : List Event}
    (closed : Closed inner) :
    ∃ body, ∀ draft more, (run location (.mapper draft) (.start tag :: (inner ++ .stop :: more))).1 =
      (⟨tag, body⟩ : Child).read draft >>= fun draft => (run location (.mapper draft) more).1 := by
  obtain ⟨body, yields⟩ := (closed.yields location).1 [] []
  refine ⟨body, fun draft more => ?_⟩
  rw [run, step, openChild, Child.read]
  cases target? draft tag with
  | error fault => rfl
  | ok found =>
      cases found with
      | none =>
          show (run location (.skipped 0 (.mapper draft)) (inner ++ .stop :: more)).1 = _
          rw [run_skipped location closed]
          rfl
      | some target =>
          show (run location (inContent [] [] draft target) (inner ++ .stop :: more)).1 =
            (body >>= fun nodes => store draft nodes target) >>= _
          rw [yields, bind_assoc]
          refine congrArg (body >>= ·) (funext fun nodes => ?_)
          have stops : step location (inContent [] nodes draft target) .stop =
              (store draft nodes target).map fun draft => .next (.mapper draft) :=
            map_map_store draft nodes target
          exact run_of_step stops more

/-! ## Content of a mapper -/

/-- Text does not matter where the reader goes on without it, whatever stands behind it. -/
theorem run_text {place : Place}
    (skips : ∀ content, step location place (.text content) = .ok (.next place))
    {text : List UInt8} (noTag : byte '<' ∉ text) (opened : List (List UInt8))
    (rest : List UInt8) :
    run location place (eventsFrom opened (text ++ rest)) =
      run location place (eventsFrom opened rest) := by
  have skipped (content : List UInt8) (events : List Event) :
      run location place (textEvents content ++ events) = run location place events := by
    unfold textEvents
    split
    · rfl
    · rw [List.singleton_append, run, skips]
  -- What stands behind the text may begin with text, and then both are one event.
  obtain ⟨ahead, rest, rfl, noTagAhead, ends⟩ := Markup.exists_text rest
  have both : byte '<' ∉ text ++ ahead := by
    rw [List.mem_append, not_or]
    exact ⟨noTag, noTagAhead⟩
  rw [← List.append_assoc, Markup.eventsFrom_plain both opened ends,
    Markup.eventsFrom_plain noTagAhead opened ends, skipped, skipped]

/-- An element in a mapper is read as a child. -/
theorem exists_child {tag : Tag} {element : List UInt8} (isElement : IsElement tag element)
    (location : String) :
    ∃ body, ∀ opened rest draft,
      (run location (.mapper draft) (eventsFrom opened (element ++ rest))).1 =
        (⟨tag, body⟩ : Child).read draft >>= fun draft =>
          (run location (.mapper draft) (eventsFrom opened rest)).1 := by
  cases isElement with
  | empty isItem =>
      refine ⟨.ok [], fun opened rest draft => ?_⟩
      rw [List.cons_append, isItem.eventsFrom_leaf rfl]
      exact run_empty tag _
  | filled opens closes balanced =>
      obtain ⟨events, closed, reads⟩ := balanced.exists_events
      obtain ⟨body, child⟩ := exists_run_element location tag closed
      refine ⟨body, fun opened rest draft => ?_⟩
      simp only [List.cons_append, List.append_assoc]
      rw [opens.eventsFrom_start, reads _ _ (Markup.isTextEnd_angle _), closes.eventsFrom_stop,
        child]

/-- Balanced content of a mapper is read as its children, one after the other. -/
theorem exists_children {content : List UInt8} (balanced : Balanced content) (location : String) :
    ∃ children, ∀ opened rest draft,
      (run location (.mapper draft) (eventsFrom opened (content ++ rest))).1 =
        Child.readAll children draft >>= fun draft =>
          (run location (.mapper draft) (eventsFrom opened rest)).1 := by
  have goOn {tag : Tag} {element behind : List UInt8} (isElement : IsElement tag element)
      (onward : ∃ children, ∀ opened rest draft,
        (run location (.mapper draft) (eventsFrom opened (behind ++ rest))).1 =
          Child.readAll children draft >>= fun draft =>
            (run location (.mapper draft) (eventsFrom opened rest)).1) :
      ∃ children, ∀ opened rest draft,
        (run location (.mapper draft) (eventsFrom opened (element ++ (behind ++ rest)))).1 =
          Child.readAll children draft >>= fun draft =>
            (run location (.mapper draft) (eventsFrom opened rest)).1 := by
    obtain ⟨body, child⟩ := exists_child isElement location
    obtain ⟨children, reads⟩ := onward
    refine ⟨⟨tag, body⟩ :: children, fun opened rest draft => ?_⟩
    rw [child, Child.readAll, bind_assoc]
    exact congrArg (Child.read ⟨tag, body⟩ draft >>= ·)
      (funext fun draft => reads opened rest draft)
  induction balanced with
  | nil => exact ⟨[], fun _ _ _ => rfl⟩
  | text noTag _ ih =>
      obtain ⟨children, reads⟩ := ih
      refine ⟨children, fun opened rest draft => ?_⟩
      rw [List.append_assoc, run_text (fun _ => rfl) noTag, reads]
  | @leaf inside behind item events isItem isLeaf _ ih =>
      simp only [List.cons_append, List.append_assoc]
      cases item with
      | empty tag => exact goOn (.empty isItem) ih
      | data content | skipped =>
          cases isLeaf
          obtain ⟨children, reads⟩ := ih
          refine ⟨children, fun opened rest draft => ?_⟩
          rw [isItem.eventsFrom_leaf rfl]
          exact reads opened rest draft
      | start tag | stop name | malformed => cases isLeaf
  | @element opening inner closing behind tag opens closes balanced _ _ ih =>
      have whole := goOn (.filled opens closes balanced) ih
      simpa only [List.cons_append, List.append_assoc] using whole

end Reader

end SqlTemplate
