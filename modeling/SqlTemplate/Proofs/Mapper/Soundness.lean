import SqlTemplate.Mapper.Reader
import SqlTemplate.Proofs.Markup.Nesting
import SqlTemplate.Proofs.Template.Expansion

/-!
# What reading keeps sound

Wherever a reader stands in a document, what it has read so far is sound: the namespace and the
identifiers of statements are labels, the identifiers are distinct, and every text node is one that
reading makes.  `Place.IsSound` says so for a place, with all the nodes that wait in open elements
for the rest of their content.

One event takes a sound place to a sound place (`Reader.step_isSound`), so a mapper that is finished
is sound, whatever the events were (`Reader.run_isSound`, `Reader.run_prolog_isSound`).
-/

namespace SqlTemplate

set_option autoImplicit false

open Markup (Event OpensFirst Tag)
open Outcome

/-! ## Sound drafts and places -/

/-- Nodes with sound texts at every depth. -/
abbrev HaveSoundTexts (nodes : List Node) : Prop := everywhere Node.HasSoundText nodes

namespace Draft

/-- The identifiers of the statements of a draft. -/
def ids (draft : Draft) : List String := draft.statements.map fun entry => entry.1.id

/-- A draft whose names are labels, whose statements have distinct identifiers, and whose texts are
sound. -/
structure IsSound (draft : Draft) : Prop where
  namespaceName : Text.IsLabel draft.namespaceName
  labels : ∀ id ∈ draft.ids, Text.IsLabel id
  distinct : draft.ids.Nodup
  statements : ∀ head nodes, (head, nodes) ∈ draft.statements → HaveSoundTexts nodes
  fragments : ∀ id nodes, (id, nodes) ∈ draft.fragments → HaveSoundTexts nodes

theorem hasStatement_eq_false_iff {draft : Draft} {id : String} :
    draft.hasStatement id = false ↔ id ∉ draft.ids := by
  simp [hasStatement, ids]

theorem hasFragment_eq_false_iff {draft : Draft} {id : String} :
    draft.hasFragment id = false ↔ id ∉ draft.fragments.map Prod.fst := by
  rw [hasFragment, List.any_eq_false, List.mem_map]
  constructor
  · rintro none ⟨⟨other, nodes⟩, listed, rfl⟩
    exact none _ listed (beq_self_eq_true other)
  · rintro absent ⟨other, nodes⟩ listed same
    exact absent ⟨_, listed, eq_of_beq same⟩

theorem empty_isSound {namespaceName : String} (label : Text.IsLabel namespaceName) :
    (empty namespaceName).IsSound where
  namespaceName := label
  labels := fun _ listed => absurd listed List.not_mem_nil
  distinct := List.nodup_nil
  statements := fun _ _ listed => absurd listed List.not_mem_nil
  fragments := fun _ _ listed => absurd listed List.not_mem_nil

end Draft

/-- A target that the draft can take: a statement has a label that is not taken yet. -/
def Target.IsFresh (draft : Draft) : Target → Prop
  | .statement head => Text.IsLabel head.id ∧ head.id ∉ draft.ids
  | .fragment _ => True

/-- A choice in which all nodes read so far have sound texts. -/
structure OpenChoice.IsSound (choice : OpenChoice) : Prop where
  before : HaveSoundTexts choice.before
  branches : everywhereInBranches Node.HasSoundText choice.branches
  otherwise : everywhereInOtherwise Node.HasSoundText choice.otherwise

/-- An open element around which all nodes read so far have sound texts. -/
def Frame.IsSound : Frame → Prop
  | .element _ before => HaveSoundTexts before
  | .branch _ choice => choice.IsSound
  | .otherwise choice => choice.IsSound

/-- A place inside a mapper at which all that is read so far is sound. -/
def Place.IsSound : Place → Prop
  | .prolog => False
  | .mapper draft => draft.IsSound
  | .content draft target frames nodes =>
      draft.IsSound ∧ target.IsFresh draft ∧ (∀ frame ∈ frames, frame.IsSound) ∧
        HaveSoundTexts nodes
  | .choice draft target frames parts =>
      draft.IsSound ∧ target.IsFresh draft ∧ (∀ frame ∈ frames, frame.IsSound) ∧ parts.IsSound
  | .skipped _ after => after.IsSound

/-- Progress that leads to something sound. -/
def Progress.IsSound : Progress → Prop
  | .next place => place.IsSound
  | .finished draft => draft.IsSound

/-! ## Attributes -/

/-- An attribute that has to be there gives a label. -/
theorem requiredAttribute_isLabel {tag : Tag} {key text : String}
    (given : requiredAttribute tag key = .ok text) : Text.IsLabel text := by
  obtain ⟨value, present, equal⟩ := bind_eq_ok_iff.mp given
  cases value with
  | none => cases equal
  | some value =>
      cases equal
      obtain ⟨found, _, filtered⟩ := map_eq_ok_iff.mp present
      obtain ⟨_, notBlank⟩ := Option.filter_eq_some_iff.mp filtered
      exact Text.trimmed_isLabel (by simpa using notBlank)

/-! ## Elements that open and close -/

theorem Element.node_everywhere {element : Element} {body : List Node} :
    (element.node body).Everywhere Node.HasSoundText ↔ HaveSoundTexts body := by
  cases element <;> simp [Element.node, Node.Everywhere, Node.HasSoundText]

namespace Reader

variable {location : String} {draft : Draft} {target : Target} {frames : List Frame}
  {nodes : List Node} {choice : OpenChoice}

/-- Storing a fresh target with sound texts keeps the draft sound. -/
theorem store_isSound {stored : Draft} (sound : draft.IsSound) (fresh : target.IsFresh draft)
    (texts : HaveSoundTexts nodes) (stores : store draft nodes target = .ok stored) :
    stored.IsSound := by
  cases target with
  | statement head =>
      obtain ⟨label, absent⟩ := fresh
      cases stores
      have ids : ({ draft with statements := draft.statements ++ [(head, nodes)] } : Draft).ids =
          draft.ids ++ [head.id] := by
        simp [Draft.ids]
      refine ⟨sound.namespaceName, ?_, ?_, ?_, sound.fragments⟩
      · rw [ids]
        intro id listed
        rcases List.mem_append.mp listed with before | last
        · exact sound.labels id before
        · rw [List.mem_singleton.mp last]
          exact label
      · rw [ids, List.nodup_append]
        refine ⟨sound.distinct, by simp, fun left before right last same => ?_⟩
        rw [same, List.mem_singleton.mp last] at before
        exact absent before
      · intro other body listed
        rcases List.mem_append.mp listed with before | last
        · exact sound.statements other body before
        · cases List.mem_singleton.mp last
          exact texts
  | fragment id =>
      rw [store] at stores
      split at stores
      · cases stores
      · cases stores
        refine ⟨sound.namespaceName, sound.labels, sound.distinct, sound.statements, ?_⟩
        intro other body listed
        rcases List.mem_append.mp listed with before | last
        · exact sound.fragments other body before
        · cases List.mem_singleton.mp last
          exact texts

theorem openMapper_isSound {tag : Tag} (opens : openMapper location tag = .ok draft) :
    draft.IsSound := by
  rw [openMapper] at opens
  split at opens
  · obtain ⟨namespaceName, given, equal⟩ := bind_eq_ok_iff.mp opens
    cases equal
    exact Draft.empty_isSound (requiredAttribute_isLabel given)
  · cases opens

/-- The head of a statement has a label that is not taken. -/
theorem statementHead_isFresh {kind : StatementKind} {tag : Tag} {head : StatementHead}
    (reads : statementHead draft kind tag = .ok head) :
    Target.IsFresh draft (.statement head) := by
  obtain ⟨id, given, rest⟩ := bind_eq_ok_iff.mp reads
  split at rest
  · cases rest
  · rename_i absent
    obtain ⟨parameterType, _, rest⟩ := bind_eq_ok_iff.mp rest
    obtain ⟨resultType, _, rest⟩ := bind_eq_ok_iff.mp rest
    obtain ⟨resultMap, _, equal⟩ := bind_eq_ok_iff.mp rest
    cases equal
    exact ⟨requiredAttribute_isLabel given,
      Draft.hasStatement_eq_false_iff.mp (Bool.not_eq_true _ ▸ absent)⟩

theorem target?_isFresh {tag : Tag} (reads : target? draft tag = .ok (some target)) :
    target.IsFresh draft := by
  rw [target?] at reads
  split at reads
  · obtain ⟨head, given, equal⟩ := map_eq_ok_iff.mp reads
    cases equal
    exact statementHead_isFresh given
  · split at reads
    · obtain ⟨id, _, equal⟩ := map_eq_ok_iff.mp reads
      cases equal
      exact trivial
    · split at reads <;> cases reads

theorem openChild_isSound {tag : Tag} {isEmpty : Bool} {place : Place} (sound : draft.IsSound)
    (opens : openChild draft tag isEmpty = .ok place) : place.IsSound := by
  obtain ⟨found, given, opens⟩ := bind_eq_ok_iff.mp opens
  cases found with
  | none =>
      cases opens
      split <;> exact sound
  | some target =>
      have fresh := target?_isFresh given
      cases isEmpty with
      | true =>
          obtain ⟨stored, stores, equal⟩ := map_eq_ok_iff.mp opens
          cases equal
          have noTexts : HaveSoundTexts [] := trivial
          exact store_isSound sound fresh noTexts stores
      | false =>
          cases opens
          exact ⟨sound, fresh, fun _ listed => absurd listed List.not_mem_nil, trivial⟩

theorem openNode_isSound {tag : Tag} {isEmpty : Bool} {place : Place}
    (sound : (Place.content draft target frames nodes).IsSound)
    (opens : openNode location draft target frames nodes tag isEmpty = .ok place) :
    place.IsSound := by
  obtain ⟨draftSound, fresh, framesSound, texts⟩ := sound
  obtain ⟨read, _, opens⟩ := bind_eq_ok_iff.mp opens
  have extended {node : Node} (here : node.Everywhere Node.HasSoundText) :
      (Place.content draft target frames (nodes ++ [node])).IsSound :=
    ⟨draftSound, fresh, framesSound,
      everywhere_append.mpr ⟨texts, everywhere_singleton.mpr here⟩⟩
  cases read with
  | element element =>
      cases opens
      split
      · exact extended (Element.node_everywhere.mpr trivial)
      · exact ⟨draftSound, fresh, List.forall_mem_cons.mpr ⟨texts, framesSound⟩, trivial⟩
  | choice =>
      cases opens
      split
      · exact extended ⟨trivial, trivial, trivial⟩
      · exact ⟨draftSound, fresh, framesSound, texts, trivial, trivial⟩
  | reference name =>
      cases opens
      split <;> exact extended trivial

theorem openBranch_isSound {tag : Tag} {isEmpty : Bool} {place : Place}
    (sound : (Place.choice draft target frames choice).IsSound)
    (opens : openBranch location draft target frames choice tag isEmpty = .ok place) :
    place.IsSound := by
  obtain ⟨draftSound, fresh, framesSound, choiceSound⟩ := sound
  rw [openBranch.eq_def] at opens
  split at opens
  · obtain ⟨test, _, equal⟩ := bind_eq_ok_iff.mp opens
    cases equal
    split
    · refine ⟨draftSound, fresh, framesSound, choiceSound.before, ?_, choiceSound.otherwise⟩
      exact everywhereInBranches_append.mpr ⟨choiceSound.branches, trivial, trivial⟩
    · exact ⟨draftSound, fresh, List.forall_mem_cons.mpr ⟨choiceSound, framesSound⟩, trivial⟩
  · split at opens
    · cases opens
    · cases opens
      split
      · exact ⟨draftSound, fresh, framesSound, choiceSound.before, choiceSound.branches, trivial⟩
      · exact ⟨draftSound, fresh, List.forall_mem_cons.mpr ⟨choiceSound, framesSound⟩, trivial⟩
  · cases opens

theorem closeContent_isSound {place : Place}
    (sound : (Place.content draft target frames nodes).IsSound)
    (closes : closeContent draft target nodes frames = .ok place) : place.IsSound := by
  obtain ⟨draftSound, fresh, framesSound, texts⟩ := sound
  cases frames with
  | nil =>
      obtain ⟨stored, stores, equal⟩ := map_eq_ok_iff.mp closes
      cases equal
      exact store_isSound draftSound fresh texts stores
  | cons frame frames =>
      have ⟨here, outer⟩ := List.forall_mem_cons.mp framesSound
      cases frame with
      | element element before =>
          cases closes
          exact ⟨draftSound, fresh, outer, everywhere_append.mpr
            ⟨here, everywhere_singleton.mpr (Element.node_everywhere.mpr texts)⟩⟩
      | branch test choice =>
          cases closes
          exact ⟨draftSound, fresh, outer, here.before,
            everywhereInBranches_append.mpr ⟨here.branches, texts, trivial⟩, here.otherwise⟩
      | otherwise choice =>
          cases closes
          exact ⟨draftSound, fresh, outer, here.before, here.branches, texts⟩

/-! ## Text -/

/-- Text of a document makes sound nodes, if it makes nodes. -/
theorem textNodes_haveSoundTexts {make : String → Except ConfigFault TextNode} {text : String}
    {more : List Node} (makes : ∀ node, make text = .ok node → TextNode.MadeOf text node)
    (reads : textNodes make text = .ok more) : HaveSoundTexts more := by
  rw [textNodes] at reads
  split at reads
  · cases reads
    exact trivial
  · rename_i notBlank
    split at reads
    · rename_i node made
      cases reads
      exact ⟨(makes node made).isSound (Bool.not_eq_true _ ▸ notBlank), trivial⟩
    · cases reads

theorem flowingNodes_haveSoundTexts {content : List UInt8} {more : List Node}
    (reads : flowingNodes location content = .ok more) : HaveSoundTexts more := by
  rw [flowingNodes] at reads
  split at reads
  · exact textNodes_haveSoundTexts (fun _ made => .inl made) reads
  · cases reads

theorem verbatimNodes_haveSoundTexts {content : List UInt8} {more : List Node}
    (reads : verbatimNodes content = .ok more) : HaveSoundTexts more :=
  textNodes_haveSoundTexts (fun _ made => .inr made) reads

/-! ## Events -/

theorem contentStep_isSound {event : Event} {place : Place}
    (sound : (Place.content draft target frames nodes).IsSound)
    (steps : contentStep location draft target frames nodes event = .ok place) :
    place.IsSound := by
  have extended {more : List Node} (texts : HaveSoundTexts more) :
      (Place.content draft target frames (nodes ++ more)).IsSound :=
    ⟨sound.1, sound.2.1, sound.2.2.1, everywhere_append.mpr ⟨sound.2.2.2, texts⟩⟩
  cases event with
  | start tag => exact openNode_isSound sound steps
  | empty tag => exact openNode_isSound sound steps
  | stop => exact closeContent_isSound sound steps
  | text content =>
      obtain ⟨more, reads, equal⟩ := bind_eq_ok_iff.mp steps
      cases equal
      exact extended (flowingNodes_haveSoundTexts reads)
  | data content =>
      obtain ⟨more, reads, equal⟩ := bind_eq_ok_iff.mp steps
      cases equal
      exact extended (verbatimNodes_haveSoundTexts reads)
  | fault => cases steps

theorem choiceStep_isSound {event : Event} {place : Place}
    (sound : (Place.choice draft target frames choice).IsSound)
    (steps : choiceStep location draft target frames choice event = .ok place) :
    place.IsSound := by
  cases event with
  | start tag => exact openBranch_isSound sound steps
  | empty tag => exact openBranch_isSound sound steps
  | stop =>
      obtain ⟨draftSound, fresh, framesSound, choiceSound⟩ := sound
      cases steps
      exact ⟨draftSound, fresh, framesSound, everywhere_append.mpr
        ⟨choiceSound.before, ⟨trivial, choiceSound.branches, choiceSound.otherwise⟩, trivial⟩⟩
  | text content =>
      rw [choiceStep] at steps
      split at steps
      · cases steps
        exact sound
      · cases steps
  | data content => cases steps
  | fault => cases steps

theorem skippedStep_isSound {depth : Nat} {after place : Place} {event : Event}
    (sound : after.IsSound) (steps : skippedStep location depth after event = .ok place) :
    place.IsSound := by
  cases event with
  | stop =>
      cases steps
      cases depth with
      | zero => exact sound
      | succ depth => exact sound
  | fault => cases steps
  | start tag | empty tag | text content | data content =>
      cases steps
      exact sound

/-- One event takes a sound place to a sound one. -/
theorem step_isSound {place : Place} {event : Event} {progress : Progress} (sound : place.IsSound)
    (steps : step location place event = .ok progress) : progress.IsSound := by
  cases place with
  | prolog => exact False.elim sound
  | mapper draft =>
      cases event with
      | start tag | empty tag =>
          obtain ⟨place, opens, equal⟩ := map_eq_ok_iff.mp steps
          cases equal
          exact openChild_isSound sound opens
      | stop | text content | data content =>
          cases steps
          exact sound
      | fault => cases steps
  | content draft target frames nodes =>
      obtain ⟨place, reads, equal⟩ := map_eq_ok_iff.mp steps
      cases equal
      exact contentStep_isSound sound reads
  | choice draft target frames choice =>
      obtain ⟨place, reads, equal⟩ := map_eq_ok_iff.mp steps
      cases equal
      exact choiceStep_isSound sound reads
  | skipped depth after =>
      obtain ⟨place, reads, equal⟩ := map_eq_ok_iff.mp steps
      cases equal
      have afterSound : after.IsSound := sound
      exact skippedStep_isSound afterSound reads

/-- The outermost element makes a sound draft. -/
theorem step_prolog_isSound {event : Event} {tag : Tag} {progress : Progress}
    (opens : event = .start tag ∨ event = .empty tag)
    (steps : step location .prolog event = .ok progress) : progress.IsSound := by
  rcases opens with rfl | rfl
  all_goals
    obtain ⟨draft, opened, rfl⟩ := map_eq_ok_iff.mp steps
    exact openMapper_isSound opened

/-! ## Runs -/

/-- A run finishes with its first event or with what comes later. -/
theorem run_cons_isSound {place : Place} {event : Event} {events : List Event}
    (first : ∀ progress, step location place event = .ok progress → progress.IsSound)
    (later : ∀ next : Place, next.IsSound → (run location next events).1 = .ok draft →
      draft.IsSound)
    (finishes : (run location place (event :: events)).1 = .ok draft) : draft.IsSound := by
  rw [run] at finishes
  split at finishes
  · rename_i next steps
    exact later next (first _ steps) finishes
  · rename_i finished steps
    cases finishes
    exact first _ steps
  · cases finishes

/-- What is finished from a sound place is sound, whatever events come. -/
theorem run_isSound {place : Place} {events : List Event} (sound : place.IsSound)
    (finishes : (run location place events).1 = .ok draft) : draft.IsSound := by
  induction events generalizing place with
  | nil => cases finishes
  | cons event events ih =>
      exact run_cons_isSound (fun _ => step_isSound sound) (fun _ nextSound => ih nextSound)
        finishes

/-- A mapper that is read from its start is sound if the events open a tag before they close one.
Otherwise it may be finished by a closing tag before it has a name. -/
theorem run_prolog_isSound {events : List Event} (opens : OpensFirst events)
    (finishes : (run location .prolog events).1 = .ok draft) : draft.IsSound := by
  induction events with
  | nil => cases finishes
  | cons event events ih =>
      cases event with
      | start tag =>
          exact run_cons_isSound (fun _ => step_prolog_isSound (.inl rfl))
            (fun _ nextSound => run_isSound nextSound) finishes
      | empty tag =>
          exact run_cons_isSound (fun _ => step_prolog_isSound (.inr rfl))
            (fun _ nextSound => run_isSound nextSound) finishes
      | stop =>
          obtain ⟨tag, member⟩ := opens [] events rfl
          cases member
      | text content => exact ih (opens.tail fun _ same => by cases same) finishes
      | data content => exact ih (opens.tail fun _ same => by cases same) finishes
      | fault => cases finishes

end Reader

end SqlTemplate
