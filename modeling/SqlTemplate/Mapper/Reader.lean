import SqlTemplate.LoadError
import SqlTemplate.Mapper.Draft
import SqlTemplate.Markup.Event

/-!
# Reading mappers from events

A mapper document is read event by event.  The reader knows where in the document it stands; an
event takes it to another place, finishes the mapper, or is a fault.

Inside a statement or a fragment the place is given by the nodes written so far in the innermost
open element and by a frame for each element around it, which says what becomes of the nodes when
the element ends.

`Reader.run` goes on until a mapper is finished or a fault is met, and gives back the events that
are left; so a document may hold several mappers one after the other.
-/

namespace SqlTemplate

set_option autoImplicit false

open Markup (Event Tag)

/-! ## Elements and places -/

/-- An element of a template whose content are nodes. -/
inductive Element where
  | conditional (test : String)
  | whereClause
  | setClause
  | trim (trimming : Trimming)
  | foreach (loop : Loop)
  deriving Repr, DecidableEq

namespace Element

/-- The name of an element. -/
def tag : Element → String
  | conditional _ => "if"
  | whereClause => "where"
  | setClause => "set"
  | trim _ => "trim"
  | foreach _ => "foreach"

/-- The node that an element with this content is. -/
def node (body : List Node) : Element → Node
  | conditional test => .conditional test body
  | whereClause => .whereClause body
  | setClause => .setClause body
  | trim trimming => .trim trimming body
  | foreach loop => .foreach loop body

end Element

/-- A choice that is being read: the nodes before it, and what it holds so far. -/
structure OpenChoice where
  before : List Node
  branches : List (String × List Node)
  otherwise : Option (List Node)

/-- An open element inside a statement or a fragment. -/
inductive Frame where
  | element (opened : Element) (before : List Node)
  | branch (test : String) (choice : OpenChoice)
  | otherwise (choice : OpenChoice)

/-- The name of an open element. -/
def Frame.tag : Frame → String
  | element opened _ => opened.tag
  | branch _ _ => "when"
  | otherwise _ => "otherwise"

/-- What the nodes that are being read belong to. -/
inductive Target where
  | statement (head : StatementHead)
  | fragment (id : String)
  deriving Repr, DecidableEq

/-- The name of the element that holds a statement or a fragment. -/
def Target.tag : Target → String
  | statement head => head.kind.name
  | fragment _ => "sql"

/-- Where in a document the reader stands. -/
inductive Place where
  | prolog
  | mapper (draft : Draft)
  | content (draft : Draft) (target : Target) (frames : List Frame) (nodes : List Node)
  | choice (draft : Draft) (target : Target) (frames : List Frame) (choice : OpenChoice)
  | skipped (depth : Nat) (after : Place)

/-- What an event leads to. -/
inductive Progress where
  | next (place : Place)
  | finished (draft : Draft)

/-! ## Attributes -/

/-- The value of an attribute, if it is there. -/
def attribute? (tag : Tag) (key : String) : Except LoadError (Option String) :=
  match tag.find key with
  | .value text => .ok (some text)
  | .absent => .ok none
  | .malformed => .error (.malformed tag.text)

/-- The value of an attribute, or the empty text. -/
def attributeText (tag : Tag) (key : String) : Except LoadError String :=
  (attribute? tag key).map fun value => value.getD ""

/-- The value of an attribute that may be missing or blank. -/
def attributeName? (tag : Tag) (key : String) : Except LoadError (Option String) :=
  (attribute? tag key).map fun value => value.filter fun text => !Text.isAllBlank text

/-- The value of an attribute that has to be there and not blank; the blanks at its ends go. -/
def requiredAttribute (tag : Tag) (key : String) : Except LoadError String := do
  match ← attributeName? tag key with
  | some text => .ok (Text.trimmed text)
  | none => .error (.config (.missingAttribute tag.text key))

/-! ## Elements that open -/

namespace Reader

/-- A draft with a finished statement or fragment. -/
def store (draft : Draft) (nodes : List Node) : Target → Except LoadError Draft
  | .statement head => .ok { draft with statements := draft.statements ++ [(head, nodes)] }
  | .fragment id =>
      if draft.hasFragment id then
        .error (.config (.duplicateFragment (statementKey draft.namespaceName id)))
      else .ok { draft with fragments := draft.fragments ++ [(id, nodes)] }

/-- The outermost element of a document. -/
def openMapper (location : String) (tag : Tag) : Except LoadError Draft := do
  if tag.text = "mapper" then
    let namespaceName ← requiredAttribute tag "namespace"
    .ok (.empty namespaceName)
  else .error (.config (.notAMapper location tag.text))

/-- The head of the statement that an element holds. -/
def statementHead (draft : Draft) (kind : StatementKind) (tag : Tag) :
    Except LoadError StatementHead := do
  let id ← requiredAttribute tag "id"
  if draft.hasStatement id then
    .error (.config (.duplicateStatement (statementKey draft.namespaceName id)))
  else
    let parameterType ← attribute? tag "parameterType"
    let resultType ← attribute? tag "resultType"
    let resultMap ← attribute? tag "resultMap"
    .ok ⟨id, kind, parameterType, resultType, resultMap⟩

/-- The elements of a mapper that carry no meaning here. -/
def skippedTags : List String := ["resultMap", "parameterMap", "cache", "cache-ref"]

/-- What an element directly inside the mapper holds, or nothing if it is skipped. -/
def target? (draft : Draft) (tag : Tag) : Except LoadError (Option Target) :=
  match StatementKind.ofTag? tag.text with
  | some kind => (statementHead draft kind tag).map fun head => some (.statement head)
  | none =>
      if tag.text = "sql" then
        (requiredAttribute tag "id").map fun id => some (.fragment id)
      else if tag.text ∈ skippedTags then .ok none
      else .error (.config (.unsupportedElement tag.text draft.namespaceName))

/-- An element directly inside the mapper. -/
def openChild (draft : Draft) (tag : Tag) (isEmpty : Bool) : Except LoadError Place := do
  match ← target? draft tag with
  | some target =>
      if isEmpty then (store draft [] target).map .mapper
      else .ok (.content draft target [] [])
  | none => .ok (if isEmpty then .mapper draft else .skipped 0 (.mapper draft))

/-- What an element inside a statement or a fragment is. -/
inductive Opened where
  | element (element : Element)
  | choice
  | reference (name : String)

/-- Reads the tag of an element inside a statement or a fragment. -/
def opened (location : String) (tag : Tag) : Except LoadError Opened := do
  match tag.text with
  | "if" =>
      let test ← attributeText tag "test"
      .ok (.element (.conditional (Text.trimmed test)))
  | "where" => .ok (.element .whereClause)
  | "set" => .ok (.element .setClause)
  | "trim" =>
      let opening ← attributeText tag "prefix"
      let openingOverrides ← attributeText tag "prefixOverrides"
      let ending ← attributeText tag "suffix"
      let endingOverrides ← attributeText tag "suffixOverrides"
      .ok (.element (.trim
        ⟨opening, Clause.overrides openingOverrides, ending, Clause.overrides endingOverrides⟩))
  | "foreach" =>
      let collection ← requiredAttribute tag "collection"
      let item ← attributeName? tag "item"
      let index ← attributeName? tag "index"
      let opening ← attributeText tag "open"
      let separator ← attributeText tag "separator"
      let closing ← attributeText tag "close"
      .ok (.element (.foreach ⟨collection, item, index, opening, separator, closing⟩))
  | "choose" => .ok .choice
  | "include" =>
      let name ← requiredAttribute tag "refid"
      .ok (.reference name)
  | name =>
      if name = "when" ∨ name = "otherwise" then
        .error (.config (.branchOutsideChoice location name))
      else .error (.config (.unsupportedTag location name))

/-- An element inside a statement or a fragment. -/
def openNode (location : String) (draft : Draft) (target : Target) (frames : List Frame)
    (nodes : List Node) (tag : Tag) (isEmpty : Bool) : Except LoadError Place := do
  match ← opened location tag with
  | .element element =>
      .ok (if isEmpty then .content draft target frames (nodes ++ [element.node []])
        else .content draft target (.element element nodes :: frames) [])
  | .choice =>
      .ok (if isEmpty then .content draft target frames (nodes ++ [.choice [] none])
        else .choice draft target frames ⟨nodes, [], none⟩)
  | .reference name =>
      let place := Place.content draft target frames (nodes ++ [.reference name])
      .ok (if isEmpty then place else .skipped 0 place)

/-- An element directly inside a choice. -/
def openBranch (location : String) (draft : Draft) (target : Target) (frames : List Frame)
    (choice : OpenChoice) (tag : Tag) (isEmpty : Bool) : Except LoadError Place := do
  match tag.text with
  | "when" =>
      let test ← requiredAttribute tag "test"
      .ok (if isEmpty then
          .choice draft target frames
            { choice with branches := choice.branches ++ [(test, [])] }
        else .content draft target (.branch test choice :: frames) [])
  | "otherwise" =>
      if choice.otherwise.isSome then .error (.config (.secondOtherwise location))
      else
        .ok (if isEmpty then .choice draft target frames { choice with otherwise := some [] }
          else .content draft target (.otherwise choice :: frames) [])
  | name => .error (.config (.notABranch location name))

/-! ## Content and elements that close -/

/-- The end of the innermost element of nodes. -/
def closeContent (draft : Draft) (target : Target) (nodes : List Node) :
    List Frame → Except LoadError Place
  | [] => (store draft nodes target).map .mapper
  | .element element before :: frames =>
      .ok (.content draft target frames (before ++ [element.node nodes]))
  | .branch test choice :: frames =>
      .ok (.choice draft target frames
        { choice with branches := choice.branches ++ [(test, nodes)] })
  | .otherwise choice :: frames =>
      .ok (.choice draft target frames { choice with otherwise := some nodes })

/-- The node of a text, if the text is not blank. -/
def textNodes (make : String → Except ConfigFault TextNode) (text : String) :
    Except LoadError (List Node) :=
  if Text.isAllBlank text then .ok []
  else
    match make text with
    | .ok node => .ok [.text node]
    | .error cause => .error (.config cause)

/-- The nodes of text between tags. -/
def flowingNodes (location : String) (content : List UInt8) : Except LoadError (List Node) :=
  match Markup.readText? content with
  | some text => textNodes TextNode.flowing text
  | none => .error (.malformed location)

/-- The nodes of character data. -/
def verbatimNodes (content : List UInt8) : Except LoadError (List Node) :=
  textNodes TextNode.verbatim (Text.decodeLeniently content)

/-! ## Events -/

/-- What an event leads to at a place in the content of a statement or a fragment. -/
def contentStep (location : String) (draft : Draft) (target : Target) (frames : List Frame)
    (nodes : List Node) : Event → Except LoadError Place
  | .start tag => openNode location draft target frames nodes tag false
  | .empty tag => openNode location draft target frames nodes tag true
  | .stop => closeContent draft target nodes frames
  | .text content => do
      let more ← flowingNodes location content
      .ok (.content draft target frames (nodes ++ more))
  | .data content => do
      let more ← verbatimNodes content
      .ok (.content draft target frames (nodes ++ more))
  | .fault => .error (.malformed location)

/-- What an event leads to directly inside a choice. -/
def choiceStep (location : String) (draft : Draft) (target : Target) (frames : List Frame)
    (choice : OpenChoice) : Event → Except LoadError Place
  | .start tag => openBranch location draft target frames choice tag false
  | .empty tag => openBranch location draft target frames choice tag true
  | .stop =>
      .ok (.content draft target frames
        (choice.before ++ [.choice choice.branches choice.otherwise]))
  | .text content =>
      if content.all Markup.isAsciiBlank then .ok (.choice draft target frames choice)
      else .error (.config (.textInChoice location))
  | .data _ => .error (.config (.textInChoice location))
  | .fault => .error (.malformed location)

/-- What an event leads to inside a skipped element with this many open elements in it. -/
def skippedStep (location : String) (depth : Nat) (after : Place) :
    Event → Except LoadError Place
  | .start _ => .ok (.skipped (depth + 1) after)
  | .stop =>
      .ok (match depth with
        | 0 => after
        | depth + 1 => .skipped depth after)
  | .fault => .error (.malformed location)
  | _ => .ok (.skipped depth after)

/-- What an event leads to. -/
def step (location : String) : Place → Event → Except LoadError Progress
  | .prolog, .start tag => (openMapper location tag).map fun draft => .next (.mapper draft)
  | .prolog, .empty tag => (openMapper location tag).map .finished
  | .prolog, .stop => .ok (.finished (.empty ""))
  | .prolog, .fault => .error (.malformed location)
  | .prolog, _ => .ok (.next .prolog)
  | .mapper draft, .start tag => (openChild draft tag false).map .next
  | .mapper draft, .empty tag => (openChild draft tag true).map .next
  | .mapper draft, .stop => .ok (.finished draft)
  | .mapper _, .fault => .error (.malformed location)
  | .mapper draft, _ => .ok (.next (.mapper draft))
  | .content draft target frames nodes, event =>
      (contentStep location draft target frames nodes event).map .next
  | .choice draft target frames choice, event =>
      (choiceStep location draft target frames choice event).map .next
  | .skipped depth after, event => (skippedStep location depth after event).map .next

/-- The fault of a document that ends at a place. -/
def endFault (location : String) : Place → LoadError
  | .prolog => .config (.noMapper location)
  | .mapper _ => .truncated location none
  | .content _ target [] _ => .truncated location (some target.tag)
  | .content _ _ (frame :: _) _ => .truncated location (some frame.tag)
  | .choice .. => .truncated location (some "choose")
  | .skipped .. => .truncated location none

/-- Reads on from a place until a mapper is finished or a fault is met; the events that are left
come with the result. -/
def run (location : String) : Place → List Event → Except LoadError Draft × List Event
  | place, [] => (.error (endFault location place), [])
  | place, event :: events =>
      match step location place event with
      | .ok (.next place) => run location place events
      | .ok (.finished draft) => (.ok draft, events)
      | .error cause => (.error cause, events)

end Reader

/-! ## Mappers -/

namespace Mapper

/-- The depth to which references may go unless something else is asked for. -/
def defaultDepth : Nat := 8

/-- The location of a document that comes from memory. -/
def memory : String := "<memory>"

/-- Reads the next mapper of a document; the events that are left come with the result. -/
def next (location : String) (depth : Nat) (events : List Event) :
    Except LoadError Mapper × List Event :=
  let (draft, rest) := Reader.run location .prolog events
  (draft.bind fun draft => (draft.finish location depth).mapError LoadError.config, rest)

/-- Reads the mapper of a document. -/
def read (location : String) (depth : Nat) (document : List UInt8) : Except LoadError Mapper :=
  (next location depth (Markup.events document)).1

end Mapper

end SqlTemplate
