import SqlTemplate.Catalogue.Doctype
import SqlTemplate.Catalogue.Event
import SqlTemplate.Catalogue.Tag

/-!
# Places in a document

A document is read token by token.  The reader knows where it stands and which elements are open
around it; a token takes it to another place, or breaks a rule.

Elements are nested and their tags agree.  Outside of all elements only blanks, comments,
instructions and, before the first element, one document type may stand.
-/

namespace SqlTemplate.Catalogue

set_option autoImplicit false

/-! ## Readers -/

/-- Which parts of a document have been met outside of elements. -/
inductive Stage where
  | opening
  | afterDoctype
  | afterElement
  deriving Repr, DecidableEq

/-- Where in a document the reader stands. -/
inductive Place where
  | text
  | reference (inside : String)
  | tag (part : TagPart)
  | closing (text : String)
  | afterClosing (name : Name)
  | comment
  | data
  | instructionName (text : String)
  | instruction
  | doctype (part : DoctypePart)
  deriving Repr, DecidableEq

/-- A reader: the edition of the rules, the entities declared so far, the parts of the document met
so far, the open elements from the inside outwards, and its place. -/
structure Reader where
  edition : Edition
  entities : Entities
  stage : Stage
  opened : List Tag
  place : Place

/-- What a token leads to: a reader, the events that the token completes, and a text that is read
before all else. -/
structure Progress where
  reader : Reader
  events : List Event
  insertion : String

namespace Reader

/-- The reader at the front of a document. -/
def start (edition : Edition) : Reader := ⟨edition, [], .opening, [], .text⟩

/-- Whether a document may end. -/
def isComplete (reader : Reader) : Bool :=
  reader.opened.isEmpty && reader.stage == .afterElement && reader.place == .text

/-- Goes on at a place. -/
def go (reader : Reader) (place : Place) : Progress := ⟨{ reader with place }, [], ""⟩

/-- The qualifiers bound inside the innermost open element. -/
def bound (reader : Reader) : List String := (reader.opened.head?.map Tag.bound).getD reserved

/-! ## Elements -/

/-- Goes on behind a start tag. -/
def openElement? (reader : Reader) (written : WrittenTag) (isEmpty : Bool) : Option Progress :=
  (written.meaning? reader.bound).map fun tag =>
    let name := tag.name.localPart
    let reader := { reader with place := .text }
    if isEmpty then ⟨reader, [.start name tag.attributes, .stop name], ""⟩
    else ⟨{ reader with opened := tag :: reader.opened }, [.start name tag.attributes], ""⟩

/-- Goes on behind a closing tag. -/
def closeElement? (reader : Reader) (name : Name) : Option Progress :=
  match reader.opened with
  | [] => none
  | innermost :: outer =>
      if name = innermost.name then
        some ⟨{ reader with opened := outer, place := .text }, [.stop name.localPart], ""⟩
      else none

/-! ## Tokens outside of tags -/

/-- Reads a token that begins markup. -/
def markupStep? (reader : Reader) (token : Token) : Option Progress :=
  match token with
  | .tagStart => some ({ reader with stage := .afterElement }.go (.tag (.tagName "")))
  | .commentStart => some (reader.go .comment)
  | .instructionStart => some (reader.go (.instructionName ""))
  | .doctypeStart =>
      if reader.stage = .opening then
        some ({ reader with stage := .afterDoctype }.go (.doctype .between))
      else none
  | _ => none

/-- Reads a token outside of all elements. -/
def outerStep? (reader : Reader) (token : Token) : Option Progress :=
  if token.isSpace then some (reader.go .text) else reader.markupStep? token

/-- Reads a token of the text of an element. -/
def innerStep? (reader : Reader) (token : Token) : Option Progress :=
  match token with
  | .character c => if reader.edition.hasPlain c then some (reader.go .text) else none
  | .closingStart => some (reader.go (.closing ""))
  | .dataStart => some (reader.go .data)
  | .referenceStart => some (reader.go (.reference ""))
  | .tagStart | .commentStart | .instructionStart => reader.markupStep? token
  | .doctypeStart | .declarationStart | .dataEnd => none
  | _ => some (reader.go .text)

/-- Reads a token of a reference in the text of an element; an entity is read as markup. -/
def referenceStep? (reader : Reader) (inside : String) (token : Token) : Option Progress :=
  match token with
  | .character c => some (reader.go (.reference (inside.push c)))
  | .referenceEnd =>
      (reader.entities.referent? reader.edition inside).map fun
        | .character _ => reader.go .text
        | .entity text => { reader.go .text with insertion := text }
  | _ => none

/-! ## Tokens of markup -/

/-- Reads a token of a start tag. -/
def tagStep? (reader : Reader) (part : TagPart) (token : Token) : Option Progress :=
  (part.step? reader.edition reader.entities token).bind fun
    | .next part => some (reader.go (.tag part))
    | .finished tag isEmpty => reader.openElement? tag isEmpty

/-- Reads a token of the name in a closing tag. -/
def closingStep? (reader : Reader) (text : String) (token : Token) : Option Progress :=
  if token.isSpace then (name? text.toList).map fun name => reader.go (.afterClosing name)
  else
    match token with
    | .character c => some (reader.go (.closing (text.push c)))
    | .tagEnd => (name? text.toList).bind reader.closeElement?
    | _ => none

/-- Reads a token of a comment, of character data or of an instruction, up to its end. -/
def passageStep? (reader : Reader) (ending token : Token) : Option Progress :=
  match token with
  | .character c => if reader.edition.has c then some (reader.go reader.place) else none
  | token => some (reader.go (if token = ending then .text else reader.place))

/-- Reads a token of the name of an instruction.  A name must not be that of the declaration; it may
be missing if a blank stands in its place. -/
def instructionNameStep? (reader : Reader) (text : String) (token : Token) : Option Progress :=
  let isRight := isPlainName text.toList && text.toLower != "xml"
  if token.isSpace then
    if isRight || text.isEmpty then some (reader.go .instruction) else none
  else
    match token with
    | .character c => some (reader.go (.instructionName (text.push c)))
    | .instructionEnd => if isRight then some (reader.go .text) else none
    | _ => none

/-- Reads a token of the type of the document. -/
def doctypeStep? (reader : Reader) (part : DoctypePart) (token : Token) : Option Progress :=
  (part.step? reader.edition reader.entities token).map fun
    | .next part => reader.go (.doctype part)
    | .declared name text =>
        { reader with entities := reader.entities.declare name text }.go (.doctype .skipped)
    | .expanded text => { reader.go (.doctype .between) with insertion := text }
    | .finished => reader.go .text

/-- Reads a token. -/
def step? (reader : Reader) (token : Token) : Option Progress :=
  match reader.place with
  | .text => if reader.opened.isEmpty then reader.outerStep? token else reader.innerStep? token
  | .reference inside => reader.referenceStep? inside token
  | .tag part => reader.tagStep? part token
  | .closing text => reader.closingStep? text token
  | .afterClosing name =>
      if token.isSpace then some (reader.go reader.place)
      else if token = .tagEnd then reader.closeElement? name
      else none
  | .comment => reader.passageStep? .commentEnd token
  | .data => reader.passageStep? .dataEnd token
  | .instructionName text => reader.instructionNameStep? text token
  | .instruction => reader.passageStep? .instructionEnd token
  | .doctype part => reader.doctypeStep? part token

end Reader

end SqlTemplate.Catalogue
