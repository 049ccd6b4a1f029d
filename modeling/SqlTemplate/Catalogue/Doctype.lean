import SqlTemplate.Catalogue.Entity
import SqlTemplate.Catalogue.Token

/-!
# The type of a document

The type of a document matters for the entities that it declares.  All else in it is passed over:
comments, quoted texts, and declarations of other kinds up to their ends.

The text of an entity is taken as it stands, except for numbers of characters and entities that are
only for use inside the document type; these are put in at once.  An entity whose text is kept
elsewhere has an empty text.

Instructions are no more than the tokens between declarations: a quote in them opens a text, and a
reference in them counts.  Whether the semicolon behind a reference is a mark depends on the region
in which it stands; it ends the reference in either case.
-/

namespace SqlTemplate.Catalogue

set_option autoImplicit false

/-- The text of an entity that is being read, with the name of the entity and the quote around
the text. -/
structure OpenEntity where
  name : String
  quote : Token
  text : String
  deriving Repr, DecidableEq

/-- An entity with more text. -/
def OpenEntity.append (entity : OpenEntity) (text : String) : OpenEntity :=
  { entity with text := entity.text ++ text }

/-- How far the type of a document has been read. -/
inductive DoctypePart where
  | between
  | literal (quote : Token)
  | comment
  | keyword (text : String)
  | beforeName (isInner : Bool)
  | name (isInner : Bool) (text : String)
  | beforeText (entity : String)
  | entityText (entity : OpenEntity)
  | textReference (entity : OpenEntity)
  | textNumber (entity : OpenEntity) (digits : String)
  | textEntity (entity : OpenEntity) (inside : String)
  | reference (inside : String)
  | skipped
  deriving Repr, DecidableEq

/-- What a token in the type of a document leads to. -/
inductive DoctypeProgress where
  | next (part : DoctypePart)
  | declared (name text : String)
  | expanded (text : String)
  | finished
  deriving Repr, DecidableEq

/-- The name under which an entity is kept; a percent sign in front marks an inner one, which is
only for use inside the document type. -/
def keptName (isInner : Bool) (name : String) : String := if isInner then "%" ++ name else name

namespace DoctypePart

/-- The kinds of declarations that are passed over. -/
def skippedKeywords : List String := ["NOTATION", "ELEMENT", "ATTLIST"]

/-- The character whose number stands in the text of an entity; a plus sign may stand in front of
the digits. -/
def signedNumber? (edition : Edition) (chars : List Char) : Option Char :=
  let (base, digits) := numeral chars
  edition.ofDigits? base (if digits.head? = some '+' then digits.tail else digits)

/-- Reads a token between declarations. -/
def betweenStep? (token : Token) : Option DoctypeProgress :=
  match token with
  | .tagEnd => some .finished
  | .declarationStart => some (.next (.keyword ""))
  | .character '%' => some (.next (.reference ""))
  | .commentStart => some (.next .comment)
  | .dataStart | .dataEnd => none
  | token => some (.next (if token.isQuote then .literal token else .between))

/-- Reads a token behind the keyword of a declaration. -/
def keywordStep? (keyword : String) (token : Token) : Option DoctypeProgress :=
  if token.isSpace then
    if keyword = "ENTITY" then some (.next (.beforeName false))
    else if keyword ∈ skippedKeywords then some (.next .skipped)
    else none
  else
    match token with
    | .character c => if c.isUpper then some (.next (.keyword (keyword.push c))) else none
    | _ => none

/-- Reads a token of the text of an entity. -/
def textStep? (edition : Edition) (entity : OpenEntity) (token : Token) :
    Option DoctypeProgress :=
  match token with
  | .character '&' => some (.next (.textReference entity))
  | .character '%' => some (.next (.textEntity entity ""))
  | .character c =>
      if edition.has c then some (.next (.entityText (entity.append c.toString))) else none
  | token => if token = entity.quote then some (.declared entity.name entity.text) else none

/-- Reads a token of the type of a document. -/
def step? (edition : Edition) (entities : Entities) (token : Token) :
    DoctypePart → Option DoctypeProgress
  | between => betweenStep? token
  | literal quote => some (.next (if token = quote then .between else .literal quote))
  | comment => some (.next (if token = .commentEnd then .between else .comment))
  | keyword text => keywordStep? text token
  | beforeName isInner =>
      if token.isSpace then some (.next (.beforeName isInner))
      else
        match token with
        | .character c =>
            if c = '%' ∧ !isInner then some (.next (.beforeName true))
            else some (.next (.name isInner c.toString))
        | _ => none
  | name isInner text =>
      if token.isSpace then
        if isPlainName text.toList then some (.next (.beforeText (keptName isInner text)))
        else none
      else
        match token with
        | .character c => some (.next (.name isInner (text.push c)))
        | _ => none
  | beforeText entity =>
      if token.isSpace then some (.next (.beforeText entity))
      else if token.isQuote then some (.next (.entityText ⟨entity, token, ""⟩))
      else if token = .character 'S' ∨ token = .character 'P' then some (.declared entity "")
      else none
  | entityText entity => textStep? edition entity token
  | textReference entity =>
      match token with
      | .character '#' => some (.next (.textNumber entity ""))
      | .character c =>
          if edition.has c then some (.next (.entityText (entity.append ("&".push c)))) else none
      | _ => none
  | textNumber entity digits =>
      match token with
      | .character ';' =>
          (signedNumber? edition digits.toList).map fun c =>
            .next (.entityText (entity.append c.toString))
      | .character c => some (.next (.textNumber entity (digits.push c)))
      | _ => none
  | textEntity entity inside =>
      match token with
      | .character ';' =>
          (entities.lookup (keptName true inside)).map fun text =>
            .next (.entityText (entity.append text))
      | .character c => some (.next (.textEntity entity (inside.push c)))
      | _ => none
  | reference inside =>
      match token with
      | .referenceEnd | .character ';' => (entities.lookup (keptName true inside)).map .expanded
      | .character c => some (.next (.reference (inside.push c)))
      | _ => none
  | skipped =>
      match token with
      | .tagEnd => some (.next .between)
      | .declarationStart => none
      | _ => some (.next .skipped)

end DoctypePart

end SqlTemplate.Catalogue
