import SqlTemplate.Catalogue.Entity
import SqlTemplate.Catalogue.Token

/-!
# Start tags that are read strictly

A start tag has a name and attributes.  Attributes are separated by blanks, their values stand in
quotes, no attribute comes twice, and every reference stands for something.  Attributes that bind a
qualifier to a namespace are kept apart from all others; they count for the whole tag.
-/

namespace SqlTemplate.Catalogue

set_option autoImplicit false

/-! ## Namespaces -/

/-- An attribute. -/
structure Attribute where
  name : Name
  value : String
  deriving Repr, DecidableEq

/-- The qualifiers that are always bound. -/
def reserved : List String := ["xml", "xmlns"]

/-- The name of a standard namespace, given its last parts. -/
def standardNamespace (path : List String) : String :=
  "/".intercalate (["http:", "", ".".intercalate ["www", "w3", "org"]] ++ path)

/-- The name of the namespace that is always bound to the qualifier `xml`. -/
def xmlNamespace : String := standardNamespace ["XML", "1998", "namespace"]

/-- The name of the namespace that is always bound to the qualifier `xmlns`. -/
def xmlnsNamespace : String := standardNamespace ["2000", "xmlns", ""]

/-- What an attribute says about namespaces. -/
inductive Binding where
  | ordinary
  | default
  | bound (qualifier : String)
  | invalid
  deriving Repr, DecidableEq

/-- What an attribute says about namespaces.  A qualifier is bound by an attribute with the
qualifier `xmlns`; it cannot be bound to nothing, and the two that are always bound keep their
namespaces. -/
def Attribute.binding (attr : Attribute) : Binding :=
  match attr.name with
  | ⟨some "xmlns", qualifier⟩ =>
      if qualifier = "xmlns" ∨ attr.value.isEmpty
          ∨ qualifier = "xml" ∧ attr.value ≠ xmlNamespace then .invalid
      else .bound qualifier
  | ⟨none, "xmlns"⟩ =>
      if attr.value ∈ reserved ∨ attr.value = xmlNamespace ∨ attr.value = xmlnsNamespace then
        .invalid
      else .default
  | _ => .ordinary

/-- The qualifier that an attribute binds. -/
def Attribute.bound? (attr : Attribute) : Option String :=
  match attr.binding with
  | .bound qualifier => some qualifier
  | _ => none

/-- Whether the qualifier of a name is bound. -/
def Name.isBound (bound : List String) (name : Name) : Bool :=
  match name.qualifier with
  | some qualifier => bound.contains qualifier
  | none => true

/-! ## Tags -/

/-- A start tag as it is written: its name and its attributes in their order. -/
structure WrittenTag where
  name : Name
  attributes : List Attribute
  deriving Repr, DecidableEq

/-- A start tag: its name, its attributes by the local parts of their names, and the qualifiers
bound inside its element. -/
structure Tag where
  name : Name
  attributes : List (String × String)
  bound : List String
  deriving Repr, DecidableEq

/-- What a tag means, given the qualifiers bound around it. -/
def WrittenTag.meaning? (written : WrittenTag) (bound : List String) : Option Tag :=
  let ordinary := written.attributes.filter fun attr => attr.binding = .ordinary
  let bound := written.attributes.filterMap Attribute.bound? ++ bound
  if written.attributes.any (fun attr => attr.binding = .invalid)
      || !(ordinary.map Attribute.name).Nodup
      || written.name.qualifier.any (reserved.contains ·)
      || !written.name.isBound bound
      || !ordinary.all (fun attr => attr.name.isBound bound) then none
  else some ⟨written.name, ordinary.map fun attr => (attr.name.localPart, attr.value), bound⟩

/-! ## Reading tags -/

/-- A value that is being read: the attribute and the quote to which it belongs, and its text so
far. -/
structure OpenValue where
  tag : WrittenTag
  name : Name
  quote : Token
  text : String
  deriving Repr, DecidableEq

/-- A value with more text. -/
def OpenValue.append (value : OpenValue) (text : String) : OpenValue :=
  { value with text := value.text ++ text }

/-- The tag with the attribute that has this value. -/
def OpenValue.finished (value : OpenValue) : WrittenTag :=
  { value.tag with attributes := value.tag.attributes ++ [⟨value.name, value.text⟩] }

/-- How far a start tag has been read. -/
inductive TagPart where
  | tagName (text : String)
  | gap (tag : WrittenTag)
  | attributeName (tag : WrittenTag) (text : String)
  | afterAttributeName (tag : WrittenTag) (name : Name)
  | beforeValue (tag : WrittenTag) (name : Name)
  | value (value : OpenValue)
  | reference (value : OpenValue) (inside : String)
  | afterValue (tag : WrittenTag)
  deriving Repr, DecidableEq

/-- What a token in a start tag leads to. -/
inductive TagProgress where
  | next (part : TagPart)
  | finished (tag : WrittenTag) (isEmpty : Bool)
  deriving Repr, DecidableEq

namespace TagPart

/-- Reads a token where the tag may end. -/
def end? (tag : WrittenTag) (token : Token) : Option TagProgress :=
  match token with
  | .tagEnd => some (.finished tag false)
  | .emptyTagEnd => some (.finished tag true)
  | _ => none

/-- Reads a token of a value. -/
def valueStep? (edition : Edition) (value : OpenValue) (token : Token) : Option TagProgress :=
  match token with
  | .character c =>
      if edition.hasPlain c then some (.next (.value (value.append c.toString))) else none
  | .tagStart | .instructionStart => none
  | .referenceStart => some (.next (.reference value ""))
  | token =>
      if token = value.quote then some (.next (.afterValue value.finished))
      else some (.next (.value (value.append token.text)))

/-- Reads a token of a start tag. -/
def step? (edition : Edition) (entities : Entities) (token : Token) :
    TagPart → Option TagProgress
  | tagName text =>
      if token.isSpace then
        (name? text.toList).map fun name => .next (.gap ⟨name, []⟩)
      else
        match token with
        | .character c => some (.next (.tagName (text.push c)))
        | token => (name? text.toList).bind fun name => end? ⟨name, []⟩ token
  | gap tag =>
      if token.isSpace then some (.next (.gap tag))
      else
        match token with
        | .character c => some (.next (.attributeName tag c.toString))
        | token => end? tag token
  | attributeName tag text =>
      if token.isSpace then
        (name? text.toList).map fun name => .next (.afterAttributeName tag name)
      else
        match token with
        | .character c => some (.next (.attributeName tag (text.push c)))
        | .equals => (name? text.toList).map fun name => .next (.beforeValue tag name)
        | _ => none
  | afterAttributeName tag name =>
      if token.isSpace then some (.next (.afterAttributeName tag name))
      else if token = .equals then some (.next (.beforeValue tag name))
      else none
  | beforeValue tag name =>
      if token.isSpace then some (.next (.beforeValue tag name))
      else if token.isQuote then some (.next (.value ⟨tag, name, token, ""⟩))
      else none
  | value opened => valueStep? edition opened token
  | reference opened inside =>
      match token with
      | .character c => some (.next (.reference opened (inside.push c)))
      | .referenceEnd =>
          (entities.referent? edition inside).map fun referent =>
            .next (.value (opened.append referent.text))
      | _ => none
  | afterValue tag =>
      if token.isSpace then some (.next (.gap tag)) else end? tag token

end TagPart

end SqlTemplate.Catalogue
