import SqlTemplate.Catalogue.Character

/-!
# Names of elements and attributes

Documents that are read strictly have names of a fixed alphabet.  A name may have a qualifier in
front of it, with a colon between; the qualifier has to be bound to a namespace, and what the name
means depends on the part behind the colon only.
-/

namespace SqlTemplate.Catalogue

set_option autoImplicit false

/-! ## Letters of names -/

/-- The ranges of the characters that a name may start with, the colon left out. -/
def nameStartRanges : List (Nat × Nat) :=
  [(0x41, 0x5A), (0x5F, 0x5F), (0x61, 0x7A), (0xC0, 0xD6), (0xD8, 0xF6), (0xF8, 0x2FF),
   (0x370, 0x37D), (0x37F, 0x1FFF), (0x200C, 0x200D), (0x2070, 0x218F), (0x2C00, 0x2FEF),
   (0x3001, 0xD7FF), (0xF900, 0xFDCF), (0xFDF0, 0xFFFD), (0x10000, 0xEFFFF)]

/-- The ranges of the further characters that a name may go on with. -/
def namePartRanges : List (Nat × Nat) :=
  [(0x2D, 0x2E), (0x30, 0x39), (0xB7, 0xB7), (0x300, 0x36F), (0x203F, 0x2040)]

/-- Whether a name may start with a character. -/
def isNameStart (c : Char) : Bool := Text.inRanges nameStartRanges c.toNat

/-- Whether a name may go on with a character. -/
def isNamePart (c : Char) : Bool := isNameStart c || Text.inRanges namePartRanges c.toNat

/-! ## Names -/

/-- Whether characters are the name of something that is in no namespace, such as an entity or an
instruction; the colon is a letter there. -/
def isPlainName : List Char → Bool
  | [] => false
  | first :: rest =>
      (isNameStart first || first == ':') && rest.all fun c => isNamePart c || c == ':'

/-- A name with the qualifier in front of it, if it has one. -/
structure Name where
  qualifier : Option String
  localPart : String
  deriving Repr, DecidableEq

/-- The name that characters write: the first starts a name and the others go on with it, except
for at most one colon with something on both of its sides. -/
def name? : List Char → Option Name
  | [] => none
  | first :: rest =>
      if isNameStart first && rest.all fun c => isNamePart c || c == ':' then
        let qualifier := rest.takeWhile (· != ':')
        match rest.drop qualifier.length with
        | [] => some ⟨none, .ofList (first :: rest)⟩
        | _ :: localPart =>
            if localPart.isEmpty || localPart.contains ':' then none
            else some ⟨some (.ofList (first :: qualifier)), .ofList localPart⟩
      else none

end SqlTemplate.Catalogue
