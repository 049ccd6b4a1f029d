import SqlTemplate.Catalogue.Encoding
import SqlTemplate.Catalogue.Entity
import SqlTemplate.Text.Split

/-!
# The declaration of a document

A document may begin with a declaration: its version, then its encoding and whether it stands
alone, both of which may be missing.  The version decides for an edition of the rules, the encoding
how what follows is read.
-/

namespace SqlTemplate.Catalogue

set_option autoImplicit false

/-! ## Settings -/

/-- A setting, with the characters of its name and of its value, and how far it reaches behind its
first character. -/
structure Setting where
  name : List Char
  value : List Char
  width : Nat
  deriving Repr, DecidableEq

/-- Reads the setting that starts with `first`. -/
def settingAt? (first : Char) (after : List Char) : Option Setting :=
  let part := after.takeWhile fun c => c != '=' && !isSpace c
  let afterName := after.drop part.length
  let gap := afterName.takeWhile isSpace
  match afterName.drop gap.length with
  | '=' :: afterSign =>
      let space := afterSign.takeWhile isSpace
      match afterSign.drop space.length with
      | quote :: afterQuote =>
          let value := afterQuote.takeWhile (· != quote)
          if (quote == '"' || quote == '\'') && value.length < afterQuote.length then
            some ⟨first :: part, value,
              part.length + gap.length + space.length + value.length + 3⟩
          else none
      | [] => none
  | _ => none

/-- The settings written by the characters; the flag says whether a blank stands before them. -/
def settingsFrom? : Bool → List Char → Option (List Setting)
  | _, [] => some []
  | separated, c :: after =>
      if isSpace c then settingsFrom? true after
      else if separated then do
        let setting ← settingAt? c after
        let more ← settingsFrom? false (after.drop setting.width)
        some (setting :: more)
      else none
termination_by _ chars => chars.length
decreasing_by all_goals simp only [List.length_drop, List.length_cons]; omega

namespace Setting

/-- Whether a setting has a name.  What stands behind the first letter counts as a name of its own,
and may have a qualifier. -/
def isNamed (setting : Setting) (name : String) : Bool :=
  setting.name.head? == name.toList.head?
    && (name? setting.name.tail).map Name.localPart == some (.ofList name.toList.tail)

/-- The text of a setting. -/
def text? (edition : Edition) (setting : Setting) : Option String :=
  if setting.value.all fun c => edition.hasPlain c && c != '<' then
    (Markup.resolveReferences? edition.referenced? setting.value).map String.ofList
  else none

end Setting

/-! ## Declarations -/

/-- What a document declares. -/
structure Declaration where
  edition : Edition
  charset : Option Charset
  deriving Repr, DecidableEq

/-- Whether settings may end a declaration: at most one is left, and it says whether the document
stands alone. -/
def mayEnd (edition : Edition) : List Setting → Bool
  | [] => true
  | [setting] =>
      setting.isNamed "standalone"
        && (setting.text? edition == some "yes" || setting.text? edition == some "no")
  | _ => false

/-- The declaration with these settings: the version comes first, and what follows it is read by its
edition. -/
def declaration? : List Setting → Option Declaration
  | [] => none
  | version :: settings => do
      if !version.isNamed "version" then none
      let edition ← (version.text? .first).bind Edition.ofVersion?
      match settings with
      | [] => some ⟨edition, none⟩
      | setting :: more =>
          if setting.isNamed "encoding" then
            let name ← setting.text? edition
            let charset ← Charset.named? name
            if mayEnd edition more then some ⟨edition, some charset⟩ else none
          else if mayEnd edition settings then some ⟨edition, none⟩
          else none

/-! ## The front of a document -/

/-- How a declaration starts. -/
def declarationStart : List Char := "<?xml".toList

/-- What follows the start of the declaration of a document, if it has one: a blank comes next. -/
def afterStart? (chars : List Char) : Option (List Char) :=
  (declarationStart.isPrefixOf? chars).filter fun rest => rest.head?.any isSpace

/-- A document behind its declaration: its edition, and its characters. -/
structure Body where
  edition : Edition
  decoded : Decoded

/-- The body of a document; a wrong declaration is no document. -/
def body? (document : List UInt8) : Option Body :=
  let (mark, bytes) := marked document
  let decoded := (mark.getD .utf8).decode bytes
  match afterStart? decoded.chars with
  | none => some ⟨.first, decoded⟩
  | some rest => do
      let content ← Text.before? "?>".toList rest
      let declaration ← (settingsFrom? false content).bind declaration?
      let width := declarationStart.length + content.length + 2
      match declaration.charset with
      | none => some ⟨declaration.edition, decoded.drop width⟩
      | some charset =>
          let encoding ← charset.encoding? mark
          if encoding = mark.getD .utf8 then some ⟨declaration.edition, decoded.drop width⟩
          else
            let front := Text.encode (.ofList (decoded.chars.take width))
            some ⟨declaration.edition, encoding.decode (bytes.drop front.length)⟩

end SqlTemplate.Catalogue
