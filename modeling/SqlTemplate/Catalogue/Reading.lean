import SqlTemplate.Catalogue.Declaration
import SqlTemplate.Catalogue.Place

/-!
# Reading documents strictly

Configuration documents are read by the strict rules of XML with namespaces.  The events of a
document end with the document, or with a fault at the first place that breaks a rule.

The text of an entity is read as if it stood in the document, and may put in other texts.  So that
this ends, only a bounded number of texts is put in before the document itself goes on.
-/

namespace SqlTemplate.Catalogue

set_option autoImplicit false

/-! ## Tokens -/

/-- A reader, and where the next token stands. -/
structure Cursor where
  reader : Reader
  context : Context

/-- What the next token leads to: the events that it completes, a text to put in, and the number of
characters behind the first that belong to the token. -/
structure Step where
  cursor : Cursor
  events : List Event
  insertion : String
  width : Nat

namespace Cursor

/-- The front of a document. -/
def start (edition : Edition) : Cursor := ⟨.start edition, .start⟩

/-- Reads the token that begins with `c`. -/
def step? (cursor : Cursor) (c : Char) (after : List Char) : Option Step := do
  let lexeme ← cursor.context.lexeme? c after
  let progress ← cursor.reader.step? lexeme.token
  some ⟨⟨progress.reader, lexeme.context⟩, progress.events, progress.insertion, lexeme.width⟩

/-- Whether a document may end. -/
def isComplete (cursor : Cursor) : Bool :=
  cursor.reader.isComplete && cursor.context.region == .content

/-! ## Texts of entities -/

/-- The events from a text on that was put in before the rest of a document.  What follows the text
is read by `onward`, given how much of the rest belongs to the last token of the text; another text
that has to be put in is read by `interrupt`, given what is left of this one. -/
def textEvents (rest : List Char) (onward : Cursor → Nat → List Event)
    (interrupt : Cursor → String → List Char → List Event) (cursor : Cursor) :
    List Char → List Event
  | [] => onward cursor 0
  | c :: text =>
      match cursor.step? c (text ++ rest) with
      | none => [.fault]
      | some step =>
          let left := text.drop step.width
          step.events ++
            if !step.insertion.isEmpty then interrupt step.cursor step.insertion left
            else if text.length < step.width then onward step.cursor (step.width - text.length)
            else step.cursor.textEvents rest onward interrupt left
termination_by text => text.length
decreasing_by simp only [List.length_drop, List.length_cons]; omega

/-- How many characters may be left of the texts put in when another one comes. -/
def lengthLimit : Nat := 1000000

/-- The events from a text on that is put in before what is left of others and the rest of a
document; the number says how many texts may be put in. -/
def insertionEvents (rest : List Char) (onward : Cursor → Nat → List Event) :
    Nat → Cursor → String → List Char → List Event
  | 0, _, _, _ => [.fault]
  | count + 1, cursor, insertion, left =>
      if lengthLimit < left.length then [.fault]
      else
        cursor.textEvents rest onward (insertionEvents rest onward count)
          (insertion.toList ++ left)

/-! ## Documents -/

/-- How many texts may be put in before the document itself goes on. -/
def depthLimit : Nat := 10

/-- The events of the rest of a document; the flag says whether it was understood up to its end. -/
def events (isWhole : Bool) (cursor : Cursor) : List Char → List Event
  | [] => if isWhole && cursor.isComplete then [] else [.fault]
  | c :: rest =>
      match cursor.step? c rest with
      | none => [.fault]
      | some step =>
          let after := rest.drop step.width
          let onward := fun cursor count => events isWhole cursor (after.drop count)
          step.events ++
            if step.insertion.isEmpty then onward step.cursor 0
            else insertionEvents after onward depthLimit step.cursor step.insertion []
termination_by chars => chars.length
decreasing_by simp only [List.length_drop, List.length_cons]; omega

end Cursor

/-- The events of a document. -/
def events (document : List UInt8) : List Event :=
  match body? document with
  | some body => (Cursor.start body.edition).events body.decoded.isWhole body.decoded.chars
  | none => [.fault]

end SqlTemplate.Catalogue
