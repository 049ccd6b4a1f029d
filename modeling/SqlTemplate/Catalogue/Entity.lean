import SqlTemplate.Catalogue.Name
import SqlTemplate.Markup.Reference

/-!
# Entities

A reference stands for a character or for an entity.  Five characters have names, every other
character has its number, and the type of a document may name texts: those are its entities.  The
first text that is given to a name counts.

Entities that are only for use inside the document type have a percent sign in front of their
names, so that they are never mixed up with the others.
-/

namespace SqlTemplate.Catalogue

set_option autoImplicit false

/-! ## Characters by their numbers -/

/-- The character of an edition with a number. -/
def Edition.numbered? (edition : Edition) (number : Nat) : Option Char :=
  if number.isValidChar ∧ edition.has (Char.ofNat number) then some (Char.ofNat number) else none

/-- The base and the digits of a number; an `x` in front of the digits means hexadecimal ones. -/
def numeral : List Char → Nat × List Char
  | 'x' :: digits => (16, digits)
  | digits => (10, digits)

/-- The character of an edition whose number is written by digits of a base. -/
def Edition.ofDigits? (edition : Edition) (base : Nat) (digits : List Char) : Option Char :=
  (Markup.number? base digits).bind edition.numbered?

/-- The character that a reference stands for, given what it has between its ends. -/
def Edition.referenced? (edition : Edition) : List Char → Option Char
  | '#' :: number =>
      let (base, digits) := numeral number
      edition.ofDigits? base digits
  | name => Markup.namedCharacters.lookup (.ofList name)

/-! ## Entities -/

/-- The entities of a document, the one declared last in front. -/
abbrev Entities := List (String × String)

/-- Declares an entity, unless there is one of this name. -/
def Entities.declare (entities : Entities) (name text : String) : Entities :=
  match entities.lookup name with
  | some _ => entities
  | none => (name, text) :: entities

/-- What a reference stands for. -/
inductive Referent where
  | character (c : Char)
  | entity (text : String)
  deriving Repr, DecidableEq

/-- What a reference stands for, given what it has between its ends. -/
def Entities.referent? (entities : Entities) (edition : Edition) (inside : String) :
    Option Referent :=
  match edition.referenced? inside.toList with
  | some c => some (.character c)
  | none => if isPlainName inside.toList then (entities.lookup inside).map .entity else none

/-- The text that a reference in a value stands for. -/
def Referent.text : Referent → String
  | character c => c.toString
  | entity text => text

end SqlTemplate.Catalogue
