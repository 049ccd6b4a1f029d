import SqlTemplate.Catalogue.Event
import SqlTemplate.LoadError
import SqlTemplate.Text.Blank

/-!
# What a document is

A document is a mapper, or a catalogue that lists the resources to load.  Its first element
decides: a mapper is recognised by its first tag, and a catalogue is read to its end.  In a
catalogue, every entry inside the list of mappers names one resource; entries elsewhere mean
nothing.

Faults are met in the order of the document: an entry without a resource counts before a broken
rule behind it.
-/

namespace SqlTemplate.Catalogue

set_option autoImplicit false

/-- What a document is. -/
inductive Document where
  | mapper
  | resources (resources : List String)
  deriving Repr, DecidableEq

/-- The resource that an entry names. -/
def resource? (attributes : List (String × String)) : Option String :=
  ((attributes.lookup "resource").map Text.trimmed).filter fun resource => !resource.isEmpty

/-- The resources that the rest of a catalogue names; the flag says whether the list of mappers is
open. -/
def resources (location : String) : Bool → List Event → Except LoadError (List String)
  | _, [] => .ok []
  | listed, .start name attributes :: events =>
      if name = "mappers" then resources location true events
      else if name = "mapper" ∧ listed then
        match resource? attributes with
        | some resource => do
            let more ← resources location listed events
            .ok (resource :: more)
        | none => .error (.config (.missingResource location))
      else resources location listed events
  | listed, .stop name :: events => resources location (listed && name != "mappers") events
  | _, .fault :: _ => .error (.malformed location)

/-- What the document with these events is. -/
def scan (location : String) : List Event → Except LoadError Document
  | [] => .error (.config (.emptyDocument location))
  | .start name _ :: events =>
      if name = "mapper" then .ok .mapper
      else if name = "configuration" ∨ name = "mappers" then
        (resources location (name = "mappers") events).map .resources
      else .error (.config (.unsupportedRoot location name))
  | .stop _ :: events => scan location events
  | .fault :: _ => .error (.malformed location)

end SqlTemplate.Catalogue
