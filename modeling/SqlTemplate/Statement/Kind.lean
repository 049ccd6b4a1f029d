/-!
# Kinds of statements

A statement selects, inserts, updates or deletes; the element that holds it says which.
-/

namespace SqlTemplate

set_option autoImplicit false

/-- What a statement does. -/
inductive StatementKind where
  | select
  | insert
  | update
  | delete
  deriving Repr, DecidableEq

namespace StatementKind

/-- The name of a kind, which is also the name of its element. -/
def name : StatementKind → String
  | select => "select"
  | insert => "insert"
  | update => "update"
  | delete => "delete"

/-- All kinds. -/
def all : List StatementKind := [select, insert, update, delete]

/-- The kind of the statement that an element of this name holds. -/
def ofTag? (tag : String) : Option StatementKind := all.find? fun kind => kind.name == tag

/-- Whether an element of this name holds a statement. -/
def isTag (tag : String) : Bool := (ofTag? tag).isSome

/-- Whether statements of the kind give rows. -/
def isQuery : StatementKind → Bool
  | select => true
  | _ => false

end StatementKind

end SqlTemplate
