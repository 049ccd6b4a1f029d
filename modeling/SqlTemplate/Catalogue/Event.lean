/-!
# Events of documents

Of a document that is read strictly, only the elements matter.  They are given by the events that a
reader meets on its way through the document.
-/

namespace SqlTemplate.Catalogue

set_option autoImplicit false

/-- An event of a strictly read document.  Names are the parts behind the qualifiers. -/
inductive Event where
  | start (name : String) (attributes : List (String × String))
  | stop (name : String)
  | fault
  deriving Repr, DecidableEq

end SqlTemplate.Catalogue
