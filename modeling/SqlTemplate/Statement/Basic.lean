import SqlTemplate.Statement.Kind
import SqlTemplate.Template.Node

/-!
# Statements

A statement belongs to a namespace and has an identifier in it; both together are its key.  Its
text is fixed, with the names of its parameters in the order of the question marks, or it has a
template from which the text is rendered.
-/

namespace SqlTemplate

set_option autoImplicit false

/-- The key of an identifier in a namespace; the empty namespace adds nothing. -/
def statementKey (namespaceName id : String) : String :=
  if namespaceName.isEmpty then id else namespaceName ++ "." ++ id

/-- A statement as it is kept for use. -/
structure Statement where
  namespaceName : String
  id : String
  kind : StatementKind
  parameterType : Option String := none
  resultType : Option String := none
  resultMap : Option String := none
  sql : String
  parameters : List String
  template : Option Node := none

namespace Statement

/-- The key under which a statement is found. -/
def key (statement : Statement) : String := statementKey statement.namespaceName statement.id

/-- Whether the text of a statement is rendered from a template. -/
def isDynamic (statement : Statement) : Bool := statement.template.isSome

end Statement

end SqlTemplate
