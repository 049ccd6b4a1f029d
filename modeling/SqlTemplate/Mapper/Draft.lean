import SqlTemplate.Statement.Basic
import SqlTemplate.Template.Include

/-!
# Mappers and their drafts

A mapper is what one document says: statements in a namespace, and fragments to which they refer.
While a document is read, the mapper is a draft: the bodies of its statements are as they were
written, with references to fragments that may come later in the document.

`Draft.finish` replaces the references and decides for each statement whether its text is fixed.
-/

namespace SqlTemplate

set_option autoImplicit false

/-- What one mapper document says. -/
structure Mapper where
  namespaceName : String
  statements : List Statement
  fragments : List (String × List Node)

/-- What the tag of a statement says. -/
structure StatementHead where
  id : String
  kind : StatementKind
  parameterType : Option String
  resultType : Option String
  resultMap : Option String
  deriving Repr, DecidableEq

/-- A mapper whose references are not replaced yet. -/
structure Draft where
  namespaceName : String
  statements : List (StatementHead × List Node)
  fragments : List (String × List Node)

namespace StatementHead

/-- The statement with this head and body.  If all nodes are text without anything spliced in, the
text is fixed; in any case the texts on the outermost level give the text and the parameters by
which the statement is listed. -/
def statement (head : StatementHead) (namespaceName : String) (body : List Node) : Statement :=
  let texts := body.filterMap Node.text?
  { namespaceName
    id := head.id
    kind := head.kind
    parameterType := head.parameterType
    resultType := head.resultType
    resultMap := head.resultMap
    sql := " ".intercalate (texts.map TextNode.sql)
    parameters := texts.flatMap TextNode.parameters
    template := if body.all Node.isFixedText then none else some (.sequence body) }

end StatementHead

namespace Draft

/-- The draft of a mapper without content. -/
def empty (namespaceName : String) : Draft := ⟨namespaceName, [], []⟩

/-- Whether a statement with this identifier is there already. -/
def hasStatement (draft : Draft) (id : String) : Bool :=
  draft.statements.any fun (head, _) => head.id == id

/-- Whether a fragment with this identifier is there already. -/
def hasFragment (draft : Draft) (id : String) : Bool :=
  draft.fragments.any fun (other, _) => other == id

/-- The fragments of a draft for the replacement of references. -/
def table (draft : Draft) (location : String) (depth : Nat) : FragmentTable :=
  ⟨location, draft.namespaceName, draft.fragments, depth⟩

/-- The mapper that a draft becomes. -/
def finish (draft : Draft) (location : String) (depth : Nat) : Except ConfigFault Mapper := do
  let statements ← draft.statements.mapM fun (head, body) => do
    let body ← (draft.table location depth).expand body
    .ok (head.statement draft.namespaceName body)
  .ok ⟨draft.namespaceName, statements, draft.fragments⟩

end Draft

end SqlTemplate
