import SqlTemplate.Template.Clause
import SqlTemplate.Template.TextNode

/-!
# Statement templates

A template is a tree.  Its leaves are texts and references to named fragments; the inner nodes
choose among their parts, repeat them, or make a clause of them.
-/

namespace SqlTemplate

set_option autoImplicit false

/-- What a loop runs over, the names it binds, and the texts around and between its parts. -/
structure Loop where
  collection : String
  item : Option String
  index : Option String
  opening : String
  separator : String
  closing : String
  deriving Repr, DecidableEq

/-- A statement template.  A choice holds its branches as tests with their parts, and the parts for
the case that no test holds. -/
inductive Node where
  | text (content : TextNode)
  | conditional (test : String) (body : List Node)
  | choice (branches : List (String × List Node)) (otherwise : Option (List Node))
  | foreach (loop : Loop) (body : List Node)
  | trim (trimming : Trimming) (body : List Node)
  | whereClause (body : List Node)
  | setClause (body : List Node)
  | reference (name : String)
  | sequence (body : List Node)

namespace Node

/-- The text of a text node. -/
def text? : Node → Option TextNode
  | text content => some content
  | _ => none

/-- Whether a node is text into which nothing is spliced. -/
def isFixedText : Node → Bool
  | text content => !content.isSpliced
  | _ => false

end Node

end SqlTemplate
