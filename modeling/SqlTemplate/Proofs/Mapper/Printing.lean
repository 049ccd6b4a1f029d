import SqlTemplate.Mapper.Reader
import SqlTemplate.Proofs.Mapper.Soundness
import SqlTemplate.Proofs.Markup.Printing
import SqlTemplate.Proofs.Text.Split

/-!
# Printing mappers

A mapper is printed as a document: the fragments, then the statements, each with the nodes of its
body as elements and text.  Every element has a start tag and an end tag, and an attribute without a
value is not written.

Not every mapper comes back when its document is read.  `Draft.IsPrintable` says which are printed
so that they do: names are as reading leaves them, spacing carries no meaning, and no two texts are
neighbours.
-/

namespace SqlTemplate

set_option autoImplicit false

open Markup (Fields)

/-! ## The documents of mappers -/

/-- The attributes of an element. -/
def Element.fields : Element → Fields
  | conditional test => [("test", some test)]
  | whereClause => []
  | setClause => []
  | trim trimming =>
      [("prefix", some trimming.opening),
        ("prefixOverrides", some ("|".intercalate trimming.openingOverrides)),
        ("suffix", some trimming.ending),
        ("suffixOverrides", some ("|".intercalate trimming.endingOverrides))]
  | foreach loop =>
      [("collection", some loop.collection), ("item", loop.item), ("index", loop.index),
        ("open", some loop.opening), ("separator", some loop.separator),
        ("close", some loop.closing)]

/-- The bytes of an element that holds what these bytes write. -/
def Element.print (element : Element) (inner : List UInt8) : List UInt8 :=
  Markup.element element.tag element.fields inner

mutual
/-- The bytes of a node. -/
def Node.print : Node → List UInt8
  | .text content => Markup.escaped false content.raw
  | .conditional test body => (Element.conditional test).print (printAll body)
  | .choice branches otherwise =>
      Markup.element "choose" [] (printBranches branches ++ printOtherwise otherwise)
  | .foreach loop body => (Element.foreach loop).print (printAll body)
  | .trim trimming body => (Element.trim trimming).print (printAll body)
  | .whereClause body => Element.whereClause.print (printAll body)
  | .setClause body => Element.setClause.print (printAll body)
  | .reference name => Markup.element "include" [("refid", some name)] []
  | .sequence body => printAll body

/-- The bytes of nodes. -/
def printAll : List Node → List UInt8
  | [] => []
  | node :: nodes => node.print ++ printAll nodes

/-- The bytes of the branches of a choice. -/
def printBranches : List (String × List Node) → List UInt8
  | [] => []
  | (test, body) :: branches =>
      Markup.element "when" [("test", some test)] (printAll body) ++ printBranches branches

/-- The bytes of the part for the case that no test holds. -/
def printOtherwise : Option (List Node) → List UInt8
  | none => []
  | some body => Markup.element "otherwise" [] (printAll body)
end

/-- The attributes of the tag of a statement. -/
def StatementHead.fields (head : StatementHead) : Fields :=
  [("id", some head.id), ("parameterType", head.parameterType), ("resultType", head.resultType),
    ("resultMap", head.resultMap)]

namespace Draft

/-- The bytes of a fragment. -/
def printFragment (fragment : String × List Node) : List UInt8 :=
  Markup.element "sql" [("id", some fragment.1)] (printAll fragment.2)

/-- The bytes of a statement. -/
def printStatement (statement : StatementHead × List Node) : List UInt8 :=
  Markup.element statement.1.kind.name statement.1.fields (printAll statement.2)

/-- The document of a mapper. -/
def print (draft : Draft) : List UInt8 :=
  Markup.element "mapper" [("namespace", some draft.namespaceName)]
    (draft.fragments.flatMap printFragment ++ draft.statements.flatMap printStatement)

end Draft

/-! ## Mappers that come back -/

/-- A text node of a text that is not empty and whose spacing is uniform already. -/
def TextNode.IsUniform (text : TextNode) : Prop :=
  ∃ source, source ≠ "" ∧ Text.uniform source = source ∧ TextNode.flowing source = .ok text

/-- Nodes of which no two neighbours are texts. -/
def TextsApart (nodes : List Node) : Prop :=
  nodes.IsChain fun first second => first.text? = none ∨ second.text? = none

/-- A loop over a collection with a label, in which the names it binds are not blank. -/
structure Loop.IsPrintable (loop : Loop) : Prop where
  collection : Text.IsLabel loop.collection
  item : ∀ name, loop.item = some name → Text.isAllBlank name = false
  index : ∀ name, loop.index = some name → Text.isAllBlank name = false

/-- A general clause whose openings and endings can be listed between upright bars. -/
structure Trimming.IsPrintable (trimming : Trimming) : Prop where
  opening : ∀ word ∈ trimming.openingOverrides, Clause.IsListable word
  ending : ∀ word ∈ trimming.endingOverrides, Clause.IsListable word

/-- An element that is read as it is printed. -/
def Element.IsPrintable : Element → Prop
  | conditional test => Text.trimmed test = test
  | whereClause => True
  | setClause => True
  | trim trimming => trimming.IsPrintable
  | foreach loop => loop.IsPrintable

/-- A node that is read as it is printed, if the nodes inside of it are. -/
def Node.IsPrintable : Node → Prop
  | .text content => content.IsUniform
  | .conditional test body => (Element.conditional test).IsPrintable ∧ TextsApart body
  | .choice branches otherwise =>
      (∀ branch ∈ branches, Text.IsLabel branch.1 ∧ TextsApart branch.2) ∧
        ∀ body, otherwise = some body → TextsApart body
  | .foreach loop body => (Element.foreach loop).IsPrintable ∧ TextsApart body
  | .trim trimming body => (Element.trim trimming).IsPrintable ∧ TextsApart body
  | .whereClause body => TextsApart body
  | .setClause body => TextsApart body
  | .reference name => Text.IsLabel name
  | .sequence _ => False

/-- Nodes that are read as they are printed. -/
structure ArePrintable (nodes : List Node) : Prop where
  inside : everywhere Node.IsPrintable nodes
  apart : TextsApart nodes

/-- A mapper that is read as it is printed: the names are labels, no identifier comes twice, and
bodies are printable, with references in fragments only. -/
structure Draft.IsPrintable (draft : Draft) : Prop where
  namespaceName : Text.IsLabel draft.namespaceName
  labels : ∀ id ∈ draft.ids, Text.IsLabel id
  distinct : draft.ids.Nodup
  fragmentLabels : ∀ id ∈ draft.fragments.map Prod.fst, Text.IsLabel id
  fragmentsDistinct : (draft.fragments.map Prod.fst).Nodup
  fragments : ∀ id nodes, (id, nodes) ∈ draft.fragments → ArePrintable nodes
  statements : ∀ head nodes, (head, nodes) ∈ draft.statements →
    ArePrintable nodes ∧ everywhere Node.IsNoReference nodes

end SqlTemplate
