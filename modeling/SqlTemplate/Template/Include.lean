import SqlTemplate.Fault
import SqlTemplate.Template.Node

/-!
# Expansion of references

A reference in a template stands for the nodes of a named fragment, which may hold references
itself. Expansion puts the nodes in the place of the reference, up to a limited depth of fragments
inside fragments; so it ends although fragments may refer to each other in a circle.

`Node.expand` replaces the references of one node, given what each of them stands for;
`FragmentTable.resolve` says what they stand for.
-/

namespace SqlTemplate

set_option autoImplicit false

/-! ## Replacing references -/

/-- What a reference stands for. -/
abbrev ReferenceTable := String → Except ConfigFault (List Node)

mutual
/-- The nodes that a node becomes when its references are replaced. -/
def Node.expand (resolve : ReferenceTable) : Node → Except ConfigFault (List Node)
  | .text content => .ok [.text content]
  | .conditional test body => do
      let body ← expandAll resolve body
      .ok [.conditional test body]
  | .choice branches otherwise => do
      let branches ← expandBranches resolve branches
      let otherwise ← expandOtherwise resolve otherwise
      .ok [.choice branches otherwise]
  | .foreach loop body => do
      let body ← expandAll resolve body
      .ok [.foreach loop body]
  | .trim trimming body => do
      let body ← expandAll resolve body
      .ok [.trim trimming body]
  | .whereClause body => do
      let body ← expandAll resolve body
      .ok [.whereClause body]
  | .setClause body => do
      let body ← expandAll resolve body
      .ok [.setClause body]
  | .reference name => resolve name
  | .sequence body => do
      let body ← expandAll resolve body
      .ok [.sequence body]

/-- Replaces the references of nodes. -/
def expandAll (resolve : ReferenceTable) : List Node → Except ConfigFault (List Node)
  | [] => .ok []
  | node :: nodes => do
      let expanded ← node.expand resolve
      let more ← expandAll resolve nodes
      .ok (expanded ++ more)

/-- Replaces the references of the branches of a choice. -/
def expandBranches (resolve : ReferenceTable) :
    List (String × List Node) → Except ConfigFault (List (String × List Node))
  | [] => .ok []
  | (test, body) :: branches => do
      let body ← expandAll resolve body
      let more ← expandBranches resolve branches
      .ok ((test, body) :: more)

/-- Replaces the references of the parts for the case that no test holds. -/
def expandOtherwise (resolve : ReferenceTable) :
    Option (List Node) → Except ConfigFault (Option (List Node))
  | none => .ok none
  | some body => do
      let body ← expandAll resolve body
      .ok (some body)
end

/-! ## Fragments of a mapper -/

/-- The fragments to which the statements of a mapper may refer, and how deep references may go. -/
structure FragmentTable where
  location : String
  namespaceName : String
  fragments : List (String × List Node)
  depth : Nat

namespace FragmentTable

/-- The identifier that a reference means: the namespace of the mapper before it is left out. -/
def localName (table : FragmentTable) (reference : String) : String :=
  match (table.namespaceName.toList ++ ['.']).isPrefixOf? reference.toList with
  | some name => .ofList name
  | none => reference

/-- The nodes of the fragment that a reference means. -/
def get? (table : FragmentTable) (reference : String) : Option (List Node) :=
  table.fragments.lookup (table.localName reference)

/-- The fault of a reference to nothing. -/
def unknown (table : FragmentTable) (reference : String) : ConfigFault :=
  .unknownFragment table.location reference table.namespaceName

/-- The fault of a reference that goes too deep. -/
def tooDeep (table : FragmentTable) (reference : String) : ConfigFault :=
  .includeTooDeep table.location reference table.depth

/-- The nodes that a reference stands for when references may still go this deep. -/
def resolve (table : FragmentTable) : Nat → ReferenceTable
  | 0, reference =>
      match table.get? reference with
      | none => .error (table.unknown reference)
      | some _ => .error (table.tooDeep reference)
  | remaining + 1, reference =>
      match table.get? reference with
      | none => .error (table.unknown reference)
      | some nodes => expandAll (table.resolve remaining) nodes

/-- Replaces all references of nodes. -/
def expand (table : FragmentTable) (nodes : List Node) : Except ConfigFault (List Node) :=
  expandAll (table.resolve table.depth) nodes

end FragmentTable

end SqlTemplate
