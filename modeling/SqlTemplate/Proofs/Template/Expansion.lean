import SqlTemplate.Proofs.Template.Composition
import SqlTemplate.Template.Include

/-!
# What expansion leaves

Expansion puts the nodes of fragments in the place of references.  Where it succeeds, no reference
is left at any depth, and the texts are those that stood in the nodes and in the fragments
(`FragmentTable.resolve_everywhere`): what was sound before is sound in the result
(`FragmentTable.expand_isExpanded`).  Nodes in which nothing refers to a fragment stay as they are
(`expandAll_eq_self`).
-/

namespace SqlTemplate

set_option autoImplicit false

open Outcome

/-! ## Conditions on the nodes of lists -/

theorem everywhere_append {holds : Node → Prop} {first second : List Node} :
    everywhere holds (first ++ second) ↔ everywhere holds first ∧ everywhere holds second := by
  induction first with
  | nil => simp [everywhere]
  | cons node nodes ih => simp [everywhere, ih, and_assoc]

theorem everywhere_singleton {holds : Node → Prop} {node : Node} :
    everywhere holds [node] ↔ node.Everywhere holds := by
  simp [everywhere]

theorem everywhereInBranches_append {holds : Node → Prop}
    {first second : List (String × List Node)} :
    everywhereInBranches holds (first ++ second) ↔
      everywhereInBranches holds first ∧ everywhereInBranches holds second := by
  induction first with
  | nil => simp [everywhereInBranches]
  | cons branch branches ih => simp [everywhereInBranches, ih, and_assoc]

/-- A condition at every node holds of the nodes on the outermost level. -/
theorem holds_of_mem_everywhere {holds : Node → Prop} {nodes : List Node}
    (all : everywhere holds nodes) {node : Node} (member : node ∈ nodes) : holds node := by
  induction nodes with
  | nil => cases member
  | cons first nodes ih =>
      rcases List.mem_cons.mp member with rfl | later
      · have here := all.1
        cases node with
        | text | reference => exact here
        | conditional | choice | foreach | trim | whereClause | setClause | sequence =>
            exact here.1
      · exact ih all.2 later

mutual
/-- A condition that every node fulfils holds at a node and everywhere inside of it. -/
theorem Node.everywhere_of_forall {holds : Node → Prop} (all : ∀ node, holds node) :
    ∀ node : Node, node.Everywhere holds
  | .text content => all (.text content)
  | .conditional _ body => ⟨all _, everywhere_of_forall all body⟩
  | .choice branches otherwise =>
      ⟨all _, everywhereInBranches_of_forall all branches,
        everywhereInOtherwise_of_forall all otherwise⟩
  | .foreach _ body => ⟨all _, everywhere_of_forall all body⟩
  | .trim _ body => ⟨all _, everywhere_of_forall all body⟩
  | .whereClause body => ⟨all _, everywhere_of_forall all body⟩
  | .setClause body => ⟨all _, everywhere_of_forall all body⟩
  | .reference name => all (.reference name)
  | .sequence body => ⟨all _, everywhere_of_forall all body⟩

theorem everywhere_of_forall {holds : Node → Prop} (all : ∀ node, holds node) :
    ∀ nodes : List Node, everywhere holds nodes
  | [] => trivial
  | node :: nodes => ⟨node.everywhere_of_forall all, everywhere_of_forall all nodes⟩

theorem everywhereInBranches_of_forall {holds : Node → Prop} (all : ∀ node, holds node) :
    ∀ branches : List (String × List Node), everywhereInBranches holds branches
  | [] => trivial
  | (_, body) :: branches =>
      ⟨everywhere_of_forall all body, everywhereInBranches_of_forall all branches⟩

theorem everywhereInOtherwise_of_forall {holds : Node → Prop} (all : ∀ node, holds node) :
    ∀ otherwise : Option (List Node), everywhereInOtherwise holds otherwise
  | none => trivial
  | some body => everywhere_of_forall all body
end

/-! ## Nodes before and after -/

namespace Node

/-- A node whose own text, if it is a text, is sound. -/
def HasSoundText : Node → Prop
  | .text content => content.IsSound
  | _ => True

/-- A node that is no reference and whose own text, if it is a text, is sound. -/
def IsExpanded : Node → Prop
  | .text content => content.IsSound
  | .reference _ => False
  | _ => True

/-- A node that is no reference. -/
def IsNoReference : Node → Prop
  | .reference _ => False
  | _ => True

end Node

/-! ## Expansion -/

/-- References that stand for expanded nodes only. -/
def ReferenceTable.IsExpanded (resolve : ReferenceTable) : Prop :=
  ∀ name nodes, resolve name = .ok nodes → everywhere Node.IsExpanded nodes

/-- A condition after expansion that follows from one before it: a text brings it along, and a node
around other nodes fulfils it whatever they are. -/
structure Node.Follows (after before : Node → Prop) : Prop where
  text : ∀ content, before (.text content) → after (.text content)
  around : ∀ node : Node, node.text? = none → node.IsNoReference → after node

/-- A node that is built anew around its expanded body. -/
theorem everywhere_of_rebuilt {holds : Node → Prop} {body : Except ConfigFault (List Node)}
    {build : List Node → Node} {expanded : List Node}
    (succeeds : (body >>= fun nodes => .ok [build nodes]) = .ok expanded)
    (built : ∀ nodes, body = .ok nodes → (build nodes).Everywhere holds) :
    everywhere holds expanded := by
  obtain ⟨nodes, inside, equal⟩ := bind_eq_ok_iff.mp succeeds
  cases equal
  exact everywhere_singleton.mpr (built nodes inside)

section Conditions

variable {resolve : ReferenceTable} {before after : Node → Prop}

mutual
/-- Where a condition holds everywhere before expansion, one that follows from it holds everywhere
after it, if it holds of all that references stand for. -/
theorem Node.expand_everywhere (follows : Node.Follows after before)
    (stands : ∀ name nodes, resolve name = .ok nodes → everywhere after nodes) :
    ∀ (node : Node) {expanded : List Node},
      node.Everywhere before → node.expand resolve = .ok expanded → everywhere after expanded
  | .text content, expanded, holds, succeeds => by
      cases succeeds
      exact ⟨follows.text content holds, trivial⟩
  | .conditional test body, expanded, holds, succeeds =>
      everywhere_of_rebuilt succeeds fun _ inside =>
        ⟨follows.around _ rfl trivial, expandAll_everywhere follows stands body holds.2 inside⟩
  | .choice branches otherwise, expanded, holds, succeeds => by
      obtain ⟨parts, inBranches, succeeds⟩ := bind_eq_ok_iff.mp succeeds
      obtain ⟨rest, inOtherwise, equal⟩ := bind_eq_ok_iff.mp succeeds
      cases equal
      have here := expandBranches_everywhere follows stands branches holds.2.1 inBranches
      have there := expandOtherwise_everywhere follows stands otherwise holds.2.2 inOtherwise
      exact ⟨⟨follows.around _ rfl trivial, here, there⟩, trivial⟩
  | .foreach loop body, expanded, holds, succeeds =>
      everywhere_of_rebuilt succeeds fun _ inside =>
        ⟨follows.around _ rfl trivial, expandAll_everywhere follows stands body holds.2 inside⟩
  | .trim trimming body, expanded, holds, succeeds =>
      everywhere_of_rebuilt succeeds fun _ inside =>
        ⟨follows.around _ rfl trivial, expandAll_everywhere follows stands body holds.2 inside⟩
  | .whereClause body, expanded, holds, succeeds =>
      everywhere_of_rebuilt succeeds fun _ inside =>
        ⟨follows.around _ rfl trivial, expandAll_everywhere follows stands body holds.2 inside⟩
  | .setClause body, expanded, holds, succeeds =>
      everywhere_of_rebuilt succeeds fun _ inside =>
        ⟨follows.around _ rfl trivial, expandAll_everywhere follows stands body holds.2 inside⟩
  | .reference name, expanded, _, succeeds => stands name expanded succeeds
  | .sequence body, expanded, holds, succeeds =>
      everywhere_of_rebuilt succeeds fun _ inside =>
        ⟨follows.around _ rfl trivial, expandAll_everywhere follows stands body holds.2 inside⟩

theorem expandAll_everywhere (follows : Node.Follows after before)
    (stands : ∀ name nodes, resolve name = .ok nodes → everywhere after nodes) :
    ∀ (nodes : List Node) {expanded : List Node},
      everywhere before nodes → expandAll resolve nodes = .ok expanded → everywhere after expanded
  | [], expanded, _, succeeds => by
      cases succeeds
      exact trivial
  | node :: nodes, expanded, holds, succeeds => by
      obtain ⟨first, inNode, succeeds⟩ := bind_eq_ok_iff.mp succeeds
      obtain ⟨others, inNodes, equal⟩ := bind_eq_ok_iff.mp succeeds
      cases equal
      have here := node.expand_everywhere follows stands holds.1 inNode
      have later := expandAll_everywhere follows stands nodes holds.2 inNodes
      exact everywhere_append.mpr ⟨here, later⟩

theorem expandBranches_everywhere (follows : Node.Follows after before)
    (stands : ∀ name nodes, resolve name = .ok nodes → everywhere after nodes) :
    ∀ (branches : List (String × List Node)) {expanded : List (String × List Node)},
      everywhereInBranches before branches → expandBranches resolve branches = .ok expanded →
        everywhereInBranches after expanded
  | [], expanded, _, succeeds => by
      cases succeeds
      exact trivial
  | (test, body) :: branches, expanded, holds, succeeds => by
      obtain ⟨nodes, inBody, succeeds⟩ := bind_eq_ok_iff.mp succeeds
      obtain ⟨others, inBranches, equal⟩ := bind_eq_ok_iff.mp succeeds
      cases equal
      exact ⟨expandAll_everywhere follows stands body holds.1 inBody,
        expandBranches_everywhere follows stands branches holds.2 inBranches⟩

theorem expandOtherwise_everywhere (follows : Node.Follows after before)
    (stands : ∀ name nodes, resolve name = .ok nodes → everywhere after nodes) :
    ∀ (otherwise : Option (List Node)) {expanded : Option (List Node)},
      everywhereInOtherwise before otherwise → expandOtherwise resolve otherwise = .ok expanded →
        everywhereInOtherwise after expanded
  | none, expanded, _, succeeds => by
      cases succeeds
      exact trivial
  | some body, expanded, holds, succeeds => by
      obtain ⟨nodes, inside, equal⟩ := bind_eq_ok_iff.mp succeeds
      cases equal
      exact expandAll_everywhere follows stands body holds inside
end

end Conditions

/-! ## Nodes without references -/

section NoReference

variable {resolve : ReferenceTable}

/-- A node that is built anew around a body that stays as it is. -/
theorem rebuilt_eq {body : Except ConfigFault (List Node)} {nodes : List Node}
    (same : body = .ok nodes) (build : List Node → Node) :
    (body >>= fun nodes => .ok [build nodes]) = .ok [build nodes] := by
  rw [same]
  rfl

mutual
/-- A node without references stays as it is. -/
theorem Node.expand_eq_self :
    ∀ (node : Node), node.Everywhere Node.IsNoReference → node.expand resolve = .ok [node]
  | .text content, _ => rfl
  | .conditional test body, free => rebuilt_eq (expandAll_eq_self body free.2) (.conditional test)
  | .choice branches otherwise, free => by
      rw [Node.expand, expandBranches_eq_self branches free.2.1,
        expandOtherwise_eq_self otherwise free.2.2]
      rfl
  | .foreach loop body, free => rebuilt_eq (expandAll_eq_self body free.2) (.foreach loop)
  | .trim trimming body, free => rebuilt_eq (expandAll_eq_self body free.2) (.trim trimming)
  | .whereClause body, free => rebuilt_eq (expandAll_eq_self body free.2) .whereClause
  | .setClause body, free => rebuilt_eq (expandAll_eq_self body free.2) .setClause
  | .reference name, free => False.elim free
  | .sequence body, free => rebuilt_eq (expandAll_eq_self body free.2) .sequence

theorem expandAll_eq_self :
    ∀ (nodes : List Node), everywhere Node.IsNoReference nodes →
      expandAll resolve nodes = .ok nodes
  | [], _ => rfl
  | node :: nodes, free => by
      rw [expandAll, node.expand_eq_self free.1, expandAll_eq_self nodes free.2]
      rfl

theorem expandBranches_eq_self :
    ∀ (branches : List (String × List Node)), everywhereInBranches Node.IsNoReference branches →
      expandBranches resolve branches = .ok branches
  | [], _ => rfl
  | (test, body) :: branches, free => by
      rw [expandBranches, expandAll_eq_self body free.1, expandBranches_eq_self branches free.2]
      rfl

theorem expandOtherwise_eq_self :
    ∀ (otherwise : Option (List Node)), everywhereInOtherwise Node.IsNoReference otherwise →
      expandOtherwise resolve otherwise = .ok otherwise
  | none, _ => rfl
  | some body, free => by
      rw [expandOtherwise, expandAll_eq_self body free]
      rfl
end

end NoReference

/-! ## Fragments that are put in -/

namespace FragmentTable

/-- The nodes of a fragment that is found are nodes of a fragment of the table. -/
theorem exists_mem_of_get? {table : FragmentTable} {reference : String} {nodes : List Node}
    (found : table.get? reference = some nodes) : ∃ id, (id, nodes) ∈ table.fragments := by
  rw [get?] at found
  generalize table.localName reference = name at found
  generalize table.fragments = fragments at found ⊢
  induction fragments with
  | nil => cases found
  | cons fragment fragments ih =>
      obtain ⟨id, body⟩ := fragment
      rw [List.lookup_cons] at found
      split at found
      · cases found
        exact ⟨id, List.mem_cons_self ..⟩
      · obtain ⟨other, listed⟩ := ih found
        exact ⟨other, List.mem_cons_of_mem _ listed⟩

/-- What references stand for fulfils a condition that follows from one in all fragments, however
deep references may go. -/
theorem resolve_everywhere {table : FragmentTable} {before after : Node → Prop}
    (follows : Node.Follows after before)
    (holds : ∀ id nodes, (id, nodes) ∈ table.fragments → everywhere before nodes)
    (remaining : Nat) :
    ∀ name nodes, table.resolve remaining name = .ok nodes → everywhere after nodes := by
  induction remaining with
  | zero =>
      intro reference nodes succeeds
      rw [resolve] at succeeds
      split at succeeds <;> cases succeeds
  | succ remaining ih =>
      intro reference nodes succeeds
      rw [resolve] at succeeds
      split at succeeds
      · cases succeeds
      · rename_i body found
        obtain ⟨id, listed⟩ := exists_mem_of_get? found
        exact expandAll_everywhere follows ih body (holds id body listed) succeeds

/-! ### Sound texts -/

/-- Sound texts stay sound, and expansion leaves no other nodes to ask for. -/
theorem isExpanded_follows : Node.Follows Node.IsExpanded Node.HasSoundText where
  text _ sound := sound
  around node noText noReference := by
    cases node with
    | text => cases noText
    | reference => exact noReference
    | conditional | choice | foreach | trim | whereClause | setClause | sequence => trivial

/-- A reference into fragments with sound texts stands for expanded nodes, however deep references
may go. -/
theorem resolve_isExpanded {table : FragmentTable}
    (sound : ∀ id nodes, (id, nodes) ∈ table.fragments → everywhere Node.HasSoundText nodes)
    (remaining : Nat) : ReferenceTable.IsExpanded (table.resolve remaining) :=
  resolve_everywhere isExpanded_follows sound remaining

/-- Where the texts of nodes and of all fragments are sound, the result of the expansion has sound
texts and no references, at any depth. -/
theorem expand_isExpanded {table : FragmentTable}
    (sound : ∀ id nodes, (id, nodes) ∈ table.fragments → everywhere Node.HasSoundText nodes)
    {nodes expanded : List Node} (texts : everywhere Node.HasSoundText nodes)
    (succeeds : table.expand nodes = .ok expanded) : everywhere Node.IsExpanded expanded :=
  expandAll_everywhere isExpanded_follows (resolve_isExpanded sound table.depth) nodes texts
    succeeds

/-! ### No references -/

/-- What nodes become has no references, whatever their texts are. -/
theorem expandAll_isNoReference {table : FragmentTable} {depth : Nat} {nodes expanded : List Node}
    (succeeds : expandAll (table.resolve depth) nodes = .ok expanded) :
    everywhere Node.IsNoReference expanded := by
  have follows : Node.Follows Node.IsNoReference fun _ => True :=
    ⟨fun _ _ => trivial, fun _ _ noReference => noReference⟩
  have any (nodes : List Node) : everywhere (fun _ => True) nodes :=
    everywhere_of_forall (fun _ => trivial) nodes
  have stands : ∀ name inner, table.resolve depth name = .ok inner →
      everywhere Node.IsNoReference inner :=
    resolve_everywhere follows (fun _ inner _ => any inner) depth
  exact expandAll_everywhere follows stands nodes (any nodes) succeeds

end FragmentTable

end SqlTemplate
