import Mathlib.Logic.Relation
import SqlTemplate.Proofs.Outcome
import SqlTemplate.Proofs.Template.Expansion

/-!
# How deep references go

A reference leads to the references in the fragment that it means, at any depth of nodes inside
nodes.  Nesting of nodes costs nothing; only going from a reference into its fragment takes one of
the levels that are allowed.

**Expansion succeeds exactly where the references are closed and shallow**
(`FragmentTable.expand_iff_closed_and_shallow`): every reference that can be reached means a
fragment, and no chain of references is longer than the depth that is allowed.  The result has no
references and is the same for every depth that is enough.  So more depth never hurts, and where a
circle of fragments can be reached, no depth is enough.

Fragments may refer to each other in any way, so nothing about a table gets smaller from a reference
to the next.  What gets smaller is the depth that is left (`FragmentTable.resolve_succ_succeeds_iff`,
one level), and everything here is by induction on it.
-/

namespace SqlTemplate

set_option autoImplicit false

open Outcome

/-! ## The references in a node -/

mutual
/-- The references in a node, at any depth. -/
def Node.references : Node → List String
  | .text _ => []
  | .conditional _ body => referencesAll body
  | .choice branches otherwise => referencesInBranches branches ++ referencesInOtherwise otherwise
  | .foreach _ body => referencesAll body
  | .trim _ body => referencesAll body
  | .whereClause body => referencesAll body
  | .setClause body => referencesAll body
  | .reference name => [name]
  | .sequence body => referencesAll body

/-- The references in nodes. -/
def referencesAll : List Node → List String
  | [] => []
  | node :: nodes => node.references ++ referencesAll nodes

/-- The references in the branches of a choice. -/
def referencesInBranches : List (String × List Node) → List String
  | [] => []
  | (_, body) :: branches => referencesAll body ++ referencesInBranches branches

/-- The references in the parts for the case that no test holds. -/
def referencesInOtherwise : Option (List Node) → List String
  | none => []
  | some body => referencesAll body
end

/-! ## Expansion and the references that it replaces -/

section Expansion

variable {resolve : ReferenceTable}

mutual
/-- A node can be expanded exactly where each of its references stands for something. -/
theorem Node.expand_succeeds_iff :
    ∀ node : Node, Succeeds (node.expand resolve) ↔
      ∀ name ∈ node.references, Succeeds (resolve name)
  | .text content => iff_of_true ⟨[.text content], rfl⟩ (List.forall_mem_nil _)
  | .conditional _ body => succeeds_map_iff.trans (expandAll_succeeds_iff body)
  | .choice branches otherwise =>
      (succeeds_both_iff.trans (and_congr (expandBranches_succeeds_iff branches)
        (expandOtherwise_succeeds_iff otherwise))).trans List.forall_mem_append.symm
  | .foreach _ body => succeeds_map_iff.trans (expandAll_succeeds_iff body)
  | .trim _ body => succeeds_map_iff.trans (expandAll_succeeds_iff body)
  | .whereClause body => succeeds_map_iff.trans (expandAll_succeeds_iff body)
  | .setClause body => succeeds_map_iff.trans (expandAll_succeeds_iff body)
  | .reference _ => by rw [Node.expand, Node.references, List.forall_mem_singleton]
  | .sequence body => succeeds_map_iff.trans (expandAll_succeeds_iff body)

theorem expandAll_succeeds_iff :
    ∀ nodes : List Node, Succeeds (expandAll resolve nodes) ↔
      ∀ name ∈ referencesAll nodes, Succeeds (resolve name)
  | [] => iff_of_true ⟨[], rfl⟩ (List.forall_mem_nil _)
  | node :: nodes =>
      (succeeds_both_iff.trans (and_congr node.expand_succeeds_iff
        (expandAll_succeeds_iff nodes))).trans List.forall_mem_append.symm

theorem expandBranches_succeeds_iff :
    ∀ branches : List (String × List Node), Succeeds (expandBranches resolve branches) ↔
      ∀ name ∈ referencesInBranches branches, Succeeds (resolve name)
  | [] => iff_of_true ⟨[], rfl⟩ (List.forall_mem_nil _)
  | (_, body) :: branches =>
      (succeeds_both_iff.trans (and_congr (expandAll_succeeds_iff body)
        (expandBranches_succeeds_iff branches))).trans List.forall_mem_append.symm

theorem expandOtherwise_succeeds_iff :
    ∀ otherwise : Option (List Node), Succeeds (expandOtherwise resolve otherwise) ↔
      ∀ name ∈ referencesInOtherwise otherwise, Succeeds (resolve name)
  | none => iff_of_true ⟨none, rfl⟩ (List.forall_mem_nil _)
  | some body => succeeds_map_iff.trans (expandAll_succeeds_iff body)
end

/-! ### Tables that agree -/

section

variable {left right : ReferenceTable}

mutual
/-- Expansion looks at a table only for the references in a node. -/
theorem Node.expand_congr :
    ∀ node : Node, (∀ name ∈ node.references, left name = right name) →
      node.expand left = node.expand right
  | .text _, _ => rfl
  | .conditional test body, same => by
      rw [Node.expand, Node.expand, expandAll_congr body same]
  | .choice branches otherwise, same => by
      obtain ⟨inBranches, inOtherwise⟩ := List.forall_mem_append.mp same
      rw [Node.expand, Node.expand, expandBranches_congr branches inBranches,
        expandOtherwise_congr otherwise inOtherwise]
  | .foreach loop body, same => by
      rw [Node.expand, Node.expand, expandAll_congr body same]
  | .trim trimming body, same => by
      rw [Node.expand, Node.expand, expandAll_congr body same]
  | .whereClause body, same => by
      rw [Node.expand, Node.expand, expandAll_congr body same]
  | .setClause body, same => by
      rw [Node.expand, Node.expand, expandAll_congr body same]
  | .reference name, same => same name (List.mem_singleton.mpr rfl)
  | .sequence body, same => by
      rw [Node.expand, Node.expand, expandAll_congr body same]

theorem expandAll_congr :
    ∀ nodes : List Node, (∀ name ∈ referencesAll nodes, left name = right name) →
      expandAll left nodes = expandAll right nodes
  | [], _ => rfl
  | node :: nodes, same => by
      obtain ⟨inNode, inNodes⟩ := List.forall_mem_append.mp same
      rw [expandAll, expandAll, node.expand_congr inNode, expandAll_congr nodes inNodes]

theorem expandBranches_congr :
    ∀ branches : List (String × List Node),
      (∀ name ∈ referencesInBranches branches, left name = right name) →
        expandBranches left branches = expandBranches right branches
  | [], _ => rfl
  | (_, body) :: branches, same => by
      obtain ⟨inBody, inBranches⟩ := List.forall_mem_append.mp same
      rw [expandBranches, expandBranches, expandAll_congr body inBody,
        expandBranches_congr branches inBranches]

theorem expandOtherwise_congr :
    ∀ otherwise : Option (List Node),
      (∀ name ∈ referencesInOtherwise otherwise, left name = right name) →
        expandOtherwise left otherwise = expandOtherwise right otherwise
  | none, _ => rfl
  | some body, same => by
      rw [expandOtherwise, expandOtherwise, expandAll_congr body same]
end

/-- Nodes that can be expanded with one table become the same nodes with a table that knows more. -/
theorem expandAll_of_knows
    (knows : ∀ name inner, left name = .ok inner → right name = .ok inner)
    {nodes expanded : List Node} (expands : expandAll left nodes = .ok expanded) :
    expandAll right nodes = .ok expanded := by
  rw [← expands]
  refine (expandAll_congr nodes fun name listed => ?_).symm
  obtain ⟨inner, here⟩ := (expandAll_succeeds_iff nodes).mp ⟨expanded, expands⟩ name listed
  rw [here, knows name inner here]

end

end Expansion

/-! ## From reference to reference -/

namespace FragmentTable

variable {table : FragmentTable}

/-- The identifier that a reference means: what stands behind the namespace and a point, and all of
a reference that does not begin with them. -/
def Means (table : FragmentTable) (reference id : String) : Prop :=
  reference.toList = table.namespaceName.toList ++ '.' :: id.toList ∨
    (∀ rest, reference.toList ≠ table.namespaceName.toList ++ '.' :: rest) ∧ id = reference

/-- The nodes of the fragment that a reference means. -/
def Opens (table : FragmentTable) (reference : String) (nodes : List Node) : Prop :=
  ∃ id, table.Means reference id ∧ table.fragments.lookup id = some nodes

/-- Whether a reference means a fragment. -/
def Names (table : FragmentTable) (reference : String) : Prop :=
  ∃ nodes, table.Opens reference nodes

/-- A reference leads to those in the fragment that it means. -/
def Leads (table : FragmentTable) (reference next : String) : Prop :=
  ∃ nodes, table.Opens reference nodes ∧ next ∈ referencesAll nodes

theorem means_iff {reference id : String} :
    table.Means reference id ↔ table.localName reference = id := by
  have split (rest : List Char) : (table.namespaceName.toList ++ ['.']) ++ rest =
      table.namespaceName.toList ++ '.' :: rest := (List.append_cons _ _ _).symm
  rw [localName]
  cases found : (table.namespaceName.toList ++ ['.']).isPrefixOf? reference.toList with
  | some rest =>
      have whole := List.isPrefixOf?_eq_some_iff_append_eq.mp found
      rw [split] at whole
      constructor
      · rintro (behind | ⟨other, _⟩)
        · rw [behind, List.append_cancel_left_eq, List.cons.injEq] at whole
          show String.ofList rest = id
          rw [whole.2, String.ofList_toList]
        · exact absurd whole.symm (other rest)
      · rintro rfl
        rw [Means, String.toList_ofList]
        exact .inl whole.symm
  | none =>
      have other (rest : List Char) :
          reference.toList ≠ table.namespaceName.toList ++ '.' :: rest := by
        intro whole
        rw [← split] at whole
        rw [List.isPrefixOf?_eq_some_iff_append_eq.mpr whole.symm] at found
        cases found
      constructor
      · rintro (behind | ⟨_, rfl⟩)
        · exact absurd behind (other _)
        · rfl
      · rintro rfl
        exact .inr ⟨other, rfl⟩

theorem opens_iff {reference : String} {nodes : List Node} :
    table.Opens reference nodes ↔ table.get? reference = some nodes := by
  simp only [Opens, means_iff, get?, exists_eq_left']

/-- What a reference to a fragment stands for, if references may still go one level deeper than in
the fragment. -/
theorem resolve_succ_of_opens {reference : String} {nodes : List Node}
    (opens : table.Opens reference nodes) (depth : Nat) :
    table.resolve (depth + 1) reference = expandAll (table.resolve depth) nodes := by
  rw [resolve, opens_iff.mp opens]

/-- Where no level is left, no reference stands for anything. -/
theorem resolve_zero_fails (reference : String) : ¬ Succeeds (table.resolve 0 reference) := by
  rw [not_succeeds_iff, resolve]
  split
  · exact ⟨_, rfl⟩
  · exact ⟨_, rfl⟩

/-- **One level.** A reference stands for something exactly where it means a fragment and all
references in the fragment stand for something one level deeper. -/
theorem resolve_succ_succeeds_iff {depth : Nat} {reference : String} :
    Succeeds (table.resolve (depth + 1) reference) ↔
      table.Names reference ∧
        ∀ next, table.Leads reference next → Succeeds (table.resolve depth next) := by
  constructor
  · intro succeeds
    cases found : table.get? reference with
    | none =>
        obtain ⟨nodes, equal⟩ := succeeds
        rw [resolve, found] at equal
        cases equal
    | some nodes =>
        have opens : table.Opens reference nodes := opens_iff.mpr found
        rw [resolve_succ_of_opens opens, expandAll_succeeds_iff] at succeeds
        refine ⟨⟨nodes, opens⟩, ?_⟩
        rintro next ⟨others, opensToo, listed⟩
        cases found.symm.trans (opens_iff.mp opensToo)
        exact succeeds next listed
  · rintro ⟨⟨nodes, opens⟩, each⟩
    rw [resolve_succ_of_opens opens, expandAll_succeeds_iff]
    exact fun next listed => each next ⟨nodes, opens, listed⟩

/-- A reference stands for something exactly where every reference that can be reached from it means
a fragment, and the chains that begin with it are no longer than the depth. -/
theorem resolve_succeeds_iff {depth : Nat} {reference : String} :
    Succeeds (table.resolve depth reference) ↔
      (∀ other, Relation.ReflTransGen table.Leads reference other → table.Names other) ∧
        ∀ chain, (reference :: chain).IsChain table.Leads → chain.length < depth := by
  induction depth generalizing reference with
  | zero =>
      refine iff_of_false (resolve_zero_fails reference) fun shallow => ?_
      exact Nat.not_lt_zero _ (shallow.2 [] (.singleton reference))
  | succ depth ih =>
      rw [resolve_succ_succeeds_iff]
      constructor
      · rintro ⟨named, each⟩
        refine ⟨fun other reached => ?_, fun chain linked => ?_⟩
        · rcases Relation.ReflTransGen.cases_head_iff.mp reached with rfl | ⟨next, leads, further⟩
          · exact named
          · exact (ih.mp (each next leads)).1 other further
        · cases chain with
          | nil => exact Nat.succ_pos depth
          | cons next chain =>
              obtain ⟨leads, linked⟩ := List.isChain_cons_cons.mp linked
              exact Nat.succ_lt_succ ((ih.mp (each next leads)).2 chain linked)
      · rintro ⟨closed, shallow⟩
        refine ⟨closed reference .refl, fun next leads => ih.mpr ⟨fun other further => ?_, ?_⟩⟩
        · exact closed other (.head leads further)
        · intro chain linked
          exact Nat.lt_of_succ_lt_succ
            (shallow (next :: chain) (List.isChain_cons_cons.mpr ⟨leads, linked⟩))

/-- What a reference stands for does not depend on the depth, if the depth is enough. -/
theorem resolve_of_le {depth : Nat} {reference : String} {nodes : List Node}
    (stands : table.resolve depth reference = .ok nodes) {deeper : Nat} (enough : depth ≤ deeper) :
    table.resolve deeper reference = .ok nodes := by
  induction depth generalizing deeper reference nodes with
  | zero => exact absurd ⟨nodes, stands⟩ (resolve_zero_fails reference)
  | succ depth ih =>
      obtain ⟨deeper, rfl⟩ : ∃ less, deeper = less + 1 := ⟨deeper - 1, by omega⟩
      have enough : depth ≤ deeper := Nat.le_of_succ_le_succ enough
      obtain ⟨⟨body, opens⟩, _⟩ := resolve_succ_succeeds_iff.mp ⟨nodes, stands⟩
      rw [resolve_succ_of_opens opens] at stands ⊢
      exact expandAll_of_knows (fun name inner here => ih here enough) stands

/-! ## Circles -/

/-- References that mean the same fragment stand for something to the same depths. -/
theorem resolve_succeeds_congr {left right id : String} (leftMeans : table.Means left id)
    (rightMeans : table.Means right id) {depth : Nat}
    (succeeds : Succeeds (table.resolve depth left)) : Succeeds (table.resolve depth right) := by
  cases depth with
  | zero => exact absurd succeeds (resolve_zero_fails left)
  | succ depth =>
      obtain ⟨⟨nodes, opens⟩, each⟩ := resolve_succ_succeeds_iff.mp succeeds
      have same : table.get? right = table.get? left := by
        rw [get?, get?, means_iff.mp leftMeans, means_iff.mp rightMeans]
      have opensToo : table.Opens right nodes := opens_iff.mpr (same.trans (opens_iff.mp opens))
      obtain ⟨expanded, stands⟩ := succeeds
      rw [resolve_succ_of_opens opens] at stands
      rw [resolve_succ_of_opens opensToo]
      exact ⟨expanded, stands⟩

/-- What a reference leads to stands for something with less depth. -/
theorem exists_lt_of_leads {reference other : String}
    (leads : Relation.TransGen table.Leads reference other) {depth : Nat}
    (succeeds : Succeeds (table.resolve depth reference)) :
    ∃ less, less < depth ∧ Succeeds (table.resolve less other) := by
  induction leads with
  | single leads =>
      cases depth with
      | zero => exact absurd succeeds (resolve_zero_fails reference)
      | succ depth =>
          exact ⟨depth, Nat.lt_succ_self depth,
            (resolve_succ_succeeds_iff.mp succeeds).2 _ leads⟩
  | tail _ leads ih =>
      obtain ⟨less, below, here⟩ := ih
      cases less with
      | zero => exact absurd here (resolve_zero_fails _)
      | succ less =>
          exact ⟨less, by omega, (resolve_succ_succeeds_iff.mp here).2 _ leads⟩

/-- A reference that leads back into the fragment that it means stands for nothing, to any depth. -/
theorem resolve_fails_of_circle {reference again id : String}
    (leads : Relation.TransGen table.Leads reference again) (means : table.Means reference id)
    (back : table.Means again id) (depth : Nat) : ¬ Succeeds (table.resolve depth reference) := by
  induction depth using Nat.strongRecOn with
  | ind depth ih =>
      intro succeeds
      obtain ⟨less, below, there⟩ := exists_lt_of_leads leads succeeds
      exact ih less below (resolve_succeeds_congr back means there)

/-! ## Bodies -/

/-- A reference that can be reached from nodes, through fragments. -/
def Reaches (table : FragmentTable) (nodes : List Node) (reference : String) : Prop :=
  ∃ first ∈ referencesAll nodes, Relation.ReflTransGen table.Leads first reference

/-- A chain of references that starts in nodes, each in the fragment that the one before it
means. -/
def IsChainFrom (table : FragmentTable) (nodes : List Node) (chain : List String) : Prop :=
  chain.IsChain table.Leads ∧ ∀ first, chain.head? = some first → first ∈ referencesAll nodes

/-- Nodes from which a circle of fragments can be reached: a reference leads back into the fragment
that it means. -/
def ReachesCircle (table : FragmentTable) (nodes : List Node) : Prop :=
  ∃ reference again id, table.Reaches nodes reference ∧
    Relation.TransGen table.Leads reference again ∧ table.Means reference id ∧ table.Means again id

/-- Nodes can be expanded to a depth exactly where the references that can be reached mean fragments
and no chain of references is longer than the depth. -/
theorem expandAll_resolve_succeeds_iff {depth : Nat} {nodes : List Node} :
    Succeeds (expandAll (table.resolve depth) nodes) ↔
      (∀ reference, table.Reaches nodes reference → table.Names reference) ∧
        ∀ chain, table.IsChainFrom nodes chain → chain.length ≤ depth := by
  rw [expandAll_succeeds_iff]
  constructor
  · intro each
    refine ⟨?_, ?_⟩
    · rintro reference ⟨first, listed, reached⟩
      exact (resolve_succeeds_iff.mp (each first listed)).1 reference reached
    · rintro chain ⟨linked, starts⟩
      cases chain with
      | nil => exact Nat.zero_le depth
      | cons first chain =>
          exact (resolve_succeeds_iff.mp (each first (starts first rfl))).2 chain linked
  · rintro ⟨closed, shallow⟩ first listed
    refine resolve_succeeds_iff.mpr ⟨fun other reached => ?_, fun chain linked => ?_⟩
    · exact closed other ⟨first, listed, reached⟩
    · exact shallow (first :: chain) ⟨linked, fun _ equal => Option.some.inj equal ▸ listed⟩

/-- Nodes that can be expanded become the same nodes to every depth that is at least as large. -/
theorem expandAll_resolve_of_le {depth deeper : Nat} {nodes expanded : List Node}
    (expands : expandAll (table.resolve depth) nodes = .ok expanded) (enough : depth ≤ deeper) :
    expandAll (table.resolve deeper) nodes = .ok expanded :=
  expandAll_of_knows (fun _ _ here => resolve_of_le here enough) expands

/-- Every reference that can be reached stands for something, if the nodes can be expanded. -/
theorem exists_resolve_of_reaches {depth : Nat} {nodes : List Node} {reference : String}
    (succeeds : Succeeds (expandAll (table.resolve depth) nodes))
    (reaches : table.Reaches nodes reference) :
    ∃ less, Succeeds (table.resolve less reference) := by
  obtain ⟨first, listed, reached⟩ := reaches
  have here := (expandAll_succeeds_iff nodes).mp succeeds first listed
  rcases Relation.reflTransGen_iff_eq_or_transGen.mp reached with rfl | leads
  · exact ⟨depth, here⟩
  · obtain ⟨less, _, there⟩ := exists_lt_of_leads leads here
    exact ⟨less, there⟩

/-- **Expansion succeeds exactly where the references are closed and shallow.** To a given depth,
nodes can be expanded if and only if every reference that can be reached from them means a fragment
and no chain of references that starts in them is longer than the depth.  The result has no
references; it is the result to every larger depth, and to every depth to which there is one.  Where
a circle of fragments can be reached, no depth is enough. -/
theorem expand_iff_closed_and_shallow (table : FragmentTable) (nodes : List Node) :
    (∀ depth, (∃ expanded, expandAll (table.resolve depth) nodes = .ok expanded) ↔
        (∀ reference, table.Reaches nodes reference → table.Names reference) ∧
          ∀ chain, table.IsChainFrom nodes chain → chain.length ≤ depth) ∧
      (∀ depth expanded, expandAll (table.resolve depth) nodes = .ok expanded →
        everywhere Node.IsNoReference expanded ∧
          (∀ deeper, depth ≤ deeper → expandAll (table.resolve deeper) nodes = .ok expanded) ∧
            ∀ other result, expandAll (table.resolve other) nodes = .ok result →
              result = expanded) ∧
        (table.ReachesCircle nodes →
          ∀ depth, ∃ fault, expandAll (table.resolve depth) nodes = .error fault) := by
  refine ⟨fun depth => expandAll_resolve_succeeds_iff, fun depth expanded expands => ?_, ?_⟩
  · refine ⟨expandAll_isNoReference expands, fun deeper => expandAll_resolve_of_le expands,
      fun other result gives => ?_⟩
    have left := expandAll_resolve_of_le expands (Nat.le_max_left depth other)
    have right := expandAll_resolve_of_le gives (Nat.le_max_right depth other)
    exact Except.ok.inj (right.symm.trans left)
  · rintro ⟨reference, again, id, reaches, leads, means, back⟩ depth
    rw [← not_succeeds_iff]
    intro succeeds
    obtain ⟨less, here⟩ := exists_resolve_of_reaches succeeds reaches
    exact resolve_fails_of_circle leads means back less here

/-- A mapper with a fragment inside of a fragment, and with two that refer to each other. -/
def ringTable : FragmentTable where
  location := "orders.xml"
  namespaceName := "orders"
  fragments :=
    [("cell", [.text ⟨"#{item}", "?", ["item"], false⟩]),
      ("row", [.conditional "item != nil" [.reference "orders.cell"]]),
      ("left", [.reference "orders.right"]),
      ("right", [.whereClause [.text ⟨"AND", "AND", [], false⟩, .reference "left"]])]
  depth := 8

/-- From one half of the ring the other one leads back to it. -/
theorem ringTable_reachesCircle : ringTable.ReachesCircle [.reference "left"] := by
  have there : ringTable.Leads "left" "orders.right" :=
    ⟨[.reference "orders.right"], opens_iff.mpr rfl, List.mem_singleton.mpr rfl⟩
  have back : ringTable.Leads "orders.right" "left" :=
    ⟨[.whereClause [.text ⟨"AND", "AND", [], false⟩, .reference "left"]], opens_iff.mpr rfl,
      List.mem_singleton.mpr rfl⟩
  have means : ringTable.Means "left" "left" := means_iff.mpr rfl
  exact ⟨"left", "left", "left", ⟨"left", List.mem_singleton.mpr rfl, .refl⟩,
    .tail (.single there) back, means, means⟩

theorem expand_iff_closed_and_shallow_ring :
    expandAll (ringTable.resolve 2) [.reference "row"] =
        .ok [.conditional "item != nil" [.text ⟨"#{item}", "?", ["item"], false⟩]] ∧
      ((∀ reference, ringTable.Reaches [.reference "row"] reference →
          ringTable.Names reference) ∧
        ∀ chain, ringTable.IsChainFrom [.reference "row"] chain → chain.length ≤ 2) ∧
      expandAll (ringTable.resolve 9) [.reference "row"] =
        .ok [.conditional "item != nil" [.text ⟨"#{item}", "?", ["item"], false⟩]] ∧
      ringTable.ReachesCircle [.reference "left"] ∧
        ∀ depth, ∃ fault, expandAll (ringTable.resolve depth) [.reference "left"] =
          .error fault := by
  have expands : expandAll (ringTable.resolve 2) [.reference "row"] =
      .ok [.conditional "item != nil" [.text ⟨"#{item}", "?", ["item"], false⟩]] := rfl
  have ⟨succeeds, depends, _⟩ := ringTable.expand_iff_closed_and_shallow [.reference "row"]
  have ⟨_, _, fails⟩ := ringTable.expand_iff_closed_and_shallow [.reference "left"]
  exact ⟨expands, (succeeds 2).mp ⟨_, expands⟩, (depends 2 _ expands).2.1 9 (by decide),
    ringTable_reachesCircle, fails ringTable_reachesCircle⟩

end FragmentTable

end SqlTemplate
