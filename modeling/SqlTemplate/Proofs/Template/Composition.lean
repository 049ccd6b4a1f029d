import SqlTemplate.Proofs.Template.ItemClause
import SqlTemplate.Proofs.Template.ItemText

/-!
# Every value at its question mark

Rendering builds the text of a statement and its values apart from each other.  Here a template is
composed to one sequence of characters and bound values (`Node.compose`): joining, clauses and
loops act on the sequence, and what is cut off or left out goes with its values.

**Rendering is composing**: the fragment that is rendered is the text and the values of the
sequence that is composed, or both stop for the same reason (`Node.generate_aligned`).  So there are
as many question marks as values, and each value stands in the order of its question mark.

The template has to be free of other question marks: in the texts that its nodes are made of, in
the texts around and between the parts of loops, and in the words and affixes of general clauses
(`Node.IsAligned`, at every node).
-/

namespace SqlTemplate

set_option autoImplicit false

open Outcome

/-! ## Loops -/

namespace Items

theorem glyphs_intercalate (separator : List Item) (parts : List (List Item)) :
    glyphs (separator.intercalate parts) =
      (glyphs separator).intercalate (parts.map glyphs) := by
  induction parts with
  | nil => rfl
  | cons part parts ih =>
      cases parts with
      | nil => rw [List.intercalate_singleton, List.map_singleton, List.intercalate_singleton]
      | cons next parts =>
          rw [List.intercalate_cons_cons, glyphs_append, glyphs_append, ih]
          exact List.intercalate_cons_cons.symm

theorem values_intercalate {separator : List Item} (noValues : values separator = [])
    (parts : List (List Item)) :
    values (separator.intercalate parts) = parts.flatMap values := by
  induction parts with
  | nil => rfl
  | cons part parts ih =>
      cases parts with
      | nil => rw [List.intercalate_singleton, List.flatMap_singleton]
      | cons next parts =>
          rw [List.intercalate_cons_cons, values_append, values_append, noValues, List.append_nil,
            ih]
          exact List.flatMap_cons.symm

theorem NoStray.intercalate {separator : List Item} {parts : List (List Item)}
    (separatorFree : NoStray separator) (free : ∀ part ∈ parts, NoStray part) :
    NoStray (separator.intercalate parts) := by
  induction parts with
  | nil => exact List.not_mem_nil
  | cons part parts ih =>
      have partFree := free part (List.mem_cons_self ..)
      have rest := ih fun other listed => free other (List.mem_cons_of_mem _ listed)
      cases parts with
      | nil =>
          rw [List.intercalate_singleton]
          exact partFree
      | cons next parts =>
          rw [List.intercalate_cons_cons]
          exact (partFree.append separatorFree).append rest

/-- The fragments of the parts of a loop, none of which has a stray question mark. -/
def ShowsAsParts (fragments : List Fragment) (parts : List (List Item)) : Prop :=
  fragments = parts.map fragment ∧ ∀ part ∈ parts, NoStray part

end Items

namespace Loop

/-- The sequences that the entries contribute, composed one after the other; an entry without items
contributes none. -/
def composeParts (loop : Loop) (compose : Scope → Except (Stop RenderError) (List Item)) :
    Scope → List (Value × Value) → Except (Stop RenderError) (List (List Item))
  | _, [] => .ok []
  | scope, (index, item) :: entries => do
      let scope := loop.bind scope index item
      let part ← compose scope
      let more ← composeParts loop compose scope entries
      .ok (if part.isEmpty then more else part :: more)

/-- The sequences of the entries with the texts of the loop around and between them. -/
def composed (loop : Loop) (parts : List (List Item)) : List Item :=
  Items.ofChars loop.opening.toList ++
    (Items.ofChars loop.separator.toList).intercalate parts ++ Items.ofChars loop.closing.toList

/-- A loop whose own texts have no question marks. -/
structure FreeOfMarks (loop : Loop) : Prop where
  opening : TextNode.placeholder ∉ loop.opening.toList
  separator : TextNode.placeholder ∉ loop.separator.toList
  closing : TextNode.placeholder ∉ loop.closing.toList

/-- If the body shows in every scope, the parts of the loop show. -/
theorem composeParts_related (loop : Loop)
    {render : Scope → Except (Stop RenderError) (Option Fragment)}
    {compose : Scope → Except (Stop RenderError) (List Item)}
    (body : ∀ scope, Related Eq Items.ShowsAsPart (render scope) (compose scope))
    (scope : Scope) (entries : List (Value × Value)) :
    Related Eq Items.ShowsAsParts (loop.parts render scope entries)
      (loop.composeParts compose scope entries) := by
  induction entries generalizing scope with
  | nil => exact .result ⟨rfl, fun part listed => nomatch listed⟩
  | cons entry entries ih =>
      obtain ⟨index, item⟩ := entry
      refine (body (loop.bind scope index item)).bind fun part items shows => ?_
      refine (ih (loop.bind scope index item)).bind fun fragments parts more => .result ?_
      obtain ⟨rfl, free⟩ := shows
      obtain ⟨rfl, moreFree⟩ := more
      cases items with
      | nil => exact ⟨rfl, moreFree⟩
      | cons first rest =>
          have hasText : (Items.fragment (first :: rest)).sql ≠ "" :=
            mt Items.fragment_sql_eq_empty_iff.mp (List.cons_ne_nil first rest)
          refine ⟨?_, List.forall_mem_cons.mpr ⟨free, moreFree⟩⟩
          rw [Fragment.nonempty?_of_ne hasText]
          rfl

/-- The texts of a loop around its parts. -/
theorem composed_shows {loop : Loop} (free : loop.FreeOfMarks) {fragments : List Fragment}
    {parts : List (List Item)} (shows : Items.ShowsAsParts fragments parts) :
    Items.ShowsAs (loop.assemble fragments) (loop.composed parts) := by
  obtain ⟨rfl, partsFree⟩ := shows
  have text : (loop.assemble (parts.map Items.fragment)).sql =
      .ofList (Items.glyphs (loop.composed parts)) := by
    rw [assemble, composed, ← String.toList_inj]
    simp only [String.toList_append, String.toList_intercalate, String.toList_ofList,
      Items.glyphs_append, Items.glyphs_ofChars, Items.glyphs_intercalate, List.map_map]
    congr 3
    exact List.map_congr_left fun part _ => String.toList_ofList
  have args : (loop.assemble (parts.map Items.fragment)).args =
      Items.values (loop.composed parts) := by
    rw [composed, Items.values_append, Items.values_append, Items.values_ofChars,
      Items.values_ofChars, Items.values_intercalate (Items.values_ofChars _), List.nil_append,
      List.append_nil]
    exact List.flatMap_map ..
  refine ⟨?_, ?_⟩
  · rw [Items.fragment, ← text, ← args]
  · exact ((Items.NoStray.ofChars free.opening).append
      (.intercalate (.ofChars free.separator) partsFree)).append (.ofChars free.closing)

end Loop

/-! ## Composing templates -/

mutual
/-- Composes a node to a sequence of items, which is empty where the node contributes nothing. -/
def Node.compose (scope : Scope) : Node → Except (Stop RenderError) (List Item)
  | .text content => reported (content.compose scope)
  | .conditional test body => do
      let holds ← if Text.isAllBlank test then .ok true else scope.holds test
      if holds then composeAll scope body else .ok []
  | .choice branches otherwise => do
      match ← composeBranch scope branches with
      | some items => .ok items
      | none => composeOtherwise scope otherwise
  | .foreach loop body => do
      let entries ← reported (loop.entries scope)
      let parts ← loop.composeParts (fun scope => composeAll scope body) scope.nested entries
      .ok (loop.composed parts)
  | .trim trimming body => (composeAll scope body).map (Items.trimmed trimming)
  | .whereClause body => (composeAll scope body).map Items.whereClause
  | .setClause body => (composeAll scope body).map Items.setClause
  | .reference name => .error (.fault (.config (.notExpanded name)))
  | .sequence body => composeAll scope body

/-- Composes nodes one after the other and joins their sequences. -/
def composeAll (scope : Scope) : List Node → Except (Stop RenderError) (List Item)
  | [] => .ok []
  | node :: nodes => do
      let items ← node.compose scope
      let more ← composeAll scope nodes
      .ok (Items.join items more)

/-- Composes the first branch whose test holds, if there is one. -/
def composeBranch (scope : Scope) :
    List (String × List Node) → Except (Stop RenderError) (Option (List Item))
  | [] => .ok none
  | (test, body) :: branches => do
      let holds ← scope.holds test
      if holds then (composeAll scope body).map some else composeBranch scope branches

/-- Composes the parts for the case that no test holds. -/
def composeOtherwise (scope : Scope) : Option (List Node) → Except (Stop RenderError) (List Item)
  | none => .ok []
  | some body => composeAll scope body
end

/-! ## A condition on every node -/

mutual
/-- A condition at a node and at every node inside of it. -/
def Node.Everywhere (holds : Node → Prop) : Node → Prop
  | .text content => holds (.text content)
  | .conditional test body => holds (.conditional test body) ∧ everywhere holds body
  | .choice branches otherwise =>
      holds (.choice branches otherwise) ∧ everywhereInBranches holds branches ∧
        everywhereInOtherwise holds otherwise
  | .foreach loop body => holds (.foreach loop body) ∧ everywhere holds body
  | .trim trimming body => holds (.trim trimming body) ∧ everywhere holds body
  | .whereClause body => holds (.whereClause body) ∧ everywhere holds body
  | .setClause body => holds (.setClause body) ∧ everywhere holds body
  | .reference name => holds (.reference name)
  | .sequence body => holds (.sequence body) ∧ everywhere holds body

/-- A condition at every node of a list and inside of them. -/
def everywhere (holds : Node → Prop) : List Node → Prop
  | [] => True
  | node :: nodes => node.Everywhere holds ∧ everywhere holds nodes

/-- A condition at every node of the branches of a choice. -/
def everywhereInBranches (holds : Node → Prop) : List (String × List Node) → Prop
  | [] => True
  | (_, body) :: branches => everywhere holds body ∧ everywhereInBranches holds branches

/-- A condition at every node for the case that no branch is taken. -/
def everywhereInOtherwise (holds : Node → Prop) : Option (List Node) → Prop
  | none => True
  | some body => everywhere holds body
end

/-- A node whose own texts show no question marks but those of its bound values. -/
def Node.IsAligned : Node → Prop
  | .text content => content.IsAligned
  | .foreach loop _ => loop.FreeOfMarks
  | .trim trimming _ => Items.FreeOfMarks trimming
  | _ => True

/-! ## Rendering is composing -/

namespace Items

/-- A part that a node contributes, in front of what the nodes after it give. -/
theorem ShowsAsPart.join {part : Option Fragment} {items more : List Item} {rest : Fragment}
    (first : ShowsAsPart part items) (others : ShowsAs rest more) :
    ShowsAs (part.getD .empty ++ rest) (join items more) := by
  obtain ⟨rfl, itemsFree⟩ := first
  obtain ⟨rfl, moreFree⟩ := others
  refine ⟨?_, itemsFree.join moreFree⟩
  rw [(fragment_isCarried items).getD_nonempty?, fragment_join]

/-- What nodes give together is what a group of them contributes. -/
theorem ShowsAs.part {fragment : Fragment} {items : List Item} (shows : ShowsAs fragment items) :
    ShowsAsPart fragment.nonempty? items := ⟨congrArg Fragment.nonempty? shows.1, shows.2⟩

theorem group_related {ε : Type} {outcome : Except ε Fragment}
    {composed : Except ε (List Item)} (body : Related Eq ShowsAs outcome composed) :
    Related Eq ShowsAsPart (outcome.map Fragment.nonempty?) composed :=
  body.map_left fun _ _ shows => shows.part

/-- A clause of what nodes give together. -/
theorem MakesClause.related {ε : Type} {make : List Char → Option (List Char)}
    {onItems : List Item → List Item} (makes : MakesClause make onItems)
    {outcome : Except ε Fragment} {composed : Except ε (List Item)}
    (body : Related Eq ShowsAs outcome composed) :
    Related Eq ShowsAsPart (do
      let fragment ← outcome
      .ok (fragment.nonempty?.bind (Fragment.clause? make))) (composed.map onItems) := by
  refine body.map fun fragment items shows => ?_
  obtain ⟨rfl, free⟩ := shows
  exact ⟨makes.clause?_fragment items, makes.noStray free⟩

/-- The branch that is taken, if one is, shows. -/
inductive ShowsAsBranch : Option (Option Fragment) → Option (List Item) → Prop
  | none : ShowsAsBranch none none
  | taken {part : Option Fragment} {items : List Item} :
      ShowsAsPart part items → ShowsAsBranch (some part) (some items)

end Items

mutual
/-- Rendering a node gives the fragment of the sequence that it composes. -/
theorem Node.compose_related : ∀ (node : Node), node.Everywhere Node.IsAligned →
    ∀ scope, Related Eq Items.ShowsAsPart (node.render scope) (node.compose scope)
  | .text content, aligned, scope => (content.compose_related scope aligned).reported
  | .conditional test body, aligned, scope => by
      have either (holds : Bool) : Related Eq Items.ShowsAsPart
          (if holds then (joinAll scope body).map Fragment.nonempty? else .ok none)
          (if holds then composeAll scope body else .ok []) := by
        cases holds with
        | true => exact Items.group_related (composeAll_related body aligned.2 scope)
        | false => exact .result ⟨rfl, List.not_mem_nil⟩
      rw [Node.render, Node.compose]
      split
      · exact either true
      · exact .bind_same fun holds _ => either holds
  | .choice branches otherwise, aligned, scope => by
      refine (composeBranch_related branches aligned.2.1 scope).bind fun part items chosen => ?_
      cases chosen with
      | none => exact composeOtherwise_related otherwise aligned.2.2 scope
      | taken shows => exact .result shows
  | .foreach loop body, aligned, scope => by
      refine .bind_same fun entries _ => ?_
      have parts := loop.composeParts_related
        (fun scope => Items.group_related (composeAll_related body aligned.2 scope))
        scope.nested entries
      exact parts.bind fun fragments parts shows =>
        .result (loop.composed_shows aligned.1 shows).part
  | .trim trimming body, aligned, scope =>
      (Items.trimmed_makesClause aligned.1).related (composeAll_related body aligned.2 scope)
  | .whereClause body, aligned, scope =>
      Items.where_makesClause.related (composeAll_related body aligned.2 scope)
  | .setClause body, aligned, scope =>
      Items.set_makesClause.related (composeAll_related body aligned.2 scope)
  | .reference name, _, _ => .fault rfl
  | .sequence body, aligned, scope =>
      Items.group_related (composeAll_related body aligned.2 scope)

theorem composeAll_related : ∀ (nodes : List Node), everywhere Node.IsAligned nodes →
    ∀ scope, Related Eq Items.ShowsAs (joinAll scope nodes) (composeAll scope nodes)
  | [], _, _ => .result ⟨rfl, List.not_mem_nil⟩
  | node :: nodes, aligned, scope =>
      (node.compose_related aligned.1 scope).bind fun _ _ first =>
        (composeAll_related nodes aligned.2 scope).bind fun _ _ others =>
          .result (first.join others)

theorem composeBranch_related : ∀ (branches : List (String × List Node)),
    everywhereInBranches Node.IsAligned branches →
      ∀ scope, Related Eq Items.ShowsAsBranch (renderBranch scope branches)
        (composeBranch scope branches)
  | [], _, _ => .result .none
  | (test, body) :: branches, aligned, scope => by
      refine .bind_same fun holds _ => ?_
      cases holds with
      | true =>
          exact (composeAll_related body aligned.1 scope).map fun _ _ shows => .taken shows.part
      | false => exact composeBranch_related branches aligned.2 scope

theorem composeOtherwise_related : ∀ (otherwise : Option (List Node)),
    everywhereInOtherwise Node.IsAligned otherwise →
      ∀ scope, Related Eq Items.ShowsAsPart (renderOtherwise scope otherwise)
        (composeOtherwise scope otherwise)
  | none, _, _ => .result ⟨rfl, List.not_mem_nil⟩
  | some body, aligned, scope =>
      Items.group_related (composeAll_related body aligned scope)
end

namespace Node

/-- Rendering a whole template gives the fragment of the sequence that it composes. -/
theorem generate_related {node : Node} (aligned : node.Everywhere IsAligned) (params : Params) :
    Related Eq Items.ShowsAs (node.generate params) (node.compose (.root params)) := by
  rw [generate]
  refine (node.compose_related aligned (.root params)).map_left fun part items shows => ?_
  obtain ⟨rfl, free⟩ := shows
  exact ⟨(Items.fragment_isCarried items).getD_nonempty?, free⟩

/-- **Every value at its question mark.** A template whose nodes are aligned renders to the text and
the values of the sequence that it composes, or both stop for the same reason.  A rendered fragment
has as many question marks as values, and each value is the one that is bound in the sequence where
its question mark shows. -/
theorem generate_aligned (node : Node) (aligned : node.Everywhere IsAligned) (params : Params) :
    node.generate params = (node.compose (.root params)).map Items.fragment ∧
      ∀ fragment, node.generate params = .ok fragment →
        fragment.sql.toList.count TextNode.placeholder = fragment.args.length ∧
          ∃ items, node.compose (.root params) = .ok items ∧ fragment = Items.fragment items ∧
            ∀ position, fragment.sql.toList[position]? = some TextNode.placeholder →
              ∃ value, items[position]? = some (.bound value) ∧
                fragment.args[(fragment.sql.toList.take position).count
                  TextNode.placeholder]? = some value := by
  have related := generate_related aligned params
  cases composed : node.compose (.root params) with
  | error fault =>
      rw [composed] at related
      generalize node.generate params = outcome at related ⊢
      cases related with
      | fault same =>
          cases same
          exact ⟨rfl, fun fragment equal => nomatch equal⟩
  | ok items =>
      rw [composed] at related
      generalize node.generate params = outcome at related ⊢
      cases related with
      | result shows =>
          obtain ⟨rfl, free⟩ := shows
          refine ⟨rfl, fun fragment equal => ?_⟩
          cases equal
          have text : (Items.fragment items).sql.toList = Items.glyphs items :=
            String.toList_ofList
          rw [text]
          exact ⟨Items.count_glyphs free, items, rfl, rfl, fun position shows =>
            Items.value_of_placeholder free shows⟩

/-- An update whose table is spliced in, with a comma to drop, and a loop inside its condition. -/
def cityUpdate : Node :=
  .sequence [.text ⟨"UPDATE ${table}", "UPDATE ${table}", [], true⟩,
    .setClause [.text ⟨"city = #{city},", "city = ?,", ["city"], false⟩],
    .whereClause [.text ⟨"AND id IN", "AND id IN", [], false⟩,
      .foreach ⟨"ids", some "id", none, "(", ", ", ")"⟩ [.text ⟨"#{id}", "?", ["id"], false⟩]]]

/-- The table, the city and the rows of an update. -/
def cityParams : Params :=
  .named [("table", .text "people"), ("city", .text "Oslo"), ("ids", .array [.ofNat 3, .ofNat 5])]

theorem generate_aligned_cityUpdate :
    cityUpdate.Everywhere IsAligned ∧
      cityUpdate.generate cityParams =
          (cityUpdate.compose (.root cityParams)).map Items.fragment ∧
        ∀ fragment, cityUpdate.generate cityParams = .ok fragment →
          fragment.sql.toList.count TextNode.placeholder = fragment.args.length ∧
            ∃ items, cityUpdate.compose (.root cityParams) = .ok items ∧
              fragment = Items.fragment items ∧
                ∀ position, fragment.sql.toList[position]? = some TextNode.placeholder →
                  ∃ value, items[position]? = some (.bound value) ∧
                    fragment.args[(fragment.sql.toList.take position).count
                      TextNode.placeholder]? = some value := by
  have aligned : cityUpdate.Everywhere IsAligned := by
    refine ⟨trivial, ⟨⟨"UPDATE ${table}", by decide, .inl rfl⟩, by decide⟩, ⟨trivial, ?_, trivial⟩,
      ⟨trivial, ?_, ⟨⟨by decide, by decide, by decide⟩, ?_, trivial⟩, trivial⟩, trivial⟩
    · exact ⟨⟨"\n  city = #{city},\n", by decide, .inl rfl⟩, by decide⟩
    · exact ⟨⟨"AND id IN ", by decide, .inr rfl⟩, by decide⟩
    · exact ⟨⟨"#{id}", by decide, .inl rfl⟩, by decide⟩
  exact ⟨aligned, cityUpdate.generate_aligned aligned cityParams⟩

end Node

end SqlTemplate
