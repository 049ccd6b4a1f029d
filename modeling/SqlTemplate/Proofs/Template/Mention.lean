import SqlTemplate.Proofs.Expr.Words
import SqlTemplate.Proofs.Param.Mention
import SqlTemplate.Proofs.Template.Composition

/-!
# Parameters that a template does not mention

A template reads parameters through the paths that are written in it: the names of bound and of
spliced values, the collections of loops, and the words of tests.  **What it does not mention does
not matter** (`Node.generate_of_unmentioned`): parameters that differ only in a key that no path
mentions give the same statement with the same values, or the same fault.  For values by name the
template must not mention the name of the whole object either.

Two runs are compared in scopes that differ in their parameters only; what loops have bound is the
same in both, because the collections are (`Node.render_withParams`, by recursion over the
template).
-/

namespace SqlTemplate

set_option autoImplicit false

open Outcome

/-! ## Texts that read parameters -/

/-- The names of the values that are spliced into a text. -/
def TextNode.splicedNames (text : TextNode) : List String :=
  (boundNames (Text.pieces .spliced text.sql.toList)).map String.ofList

/-- The texts in which a node, apart from the nodes inside of it, asks for values. -/
def Node.queries : Node → List String
  | .text content => content.parameters ++ if content.isSpliced then content.splicedNames else []
  | .conditional test _ => Expr.words test
  | .choice branches _ => branches.flatMap fun (test, _) => Expr.words test
  | .foreach loop _ => [loop.collection]
  | _ => []

/-- Whether a node, apart from the nodes inside of it, reads the value of a name. -/
def Node.Mentions (name : String) (node : Node) : Prop :=
  ∃ text ∈ node.queries, Path.Mentions text name

instance (name : String) (node : Node) : Decidable (node.Mentions name) :=
  inferInstanceAs (Decidable (∃ text ∈ node.queries, Path.Mentions text name))

/-- A node that reads none of the names. -/
def Node.Avoids (hidden : List String) (node : Node) : Prop :=
  ∀ name ∈ hidden, ¬ node.Mentions name

instance (hidden : List String) (node : Node) : Decidable (node.Avoids hidden) :=
  inferInstanceAs (Decidable (∀ name ∈ hidden, ¬ node.Mentions name))

/-! ## Texts in two scopes -/

section

variable {left right : Scope}

theorem Scope.require_congr {name : String} (same : left.resolve name = right.resolve name)
    (sql : String) : left.require sql name = right.require sql name := by
  rw [require, require, same]

/-- Values are spliced in alike in scopes that agree on the names of the markers. -/
theorem TextNode.splice_congr {text : TextNode}
    (agree : ∀ name ∈ text.splicedNames, left.resolve name = right.resolve name) :
    text.splice left = text.splice right := by
  have parts : (Text.pieces .spliced text.sql.toList).mapM (splicePiece left text.raw) =
      (Text.pieces .spliced text.sql.toList).mapM (splicePiece right text.raw) := by
    refine mapM_congr fun piece listed => ?_
    cases piece with
    | char c => rfl
    | marker inside =>
        have spliced : String.ofList (Text.markedName inside) ∈ text.splicedNames :=
          List.mem_map_of_mem (List.mem_filterMap.mpr ⟨.marker inside, listed, rfl⟩)
        rw [splicePiece, splicePiece, Scope.require_congr (agree _ spliced)]
  rw [splice, splice, parts]

/-- A text is rendered alike in scopes that agree on the names that it asks for. -/
theorem TextNode.render_congr {text : TextNode}
    (agree : ∀ name ∈ (Node.text text).queries, left.resolve name = right.resolve name) :
    text.render left = text.render right := by
  have args : text.parameters.mapM (left.require text.raw) =
      text.parameters.mapM (right.require text.raw) := by
    apply mapM_congr
    intro name listed
    exact Scope.require_congr (agree name (List.mem_append_left _ listed)) text.raw
  rw [render, render, args]
  split
  · rename_i spliced
    rw [splice_congr]
    intro name listed
    apply agree name
    rw [Node.queries, if_pos spliced]
    exact List.mem_append_right _ listed
  · rfl

end

section

variable {hidden : List String} {left right : Params}

/-- What a node asks for writes no path to a hidden name. -/
theorem Node.Avoids.query {node : Node} (avoids : node.Avoids hidden) {text : String}
    (asks : text ∈ node.queries) : ∀ name ∈ hidden, ¬ Path.Mentions text name :=
  fun name isHidden mentions => avoids name isHidden ⟨text, asks, mentions⟩

/-! ## The parts of a template -/

theorem TextNode.render_withParams (agree : left.AgreeOutside hidden right) (scope : Scope)
    {text : TextNode} (avoids : (Node.text text).Avoids hidden) :
    text.render (scope.withParams left) = text.render (scope.withParams right) :=
  render_congr fun _ asked => Scope.resolve_withParams agree scope (avoids.query asked)

theorem Scope.holds_withParams (agree : left.AgreeOutside hidden right) (scope : Scope)
    {test : String} (unmentioned : ∀ word ∈ Expr.words test, ∀ name ∈ hidden,
      ¬ Path.Mentions word name) :
    (scope.withParams left).holds test = (scope.withParams right).holds test := by
  have evaluates : Expr.evaluateWith (.stateless (scope.withParams left).lookupWord) test =
      Expr.evaluateWith (.stateless (scope.withParams right).lookupWord) test := by
    refine Expr.evaluateWith_congr test fun word listed => funext fun state => ?_
    rw [Expr.Lookup.stateless, Expr.Lookup.stateless, lookupWord, lookupWord,
      resolve_withParams agree scope (unmentioned word listed)]
  rw [holds, holds, evaluates]

namespace Loop

theorem entries_withParams (agree : left.AgreeOutside hidden right) (scope : Scope) {loop : Loop}
    (unmentioned : ∀ name ∈ hidden, ¬ Path.Mentions loop.collection name) :
    loop.entries (scope.withParams left) = loop.entries (scope.withParams right) := by
  rw [entries, entries, Scope.require_congr (Scope.resolve_withParams agree scope unmentioned)]

/-- Binding an entry does not look at the parameters. -/
theorem bind_withParams (loop : Loop) (scope : Scope) (params : Params) (index item : Value) :
    loop.bind (scope.withParams params) index item =
      (loop.bind scope index item).withParams params := by
  simp only [bind]
  cases loop.item <;> cases loop.index <;> rfl

theorem parts_withParams (loop : Loop)
    {render : Scope → Except (Stop RenderError) (Option Fragment)}
    (body : ∀ scope : Scope,
      render (scope.withParams left) = render (scope.withParams right))
    (scope : Scope) (entries : List (Value × Value)) :
    loop.parts render (scope.withParams left) entries =
      loop.parts render (scope.withParams right) entries := by
  induction entries generalizing scope with
  | nil => rfl
  | cons entry entries ih =>
      obtain ⟨index, item⟩ := entry
      rw [parts, parts, bind_withParams, bind_withParams, body, ih]

end Loop

/-! ## Templates -/

mutual
/-- A node is rendered alike in scopes whose parameters differ only in names that nothing in it
mentions. -/
theorem Node.render_withParams (agree : left.AgreeOutside hidden right) :
    ∀ (node : Node), node.Everywhere (Node.Avoids hidden) → ∀ scope : Scope,
      node.render (scope.withParams left) = node.render (scope.withParams right)
  | .text content, avoids, scope =>
      congrArg reported (content.render_withParams agree scope avoids)
  | .conditional test body, avoids, scope => by
      have inside := joinAll_withParams agree body avoids.2 scope
      have holds := scope.holds_withParams agree fun word listed => avoids.1.query listed
      rw [Node.render, Node.render, holds, inside]
  | .choice branches otherwise, avoids, scope => by
      have chosen := renderBranch_withParams agree branches
        (fun word listed => avoids.1.query listed) avoids.2.1 scope
      have rest := renderOtherwise_withParams agree otherwise avoids.2.2 scope
      rw [Node.render, Node.render, chosen, rest]
  | .foreach loop body, avoids, scope => by
      have entries := Loop.entries_withParams agree scope
        (avoids.1.query (List.mem_singleton.mpr rfl))
      have parts := @Loop.parts_withParams left right loop
        (fun scope => (joinAll scope body).map Fragment.nonempty?)
        (fun scope => congrArg (Except.map Fragment.nonempty?)
          (joinAll_withParams agree body avoids.2 scope)) scope.nested
      rw [Node.render, Node.render, entries]
      refine congrArg _ (funext fun entries => ?_)
      exact congrArg (· >>= fun parts => .ok (loop.assemble parts).nonempty?) (parts entries)
  | .trim trimming body, avoids, scope => by
      rw [Node.render, Node.render, joinAll_withParams agree body avoids.2 scope]
  | .whereClause body, avoids, scope => by
      rw [Node.render, Node.render, joinAll_withParams agree body avoids.2 scope]
  | .setClause body, avoids, scope => by
      rw [Node.render, Node.render, joinAll_withParams agree body avoids.2 scope]
  | .reference name, _, _ => rfl
  | .sequence body, avoids, scope => by
      rw [Node.render, Node.render, joinAll_withParams agree body avoids.2 scope]

theorem joinAll_withParams (agree : left.AgreeOutside hidden right) :
    ∀ (nodes : List Node), everywhere (Node.Avoids hidden) nodes → ∀ scope : Scope,
      joinAll (scope.withParams left) nodes = joinAll (scope.withParams right) nodes
  | [], _, _ => rfl
  | node :: nodes, avoids, scope => by
      rw [joinAll, joinAll, node.render_withParams agree avoids.1 scope,
        joinAll_withParams agree nodes avoids.2 scope]

theorem renderBranch_withParams (agree : left.AgreeOutside hidden right) :
    ∀ (branches : List (String × List Node)),
      (∀ word ∈ branches.flatMap (fun (test, _) => Expr.words test), ∀ name ∈ hidden,
        ¬ Path.Mentions word name) →
      everywhereInBranches (Node.Avoids hidden) branches → ∀ scope : Scope,
        renderBranch (scope.withParams left) branches =
          renderBranch (scope.withParams right) branches
  | [], _, _, _ => rfl
  | (test, body) :: branches, unmentioned, avoids, scope => by
      have holds : (scope.withParams left).holds test = (scope.withParams right).holds test :=
        scope.holds_withParams agree fun word listed =>
          unmentioned word (List.mem_append_left _ listed)
      have others := renderBranch_withParams agree branches
        (fun word listed => unmentioned word (List.mem_append_right _ listed)) avoids.2 scope
      rw [renderBranch, renderBranch, holds, joinAll_withParams agree body avoids.1 scope, others]

theorem renderOtherwise_withParams (agree : left.AgreeOutside hidden right) :
    ∀ (otherwise : Option (List Node)), everywhereInOtherwise (Node.Avoids hidden) otherwise →
      ∀ scope : Scope, renderOtherwise (scope.withParams left) otherwise =
        renderOtherwise (scope.withParams right) otherwise
  | none, _, _ => rfl
  | some body, avoids, scope => by
      rw [renderOtherwise, renderOtherwise, joinAll_withParams agree body avoids scope]
end

/-- A whole template is rendered alike with parameters that differ only in names that nothing in it
mentions. -/
theorem Node.generate_withParams (agree : left.AgreeOutside hidden right) {node : Node}
    (avoids : node.Everywhere (Node.Avoids hidden)) : node.generate left = node.generate right := by
  rw [generate, generate]
  exact congrArg (· >>= fun part => .ok (part.getD .empty))
    (node.render_withParams agree avoids (.root left))

end

namespace Node

/-- **What a template does not mention does not matter.** If no path in a template mentions a key,
then adding the key to an accessor, removing it or changing its value leaves the outcome as it is,
text, values and fault; and so it is for an object, if no path mentions the whole object either. -/
theorem generate_of_unmentioned (node : Node) (key : String) :
    (node.Everywhere (Avoids [key, Params.wholeName]) →
        ∀ left right : List (String × Value),
          (∀ name, name ≠ key → left.lookup name = right.lookup name) →
            node.generate (.named left) = node.generate (.named right)) ∧
      (node.Everywhere (Avoids [key]) →
        ∀ left right : String → Option Value,
          (∀ name, name ≠ key → left name = right name) →
            node.generate (.accessor left) = node.generate (.accessor right)) := by
  constructor
  · intro avoids left right same
    exact generate_withParams (Params.named_agreeOutside same) avoids
  · intro avoids left right same
    exact generate_withParams (Params.accessor_agreeOutside same) avoids

/-- A search that reads a column name, a test, an item at a named position and a collection. -/
def orderSearch : Node :=
  .sequence [.text ⟨"SELECT ${column} FROM orders", "SELECT ${column} FROM orders", [], true⟩,
    .whereClause [
      .conditional "owner != nil and ids[first] > 0"
        [.text ⟨"AND owner = #{owner.name}", "AND owner = ?", ["owner.name"], false⟩],
      .foreach ⟨"ids", some "id", none, "AND id IN (", ", ", ")"⟩
        [.text ⟨"#{id}", "?", ["id"], false⟩]]]

theorem generate_of_unmentioned_orderSearch :
    orderSearch.Everywhere (Avoids ["password", Params.wholeName]) ∧
      orderSearch.generate (.named [("column", .text "total"), ("ids", .array [.ofNat 7])]) =
        orderSearch.generate (.named [("column", .text "total"), ("password", .text "secret"),
          ("ids", .array [.ofNat 7])]) := by
  have leaf (content : TextNode) (avoids : Avoids ["password", Params.wholeName] (.text content)) :
      (Node.text content).Everywhere (Avoids ["password", Params.wholeName]) := avoids
  have avoids : orderSearch.Everywhere (Avoids ["password", Params.wholeName]) :=
    ⟨by decide +kernel, leaf _ (by decide +kernel), ⟨by decide +kernel,
      ⟨by decide +kernel, leaf _ (by decide +kernel), trivial⟩,
      ⟨by decide +kernel, leaf _ (by decide +kernel), trivial⟩, trivial⟩, trivial⟩
  refine ⟨avoids, (orderSearch.generate_of_unmentioned "password").1 avoids _ _ ?_⟩
  intro name other
  simp only [List.lookup_cons, List.lookup_nil]
  have skipped : (name == "password") = false := beq_eq_false_iff_ne.mpr other
  simp only [skipped]

end Node

end SqlTemplate
