import SqlTemplate.Proofs.Template.Expansion
import SqlTemplate.Proofs.Template.Mention

/-!
# Where the faults of rendering come from

Every kind of node has faults of its own (`Node.Raises`): a text whose names lead nowhere or whose
values cannot be spliced, a test that cannot be evaluated, a collection that is none, a reference
that was left in place.  Each of them names what the node asks for.  A node with a test may also be
aborted, if a remainder is written in the test (`Node.MayAbort`).

Rendering invents no others: **a template fails only with a fault that some node in it raises**
(`Node.exists_raised_of_generate`), and it is aborted only if some node in it may be
(`Node.exists_mayAbort_of_generate`).  So a condition at every node bounds how the whole stops
(`Node.render_failsOnly`), and a template without references fails only for the values that it is
given (`Node.isOfValues_of_generate`).
-/

namespace SqlTemplate

set_option autoImplicit false

open Outcome

/-! ## The faults of one node -/

/-- The faults of a text: a name of it writes no path or has no value, or a value of it cannot be
spliced. -/
inductive TextNode.Raises (text : TextNode) : RenderError → Prop where
  | invalidPath {name : String} (asked : name ∈ (Node.text text).queries) :
      Raises text (.invalidPath ⟨name⟩)
  | unresolved {name : String} (asked : name ∈ (Node.text text).queries) :
      Raises text (.unresolved name text.raw)
  | substitution {name : String} (spliced : name ∈ text.splicedNames) (cause : SpliceFault) :
      Raises text (.substitution name cause)

/-- The faults of a loop: its collection writes no path, has no value, or is no collection. -/
inductive Loop.Raises (loop : Loop) : RenderError → Prop where
  | invalidPath : Raises loop (.invalidPath ⟨loop.collection⟩)
  | unresolved : Raises loop (.unresolved loop.collection loop.heading)
  | notACollection (found : ScalarKind) : Raises loop (.notACollection loop.collection found)

/-- The faults of a node, apart from those of the nodes inside of it. -/
inductive Node.Raises : Node → RenderError → Prop where
  | text {content : TextNode} {fault : RenderError} (raised : content.Raises fault) :
      Raises (.text content) fault
  | test {test : String} {body : List Node} (cause : Expr.ExprError) :
      Raises (.conditional test body) (.expression test cause)
  | branch {branches : List (String × List Node)} {otherwise : Option (List Node)}
      {test : String} {body : List Node} (listed : (test, body) ∈ branches)
      (cause : Expr.ExprError) : Raises (.choice branches otherwise) (.expression test cause)
  | loop {loop : Loop} {body : List Node} {fault : RenderError} (raised : loop.Raises fault) :
      Raises (.foreach loop body) fault
  | reference {name : String} : Raises (.reference name) (.config (.notExpanded name))

/-- A node with a test in which a remainder is written. -/
inductive Node.MayAbort : Node → Prop where
  | test {test : String} {body : List Node} (written : Expr.HasRemainder test) :
      MayAbort (.conditional test body)
  | branch {branches : List (String × List Node)} {otherwise : Option (List Node)}
      {test : String} {body : List Node} (listed : (test, body) ∈ branches)
      (written : Expr.HasRemainder test) : MayAbort (.choice branches otherwise)

/-- How a node may stop, apart from the nodes inside of it. -/
inductive Node.StopsWith (node : Node) : Stop RenderError → Prop where
  | fault {cause : RenderError} (raised : node.Raises cause) : StopsWith node (.fault cause)
  | aborted (mayAbort : node.MayAbort) : StopsWith node .aborted

/-- Some node of a template, itself or inside of it, meets a condition. -/
def Node.Somewhere (holds : Node → Prop) (node : Node) : Prop :=
  ¬ node.Everywhere fun place => ¬ holds place

/-! ## The parts of a template -/

/-- A text that writes no path is the fault itself. -/
theorem Path.eq_of_ofString?_eq_error {text : String} {cause : InvalidPath}
    (fails : Path.ofString? text = .error cause) : cause = ⟨text⟩ := by
  rw [ofString?] at fails
  split at fails
  · cases fails
  · cases fails
    rfl

/-- Resolving a text fails only because it writes no path. -/
theorem Scope.resolve_failsOnly (scope : Scope) (text : String) :
    FailsOnly (· = ⟨text⟩) (scope.resolve text) := by
  apply FailsOnly.map
  intro cause fails
  exact Path.eq_of_ofString?_eq_error fails

/-- A name that has to have a value writes no path, or has none. -/
theorem Scope.require_failsOnly (scope : Scope) (sql name : String) :
    FailsOnly (fun fault => fault = .invalidPath ⟨name⟩ ∨ fault = .unresolved name sql)
      (scope.require sql name) := by
  rw [require]
  cases resolved : scope.resolve name with
  | error cause =>
      rw [scope.resolve_failsOnly name cause resolved]
      exact .error (.inl rfl)
  | ok found =>
      cases found with
      | none => exact .error (.inr rfl)
      | some value => exact .ok value

namespace TextNode

variable {text : TextNode}

/-- A name that a text asks for fails with a fault of the text. -/
theorem require_failsOnly (scope : Scope) {name : String}
    (asked : name ∈ (Node.text text).queries) :
    FailsOnly text.Raises (scope.require text.raw name) := by
  refine (scope.require_failsOnly text.raw name).imp fun fault kind => ?_
  rcases kind with rfl | rfl
  · exact .invalidPath asked
  · exact .unresolved asked

theorem splicePiece_failsOnly (scope : Scope) (spliced : text.isSpliced = true)
    {piece : Text.Piece} (listed : piece ∈ Text.pieces .spliced text.sql.toList) :
    FailsOnly text.Raises (splicePiece scope text.raw piece) := by
  cases piece with
  | char c => exact .ok [c]
  | marker inside =>
      have name : String.ofList (Text.markedName inside) ∈ text.splicedNames :=
        List.mem_map_of_mem (List.mem_filterMap.mpr ⟨.marker inside, listed, rfl⟩)
      have asked : String.ofList (Text.markedName inside) ∈ (Node.text text).queries := by
        rw [Node.queries, if_pos spliced]
        exact List.mem_append_right _ name
      refine (require_failsOnly scope asked).bind fun value => ?_
      refine FailsOnly.bind (.mapError fun cause => .substitution name cause) fun spelt => ?_
      exact .ok spelt.toList

/-- A text fails only with its own faults. -/
theorem render_failsOnly (scope : Scope) (text : TextNode) :
    FailsOnly text.Raises (text.render scope) := by
  have bound : FailsOnly text.Raises (text.parameters.mapM (scope.require text.raw)) :=
    .mapM fun name listed => require_failsOnly scope (List.mem_append_left _ listed)
  refine bound.bind fun args => ?_
  split
  · rename_i spliced
    have parts : FailsOnly text.Raises (text.splice scope) :=
      .bind (.mapM fun piece listed => splicePiece_failsOnly scope spliced listed) fun parts =>
        .ok _
    exact parts.bind fun sql => .ok _
  · exact .ok _

end TextNode

/-- How a test may stop. -/
inductive TestStopsWith (test : String) : Stop RenderError → Prop
  | fault (cause : Expr.ExprError) : TestStopsWith test (.fault (.expression test cause))
  | aborted (written : Expr.HasRemainder test) : TestStopsWith test .aborted

namespace TestStopsWith

variable {test : String} {stop : Stop RenderError}

theorem conditional (stops : TestStopsWith test stop) (body : List Node) :
    (Node.conditional test body).StopsWith stop := by
  cases stops with
  | fault cause => exact .fault (.test cause)
  | aborted written => exact .aborted (.test written)

theorem choice (stops : TestStopsWith test stop) {branches : List (String × List Node)}
    (otherwise : Option (List Node)) {body : List Node} (listed : (test, body) ∈ branches) :
    (Node.choice branches otherwise).StopsWith stop := by
  cases stops with
  | fault cause => exact .fault (.branch listed cause)
  | aborted written => exact .aborted (.branch listed written)

end TestStopsWith

/-- A test fails only as a test, and is aborted only for a remainder. -/
theorem Scope.holds_failsOnly (scope : Scope) (test : String) :
    FailsOnly (TestStopsWith test) (scope.holds test) := by
  rw [holds]
  cases evaluated : (Expr.evaluateWith (.stateless scope.lookupWord) test ()).outcome with
  | ok verdict => exact .ok verdict
  | error stop =>
      cases stop with
      | fault cause => exact .error (.fault cause)
      | aborted => exact .error (.aborted (Expr.hasRemainder_of_aborted evaluated))

namespace Loop

theorem entries_failsOnly (scope : Scope) (loop : Loop) :
    FailsOnly loop.Raises (loop.entries scope) := by
  have found : FailsOnly loop.Raises (scope.require loop.heading loop.collection) := by
    refine (scope.require_failsOnly loop.heading loop.collection).imp fun fault kind => ?_
    rcases kind with rfl | rfl
    · exact .invalidPath
    · exact .unresolved
  refine found.bind fun value => ?_
  cases value with
  | array items | object members | null => exact .ok _
  | bool truth | number number | text content => exact .error (.notACollection _)

theorem parts_failsOnly {holds : Stop RenderError → Prop} (loop : Loop)
    {render : Scope → Except (Stop RenderError) (Option Fragment)}
    (body : ∀ scope, FailsOnly holds (render scope)) (scope : Scope)
    (entries : List (Value × Value)) : FailsOnly holds (loop.parts render scope entries) := by
  induction entries generalizing scope with
  | nil => exact .ok []
  | cons entry entries ih =>
      obtain ⟨index, item⟩ := entry
      exact (body _).bind fun part => (ih _).bind fun more => .ok _

end Loop

/-! ## Templates -/

section

variable {condition : Node → Prop} {holds : Stop RenderError → Prop}

mutual
/-- If every node meets a condition under which a node stops only in some ways, then rendering
stops only in these ways. -/
theorem Node.render_failsOnly
    (stops : ∀ node stop, condition node → node.StopsWith stop → holds stop) :
    ∀ (node : Node), node.Everywhere condition → ∀ scope, FailsOnly holds (node.render scope)
  | .text content, met, scope =>
      ((content.render_failsOnly scope).imp fun _ raises =>
        stops _ _ met (.fault (.text raises))).reported
  | .conditional test body, met, scope => by
      have inside := joinAll_failsOnly stops body met.2 scope
      have tested : FailsOnly holds (scope.holds test) :=
        (scope.holds_failsOnly test).imp fun _ here => stops _ _ met.1 (here.conditional body)
      rw [Node.render]
      split
      · exact inside.map _
      · refine tested.bind fun verdict => ?_
        cases verdict with
        | true => exact inside.map _
        | false => exact .ok none
  | .choice branches otherwise, met, scope => by
      have tests : ∀ test body stop, (test, body) ∈ branches → TestStopsWith test stop →
          holds stop :=
        fun test body stop listed here => stops _ _ met.1 (here.choice otherwise listed)
      refine (renderBranch_failsOnly stops branches tests met.2.1 scope).bind fun part => ?_
      cases part with
      | some part => exact .ok part
      | none => exact renderOtherwise_failsOnly stops otherwise met.2.2 scope
  | .foreach loop body, met, scope => by
      have found : FailsOnly holds (reported (loop.entries scope)) :=
        ((loop.entries_failsOnly scope).imp fun _ raises =>
          stops _ _ met.1 (.fault (.loop raises))).reported
      refine found.bind fun entries => ?_
      have inside := loop.parts_failsOnly
        (fun scope => (joinAll_failsOnly stops body met.2 scope).map Fragment.nonempty?)
        scope.nested entries
      exact inside.bind fun parts => .ok _
  | .trim trimming body, met, scope =>
      (joinAll_failsOnly stops body met.2 scope).bind fun fragment => .ok _
  | .whereClause body, met, scope =>
      (joinAll_failsOnly stops body met.2 scope).bind fun fragment => .ok _
  | .setClause body, met, scope =>
      (joinAll_failsOnly stops body met.2 scope).bind fun fragment => .ok _
  | .reference name, met, scope => .error (stops _ _ met (.fault .reference))
  | .sequence body, met, scope => (joinAll_failsOnly stops body met.2 scope).map _

theorem joinAll_failsOnly
    (stops : ∀ node stop, condition node → node.StopsWith stop → holds stop) :
    ∀ (nodes : List Node), everywhere condition nodes → ∀ scope,
      FailsOnly holds (joinAll scope nodes)
  | [], _, _ => .ok Fragment.empty
  | node :: nodes, met, scope =>
      (node.render_failsOnly stops met.1 scope).bind fun _ =>
        (joinAll_failsOnly stops nodes met.2 scope).bind fun _ => .ok _

theorem renderBranch_failsOnly
    (stops : ∀ node stop, condition node → node.StopsWith stop → holds stop) :
    ∀ (branches : List (String × List Node)),
      (∀ test body stop, (test, body) ∈ branches → TestStopsWith test stop → holds stop) →
        everywhereInBranches condition branches → ∀ scope,
          FailsOnly holds (renderBranch scope branches)
  | [], _, _, scope => .ok none
  | (test, body) :: branches, tests, met, scope => by
      have tested : FailsOnly holds (scope.holds test) :=
        (scope.holds_failsOnly test).imp fun stop here =>
          tests test body stop (List.mem_cons_self ..) here
      have later := renderBranch_failsOnly stops branches
        (fun test body stop listed => tests test body stop (List.mem_cons_of_mem _ listed))
        met.2 scope
      refine tested.bind fun verdict => ?_
      cases verdict with
      | true => exact (joinAll_failsOnly stops body met.1 scope).map _
      | false => exact later

theorem renderOtherwise_failsOnly
    (stops : ∀ node stop, condition node → node.StopsWith stop → holds stop) :
    ∀ (otherwise : Option (List Node)), everywhereInOtherwise condition otherwise → ∀ scope,
      FailsOnly holds (renderOtherwise scope otherwise)
  | none, _, _ => .ok none
  | some body, met, scope => (joinAll_failsOnly stops body met scope).map _
end

end

namespace Node

variable {node : Node} {params : Params}

theorem generate_failsOnly {condition : Node → Prop} {holds : Stop RenderError → Prop}
    (stops : ∀ node stop, condition node → node.StopsWith stop → holds stop)
    (met : node.Everywhere condition) (params : Params) :
    FailsOnly holds (node.generate params) :=
  (node.render_failsOnly stops met (.root params)).bind fun _ => .ok _

/-- A template stops only if some node in it may stop in this way. -/
theorem somewhere_of_generate {holds : Node → Prop} {stop : Stop RenderError}
    (only : ∀ place : Node, place.StopsWith stop → holds place)
    (fails : node.generate params = .error stop) : node.Somewhere holds := by
  intro nowhere
  have others (place : Node) (other : Stop RenderError) (quiet : ¬ holds place)
      (stops : place.StopsWith other) : other ≠ stop := by
    rintro rfl
    exact quiet (only place stops)
  exact generate_failsOnly others nowhere params stop fails rfl

/-- **A template fails only with a fault that some node in it raises.** -/
theorem exists_raised_of_generate {fault : RenderError}
    (fails : node.generate params = .error (.fault fault)) :
    node.Somewhere fun place => place.Raises fault := by
  refine somewhere_of_generate (fun place stops => ?_) fails
  cases stops with
  | fault raised => exact raised

/-- **A template is aborted only if some test in it may be.** -/
theorem exists_mayAbort_of_generate (aborts : node.generate params = .error .aborted) :
    node.Somewhere MayAbort := by
  refine somewhere_of_generate (fun place stops => ?_) aborts
  cases stops with
  | aborted mayAbort => exact mayAbort

end Node

/-! ## Templates without references -/

/-- A fault that lies in the values, not in the configuration. -/
inductive RenderError.IsOfValues : RenderError → Prop where
  | expression (test : String) (cause : Expr.ExprError) : IsOfValues (.expression test cause)
  | invalidPath (cause : InvalidPath) : IsOfValues (.invalidPath cause)
  | unresolved (name sql : String) : IsOfValues (.unresolved name sql)
  | substitution (name : String) (cause : SpliceFault) : IsOfValues (.substitution name cause)
  | notACollection (name : String) (found : ScalarKind) : IsOfValues (.notACollection name found)

/-- A node that is no reference raises no fault of the configuration. -/
theorem Node.Raises.isOfValues {node : Node} {fault : RenderError} (expanded : node.IsExpanded)
    (raises : node.Raises fault) : fault.IsOfValues := by
  cases raises with
  | text raised =>
      cases raised with
      | invalidPath asked => exact .invalidPath _
      | unresolved asked => exact .unresolved _ _
      | substitution spliced cause => exact .substitution _ cause
  | test cause => exact .expression _ cause
  | branch listed cause => exact .expression _ cause
  | loop raised =>
      cases raised with
      | invalidPath => exact .invalidPath _
      | unresolved => exact .unresolved _ _
      | notACollection found => exact .notACollection _ found
  | reference => exact False.elim expanded

/-- A template without references fails only for the values that it is given. -/
theorem Node.isOfValues_of_generate {node : Node} (expanded : node.Everywhere Node.IsExpanded)
    {params : Params} {fault : RenderError}
    (fails : node.generate params = .error (.fault fault)) : fault.IsOfValues := by
  have each (place : Node) (stop : Stop RenderError) (here : place.IsExpanded)
      (stops : place.StopsWith stop) : ∀ cause, stop = .fault cause → cause.IsOfValues := by
    rintro cause rfl
    cases stops with
    | fault raised => exact raised.isOfValues here
  exact generate_failsOnly each expanded params _ fails fault rfl

end SqlTemplate
