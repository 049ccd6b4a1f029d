import SqlTemplate.Decimal.Layout
import SqlTemplate.Expr.Evaluate
import SqlTemplate.Param.Resolve
import SqlTemplate.Template.Error
import SqlTemplate.Template.Fragment
import SqlTemplate.Template.Node

/-!
# Rendering of templates

A template is rendered in a scope.  The result is a fragment, or nothing where the node contributes
nothing; a fragment that a node contributes always has text.

* **Text** binds its parameters and splices values in, from left to right and without looking at a
  spliced value again.
* **Conditions and choices** evaluate their tests in order, and a condition with a blank test holds.
  The evaluation of a test may be aborted, and nothing else may.
* **Loops** run over the items of an array, or over the members of an object in ascending order of
  their keys, in one scope that is rebound for each entry.
* **Clauses** change the text at its ends and keep the bound values.
-/

namespace SqlTemplate

set_option autoImplicit false

/-! ## Text -/

/-- The value of a name that has to have one; `sql` is the text that asks for it. -/
def Scope.require (scope : Scope) (sql name : String) : Except RenderError Value :=
  match scope.resolve name with
  | .ok (some value) => .ok value
  | .ok none => .error (.unresolved name sql)
  | .error cause => .error (.invalidPath cause)

/-- The text of a number. -/
def Number.text : Number → String
  | .whole value => toString value
  | .float value => floatText value

/-- The text that is spliced in for a value: arrays and objects have none, and no text with a
question mark may be spliced in, because it would count as a bound value. -/
def Value.spliceText (value : Value) : Except SpliceFault String := do
  let text ← match value with
    | .text content => .ok content
    | .number n => .ok n.text
    | .bool truth => .ok (if truth then "1" else "0")
    | .null => .ok "NULL"
    | .array _ | .object _ => .error .composite
  if text.toList.contains TextNode.placeholder then .error .placeholderCharacter else .ok text

namespace TextNode

/-- The text of one piece of a text node, with the value of a marker spliced in. -/
def splicePiece (scope : Scope) (raw : String) : Text.Piece → Except RenderError (List Char)
  | .char c => .ok [c]
  | .marker inside => do
      let name := String.ofList (Text.markedName inside)
      let value ← scope.require raw name
      let text ← value.spliceText.mapError (RenderError.substitution name)
      .ok text.toList

/-- The text of a text node with all values spliced in. -/
def splice (scope : Scope) (text : TextNode) : Except RenderError String := do
  let parts ← (Text.pieces .spliced text.sql.toList).mapM (splicePiece scope text.raw)
  .ok (.ofList parts.flatten)

/-- Renders a text node. -/
def render (scope : Scope) (text : TextNode) : Except RenderError (Option Fragment) := do
  let args ← text.parameters.mapM (scope.require text.raw)
  let sql ← if text.isSpliced then text.splice scope else .ok text.sql
  .ok (Fragment.nonempty? ⟨sql, args⟩)

end TextNode

/-! ## Tests -/

/-- Whether a test holds. -/
def Scope.holds (scope : Scope) (test : String) : Except (Stop RenderError) Bool :=
  (Expr.evaluateWith (.stateless scope.lookupWord) test ()).outcome.mapError
    (Stop.map (RenderError.expression test))

/-! ## Loops -/

/-- The entries of an object in ascending order of their keys. -/
def sortedMembers (members : List (String × Value)) : List (String × Value) :=
  members.mergeSort fun left right => left.1 ≤ right.1

namespace Loop

/-- The text that a fault in a loop is reported for. -/
def heading (loop : Loop) : String := "<foreach collection=\"" ++ loop.collection ++ "\">"

/-- The entries that a loop runs over, as indexes with their items. -/
def entries (scope : Scope) (loop : Loop) : Except RenderError (List (Value × Value)) := do
  match ← scope.require loop.heading loop.collection with
  | .array items => .ok (items.zipIdx.map fun (item, index) => (.ofNat index, item))
  | .object members => .ok ((sortedMembers members).map fun (key, item) => (.text key, item))
  | .null => .ok []
  | .bool _ => .error (.notACollection loop.collection .bool)
  | .number _ => .error (.notACollection loop.collection .number)
  | .text _ => .error (.notACollection loop.collection .text)

/-- Binds the names of a loop to an entry. -/
def bind (loop : Loop) (scope : Scope) (index item : Value) : Scope :=
  let withItem := match loop.item with
    | some name => scope.bindItem name item
    | none => scope
  match loop.index with
  | some name => withItem.bindIndex name index
  | none => withItem

/-- The fragments that the entries contribute, rendered one after the other. -/
def parts (loop : Loop) (render : Scope → Except (Stop RenderError) (Option Fragment)) :
    Scope → List (Value × Value) → Except (Stop RenderError) (List Fragment)
  | _, [] => .ok []
  | scope, (index, item) :: entries => do
      let scope := loop.bind scope index item
      let part ← render scope
      let more ← parts loop render scope entries
      .ok (part.toList ++ more)

/-- The fragments of the entries with the texts of the loop around and between them. -/
def assemble (loop : Loop) (parts : List Fragment) : Fragment :=
  ⟨loop.opening ++ loop.separator.intercalate (parts.map Fragment.sql) ++ loop.closing,
    parts.flatMap Fragment.args⟩

end Loop

/-! ## Templates -/

/-- Makes a clause of a fragment; its bound values stay. -/
def Fragment.clause? (make : List Char → Option (List Char)) (fragment : Fragment) :
    Option Fragment :=
  (make fragment.sql.toList).bind fun sql => Fragment.nonempty? ⟨.ofList sql, fragment.args⟩

mutual
/-- Renders a node. -/
def Node.render (scope : Scope) : Node → Except (Stop RenderError) (Option Fragment)
  | .text content => reported (content.render scope)
  | .conditional test body => do
      let holds ← if Text.isAllBlank test then .ok true else scope.holds test
      if holds then (joinAll scope body).map Fragment.nonempty? else .ok none
  | .choice branches otherwise => do
      match ← renderBranch scope branches with
      | some part => .ok part
      | none => renderOtherwise scope otherwise
  | .foreach loop body => do
      let entries ← reported (loop.entries scope)
      let render := fun scope => (joinAll scope body).map Fragment.nonempty?
      let parts ← loop.parts render scope.nested entries
      .ok (loop.assemble parts).nonempty?
  | .trim trimming body => do
      let fragment ← joinAll scope body
      .ok (fragment.nonempty?.bind (Fragment.clause? (Clause.trimmed? trimming)))
  | .whereClause body => do
      let fragment ← joinAll scope body
      .ok (fragment.nonempty?.bind (Fragment.clause? Clause.where?))
  | .setClause body => do
      let fragment ← joinAll scope body
      .ok (fragment.nonempty?.bind (Fragment.clause? Clause.set?))
  | .reference name => .error (.fault (.config (.notExpanded name)))
  | .sequence body => (joinAll scope body).map Fragment.nonempty?

/-- Renders nodes one after the other and joins what they contribute. -/
def joinAll (scope : Scope) : List Node → Except (Stop RenderError) Fragment
  | [] => .ok .empty
  | node :: nodes => do
      let part ← node.render scope
      let more ← joinAll scope nodes
      .ok (part.getD .empty ++ more)

/-- Renders the first branch whose test holds, if there is one. -/
def renderBranch (scope : Scope) :
    List (String × List Node) → Except (Stop RenderError) (Option (Option Fragment))
  | [] => .ok none
  | (test, body) :: branches => do
      let holds ← scope.holds test
      if holds then (joinAll scope body).map fun fragment => some fragment.nonempty?
      else renderBranch scope branches

/-- Renders the parts for the case that no test holds. -/
def renderOtherwise (scope : Scope) :
    Option (List Node) → Except (Stop RenderError) (Option Fragment)
  | none => .ok none
  | some body => (joinAll scope body).map Fragment.nonempty?
end

/-- What nodes contribute together, or nothing. -/
def renderAll (scope : Scope) (nodes : List Node) : Except (Stop RenderError) (Option Fragment) :=
  (joinAll scope nodes).map Fragment.nonempty?

/-- The fragment of a whole template. -/
def Node.generate (params : Params) (node : Node) : Except (Stop RenderError) Fragment := do
  let part ← node.render (.root params)
  .ok (part.getD .empty)

end SqlTemplate
