import Mathlib.Data.List.ReduceOption
import SqlTemplate.Proofs.Template.Joining

/-!
# One scope for all entries of a loop

A loop is rendered in one scope that is rebound for each entry, so the bindings of an entry are
still there when the next one is bound.  What is left over is bound under the names of the loop only
(`Loop.Leaves`), and binding the next entry replaces all of it.

So a loop renders **as if each entry had a new scope of its own**, in which nothing but this entry
is bound (`Node.foreach_rendersAfresh`): the fault of the first entry that fails is the fault of the
loop, and otherwise the fragments of the entries, without those that contribute nothing, stand
between the texts of the loop.  This holds in every scope and for every body, hence also for loops
inside of loops that bind the same names.
-/

namespace SqlTemplate

set_option autoImplicit false

open Outcome

/-! ## Entries -/

/-- The values that a loop can run over. -/
def Value.IsCollection : Value → Prop
  | .array _ | .object _ | .null => True
  | .bool _ | .number _ | .text _ => False

/-- What a loop over a value runs through, as indexes with their items: the items of an array with
their positions, the members of an object in ascending order of their keys, nothing for null. -/
inductive Value.RunsAs : Value → List (Value × Value) → Prop where
  | array (items : List Value) :
      RunsAs (.array items) (items.mapIdx fun position item => (.ofNat position, item))
  | object {members sorted : List (String × Value)} (same : sorted.Perm members)
      (ascending : sorted.Pairwise fun left right => left.1 ≤ right.1) :
      RunsAs (.object members) (sorted.map fun (key, item) => (.text key, item))
  | null : RunsAs .null []

theorem sortedMembers_ascending (members : List (String × Value)) :
    (sortedMembers members).Pairwise fun left right => left.1 ≤ right.1 := by
  have transitive (first second third : String × Value)
      (before : decide (first.1 ≤ second.1) = true) (after : decide (second.1 ≤ third.1) = true) :
      decide (first.1 ≤ third.1) = true := by
    rw [decide_eq_true_eq] at before after ⊢
    exact String.le_trans before after
  have total (left right : String × Value) :
      (decide (left.1 ≤ right.1) || decide (right.1 ≤ left.1)) = true := by
    rw [Bool.or_eq_true, decide_eq_true_eq, decide_eq_true_eq]
    exact String.le_total left.1 right.1
  exact (List.pairwise_mergeSort transitive total members).imp of_decide_eq_true

namespace Loop

/-- A collection is run through entry by entry. -/
theorem exists_entries {loop : Loop} {scope : Scope} {value : Value}
    (resolves : scope.resolve loop.collection = .ok (some value))
    (collection : value.IsCollection) :
    ∃ entries, loop.entries scope = .ok entries ∧ value.RunsAs entries := by
  have found : scope.require loop.heading loop.collection = .ok value := by
    rw [Scope.require, resolves]
  cases value with
  | array items =>
      refine ⟨_, bind_eq_ok_iff.mpr ⟨_, found, rfl⟩, ?_⟩
      have runs := Value.RunsAs.array items
      rw [List.mapIdx_eq_zipIdx_map] at runs
      exact runs
  | object members =>
      refine ⟨_, bind_eq_ok_iff.mpr ⟨_, found, rfl⟩, ?_⟩
      exact .object (List.mergeSort_perm ..) (sortedMembers_ascending members)
  | null => exact ⟨_, bind_eq_ok_iff.mpr ⟨_, found, rfl⟩, .null⟩
  | bool truth | number number | text content => exact collection.elim

/-! ## What is left in the scope -/

/-- A new scope inside of another, in which nothing but one entry of a loop is bound. -/
def entryScope (loop : Loop) (scope : Scope) (entry : Value × Value) : Scope where
  params := scope.params
  inner :=
    { items := (loop.item.map fun name => (name, entry.2)).toList
      indexes := (loop.index.map fun name => (name, entry.1)).toList }
  outer := scope.inner :: scope.outer

/-- A scope that a loop may leave behind between two entries: it lies in the scope around the loop,
and what is bound in it is bound under the names of the loop. -/
structure Leaves (loop : Loop) (scope current : Scope) : Prop where
  params : current.params = scope.params
  outer : current.outer = scope.inner :: scope.outer
  items : ∀ binding ∈ current.inner.items, loop.item = some binding.1
  indexes : ∀ binding ∈ current.inner.indexes, loop.index = some binding.1

/-- Nothing is bound before the first entry. -/
theorem Leaves.nested (loop : Loop) (scope : Scope) : loop.Leaves scope scope.nested where
  params := rfl
  outer := rfl
  items := fun _ bound => nomatch bound
  indexes := fun _ bound => nomatch bound

theorem Leaves.entryScope (loop : Loop) (scope : Scope) (entry : Value × Value) :
    loop.Leaves scope (loop.entryScope scope entry) where
  params := rfl
  outer := rfl
  items := by
    intro binding bound
    obtain ⟨name, named, rfl⟩ := Option.map_eq_some_iff.mp (Option.mem_toList.mp bound)
    exact named
  indexes := by
    intro binding bound
    obtain ⟨name, named, rfl⟩ := Option.map_eq_some_iff.mp (Option.mem_toList.mp bound)
    exact named

/-- Bindings under one name, or none at all where there is no name, are replaced by the next. -/
theorem rebound {name : Option String} {bound : List (String × Value)}
    (named : ∀ binding ∈ bound, name = some binding.1) (value : Value) :
    name.elim bound (Bindings.assign · value bound) =
      (name.map fun name => (name, value)).toList := by
  cases name with
  | none =>
      apply List.eq_nil_iff_forall_not_mem.mpr
      intro binding listed
      cases named binding listed
  | some name =>
      have noOther : (bound.filter fun (other, _) => other != name) = [] := by
        rw [List.filter_eq_nil_iff]
        intro binding listed
        simp [Option.some.inj (named binding listed)]
      exact congrArg _ noOther

/-- Binding an entry leaves nothing of the entries before it. -/
theorem Leaves.bind {loop : Loop} {scope current : Scope} (leaves : loop.Leaves scope current)
    (index item : Value) : loop.bind current index item = loop.entryScope scope (index, item) := by
  rw [Loop.entryScope, ← leaves.params, ← leaves.outer, ← rebound leaves.items item,
    ← rebound leaves.indexes index, Loop.bind]
  cases loop.item with
  | none => cases loop.index <;> rfl
  | some name => cases loop.index <;> rfl

/-! ## The parts of a loop -/

/-- The parts of a loop are what the body gives in a new scope for each entry. -/
theorem parts_eq_mapM {loop : Loop} {scope : Scope}
    (render : Scope → Except (Stop RenderError) (Option Fragment)) (entries : List (Value × Value))
    {current : Scope} (leaves : loop.Leaves scope current) :
    loop.parts render current entries =
      (entries.mapM fun entry => render (loop.entryScope scope entry)).map List.reduceOption := by
  induction entries generalizing current with
  | nil => rfl
  | cons entry entries ih =>
      obtain ⟨index, item⟩ := entry
      rw [parts, leaves.bind, List.mapM_cons, ih (.entryScope loop scope (index, item))]
      cases render (loop.entryScope scope (index, item)) with
      | error fault => rfl
      | ok part =>
          cases entries.mapM fun entry => render (loop.entryScope scope entry) with
          | error fault => rfl
          | ok more =>
              cases part with
              | none => rfl
              | some fragment => rfl

/-! ## New scopes -/

/-- The fragments of entries, without those that contribute nothing, between the texts of a loop. -/
def joined (loop : Loop) (parts : List (Option Fragment)) : Fragment where
  sql := loop.opening ++ loop.separator.intercalate (parts.reduceOption.map Fragment.sql) ++
    loop.closing
  args := parts.reduceOption.flatMap Fragment.args

/-- An outcome as if each entry of a loop was rendered in a new scope of its own: it is the fault
of the first entry that fails, or the abort of the first one that is aborted, and else it is what
they contribute between the texts of the loop, or nothing if this has no text. -/
structure RendersAfresh (loop : Loop) (body : List Node) (scope : Scope)
    (entries : List (Value × Value)) (outcome : Except (Stop RenderError) (Option Fragment)) :
    Prop where
  fails : ∀ before entry after stop, entries = before ++ entry :: after →
    (∀ earlier ∈ before, ∃ part, renderAll (loop.entryScope scope earlier) body = .ok part) →
      renderAll (loop.entryScope scope entry) body = .error stop → outcome = .error stop
  succeeds : ∀ parts,
    List.Forall₂ (fun entry part => renderAll (loop.entryScope scope entry) body = .ok part)
      entries parts →
        outcome = .ok (if (loop.joined parts).sql = "" then none else some (loop.joined parts))

end Loop

/-- A loop renders its body in a new scope for each entry, one entry after the other. -/
theorem Node.render_foreach {loop : Loop} {scope : Scope} {entries : List (Value × Value)}
    (found : loop.entries scope = .ok entries) (body : List Node) :
    (Node.foreach loop body).render scope =
      (entries.mapM fun entry => renderAll (loop.entryScope scope entry) body).map fun parts =>
        (loop.joined parts).nonempty? := by
  rw [Node.render, found]
  show (loop.parts (renderAll · body) scope.nested entries >>= fun parts =>
    .ok (loop.assemble parts).nonempty?) = _
  rw [Loop.parts_eq_mapM _ entries (.nested loop scope)]
  cases entries.mapM fun entry => renderAll (loop.entryScope scope entry) body with
  | error fault => rfl
  | ok parts => rfl

/-- **A loop renders each entry as in a new scope.** -/
theorem Node.foreach_rendersAfresh {loop : Loop} {body : List Node} {scope : Scope} {value : Value}
    (resolves : scope.resolve loop.collection = .ok (some value))
    (collection : value.IsCollection) :
    ∃ entries, value.RunsAs entries ∧
      loop.RendersAfresh body scope entries ((Node.foreach loop body).render scope) := by
  obtain ⟨entries, found, runs⟩ := Loop.exists_entries resolves collection
  refine ⟨entries, runs, ?_, ?_⟩
  · rintro before entry after stop rfl earlier fails
    rw [Node.render_foreach found, mapM_eq_error earlier fails]
    rfl
  · intro parts succeed
    rw [Node.render_foreach found, mapM_eq_ok_of_forall₂ succeed]
    by_cases noText : (loop.joined parts).sql = ""
    · rw [if_pos noText, ← Fragment.nonempty?_of_empty noText]
      rfl
    · rw [if_neg noText, ← Fragment.nonempty?_of_ne noText]
      rfl

/-- A loop over the rows of a grid. -/
def rowsLoop : Loop := ⟨"rows", some "cell", some "i", "", ", ", ""⟩

/-- For each row a loop over its cells, which binds the names that the loop over the rows binds. -/
def rowBody : List Node :=
  [.foreach ⟨"cell", some "cell", some "i", "(", ",", ")"⟩
    [.text ⟨"#{cell}", "?", ["cell"], false⟩]]

def gridRows : Value := .array [.array [.ofNat 1, .ofNat 2], .array [.ofNat 3]]

def gridParams : Params := .named [("rows", gridRows)]

theorem Node.foreach_rendersAfresh_grid :
    (Scope.root gridParams).resolve rowsLoop.collection = .ok (some gridRows) ∧
      gridRows.IsCollection ∧ ∃ entries, gridRows.RunsAs entries ∧
        rowsLoop.RendersAfresh rowBody (.root gridParams) entries
          ((Node.foreach rowsLoop rowBody).render (.root gridParams)) := by
  have reads : Path.ofString? "rows" = .ok ⟨"rows", []⟩ := by decide +kernel
  have resolves :
      (Scope.root gridParams).resolve rowsLoop.collection = .ok (some gridRows) := by
    rw [Scope.resolve, rowsLoop, reads]
    rfl
  exact ⟨resolves, trivial, Node.foreach_rendersAfresh resolves trivial⟩

end SqlTemplate
