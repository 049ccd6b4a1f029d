import SqlTemplate.Param.Params

/-!
# Scopes

Inside a loop, names stand for the item at hand and for its index.  A scope holds the parameters
and, from the inside outwards, the bindings of the loops around the current place.  Within one loop
an item goes before an index of the same name; an inner loop goes before an outer one; the
parameters come last.
-/

namespace SqlTemplate

set_option autoImplicit false

/-- The names bound by one loop. -/
structure Bindings where
  items : List (String × Value) := []
  indexes : List (String × Value) := []

namespace Bindings

/-- Gives a name its value, in the place of an earlier one. -/
def assign (name : String) (value : Value) (bound : List (String × Value)) :
    List (String × Value) :=
  (name, value) :: bound.filter fun (other, _) => other != name

/-- The value of a name bound by the loop. -/
def get? (bindings : Bindings) (name : String) : Option Value :=
  (bindings.items.lookup name).or (bindings.indexes.lookup name)

end Bindings

/-- The names visible at a place: those of the innermost loop, those of the loops around it, and
the parameters. -/
structure Scope where
  params : Params
  inner : Bindings
  outer : List Bindings

namespace Scope

/-- The scope outside of every loop. -/
def root (params : Params) : Scope := ⟨params, {}, []⟩

/-- The scope of a loop at this place, before any name is bound. -/
def nested (scope : Scope) : Scope := ⟨scope.params, {}, scope.inner :: scope.outer⟩

/-- Binds the item at hand. -/
def bindItem (scope : Scope) (name : String) (value : Value) : Scope :=
  { scope with inner.items := Bindings.assign name value scope.inner.items }

/-- Binds the index of the item at hand. -/
def bindIndex (scope : Scope) (name : String) (value : Value) : Scope :=
  { scope with inner.indexes := Bindings.assign name value scope.inner.indexes }

/-- The value of a name. -/
def get? (scope : Scope) (name : String) : Option Value :=
  ((scope.inner :: scope.outer).findSome? fun bindings => bindings.get? name).or
    (scope.params.get? name)

end Scope

end SqlTemplate
