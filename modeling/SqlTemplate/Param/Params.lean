import SqlTemplate.Value

/-!
# Parameters of a statement

A statement is rendered with parameters of one of five shapes: none at all, a single value that
answers to every name, values by position, values by name, or an accessor that answers names on its
own.  Values by position are reached as a whole under three fixed names, and values by name as a
whole under `_parameter` unless that name is taken.
-/

namespace SqlTemplate

set_option autoImplicit false

/-- The parameters with which a statement is rendered. -/
inductive Params where
  | none
  | scalar (value : Value)
  | positional (items : List Value)
  | named (members : List (String × Value))
  | accessor (get? : String → Option Value)

namespace Params

/-- The parameters that a value stands for: an array gives positions, an object names. -/
def ofValue : Value → Params
  | .null => none
  | .array items => positional items
  | .object members => named members
  | value => scalar value

/-- The name of the shape. -/
def shape : Params → String
  | none => "none"
  | scalar _ => "scalar"
  | positional _ => "positional"
  | named _ => "named"
  | accessor _ => "accessor"

/-- The name under which parameters are reached as a whole. -/
def wholeName : String := "_parameter"

/-- The names under which positional parameters are reached as a whole. -/
def listNames : List String := ["list", "array", wholeName]

/-- The value of a name. -/
def get? (params : Params) (name : String) : Option Value :=
  match params with
  | none => Option.none
  | scalar value => some value
  | positional items => if name ∈ listNames then some (.array items) else Option.none
  | named members =>
      match members.lookup name with
      | some value => some value
      | Option.none => if name = wholeName then some (.object members) else Option.none
  | accessor get? => get? name

end Params

end SqlTemplate
