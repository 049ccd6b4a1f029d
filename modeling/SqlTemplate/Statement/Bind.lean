import SqlTemplate.Statement.Basic
import SqlTemplate.Template.Render

/-!
# Binding of statements

Binding a statement to parameters gives the SQL text and its arguments in order.  A statement with
a template is rendered; one with a fixed text takes positional parameters as they are, if their
number is right, and looks up all other parameters by name.

Every fault names the statement.  An abort names nothing.
-/

namespace SqlTemplate

set_option autoImplicit false

/-- A statement that is ready to be executed. -/
structure BoundStatement where
  key : String
  kind : StatementKind
  sql : String
  args : List Value

/-- Why parameters do not fit a statement with a fixed text. -/
inductive BindingFault where
  | wrongCount (names : List String) (given : Nat)
  | noneGiven (names : List String)
  | notFound (name shape : String)
  deriving Repr, DecidableEq

/-- Why parameters do not fit, in words. -/
def BindingFault.detail : BindingFault → String
  | wrongCount names given =>
      "expected " ++ toString names.length ++ " positional parameters ("
        ++ ", ".intercalate names ++ "), got " ++ toString given
  | noneGiven names =>
      "parameters (" ++ ", ".intercalate names ++ ") are required but none were given"
  | notFound name shape => "parameter `" ++ name ++ "` not found in " ++ shape ++ " parameters"

/-- Why a statement cannot be bound. -/
inductive BindError where
  | binding (statement : String) (cause : BindingFault)
  | rendering (statement : String) (cause : RenderError)
  deriving Repr, DecidableEq

/-- The text shown for a statement that cannot be bound. -/
def BindError.message : BindError → String
  | binding statement cause => "statement " ++ statement ++ ": " ++ cause.detail
  | rendering statement cause => "statement " ++ statement ++ ": " ++ cause.message

namespace Statement

/-- The argument for a name of a statement with a fixed text. -/
def argument (statement : Statement) (params : Params) (name : String) :
    Except BindError Value :=
  match (Scope.root params).resolve name with
  | .ok (some value) => .ok value
  | .ok none => .error (.binding statement.key (.notFound name params.shape))
  | .error cause => .error (.rendering statement.key (.invalidPath cause))

/-- The arguments of a statement with a fixed text. -/
def fixedArguments (statement : Statement) (params : Params) : Except BindError (List Value) :=
  match params with
  | .positional items =>
      if items.length = statement.parameters.length then .ok items
      else .error (.binding statement.key (.wrongCount statement.parameters items.length))
  | .none =>
      if statement.parameters.isEmpty then .ok []
      else .error (.binding statement.key (.noneGiven statement.parameters))
  | params => statement.parameters.mapM (statement.argument params)

/-- The text of a statement with its arguments. -/
def fragment (statement : Statement) (params : Params) : Except (Stop BindError) Fragment :=
  match statement.template with
  | some template =>
      (template.generate params).mapError (Stop.map (BindError.rendering statement.key))
  | none => reported ((statement.fixedArguments params).map (Fragment.mk statement.sql))

/-- Binds a statement to parameters. -/
def bind (statement : Statement) (params : Params) : Except (Stop BindError) BoundStatement := do
  let fragment ← statement.fragment params
  .ok ⟨statement.key, statement.kind, fragment.sql, fragment.args⟩

end Statement

end SqlTemplate
