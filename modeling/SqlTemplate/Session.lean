import SqlTemplate.Statement.Bind
import SqlTemplate.Statement.Registry

/-!
# Sessions

A session calls statements by their keys.  It looks up the statement, checks that it does what the
call asks for, binds it, and hands the SQL text with its arguments to an executor.  The executor is
asked at most once in a call, and only if everything before succeeded.

Executors work in a monad of their own; the session itself keeps no state.
-/

namespace SqlTemplate

set_option autoImplicit false

/-- Why a statement cannot be called. -/
inductive CallError where
  | notRegistered (key : String)
  | wrongKind (key : String) (expected actual : StatementKind)
  | bind (cause : BindError)
  | execution (report : String)
  deriving Repr, DecidableEq

/-- The text shown for a call that failed. -/
def CallError.message : CallError → String
  | notRegistered key => "statement " ++ key ++ " is not registered"
  | wrongKind key expected actual =>
      "statement " ++ key ++ " is a " ++ actual.name ++ " statement, expected " ++ expected.name
  | bind cause => cause.message
  | execution report => "sql execution failed: " ++ report

namespace Registry

/-- The statement with a key. -/
def find (registry : Registry) (key : String) : Except CallError Statement :=
  match registry.get? key with
  | some statement => .ok statement
  | none => .error (.notRegistered key)

/-- Binds the statement with a key. -/
def bind (registry : Registry) (key : String) (params : Params) :
    Except (Stop CallError) BoundStatement := do
  let statement ← reported (registry.find key)
  (statement.bind params).mapError (Stop.map CallError.bind)

/-- Binds the statement with a key if it is of the expected kind. -/
def prepare (registry : Registry) (key : String) (params : Params) (expected : StatementKind) :
    Except (Stop CallError) BoundStatement := do
  let statement ← reported (registry.find key)
  if statement.kind = expected then (statement.bind params).mapError (Stop.map CallError.bind)
  else .error (.fault (.wrongKind key expected statement.kind))

end Registry

/-- A row of a result: the columns with their values. -/
abbrev Row := List (String × Value)

/-- What executes SQL text with its arguments; a text that reports the failure stands for one. -/
structure Executor (m : Type → Type) where
  queryOne : String → List Value → m (Except String (Option Row))
  queryAll : String → List Value → m (Except String (List Row))
  update : String → List Value → m (Except String Nat)

/-- A registry with an executor for its statements. -/
structure Session (m : Type → Type) where
  registry : Registry
  executor : Executor m

namespace Session

variable {m : Type → Type} [Monad m]

/-- Executes the statement with a key if it is of the expected kind. -/
def call {α : Type} (session : Session m) (expected : StatementKind)
    (execute : String → List Value → m (Except String α)) (key : String) (params : Params) :
    m (Except (Stop CallError) α) :=
  match session.registry.prepare key params expected with
  | .error stop => pure (.error stop)
  | .ok bound => do
      let result ← execute bound.sql bound.args
      pure (reported (result.mapError CallError.execution))

/-- The row that a query gives, if it gives one. -/
def selectOne (session : Session m) : String → Params → m (Except (Stop CallError) (Option Row)) :=
  session.call .select session.executor.queryOne

/-- The rows that a query gives. -/
def selectList (session : Session m) : String → Params → m (Except (Stop CallError) (List Row)) :=
  session.call .select session.executor.queryAll

/-- The number of rows that an insertion adds. -/
def insert (session : Session m) : String → Params → m (Except (Stop CallError) Nat) :=
  session.call .insert session.executor.update

/-- The number of rows that an update changes. -/
def update (session : Session m) : String → Params → m (Except (Stop CallError) Nat) :=
  session.call .update session.executor.update

/-- The number of rows that a deletion removes. -/
def delete (session : Session m) : String → Params → m (Except (Stop CallError) Nat) :=
  session.call .delete session.executor.update

end Session

end SqlTemplate
