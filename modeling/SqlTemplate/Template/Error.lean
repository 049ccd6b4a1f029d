import SqlTemplate.Expr.Error
import SqlTemplate.Fault

/-!
# Faults of rendering

A template may fail to render with given parameters.  Each constructor is one cause, and
`RenderError.message` explains it.
-/

namespace SqlTemplate

set_option autoImplicit false

/-- Why a value cannot be spliced into text. -/
inductive SpliceFault where
  | composite
  | placeholderCharacter
  deriving Repr, DecidableEq

/-- Why a value cannot be spliced, in words. -/
def SpliceFault.detail : SpliceFault → String
  | composite => "arrays and objects cannot be substituted"
  | placeholderCharacter => "value contains a `?` placeholder character"

/-- The kinds of values that a loop cannot run over. -/
inductive ScalarKind where
  | bool
  | number
  | text
  deriving Repr, DecidableEq

/-- The name of a kind of values. -/
def ScalarKind.name : ScalarKind → String
  | bool => "a bool"
  | number => "a number"
  | text => "a string"

/-- Why a template cannot be rendered. -/
inductive RenderError where
  | expression (test : String) (cause : Expr.ExprError)
  | invalidPath (cause : InvalidPath)
  | unresolved (name sql : String)
  | substitution (name : String) (cause : SpliceFault)
  | notACollection (name : String) (found : ScalarKind)
  | config (cause : ConfigFault)
  deriving Repr, DecidableEq

/-- The text shown for a template that cannot be rendered. -/
def RenderError.message : RenderError → String
  | expression test cause =>
      "failed to evaluate test expression `" ++ test ++ "`: " ++ cause.message
  | invalidPath cause => cause.message
  | unresolved name sql =>
      "parameter `" ++ name ++ "` has no value in sql fragment `" ++ sql ++ "`"
  | substitution name cause => "cannot substitute `$\x7b" ++ name ++ "\x7d`: " ++ cause.detail
  | notACollection name found =>
      "foreach collection `" ++ name ++ "` resolved to " ++ found.name
        ++ ", expected an array or object"
  | config cause => cause.message

end SqlTemplate
