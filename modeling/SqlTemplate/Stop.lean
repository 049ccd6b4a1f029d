/-!
# How computations stop

A computation without a result has either reported a fault or was aborted.  A fault is handed to the
caller, who may explain it further or handle it.  An abort is nobody's to handle: the machine
refused an operation, nothing else is computed, and the abort reaches the outside as it is.
-/

namespace SqlTemplate

set_option autoImplicit false

variable {ε ζ α : Type}

/-- Why a computation has no result. -/
inductive Stop (ε : Type) where
  | fault (cause : ε)
  | aborted
  deriving Repr, DecidableEq

/-- Explains a fault; there is nothing to explain in an abort. -/
def Stop.map (explain : ε → ζ) : Stop ε → Stop ζ
  | fault cause => fault (explain cause)
  | aborted => aborted

/-- The outcome of a computation that is never aborted: it only reports faults. -/
def reported (outcome : Except ε α) : Except (Stop ε) α := outcome.mapError .fault

end SqlTemplate
