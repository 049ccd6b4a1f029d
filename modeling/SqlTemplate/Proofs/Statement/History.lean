import SqlTemplate.Mapper.Draft
import SqlTemplate.Proofs.Statement.Registry

/-!
# The history of a registry

A registry is filled by calls: a call registers one statement or all statements of a mapper, and it
reports how many it has registered, or a fault.  Calls may fail, also in the middle of the history,
and the calls behind them are made all the same.

A step either puts all statements of its call behind those that are there, or changes nothing
(`Registry.perform_cases`).  So a registry holds what the successful calls have brought, in their
order (`Registry.statements_afterAll`), and everything that can be asked of it follows from the
history (`Registry.afterAll_keepsHistory`): a key leads to the statement that first came under it,
nothing is replaced or taken away, and the reports add up to the size.
-/

namespace SqlTemplate

set_option autoImplicit false

/-- A call that registers: one statement, or the statements of a mapper. -/
inductive Registration where
  | single (statement : Statement)
  | whole (mapper : Mapper)

/-- The statements that a call registers if it succeeds. -/
def Registration.statements : Registration → List Statement
  | single statement => [statement]
  | whole mapper => mapper.statements

namespace Registry

/-! ## One call -/

/-- The outcome of a call. -/
def attempt (registry : Registry) : Registration → Except ConfigFault Registry
  | .single statement => registry.register statement
  | .whole mapper => registry.registerAll mapper.statements

/-- The registry behind a call. -/
def after (registry : Registry) (call : Registration) : Registry :=
  match registry.attempt call with
  | .ok more => more
  | .error _ => registry

/-- What a call reports: the number of statements that it has registered, or a fault. -/
def report (registry : Registry) (call : Registration) : Except ConfigFault Nat :=
  (registry.attempt call).map fun _ => call.statements.length

/-- Both kinds of calls register their statements together. -/
theorem attempt_eq_registerAll (registry : Registry) (call : Registration) :
    registry.attempt call = registry.registerAll call.statements := by
  cases call with
  | single statement => exact registry.register_eq_registerAll statement
  | whole mapper => rfl

/-- A call puts all of its statements behind those that are there and reports their number, or it
reports a fault and changes nothing. -/
theorem perform_cases (registry : Registry) (call : Registration) :
    ((registry.after call).statements = registry.statements ++ call.statements ∧
        registry.report call = .ok call.statements.length) ∨
      (registry.after call = registry ∧ ∃ fault, registry.report call = .error fault) := by
  rw [after, report, attempt_eq_registerAll]
  cases registers : registry.registerAll call.statements with
  | ok more => exact .inl ⟨(registerAll_eq_ok_iff.mp registers).2, rfl⟩
  | error fault => exact .inr ⟨rfl, fault, rfl⟩

/-! ## Calls one after the other -/

/-- The registry behind calls that are made one after the other. -/
def afterAll (registry : Registry) (calls : List Registration) : Registry :=
  calls.foldl after registry

/-- What calls report, one after the other. -/
def reports (registry : Registry) : List Registration → List (Except ConfigFault Nat)
  | [] => []
  | call :: calls => registry.report call :: (registry.after call).reports calls

/-- The sum of the numbers that are reported. -/
def total : List (Except ConfigFault Nat) → Nat
  | [] => 0
  | .ok count :: reports => count + total reports
  | .error _ :: reports => total reports

/-- The statements of the calls that succeed, in the order of the calls. -/
def accepted (registry : Registry) : List Registration → List Statement
  | [] => []
  | call :: calls =>
      (if (registry.report call).isOk then call.statements else [])
        ++ (registry.after call).accepted calls

theorem afterAll_append (registry : Registry) (before calls : List Registration) :
    registry.afterAll (before ++ calls) = (registry.afterAll before).afterAll calls :=
  List.foldl_append

/-- Behind calls, a registry holds what it has held, and then what the successful calls have
brought. -/
theorem statements_afterAll (registry : Registry) (calls : List Registration) :
    (registry.afterAll calls).statements = registry.statements ++ registry.accepted calls := by
  induction calls generalizing registry with
  | nil => exact (List.append_nil _).symm
  | cons call calls ih =>
      have rest := ih (registry.after call)
      rw [accepted]
      rcases registry.perform_cases call with ⟨behind, reported⟩ | ⟨unchanged, fault, reported⟩
      · rw [behind, List.append_assoc] at rest
        rw [reported]
        exact rest
      · rw [unchanged] at rest ⊢
        rw [reported]
        exact (congrArg (fun registry : Registry => (registry.afterAll calls).statements)
          unchanged).trans rest

/-- The reports of the successful calls add up to the number of the statements they brought. -/
theorem total_reports (registry : Registry) (calls : List Registration) :
    total (registry.reports calls) = (registry.accepted calls).length := by
  induction calls generalizing registry with
  | nil => rfl
  | cons call calls ih =>
      have rest := ih (registry.after call)
      rw [reports, accepted, List.length_append, ← rest]
      rcases registry.perform_cases call with ⟨_, reported⟩ | ⟨_, fault, reported⟩
      · rw [reported]
        rfl
      · rw [reported]
        exact (Nat.zero_add _).symm

/-! ## What the history says -/

/-- What a registry is, given the calls that have filled it, from the first on. -/
structure KeepsHistory (registry : Registry) (calls : List Registration) : Prop where
  /-- A statement is kept under its own key. -/
  key_eq : ∀ key statement, registry.get? key = some statement → statement.key = key
  /-- A key leads to the statement with which a call first succeeded under it. -/
  first : ∀ key, registry.get? key =
    (empty.accepted calls).find? fun statement => statement.key == key
  /-- What was kept at some time is kept. -/
  stays : ∀ before later, calls = before ++ later → ∀ key statement,
    (empty.afterAll before).get? key = some statement → registry.get? key = some statement
  /-- A call that failed has changed nothing. -/
  unchanged : ∀ before call later fault, calls = before ++ call :: later →
    (empty.afterAll before).report call = .error fault →
      empty.afterAll (before ++ [call]) = empty.afterAll before
  /-- The size is the sum of what the successful calls have reported. -/
  size_eq : registry.size = total (empty.reports calls)
  /-- The keys are listed in ascending order, none of them twice. -/
  ascend : registry.sortedKeys.Pairwise (· < ·)
  /-- The keys that are listed are those under which there is a statement. -/
  listed : ∀ key, key ∈ registry.sortedKeys ↔ registry.contains key = true

/-- **A registry keeps its history.** Whatever statements and mappers were registered from the empty
registry on, and whichever of the calls have failed, the registry holds under each key the statement
that first came under it, and nothing else.  And statements whose identifiers have no points are
never in each other's way, unless they agree in identifier and namespace. -/
theorem afterAll_keepsHistory (calls : List Registration) :
    (empty.afterAll calls).KeepsHistory calls ∧
      ∀ left right : Statement, '.' ∉ left.id.toList → '.' ∉ right.id.toList →
        (left.namespaceName, left.id) ≠ (right.namespaceName, right.id) → left.key ≠ right.key := by
  have holds : (empty.afterAll calls).statements = empty.accepted calls :=
    empty.statements_afterAll calls
  refine ⟨⟨fun key statement => key_of_get?, fun key => ?_, ?_, ?_, ?_, sortedKeys_ascend _,
    fun key => mem_sortedKeys.trans contains_iff.symm⟩, ?_⟩
  · rw [get?, holds]
  · rintro before later rfl key statement found
    rw [afterAll_append]
    exact get?_of_behind (statements_afterAll _ later) found
  · rintro before call later fault rfl failed
    rw [afterAll_append]
    rcases (empty.afterAll before).perform_cases call with ⟨_, reported⟩ | ⟨unchanged, _⟩
    · rw [reported] at failed
      cases failed
    · exact unchanged
  · rw [total_reports, ← holds]
    rfl
  · intro left right leftFree rightFree different same
    obtain ⟨namespaces, ids⟩ := (statementKey_eq_iff_of_noPoint leftFree rightFree).mp same
    exact different (Prod.ext namespaces ids)

end Registry

end SqlTemplate
