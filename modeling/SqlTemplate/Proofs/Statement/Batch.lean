import SqlTemplate.Proofs.Outcome
import SqlTemplate.Proofs.Statement.History

/-!
# Registering a mapper at once

The statements of a mapper are registered at once: first all keys are looked at, then all statements
are put in.  **This is registering them in turn, as one transaction**
(`Registry.registerAll_isTransaction`): it succeeds exactly where each of the single calls would,
and leaves the registry that they would leave; otherwise it reports the fault of the first single
call that would fail, and changes nothing.

The keys that are looked at together are those of the registry and of the statements in front.
These are the keys of the registry that the single calls have reached
(`Registry.registerAll_cons`), so the rest of the batch is a batch for that registry.
-/

namespace SqlTemplate

set_option autoImplicit false

open Outcome

namespace Registry

/-! ## Single calls in turn -/

/-- Statements are registered in turn, and every call succeeds. -/
inductive Registers : Registry → List Statement → Registry → Prop where
  | nil (registry : Registry) : Registers registry [] registry
  | cons {registry next last : Registry} {statement : Statement} {statements : List Statement} :
      registry.register statement = .ok next → Registers next statements last →
        Registers registry (statement :: statements) last

/-- Statements are registered in turn, and the first call that fails has a fault. -/
def FailsFirst (registry : Registry) (statements : List Statement) (fault : ConfigFault) : Prop :=
  ∃ before statement later between, statements = before ++ statement :: later ∧
    Registers registry before between ∧ between.register statement = .error fault

/-- Behind a call that succeeds, the others fail as they do from there. -/
theorem failsFirst_cons_of_ok {registry next : Registry} {statement : Statement}
    (registers : registry.register statement = .ok next) {statements : List Statement}
    {fault : ConfigFault} :
    registry.FailsFirst (statement :: statements) fault ↔ next.FailsFirst statements fault := by
  constructor
  · rintro ⟨before, failing, later, between, split, run, fails⟩
    cases run with
    | nil =>
        cases split
        rw [registers] at fails
        cases fails
    | cons first rest =>
        cases split
        cases registers.symm.trans first
        exact ⟨_, failing, later, between, rfl, rest, fails⟩
  · rintro ⟨before, failing, later, between, rfl, run, fails⟩
    exact ⟨statement :: before, failing, later, between, rfl, .cons registers run, fails⟩

/-- A call that fails is the first that fails. -/
theorem failsFirst_cons_of_error {registry : Registry} {statement : Statement} {first : ConfigFault}
    (refuses : registry.register statement = .error first) {statements : List Statement}
    {fault : ConfigFault} :
    registry.FailsFirst (statement :: statements) fault ↔ first = fault := by
  constructor
  · rintro ⟨before, failing, later, between, split, run, fails⟩
    cases run with
    | nil =>
        cases split
        exact Except.error.inj (refuses.symm.trans fails)
    | cons succeeds _ =>
        cases split
        cases refuses.symm.trans succeeds
  · rintro rfl
    exact ⟨[], statement, statements, registry, rfl, .nil registry, refuses⟩

/-! ## The keys that are taken -/

/-- Which key is found depends only on which keys are taken. -/
theorem duplicate?_congr {left right : List String} (same : ∀ key, key ∈ left ↔ key ∈ right)
    (keys : List String) : duplicate? left keys = duplicate? right keys := by
  induction keys generalizing left right with
  | nil => rfl
  | cons key keys ih =>
      have further : ∀ other, other ∈ key :: left ↔ other ∈ key :: right := by
        intro other
        rw [List.mem_cons, List.mem_cons, same]
      rw [duplicate?, duplicate?, ih further]
      simp only [same]

/-- A batch is its first statement and then a batch of the others. -/
theorem registerAll_cons (registry : Registry) (statement : Statement)
    (statements : List Statement) :
    registry.registerAll (statement :: statements) =
      registry.register statement >>= fun next => next.registerAll statements := by
  by_cases present : statement.key ∈ registry.keys
  · have found : duplicate? registry.keys ((statement :: statements).map Statement.key) =
        some statement.key := by
      rw [List.map_cons, duplicate?, if_pos present]
    rw [registerAll_of_duplicate found, register, dif_pos present]
    rfl
  · obtain ⟨next, registers⟩ : ∃ next, registry.register statement = .ok next :=
      ⟨_, dif_neg present⟩
    have behind : next.statements = registry.statements ++ [statement] := by
      rw [register_eq_registerAll] at registers
      exact (registerAll_eq_ok_iff.mp registers).2
    have taken : ∀ key, key ∈ statement.key :: registry.keys ↔ key ∈ next.keys := by
      intro key
      rw [keys, keys, behind, List.map_append, List.mem_append, List.map_singleton,
        List.mem_singleton, List.mem_cons, or_comm]
    have same : duplicate? registry.keys ((statement :: statements).map Statement.key) =
        duplicate? next.keys (statements.map Statement.key) := by
      rw [List.map_cons, duplicate?, if_neg present]
      exact duplicate?_congr taken _
    rw [registers]
    show registry.registerAll (statement :: statements) = next.registerAll statements
    cases found : duplicate? next.keys (statements.map Statement.key) with
    | some key =>
        rw [registerAll_of_duplicate (same.trans found), registerAll_of_duplicate found]
    | none =>
        obtain ⟨distinct, fresh⟩ := duplicate?_eq_none_iff.mp (same.trans found)
        obtain ⟨distinctRest, freshRest⟩ := duplicate?_eq_none_iff.mp found
        obtain ⟨left, leftRegisters, leftBehind⟩ := registerAll_of_fresh distinct
          fun other listed => fresh other.key (List.mem_map_of_mem listed)
        obtain ⟨right, rightRegisters, rightBehind⟩ := registerAll_of_fresh distinctRest
          fun other listed => freshRest other.key (List.mem_map_of_mem listed)
        rw [leftRegisters, rightRegisters]
        refine congrArg Except.ok (eq_of_statements_eq ?_)
        rw [leftBehind, rightBehind, behind, List.append_assoc]
        rfl

/-! ## The transaction -/

/-- A batch succeeds exactly where the single calls do, with the registry that they leave. -/
theorem registerAll_eq_ok_iff_registers {registry last : Registry} {statements : List Statement} :
    registry.registerAll statements = .ok last ↔ Registers registry statements last := by
  induction statements generalizing registry with
  | nil =>
      constructor
      · intro registers
        have behind := (registerAll_eq_ok_iff.mp registers).2
        rw [List.append_nil] at behind
        rw [eq_of_statements_eq behind]
        exact .nil registry
      · intro run
        cases run
        exact registerAll_eq_ok_iff.mpr ⟨⟨.nil, List.forall_mem_nil _⟩, (List.append_nil _).symm⟩
  | cons statement statements ih =>
      rw [registerAll_cons, bind_eq_ok_iff]
      constructor
      · rintro ⟨next, registers, rest⟩
        exact .cons registers (ih.mp rest)
      · intro run
        cases run with
        | cons registers rest => exact ⟨_, registers, ih.mpr rest⟩

/-- A batch fails exactly where a single call does, with the fault of the first that does. -/
theorem registerAll_eq_error_iff {registry : Registry} {statements : List Statement}
    {fault : ConfigFault} :
    registry.registerAll statements = .error fault ↔ registry.FailsFirst statements fault := by
  induction statements generalizing registry with
  | nil =>
      refine iff_of_false (fun fails => ?_) ?_
      · cases (registerAll_eq_ok_iff_registers.mpr (.nil registry)).symm.trans fails
      · rintro ⟨before, statement, later, _, split, _⟩
        exact List.append_ne_nil_of_right_ne_nil before (List.cons_ne_nil statement later) split.symm
  | cons statement statements ih =>
      rw [registerAll_cons]
      cases registers : registry.register statement with
      | ok next =>
          rw [failsFirst_cons_of_ok registers, ← ih]
          rfl
      | error first =>
          rw [failsFirst_cons_of_error registers]
          exact Except.error.injEq first fault ▸ Iff.rfl

/-- **A mapper is registered as one transaction of single calls.** Registering a mapper succeeds
exactly where registering its statements in turn would succeed for all of them, with the registry
that this would leave and with the number of the statements.  It fails exactly where one of the
single calls would, with the fault of the first of them, and then it changes nothing. -/
theorem registerAll_isTransaction (registry : Registry) (mapper : Mapper) :
    (∀ last, Registers registry mapper.statements last ↔
        registry.report (.whole mapper) = .ok mapper.statements.length ∧
          registry.after (.whole mapper) = last) ∧
      ∀ fault, registry.FailsFirst mapper.statements fault ↔
        registry.report (.whole mapper) = .error fault ∧
          registry.after (.whole mapper) = registry := by
  have ends : registry.attempt (.whole mapper) = registry.registerAll mapper.statements := rfl
  rw [report, after, ends]
  cases registers : registry.registerAll mapper.statements with
  | ok next =>
      refine ⟨fun last => ?_, fun fault => ?_⟩
      · rw [← registerAll_eq_ok_iff_registers, registers, Except.ok.injEq]
        exact ⟨fun same => ⟨rfl, same⟩, And.right⟩
      · rw [← registerAll_eq_error_iff, registers]
        refine iff_of_false (fun same => ?_) (fun reports => ?_)
        · cases same
        · cases reports.1
  | error fault =>
      refine ⟨fun last => ?_, fun other => ?_⟩
      · rw [← registerAll_eq_ok_iff_registers, registers]
        refine iff_of_false (fun same => ?_) (fun reports => ?_)
        · cases same
        · cases reports.1
      · rw [← registerAll_eq_error_iff, registers]
        constructor
        · intro same
          cases same
          exact ⟨rfl, rfl⟩
        · rintro ⟨reports, _⟩
          cases reports
          rfl

end Registry

end SqlTemplate
