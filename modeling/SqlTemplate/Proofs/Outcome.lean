import Mathlib.Data.List.Forall2
import SqlTemplate.Stop

/-!
# Outcomes of steps that may fail

Rendering, expansion and binding are written as steps of which each may fail.  The lemmas here take
a run of such steps apart: it succeeds exactly when the first step succeeds and the others succeed
with its result.

A run succeeds (`Succeeds`) exactly when each of its steps does, if no step looks at a result.  It
fails only with faults of a kind (`FailsOnly`) when each of its steps does.

Two runs are compared by `Related`: they end with faults that are related, or with results that are
related.  Runs whose steps are related are related (`Related.bind`).
-/

namespace SqlTemplate.Outcome

set_option autoImplicit false

variable {ε ζ α β γ δ : Type}

/-- A step and what follows succeed together when both succeed. -/
theorem bind_eq_ok_iff {first : Except ε α} {next : α → Except ε β} {result : β} :
    first >>= next = .ok result ↔ ∃ middle, first = .ok middle ∧ next middle = .ok result := by
  constructor
  · intro equal
    cases first with
    | error fault => cases equal
    | ok middle => exact ⟨middle, rfl, equal⟩
  · rintro ⟨middle, rfl, equal⟩
    exact equal

/-- A step and what follows fail with the fault of the first of them that fails. -/
theorem bind_eq_error_iff {first : Except ε α} {next : α → Except ε β} {fault : ε} :
    first >>= next = .error fault ↔
      first = .error fault ∨ ∃ middle, first = .ok middle ∧ next middle = .error fault := by
  cases first with
  | error other => simp [bind, Except.bind]
  | ok middle => simp [bind, Except.bind]

/-- A result that is only rewritten was there before. -/
theorem map_eq_ok_iff {first : Except ε α} {rewrite : α → β} {result : β} :
    first.map rewrite = .ok result ↔ ∃ middle, first = .ok middle ∧ rewrite middle = result := by
  cases first with
  | error fault => simp [Except.map]
  | ok middle => simp [Except.map]

/-- Rewriting results leaves faults as they are. -/
theorem map_eq_error_iff {first : Except ε α} {rewrite : α → β} {fault : ε} :
    first.map rewrite = .error fault ↔ first = .error fault := by
  cases first with
  | error fault => simp [Except.map]
  | ok middle => simp [Except.map]

/-- Rewriting faults leaves results as they are. -/
theorem mapError_eq_ok_iff {outcome : Except ε α} {rewrite : ε → ζ} {result : α} :
    outcome.mapError rewrite = .ok result ↔ outcome = .ok result := by
  cases outcome with
  | error fault => simp [Except.mapError]
  | ok middle => simp [Except.mapError]

/-- Reporting faults leaves results as they are. -/
theorem reported_eq_ok_iff {outcome : Except ε α} {result : α} :
    reported outcome = .ok result ↔ outcome = .ok result := mapError_eq_ok_iff

/-- What is reported are the faults. -/
theorem reported_eq_error_iff {outcome : Except ε α} {stop : Stop ε} :
    reported outcome = .error stop ↔ ∃ cause, outcome = .error cause ∧ stop = .fault cause := by
  cases outcome with
  | error fault => simp [reported, Except.mapError, eq_comm]
  | ok result => simp [reported, Except.mapError]

/-- What is reported is no abort. -/
theorem reported_ne_aborted (outcome : Except ε α) : reported outcome ≠ .error .aborted := by
  intro aborts
  obtain ⟨cause, _, same⟩ := reported_eq_error_iff.mp aborts
  cases same

/-- Steps that report their faults report the faults of both. -/
theorem reported_bind (first : Except ε α) (next : α → Except ε β) :
    reported (first >>= next) = reported first >>= fun result => reported (next result) := by
  cases first with
  | error fault => rfl
  | ok result => rfl

/-- Results may be rewritten before the faults are reported. -/
theorem reported_map (outcome : Except ε α) (rewrite : α → β) :
    reported (outcome.map rewrite) = (reported outcome).map rewrite := by
  cases outcome with
  | error fault => rfl
  | ok result => rfl

/-- A result is what is there if faults are forgotten. -/
theorem toOption_eq_some_iff {outcome : Except ε α} {result : α} :
    outcome.toOption = some result ↔ outcome = .ok result := by
  cases outcome with
  | error fault => simp [Except.toOption]
  | ok middle => simp [Except.toOption]

/-- A step whose result is only rewritten. -/
theorem bind_ok_eq_map (first : Except ε α) (rewrite : α → β) :
    (first >>= fun result => .ok (rewrite result)) = first.map rewrite := by
  cases first with
  | error fault => rfl
  | ok result => rfl

/-- Steps for the items of a list give for each item the result of its step. -/
theorem forall₂_of_mapM_eq_ok {step : α → Except ε β} {items : List α} {results : List β}
    (succeeds : items.mapM step = .ok results) :
    List.Forall₂ (fun item result => step item = .ok result) items results := by
  induction items generalizing results with
  | nil =>
      cases succeeds
      exact .nil
  | cons item items ih =>
      rw [List.mapM_cons] at succeeds
      obtain ⟨result, here, succeeds⟩ := bind_eq_ok_iff.mp succeeds
      obtain ⟨more, others, succeeds⟩ := bind_eq_ok_iff.mp succeeds
      cases succeeds
      exact .cons here (ih others)

/-- Steps that succeed one by one succeed for the list of the items. -/
theorem mapM_eq_ok_of_forall₂ {step : α → Except ε β} {items : List α} {results : List β}
    (each : List.Forall₂ (fun item result => step item = .ok result) items results) :
    items.mapM step = .ok results := by
  induction each with
  | nil => rfl
  | cons here _ ih =>
      rw [List.mapM_cons, here, ih]
      rfl

/-- Steps for the items of a list fail with the fault of the first step that fails. -/
theorem mapM_eq_error {step : α → Except ε β} {before after : List α} {item : α} {fault : ε}
    (earlier : ∀ other ∈ before, ∃ result, step other = .ok result)
    (fails : step item = .error fault) : (before ++ item :: after).mapM step = .error fault := by
  induction before with
  | nil =>
      rw [List.nil_append, List.mapM_cons, fails]
      rfl
  | cons other before ih =>
      have ⟨⟨result, here⟩, others⟩ := List.forall_mem_cons.mp earlier
      rw [List.cons_append, List.mapM_cons, here, ih others]
      rfl

/-- Either all items of a list have results, or there is a first one that has a fault. -/
theorem forall₂_or_exists_first {holds : α → β → Prop} {fails : α → ε → Prop}
    (each : ∀ item, (∃ result, holds item result) ∨ ∃ fault, fails item fault) (items : List α) :
    (∃ results, List.Forall₂ holds items results) ∨
      ∃ before item after fault, items = before ++ item :: after ∧
        (∀ other ∈ before, ∃ result, holds other result) ∧ fails item fault := by
  induction items with
  | nil => exact .inl ⟨[], .nil⟩
  | cons item items ih =>
      rcases each item with ⟨result, here⟩ | ⟨fault, here⟩
      · rcases ih with ⟨results, others⟩ | ⟨before, first, after, fault, rfl, earlier, there⟩
        · exact .inl ⟨result :: results, .cons here others⟩
        · refine .inr ⟨item :: before, first, after, fault, rfl, ?_, there⟩
          exact List.forall_mem_cons.mpr ⟨⟨result, here⟩, earlier⟩
      · exact .inr ⟨[], item, items, fault, rfl, List.forall_mem_nil _, here⟩

/-- Steps for the items of a list fail exactly with the fault of the first step that fails. -/
theorem mapM_eq_error_iff {step : α → Except ε β} {items : List α} {fault : ε} :
    items.mapM step = .error fault ↔
      ∃ before item after, items = before ++ item :: after ∧
        (∀ other ∈ before, ∃ result, step other = .ok result) ∧ step item = .error fault := by
  constructor
  · intro fails
    have each (item : α) :
        (∃ result, step item = .ok result) ∨ ∃ other, step item = .error other := by
      cases step item with
      | error other => exact .inr ⟨other, rfl⟩
      | ok result => exact .inl ⟨result, rfl⟩
    rcases forall₂_or_exists_first each items with
      ⟨results, succeeds⟩ | ⟨before, item, after, other, rfl, earlier, here⟩
    · rw [mapM_eq_ok_of_forall₂ succeeds] at fails
      cases fails
    · rw [mapM_eq_error earlier here] at fails
      cases fails
      exact ⟨before, item, after, rfl, earlier, here⟩
  · rintro ⟨before, item, after, rfl, earlier, here⟩
    exact mapM_eq_error earlier here

/-- What is listed on the right of two lists that are related item by item has its partner. -/
theorem exists_of_mem_of_forall₂ {holds : α → β → Prop} {lefts : List α} {rights : List β}
    (related : List.Forall₂ holds lefts rights) {right : β} (listed : right ∈ rights) :
    ∃ left ∈ lefts, holds left right := by
  induction related with
  | nil => cases listed
  | cons here _ ih =>
      rcases List.mem_cons.mp listed with rfl | later
      · exact ⟨_, List.mem_cons_self .., here⟩
      · obtain ⟨left, member, holds⟩ := ih later
        exact ⟨left, List.mem_cons_of_mem _ member, holds⟩

/-- Steps that succeed for all items of a list. -/
theorem mapM_eq_ok_map {step : α → Except ε β} {result : α → β} {items : List α}
    (succeeds : ∀ item ∈ items, step item = .ok (result item)) :
    items.mapM step = .ok (items.map result) := by
  induction items with
  | nil => rfl
  | cons item items ih =>
      have ⟨here, others⟩ := List.forall_mem_cons.mp succeeds
      rw [List.mapM_cons, here, ih others]
      rfl

/-- Steps that are the same for all items of a list. -/
theorem mapM_congr {left right : α → Except ε β} {items : List α}
    (same : ∀ item ∈ items, left item = right item) : items.mapM left = items.mapM right := by
  induction items with
  | nil => rfl
  | cons item items ih =>
      have ⟨here, others⟩ := List.forall_mem_cons.mp same
      rw [List.mapM_cons, List.mapM_cons, here, ih others]

/-! ## Success -/

/-- An outcome that is a result. -/
def Succeeds (outcome : Except ε α) : Prop := ∃ result, outcome = .ok result

theorem not_succeeds_iff {outcome : Except ε α} :
    ¬ Succeeds outcome ↔ ∃ fault, outcome = .error fault := by
  cases outcome with
  | error fault =>
      refine iff_of_true ?_ ⟨fault, rfl⟩
      rintro ⟨result, equal⟩
      cases equal
  | ok result =>
      refine iff_of_false (not_not_intro ⟨result, rfl⟩) ?_
      rintro ⟨fault, equal⟩
      cases equal

/-- A step whose result is only rewritten decides alone. -/
theorem succeeds_map_iff {first : Except ε α} {rewrite : α → β} :
    Succeeds (first >>= fun result => .ok (rewrite result)) ↔ Succeeds first := by
  constructor
  · rintro ⟨_, equal⟩
    obtain ⟨result, here, _⟩ := bind_eq_ok_iff.mp equal
    exact ⟨result, here⟩
  · rintro ⟨result, rfl⟩
    exact ⟨rewrite result, rfl⟩

/-- Two steps whose results are only put together decide together. -/
theorem succeeds_both_iff {first : Except ε α} {second : Except ε β} {together : α → β → γ} :
    Succeeds (first >>= fun left => second >>= fun right => .ok (together left right)) ↔
      Succeeds first ∧ Succeeds second := by
  constructor
  · rintro ⟨_, equal⟩
    obtain ⟨left, here, equal⟩ := bind_eq_ok_iff.mp equal
    obtain ⟨right, there, _⟩ := bind_eq_ok_iff.mp equal
    exact ⟨⟨left, here⟩, right, there⟩
  · rintro ⟨⟨left, rfl⟩, right, rfl⟩
    exact ⟨together left right, rfl⟩

/-! ## Faults of a kind -/

/-- An outcome whose fault, if it has one, is of a kind. -/
def FailsOnly (holds : ε → Prop) (outcome : Except ε α) : Prop :=
  ∀ fault, outcome = .error fault → holds fault

namespace FailsOnly

variable {holds : ε → Prop}

theorem ok (result : α) : FailsOnly holds (.ok result : Except ε α) := by
  intro fault fails
  cases fails

theorem error {fault : ε} (here : holds fault) : FailsOnly holds (.error fault : Except ε α) := by
  intro other fails
  cases fails
  exact here

theorem imp {weaker : ε → Prop} {outcome : Except ε α} (only : FailsOnly holds outcome)
    (implies : ∀ fault, holds fault → weaker fault) : FailsOnly weaker outcome :=
  fun fault fails => implies fault (only fault fails)

/-- Steps one after the other fail as the first of them that fails. -/
theorem bind {first : Except ε α} {next : α → Except ε β} (before : FailsOnly holds first)
    (after : ∀ result, FailsOnly holds (next result)) : FailsOnly holds (first >>= next) := by
  cases first with
  | error fault => exact error (before fault rfl)
  | ok result => exact after result

theorem map {first : Except ε α} (before : FailsOnly holds first) (rewrite : α → β) :
    FailsOnly holds (first.map rewrite) := by
  cases first with
  | error fault => exact error (before fault rfl)
  | ok result => exact ok (rewrite result)

theorem mapError {outcome : Except ζ α} {rewrite : ζ → ε} (each : ∀ fault, holds (rewrite fault)) :
    FailsOnly holds (outcome.mapError rewrite) := by
  cases outcome with
  | error fault => exact error (each fault)
  | ok result => exact ok result

/-- What is reported are faults of the kind. -/
theorem reported {holds : Stop ε → Prop} {outcome : Except ε α}
    (before : FailsOnly (fun cause => holds (.fault cause)) outcome) :
    FailsOnly holds (reported outcome) := by
  intro stop stops
  obtain ⟨cause, fails, rfl⟩ := reported_eq_error_iff.mp stops
  exact before cause fails

theorem mapM {step : α → Except ε β} {items : List α}
    (each : ∀ item ∈ items, FailsOnly holds (step item)) : FailsOnly holds (items.mapM step) := by
  induction items with
  | nil => exact ok []
  | cons item items ih =>
      have ⟨here, others⟩ := List.forall_mem_cons.mp each
      rw [List.mapM_cons]
      exact here.bind fun result => (ih others).bind fun results => ok (result :: results)

end FailsOnly

/-! ## Two runs -/

/-- Two outcomes with related faults, or with related results. -/
inductive Related (faults : ε → ζ → Prop) (holds : α → γ → Prop) :
    Except ε α → Except ζ γ → Prop
  | fault {left : ε} {right : ζ} :
      faults left right → Related faults holds (.error left) (.error right)
  | result {left : α} {right : γ} :
      holds left right → Related faults holds (.ok left) (.ok right)

namespace Related

variable {faults : ε → ζ → Prop} {holds : α → γ → Prop} {left : Except ε α} {right : Except ζ γ}

/-- An outcome is related to itself if its fault or its result is. -/
theorem refl {faults : ε → ε → Prop} {holds : α → α → Prop}
    (sameFault : ∀ fault, faults fault fault) (sameResult : ∀ result, holds result result)
    (outcome : Except ε α) : Related faults holds outcome outcome := by
  cases outcome with
  | error fault => exact .fault (sameFault fault)
  | ok result => exact .result (sameResult result)

/-- Outcomes of which less is asked. -/
theorem imp {weaker : ε → ζ → Prop} (related : Related faults holds left right)
    (implies : ∀ leftFault rightFault, faults leftFault rightFault → weaker leftFault rightFault) :
    Related weaker holds left right := by
  cases related with
  | fault related => exact .fault (implies _ _ related)
  | result related => exact .result related

/-- Related outcomes seen from the other side. -/
theorem symm {otherFaults : ζ → ε → Prop} {otherHolds : γ → α → Prop}
    (related : Related faults holds left right)
    (turnFaults : ∀ {leftFault rightFault}, faults leftFault rightFault →
      otherFaults rightFault leftFault)
    (turnResults : ∀ {leftResult rightResult}, holds leftResult rightResult →
      otherHolds rightResult leftResult) : Related otherFaults otherHolds right left := by
  cases related with
  | fault related => exact .fault (turnFaults related)
  | result related => exact .result (turnResults related)

/-- Related outcomes that go on with related steps. -/
theorem bind {after : β → δ → Prop} {leftNext : α → Except ε β} {rightNext : γ → Except ζ δ}
    (first : Related faults holds left right)
    (next : ∀ leftResult rightResult, holds leftResult rightResult →
      Related faults after (leftNext leftResult) (rightNext rightResult)) :
    Related faults after (left >>= leftNext) (right >>= rightNext) := by
  cases first with
  | fault related => exact .fault related
  | result related => exact next _ _ related

/-- Outcomes with equal results that go on with related steps. -/
theorem bind_eq {after : β → δ → Prop} {right : Except ζ α} {leftNext : α → Except ε β}
    {rightNext : α → Except ζ δ} (first : Related faults Eq left right)
    (next : ∀ result, Related faults after (leftNext result) (rightNext result)) :
    Related faults after (left >>= leftNext) (right >>= rightNext) :=
  first.bind fun result _ same => same ▸ next result

/-- Two runs with the same first step. -/
theorem bind_same {after : β → δ → Prop} {first : Except ε α} {leftNext : α → Except ε β}
    {rightNext : α → Except ε δ}
    (next : ∀ result, first = .ok result → Related Eq after (leftNext result) (rightNext result)) :
    Related Eq after (first >>= leftNext) (first >>= rightNext) := by
  cases first with
  | error fault => exact .fault rfl
  | ok result => exact next result rfl

/-- Related outcomes whose results are rewritten. -/
theorem map {after : β → δ → Prop} {leftRewrite : α → β} {rightRewrite : γ → δ}
    (first : Related faults holds left right)
    (rewrites : ∀ leftResult rightResult, holds leftResult rightResult →
      after (leftRewrite leftResult) (rightRewrite rightResult)) :
    Related faults after (left.map leftRewrite) (right.map rightRewrite) := by
  cases first with
  | fault related => exact .fault related
  | result related => exact .result (rewrites _ _ related)

/-- Related outcomes whose faults are rewritten. -/
theorem mapError {η θ : Type} {after : η → θ → Prop} {leftRewrite : ε → η} {rightRewrite : ζ → θ}
    (first : Related faults holds left right)
    (rewrites : ∀ leftFault rightFault, faults leftFault rightFault →
      after (leftRewrite leftFault) (rightRewrite rightFault)) :
    Related after holds (left.mapError leftRewrite) (right.mapError rightRewrite) := by
  cases first with
  | fault related => exact .fault (rewrites _ _ related)
  | result related => exact .result related

/-- Related outcomes of which both report equal faults. -/
theorem reported {right : Except ε γ} (first : Related Eq holds left right) :
    Related Eq holds (reported left) (reported right) :=
  first.mapError fun _ _ same => congrArg Stop.fault same

/-- Outcomes with equal results that are rewritten alike. -/
theorem map_eq {right : Except ζ α} (first : Related faults Eq left right) (rewrite : α → β) :
    Related faults Eq (left.map rewrite) (right.map rewrite) :=
  first.map fun _ _ same => congrArg rewrite same

/-- Related outcomes of which one is rewritten. -/
theorem map_left {after : β → γ → Prop} {rewrite : α → β} (first : Related faults holds left right)
    (rewrites : ∀ leftResult rightResult, holds leftResult rightResult →
      after (rewrite leftResult) rightResult) :
    Related faults after (left.map rewrite) right := by
  cases first with
  | fault related => exact .fault related
  | result related => exact .result (rewrites _ _ related)

/-- Related outcomes of which one is rewritten. -/
theorem map_right {after : α → δ → Prop} {rewrite : γ → δ}
    (first : Related faults holds left right)
    (rewrites : ∀ leftResult rightResult, holds leftResult rightResult →
      after leftResult (rewrite rightResult)) :
    Related faults after left (right.map rewrite) := by
  cases first with
  | fault related => exact .fault related
  | result related => exact .result (rewrites _ _ related)

/-- Outcomes that are related through a third one. -/
theorem trans {faults : ε → ε → Prop} {holds : α → α → Prop} {first second third : Except ε α}
    (joinFaults : ∀ {one two three}, faults one two → faults two three → faults one three)
    (joinResults : ∀ {one two three}, holds one two → holds two three → holds one three)
    (before : Related faults holds first second) (after : Related faults holds second third) :
    Related faults holds first third := by
  cases before with
  | fault before =>
      cases after with
      | fault after => exact .fault (joinFaults before after)
  | result before =>
      cases after with
      | result after => exact .result (joinResults before after)

end Related

end SqlTemplate.Outcome
