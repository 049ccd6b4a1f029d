import SqlTemplate.Param.Resolve

/-!
# The names that a path mentions

A path reads the value of its root, and the values of the names that stand between its brackets; no
other name matters.  So parameters that agree on these names give a path the same value in every
scope, whatever loops there are around the place (`Scope.resolve_withParams`), and a text that is
not a path is the same fault.
-/

namespace SqlTemplate

set_option autoImplicit false

/-! ## Names in paths -/

/-- The name that a step reads. -/
def Segment.name? : Segment → Option String
  | .item (.named name) => some name
  | _ => none

/-- The names that a path reads: its root and the names between its brackets. -/
def Path.names (path : Path) : List String := path.root :: path.segments.filterMap Segment.name?

/-- Whether a text writes a path that reads a name. -/
def Path.Mentions (text name : String) : Prop :=
  ∃ path, Path.ofString? text = .ok path ∧ name ∈ path.names

instance (text name : String) : Decidable (Path.Mentions text name) :=
  match reads : Path.ofString? text with
  | .ok path =>
      decidable_of_iff (name ∈ path.names)
        ⟨fun named => ⟨path, reads, named⟩, fun ⟨_, same, named⟩ => by
          rw [reads] at same
          cases same
          exact named⟩
  | .error _ => .isFalse fun ⟨_, same, _⟩ => by
      rw [reads] at same
      cases same

/-! ## Parameters that agree -/

/-- Parameters that agree on all names but some. -/
def Params.AgreeOutside (hidden : List String) (left right : Params) : Prop :=
  ∀ name, name ∉ hidden → left.get? name = right.get? name

/-- Objects that agree on all keys but one agree as parameters, but for this key and for the name
of the whole object. -/
theorem Params.named_agreeOutside {key : String} {left right : List (String × Value)}
    (same : ∀ name, name ≠ key → left.lookup name = right.lookup name) :
    (named left).AgreeOutside [key, wholeName] (named right) := by
  intro name outside
  simp only [List.mem_cons, List.not_mem_nil, or_false, not_or] at outside
  obtain ⟨otherKey, notWhole⟩ := outside
  simp only [get?, same name otherKey, if_neg notWhole]

/-- Accessors that agree on all keys but one. -/
theorem Params.accessor_agreeOutside {key : String} {left right : String → Option Value}
    (same : ∀ name, name ≠ key → left name = right name) :
    (accessor left).AgreeOutside [key] (accessor right) :=
  fun name outside => same name fun equal => outside (List.mem_singleton.mpr equal)

namespace Scope

/-! ## Scopes that agree -/

section

variable {left right : Scope}

/-- A step leads to the same value in scopes that agree on the name it reads. -/
theorem step?_congr (value : Value) {segment : Segment}
    (agree : ∀ name, segment.name? = some name → left.get? name = right.get? name) :
    left.step? value segment = right.step? value segment := by
  cases segment with
  | key name => rfl
  | size => rfl
  | item position =>
      cases position with
      | fixed position => rfl
      | named name =>
          have same := agree name rfl
          rw [step?, step?, position?, position?, same]

/-- Steps lead to the same value in scopes that agree on the names they read. -/
theorem steps?_congr {segments : List Segment}
    (agree : ∀ name ∈ segments.filterMap Segment.name?, left.get? name = right.get? name)
    (value : Value) : left.steps? value segments = right.steps? value segments := by
  induction segments generalizing value with
  | nil => rfl
  | cons segment segments ih =>
      have here : ∀ name, segment.name? = some name → left.get? name = right.get? name :=
        fun name reads =>
          agree name (List.mem_filterMap.mpr ⟨segment, List.mem_cons_self .., reads⟩)
      have behind : ∀ name ∈ segments.filterMap Segment.name?,
          left.get? name = right.get? name := by
        intro name listed
        obtain ⟨other, later, reads⟩ := List.mem_filterMap.mp listed
        exact agree name (List.mem_filterMap.mpr ⟨other, List.mem_cons_of_mem _ later, reads⟩)
      rw [steps?, steps?, step?_congr value here]
      exact congrArg _ (funext fun next => ih behind next)

/-- A path has the same value in scopes that agree on its names. -/
theorem value?_congr {path : Path}
    (agree : ∀ name ∈ path.names, left.get? name = right.get? name) :
    left.value? path = right.value? path := by
  have root := agree path.root (List.mem_cons_self ..)
  have behind : ∀ name ∈ path.segments.filterMap Segment.name?,
      left.get? name = right.get? name :=
    fun name named => agree name (List.mem_cons_of_mem _ named)
  rw [value?, value?, root]
  exact congrArg _ (funext (steps?_congr behind))

end

/-! ## Scopes with other parameters -/

/-- A scope with other parameters; what loops have bound stays. -/
def withParams (scope : Scope) (params : Params) : Scope := { scope with params }

section

variable {hidden : List String} {left right : Params}

/-- A name has the same value if the parameters agree on it. -/
theorem get?_withParams (agree : left.AgreeOutside hidden right) (scope : Scope) {name : String}
    (visible : name ∉ hidden) :
    (scope.withParams left).get? name = (scope.withParams right).get? name := by
  simp only [get?, withParams, agree name visible]

/-- **A path reads its own names only.** A text means the same in two scopes whose parameters differ
only in names that it does not mention. -/
theorem resolve_withParams (agree : left.AgreeOutside hidden right) (scope : Scope)
    {text : String} (unmentioned : ∀ name ∈ hidden, ¬ Path.Mentions text name) :
    (scope.withParams left).resolve text = (scope.withParams right).resolve text := by
  rw [resolve, resolve]
  cases reads : Path.ofString? text with
  | error fault => rfl
  | ok path =>
      apply congrArg Except.ok
      apply value?_congr
      intro name named
      apply get?_withParams agree scope
      intro isHidden
      exact unmentioned name isHidden ⟨path, reads, named⟩

end

end Scope

end SqlTemplate
