import Mathlib.Data.List.Nodup
import SqlTemplate.Statement.Registry

/-!
# Registering statements

Statements with distinct keys can be registered together in an empty registry, which then holds
them in their order, each under its key.  In a namespace the key of a statement says which
identifier it has, and among identifiers without points the key also says which namespace.

Registering succeeds exactly where the keys are distinct and none of them is taken
(`Registry.registerAll_eq_ok_iff`), and puts the statements behind those that are there.
-/

namespace SqlTemplate

set_option autoImplicit false

/-- The key of an identifier in a namespace that is not empty. -/
theorem statementKey_of_ne {namespaceName : String} (named : namespaceName ≠ "") (id : String) :
    statementKey namespaceName id = namespaceName ++ "." ++ id := by
  rw [statementKey, if_neg (by simpa using named)]

/-- In a namespace, keys are equal only for equal identifiers. -/
theorem statementKey_inj {namespaceName left right : String} :
    statementKey namespaceName left = statementKey namespaceName right ↔ left = right := by
  constructor
  · intro same
    rw [statementKey, statementKey] at same
    split at same
    · exact same
    · have chars := congrArg String.toList same
      simp only [String.toList_append, List.append_right_inj, String.toList_inj] at chars
      exact chars
  · rintro rfl
    rfl

/-- A text is cut in one way only at its last mark. -/
theorem append_mark_inj {α : Type} {mark : α} {left right leftEnd rightEnd : List α}
    (leftFree : mark ∉ leftEnd) (rightFree : mark ∉ rightEnd)
    (same : left ++ mark :: leftEnd = right ++ mark :: rightEnd) :
    left = right ∧ leftEnd = rightEnd := by
  rcases List.append_eq_append_iff.mp same with ⟨between, rfl, ends⟩ | ⟨between, rfl, ends⟩
  · cases between with
    | nil => simpa using ends
    | cons first rest =>
        have inside := (List.cons_eq_cons.mp ends).2
        exact absurd (inside ▸ List.mem_append_right rest (List.mem_cons_self ..)) leftFree
  · cases between with
    | nil => simpa using ends.symm
    | cons first rest =>
        have inside := (List.cons_eq_cons.mp ends).2
        exact absurd (inside ▸ List.mem_append_right rest (List.mem_cons_self ..)) rightFree

/-- The characters of a key, if its namespace is not empty. -/
theorem toList_statementKey {namespaceName : String} (named : namespaceName ≠ "") (id : String) :
    (statementKey namespaceName id).toList = namespaceName.toList ++ '.' :: id.toList := by
  rw [statementKey_of_ne named, String.toList_append, String.toList_append, List.append_assoc]
  rfl

/-- Keys of identifiers without points are equal only for equal identifiers in equal namespaces. -/
theorem statementKey_eq_iff_of_noPoint {leftNamespace rightNamespace left right : String}
    (leftFree : '.' ∉ left.toList) (rightFree : '.' ∉ right.toList) :
    statementKey leftNamespace left = statementKey rightNamespace right ↔
      leftNamespace = rightNamespace ∧ left = right := by
  constructor
  · intro same
    by_cases leftNamed : leftNamespace = "" <;> by_cases rightNamed : rightNamespace = ""
    · subst leftNamed rightNamed
      exact ⟨rfl, statementKey_inj.mp same⟩
    · subst leftNamed
      have chars := congrArg String.toList same
      rw [toList_statementKey rightNamed] at chars
      exact absurd (chars ▸ List.mem_append_right _ (List.mem_cons_self ..)) leftFree
    · subst rightNamed
      have chars := congrArg String.toList same
      rw [toList_statementKey leftNamed] at chars
      exact absurd (chars ▸ List.mem_append_right _ (List.mem_cons_self ..)) rightFree
    · have chars := congrArg String.toList same
      rw [toList_statementKey leftNamed, toList_statementKey rightNamed] at chars
      obtain ⟨namespaces, ids⟩ := append_mark_inj leftFree rightFree chars
      exact ⟨String.toList_inj.mp namespaces, String.toList_inj.mp ids⟩
  · rintro ⟨rfl, rfl⟩
    rfl

namespace Registry

/-- Registries with equal statements are equal. -/
theorem eq_of_statements_eq {left right : Registry} (same : left.statements = right.statements) :
    left = right := by
  cases left
  cases right
  cases same
  rfl

/-- No key is found exactly where the keys are distinct and none of them is taken. -/
theorem duplicate?_eq_none_iff {taken keys : List String} :
    duplicate? taken keys = none ↔ keys.Nodup ∧ ∀ key ∈ keys, key ∉ taken := by
  refine ⟨fresh_of_duplicate?_eq_none, ?_⟩
  rintro ⟨distinct, fresh⟩
  induction keys generalizing taken with
  | nil => rfl
  | cons first rest ih =>
      have ⟨absent, distinct⟩ := List.nodup_cons.mp distinct
      rw [duplicate?, if_neg (fresh first (List.mem_cons_self ..))]
      refine ih distinct fun key listed present => ?_
      rcases List.mem_cons.mp present with rfl | before
      · exact absent listed
      · exact fresh key (List.mem_cons_of_mem _ listed) before

/-- Statements with fresh and distinct keys are registered behind those that are there. -/
theorem registerAll_of_fresh {registry : Registry} {statements : List Statement}
    (distinct : (statements.map Statement.key).Nodup)
    (fresh : ∀ statement ∈ statements, statement.key ∉ registry.keys) :
    ∃ more, registry.registerAll statements = .ok more ∧
      more.statements = registry.statements ++ statements := by
  have absent : duplicate? registry.keys (statements.map Statement.key) = none := by
    refine duplicate?_eq_none_iff.mpr ⟨distinct, fun key listed => ?_⟩
    obtain ⟨statement, member, rfl⟩ := List.mem_map.mp listed
    exact fresh statement member
  rw [registerAll]
  split
  · rename_i key found
    rw [absent] at found
    cases found
  · exact ⟨_, rfl, rfl⟩

/-- Registering succeeds exactly where the keys are distinct and none of them is taken; the
statements then stand behind those that were there. -/
theorem registerAll_eq_ok_iff {registry more : Registry} {statements : List Statement} :
    registry.registerAll statements = .ok more ↔
      ((statements.map Statement.key).Nodup ∧
          ∀ statement ∈ statements, statement.key ∉ registry.keys) ∧
        more.statements = registry.statements ++ statements := by
  constructor
  · intro registers
    rw [registerAll] at registers
    split at registers
    · cases registers
    · rename_i absent
      cases registers
      have ⟨distinct, fresh⟩ := fresh_of_duplicate?_eq_none absent
      exact ⟨⟨distinct, fun statement listed => fresh _ (List.mem_map_of_mem listed)⟩, rfl⟩
  · rintro ⟨⟨distinct, fresh⟩, same⟩
    obtain ⟨registered, registers, behind⟩ := registerAll_of_fresh distinct fresh
    rw [registers, eq_of_statements_eq (same.trans behind.symm)]

/-- A key that is found is the fault. -/
theorem registerAll_of_duplicate {registry : Registry} {statements : List Statement}
    {key : String} (found : duplicate? registry.keys (statements.map Statement.key) = some key) :
    registry.registerAll statements = .error (.duplicateStatement key) := by
  rw [registerAll]
  split
  · rename_i other first
    rw [found] at first
    cases first
    rfl
  · rename_i absent
    rw [found] at absent
    cases absent

/-- Registering one statement is registering a list of one. -/
theorem register_eq_registerAll (registry : Registry) (statement : Statement) :
    registry.register statement = registry.registerAll [statement] := by
  by_cases present : statement.key ∈ registry.keys
  · have found : duplicate? registry.keys ([statement].map Statement.key) =
        some statement.key := by
      rw [List.map_singleton, duplicate?, if_pos present]
    rw [register, dif_pos present, registerAll_of_duplicate found]
  · have distinct : ([statement].map Statement.key).Nodup := List.nodup_singleton _
    have fresh : ∀ other ∈ [statement], other.key ∉ registry.keys :=
      fun other listed => (List.mem_singleton.mp listed) ▸ present
    obtain ⟨more, registers, behind⟩ := registerAll_of_fresh distinct fresh
    rw [register, dif_neg present, registers]
    exact congrArg Except.ok (eq_of_statements_eq behind.symm)

/-- Statements of one namespace with distinct identifiers can be registered together. -/
theorem registerAll_empty {statements : List Statement} {namespaceName : String}
    (same : ∀ statement ∈ statements, statement.namespaceName = namespaceName)
    (distinct : (statements.map Statement.id).Nodup) :
    ∃ registry, Registry.empty.registerAll statements = .ok registry ∧
      registry.statements = statements := by
  have keys : statements.map Statement.key =
      (statements.map Statement.id).map (statementKey namespaceName) := by
    rw [List.map_map]
    refine List.map_congr_left fun statement listed => ?_
    rw [Statement.key, same statement listed]
    rfl
  have distinctKeys : (statements.map Statement.key).Nodup := by
    rw [keys]
    exact distinct.map fun _ _ equal => statementKey_inj.mp equal
  have fresh : ∀ statement ∈ statements, statement.key ∉ Registry.empty.keys :=
    fun _ _ => List.not_mem_nil
  exact registerAll_of_fresh distinctKeys fresh

/-- A statement of a registry is found under its key. -/
theorem get?_key {registry : Registry} {statement : Statement}
    (member : statement ∈ registry.statements) :
    registry.get? statement.key = some statement := by
  have distinct := registry.distinct
  rw [get?]
  generalize registry.statements = statements at member distinct ⊢
  induction statements with
  | nil => cases member
  | cons first rest ih =>
      have ⟨absent, distinct⟩ := List.nodup_cons.mp distinct
      rcases List.mem_cons.mp member with rfl | later
      · exact List.find?_cons_of_pos (beq_self_eq_true _)
      · have other : (first.key == statement.key) = false := by
          refine beq_eq_false_iff_ne.mpr fun same => ?_
          rw [same] at absent
          exact absent (List.mem_map_of_mem later)
        simp only [List.find?_cons, other]
        exact ih later distinct

/-- What is found has the key under which it is found. -/
theorem key_of_get? {registry : Registry} {key : String} {statement : Statement}
    (found : registry.get? key = some statement) : statement.key = key := by
  rw [get?] at found
  have same := List.find?_some found
  exact eq_of_beq same

/-- What is found is a statement of the registry with that key. -/
theorem get?_eq_some_iff {registry : Registry} {key : String} {statement : Statement} :
    registry.get? key = some statement ↔
      statement ∈ registry.statements ∧ statement.key = key := by
  constructor
  · intro found
    exact ⟨List.mem_of_find?_eq_some found, key_of_get? found⟩
  · rintro ⟨member, rfl⟩
    exact get?_key member

/-- In registries with the same statements, the same is found. -/
theorem get?_eq_of_mem_iff {left right : Registry}
    (same : ∀ statement, statement ∈ left.statements ↔ statement ∈ right.statements)
    (key : String) : left.get? key = right.get? key := by
  refine Option.ext fun statement => ?_
  rw [get?_eq_some_iff, get?_eq_some_iff, same]

/-- The statements of a registry are different from each other. -/
theorem nodup (registry : Registry) : registry.statements.Nodup := .of_map _ registry.distinct

/-- There is a statement under each of the keys, and under no other key. -/
theorem contains_iff {registry : Registry} {key : String} :
    registry.contains key = true ↔ key ∈ registry.keys := by
  simp only [contains, get?, keys, List.find?_isSome, List.mem_map, beq_iff_eq]

/-- What is found stays where it is when statements are put behind it. -/
theorem get?_of_behind {registry more : Registry} {added : List Statement} {key : String}
    {statement : Statement} (behind : more.statements = registry.statements ++ added)
    (found : registry.get? key = some statement) : more.get? key = some statement := by
  rw [get?] at found
  rw [get?, behind, List.find?_append, found]
  rfl

/-- The sorted keys are the keys. -/
theorem mem_sortedKeys {registry : Registry} {key : String} :
    key ∈ registry.sortedKeys ↔ key ∈ registry.keys := List.mem_mergeSort

/-- Sorted keys ascend without repetition. -/
theorem sortedKeys_ascend (registry : Registry) : registry.sortedKeys.Pairwise (· < ·) := by
  have ascending : registry.sortedKeys.Pairwise fun left right => decide (left ≤ right) = true := by
    refine List.pairwise_mergeSort (fun first second third => ?_) (fun left right => ?_) _
    · simpa only [decide_eq_true_eq] using String.le_trans
    · simpa only [Bool.or_eq_true, decide_eq_true_eq] using String.le_total left right
  have distinct : registry.sortedKeys.Nodup :=
    (List.mergeSort_perm registry.keys _).nodup_iff.mpr registry.distinct
  refine (ascending.and distinct).imp fun {left right} ordered => ?_
  obtain ⟨below, different⟩ := ordered
  refine String.not_le.mp fun above => different ?_
  exact String.le_antisymm (of_decide_eq_true below) above

end Registry

end SqlTemplate
