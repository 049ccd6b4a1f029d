import SqlTemplate.Fault
import SqlTemplate.Statement.Basic

/-!
# The registry of statements

A registry holds statements under their keys, each key once, in the order in which they were
registered.  A statement is never replaced or taken away, and several statements are registered
together or not at all.

That the keys are distinct is part of the type, so every operation has to show it.
-/

namespace SqlTemplate

set_option autoImplicit false

/-- Statements with distinct keys, in the order of their registration. -/
structure Registry where
  statements : List Statement
  distinct : (statements.map Statement.key).Nodup

namespace Registry

/-- The registry without statements. -/
def empty : Registry := ⟨[], by simp⟩

/-- The keys in the order of registration. -/
def keys (registry : Registry) : List String := registry.statements.map Statement.key

/-- The keys in ascending order. -/
def sortedKeys (registry : Registry) : List String :=
  registry.keys.mergeSort fun left right => left ≤ right

/-- The number of statements. -/
def size (registry : Registry) : Nat := registry.statements.length

/-- Whether there is no statement. -/
def isEmpty (registry : Registry) : Bool := registry.size == 0

/-- The statement with a key. -/
def get? (registry : Registry) (key : String) : Option Statement :=
  registry.statements.find? fun statement => statement.key == key

/-- Whether there is a statement with a key. -/
def contains (registry : Registry) (key : String) : Bool := (registry.get? key).isSome

/-! ## Registration -/

/-- The first key that is taken already or comes a second time. -/
def duplicate? (taken : List String) : List String → Option String
  | [] => none
  | key :: keys => if key ∈ taken then some key else duplicate? (key :: taken) keys

/-- Where no key is found, the keys are distinct and none of them is taken. -/
theorem fresh_of_duplicate?_eq_none {taken keys : List String}
    (absent : duplicate? taken keys = none) : keys.Nodup ∧ ∀ key ∈ keys, key ∉ taken := by
  induction keys generalizing taken with
  | nil => simp
  | cons first rest ih =>
      simp only [duplicate?] at absent
      split at absent
      · contradiction
      · rename_i fresh
        have ⟨distinct, disjoint⟩ := ih absent
        refine ⟨List.nodup_cons.mpr ⟨fun member => ?_, distinct⟩, fun key member => ?_⟩
        · exact disjoint first member (List.mem_cons_self ..)
        · rcases List.mem_cons.mp member with rfl | later
          · exact fresh
          · exact fun present => disjoint key later (List.mem_cons_of_mem _ present)

/-- Fresh statements can be put behind those of a registry. -/
theorem nodup_append_of_duplicate?_eq_none {registry : Registry} {statements : List Statement}
    (absent : duplicate? registry.keys (statements.map Statement.key) = none) :
    ((registry.statements ++ statements).map Statement.key).Nodup := by
  have ⟨distinct, disjoint⟩ := fresh_of_duplicate?_eq_none absent
  rw [List.map_append, List.nodup_append]
  refine ⟨registry.distinct, distinct, fun left present right added same => ?_⟩
  exact disjoint right added (same ▸ present)

/-- Registers statements, all of them or none; the first key that cannot be registered is the
fault. -/
def registerAll (registry : Registry) (statements : List Statement) :
    Except ConfigFault Registry :=
  match absent : duplicate? registry.keys (statements.map Statement.key) with
  | some key => .error (.duplicateStatement key)
  | none => .ok ⟨registry.statements ++ statements, nodup_append_of_duplicate?_eq_none absent⟩

/-- Registers one statement. -/
def register (registry : Registry) (statement : Statement) : Except ConfigFault Registry :=
  if present : statement.key ∈ registry.keys then .error (.duplicateStatement statement.key)
  else
    .ok ⟨registry.statements ++ [statement],
      nodup_append_of_duplicate?_eq_none (by simp [duplicate?, present])⟩

end Registry

end SqlTemplate
