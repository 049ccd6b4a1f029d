/-!
# Addresses in a tree of references

A document names further documents, and these name further ones.  The address of a document says
which entry is followed at each step on the way to it.  A document may have several addresses, and
in a circle it has infinitely many.

Depth first and in the order of the entries, addresses are met in lexicographic order: a document
goes before those it names (`Address.precedes_append`), and everything below one entry goes before
everything below a later one (`Address.LeftOf.append`).
-/

namespace SqlTemplate

set_option autoImplicit false

/-- The positions of the entries that are followed, from the outermost document inwards. -/
abbrev Address := List Nat

namespace Address

variable {α : Type}

/-! ## Depth-first order -/

/-- Whether an address is met earlier, depth first and in the order of the entries. -/
def Precedes (left right : Address) : Prop :=
  List.Lex (fun first second => first < second) left right

theorem not_precedes_self (address : Address) : ¬ address.Precedes address :=
  List.lex_irrefl Nat.lt_irrefl address

theorem Precedes.trans {first second third : Address} (before : first.Precedes second)
    (after : second.Precedes third) : first.Precedes third :=
  List.lex_trans Nat.lt_trans before after

/-- A document is met before everything below it. -/
theorem precedes_append (address : Address) {more : List Nat} (below : more ≠ []) :
    address.Precedes (address ++ more) := by
  induction address with
  | nil =>
      cases more with
      | nil => exact absurd rfl below
      | cons index more => exact .nil
  | cons index address ih => exact .cons ih

/-- An address that branches off to the left of another one. -/
inductive LeftOf : Address → Address → Prop
  | here {first second : Nat} {left right : List Nat} :
      first < second → LeftOf (first :: left) (second :: right)
  | under {index : Nat} {left right : List Nat} :
      LeftOf left right → LeftOf (index :: left) (index :: right)

namespace LeftOf

theorem precedes {left right : Address} (leftOf : LeftOf left right) : left.Precedes right := by
  induction leftOf with
  | here less => exact .rel less
  | under _ ih => exact .cons ih

/-- What is below an address branches off where the address does. -/
theorem append {left right : Address} (leftOf : LeftOf left right) (more others : List Nat) :
    LeftOf (left ++ more) (right ++ others) := by
  induction leftOf with
  | here less => exact .here less
  | under _ ih => exact .under ih

theorem siblings (address : Address) {first second : Nat} (less : first < second) :
    LeftOf (address ++ [first]) (address ++ [second]) := by
  induction address with
  | nil => exact .here less
  | cons index address ih => exact .under ih

end LeftOf

/-! ## Entries of one document -/

/-- The entries of the document at an address, with their addresses. -/
def entries (address : Address) (items : List α) : List (Address × α) :=
  items.zipIdx.map fun (item, index) => (address ++ [index], item)

theorem mem_entries {address other : Address} {items : List α} {item : α} :
    (other, item) ∈ address.entries items ↔
      ∃ index : Nat, items[index]? = some item ∧ other = address ++ [index] := by
  constructor
  · intro listed
    obtain ⟨⟨found, index⟩, member, same⟩ := List.mem_map.mp listed
    cases same
    exact ⟨index, List.mk_mem_zipIdx_iff_getElem?.mp member, rfl⟩
  · rintro ⟨index, found, rfl⟩
    exact List.mem_map.mpr ⟨(item, index), List.mk_mem_zipIdx_iff_getElem?.mpr found, rfl⟩

theorem map_entries (address : Address) (items : List α) :
    (address.entries items).map Prod.snd = items := by
  rw [entries, List.map_map]
  exact items.zipIdx_map_fst 0

/-- A document is met before its entries. -/
theorem precedes_of_mem_entries {address : Address} {items : List α} {entry : Address × α}
    (listed : entry ∈ address.entries items) : address.Precedes entry.1 := by
  obtain ⟨index, _, same⟩ := mem_entries.mp listed
  rw [same]
  exact address.precedes_append (List.cons_ne_nil _ _)

/-- The entries of a document branch off where the document does. -/
theorem leftOf_of_mem_entries {address right : Address} {items : List α} {entry : Address × α}
    (leftOf : LeftOf address right) (listed : entry ∈ address.entries items) :
    LeftOf entry.1 right := by
  obtain ⟨index, _, same⟩ := mem_entries.mp listed
  have further := leftOf.append [index] []
  rw [List.append_nil] at further
  exact same ▸ further

/-- The entries of a document are listed from left to right. -/
theorem entries_leftOf (address : Address) (items : List α) :
    (address.entries items).Pairwise fun left right => LeftOf left.1 right.1 := by
  rw [entries, List.pairwise_map]
  have ascending : (items.zipIdx.map Prod.snd).Pairwise fun first second => first < second := by
    rw [List.zipIdx_map_snd]
    exact List.pairwise_lt_range'
  exact (List.pairwise_map.mp ascending).imp fun less => .siblings address less

end Address

end SqlTemplate
