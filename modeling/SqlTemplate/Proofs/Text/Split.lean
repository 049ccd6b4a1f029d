import SqlTemplate.Template.Clause

/-!
# Splitting and joining

Splitting a sequence is the splitting of the library, so it takes apart what was joined.  Listed
openings and endings that are joined with upright bars are read again, if none of them is blank or
has a bar (`Clause.overrides_intercalate`).
-/

namespace SqlTemplate

set_option autoImplicit false

theorem Text.splitOn_eq {α : Type} [BEq α] (separator : α) (items : List α) :
    Text.splitOn separator items = items.splitOn separator := by
  induction items with
  | nil => rfl
  | cons first rest ih =>
      rw [List.splitOn, List.splitOnP_cons_eq_if_modifyHead, ← List.splitOn, ← ih, Text.splitOn]
      split
      · rfl
      · cases parts : Text.splitOn separator rest with
        | nil =>
            rw [ih] at parts
            exact absurd parts (List.splitOnP_ne_nil _ _)
        | cons part parts => rfl

namespace Clause

/-- A text that can be listed between upright bars. -/
def IsListable (word : String) : Prop := Text.isAllBlank word = false ∧ '|' ∉ word.toList

/-- Texts that are joined with upright bars are read again. -/
theorem overrides_intercalate {words : List String} (listable : ∀ word ∈ words, IsListable word) :
    overrides ("|".intercalate words) = words := by
  have kept : (words.map String.toList).filter (fun part => !part.all Text.isBlank) =
      words.map String.toList := by
    refine List.filter_eq_self.mpr fun part listed => ?_
    obtain ⟨word, member, rfl⟩ := List.mem_map.mp listed
    have notBlank := (listable word member).1
    rw [Text.isAllBlank] at notBlank
    rw [notBlank]
    rfl
  have free : ∀ part ∈ words.map String.toList, '|' ∉ part := by
    intro part listed
    obtain ⟨word, member, rfl⟩ := List.mem_map.mp listed
    exact (listable word member).2
  have ofList : (words.map String.toList).map String.ofList = words := by
    rw [List.map_map]
    refine (List.map_congr_left fun word _ => ?_).trans (List.map_id words)
    exact String.ofList_toList
  rw [overrides, Text.splitOn_eq, String.toList_intercalate]
  cases words with
  | nil => rfl
  | cons word words =>
      have bar : "|".toList = ['|'] := rfl
      have parts := List.splitOn_intercalate '|' free (by simp)
      rw [bar, parts, kept, ofList]

end Clause

end SqlTemplate
