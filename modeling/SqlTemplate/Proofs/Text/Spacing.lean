import SqlTemplate.Proofs.Text.Blank
import SqlTemplate.Text.Spacing

/-!
# Uniform spacing

Making the spacing of a text uniform writes characters of the text and spaces, and writes something
for every text that is not empty.  The characters at both ends are kept, so a text with uniform
spacing is trimmed (`trimmed_uniform`).
-/

namespace SqlTemplate.Text

set_option autoImplicit false

/-- Every character that is written is a space or was there before. -/
theorem mem_respace {c : Char} {spot : Spot} {chars : List Char}
    (member : c ∈ respace spot chars) : c = ' ' ∨ c ∈ chars := by
  fun_induction respace spot chars with
  | case1 => cases member
  | case2 | case3 | case5 | case6 | case8 =>
      rename_i ih
      rcases List.mem_cons.mp member with rfl | later
      · exact .inr (List.mem_cons_self ..)
      · exact (ih later).imp_right (List.mem_cons_of_mem _)
  | case4 =>
      rename_i ih
      rcases List.mem_cons.mp member with space | later
      · exact .inl space
      · exact (ih later).imp_right (List.mem_cons_of_mem _)
  | case7 =>
      rename_i ih
      exact (ih member).imp_right (List.mem_cons_of_mem _)

/-- Outside of a gap something is written for the first character. -/
theorem respace_word_ne_nil {chars : List Char} (some : chars ≠ []) :
    respace .word chars ≠ [] := by
  cases chars with
  | nil => exact absurd rfl some
  | cons c after =>
      rw [respace]
      split
      · exact List.cons_ne_nil _ _
      · split <;> exact List.cons_ne_nil _ _

/-- A first character that is not blank is written first. -/
theorem stopsAt_respace {chars : List Char} (stops : StopsAt isBlank chars) :
    StopsAt isBlank (respace .word chars) := by
  cases chars with
  | nil => exact .nil
  | cons c after =>
      have notBlank := stops c after rfl
      rw [respace, notBlank]
      split <;> exact .cons notBlank

/-- A text without blanks is written as it is. -/
theorem respace_eq_self {spot : Spot} {chars : List Char}
    (noBlank : ∀ c ∈ chars, isBlank c = false) : respace spot chars = chars := by
  fun_induction respace spot chars with
  | case1 => rfl
  | case2 | case3 | case5 | case6 | case8 =>
      rename_i ih
      rw [ih (List.forall_mem_cons.mp noBlank).2]
  | case4 first after _ blank | case7 first after _ blank =>
      rw [noBlank first (List.mem_cons_self ..)] at blank
      cases blank

/-- The spacing of a text without blanks is uniform. -/
theorem uniform_eq_self {text : String} (noBlank : ∀ c ∈ text.toList, isBlank c = false) :
    uniform text = text := by
  rw [uniform, trim_eq_self noBlank, respace_eq_self noBlank, String.ofList_toList]

/-- Blanks around a text make no difference to its uniform spacing. -/
theorem uniform_surrounded {text inside : String} {before behind : List Char}
    (whole : text.toList = before ++ inside.toList ++ behind)
    (beforeBlank : before.all isBlank = true) (behindBlank : behind.all isBlank = true) :
    uniform text = uniform inside := by
  rw [uniform, whole, trim_surrounded beforeBlank behindBlank, uniform]

/-- What stands at the end of a text that is not empty. -/
theorem getLast?_cons_eq_some {c last : Char} {after : List Char}
    (ends : (c :: after).getLast? = some last) :
    after = [] ∧ c = last ∨ after.getLast? = some last := by
  cases after with
  | nil => exact .inl ⟨rfl, Option.some.inj ends⟩
  | cons next after => exact .inr (by rwa [List.getLast?_cons_cons] at ends)

/-- A last character that is not blank is written last. -/
theorem getLast?_respace {last : Char} (notBlank : isBlank last = false) {spot : Spot}
    {chars : List Char} (ends : chars.getLast? = some last) :
    (respace spot chars).getLast? = some last := by
  have written {spot : Spot} {first : Char} {after : List Char}
      (rest : (respace spot after).getLast? = some last) :
      (first :: respace spot after).getLast? = some last := by
    rw [List.getLast?_cons, rest, Option.getD_some]
  fun_induction respace spot chars with
  | case1 => cases ends
  | case2 | case3 | case5 | case6 | case8 =>
      rename_i ih
      rcases getLast?_cons_eq_some ends with ⟨rfl, rfl⟩ | later
      · rw [respace.eq_def]
        rfl
      · exact written (ih later)
  | case4 first after _ blank ih =>
      rcases getLast?_cons_eq_some ends with ⟨_, rfl⟩ | later
      · rw [blank] at notBlank
        cases notBlank
      · exact written (ih later)
  | case7 first after _ blank ih =>
      rcases getLast?_cons_eq_some ends with ⟨_, rfl⟩ | later
      · rw [blank] at notBlank
        cases notBlank
      · exact ih later

/-- A text with uniform spacing is trimmed. -/
theorem trimmed_uniform (text : String) : trimmed (uniform text) = uniform text := by
  have ⟨front, behind⟩ := trim_stopsAt text.toList
  rw [trimmed, uniform, String.toList_ofList, trim_eq_self_iff.mpr]
  refine ⟨stopsAt_respace front, fun c after equal => ?_⟩
  have ends : (respace .word (trim text.toList)).getLast? = some c := by
    rw [← List.head?_reverse, equal]
    rfl
  cases before : (trim text.toList).reverse with
  | nil =>
      rw [List.reverse_eq_nil_iff.mp before] at ends
      cases ends
  | cons last rest =>
      have notBlank := behind last rest before
      have kept : (respace .word (trim text.toList)).getLast? = some last :=
        getLast?_respace notBlank (by rw [← List.head?_reverse, before]; rfl)
      rw [ends] at kept
      cases kept
      exact notBlank

end SqlTemplate.Text
