/-!
# The front of a text

A reader takes characters of a class from the front of a text.  It takes exactly the characters in
front of a text that stops, which is empty or starts with a character of another class.
-/

namespace SqlTemplate.Text

set_option autoImplicit false

/-- A text that does not start with a character of the class. -/
def StopsAt (inClass : Char → Bool) (chars : List Char) : Prop :=
  ∀ c after, chars = c :: after → inClass c = false

namespace StopsAt

variable {inClass : Char → Bool} {front behind : List Char}

theorem nil : StopsAt inClass [] := fun _ _ equal => nomatch equal

theorem cons {c : Char} {after : List Char} (other : inClass c = false) :
    StopsAt inClass (c :: after) := fun _ _ equal => by
  cases equal
  exact other

theorem append (frontStops : StopsAt inClass front) (behindStops : StopsAt inClass behind) :
    StopsAt inClass (front ++ behind) := by
  cases front with
  | nil => exact behindStops
  | cons c after => exact .cons (frontStops c after rfl)

/-- Whatever is behind a text that is not empty, the front decides. -/
theorem append_of_ne_nil (frontStops : StopsAt inClass front) (some : front ≠ []) :
    StopsAt inClass (front ++ behind) := by
  cases front with
  | nil => exact absurd rfl some
  | cons c after => exact .cons (frontStops c after rfl)

/-- The front of a text that stops is a text that stops. -/
theorem of_front {chars : List Char} (stops : StopsAt inClass chars) (isFront : front <+: chars) :
    StopsAt inClass front := by
  obtain ⟨behind, rfl⟩ := isFront
  intro c after equal
  exact stops c (after ++ behind) (equal ▸ List.cons_append)

theorem takeWhile_eq_nil (stops : StopsAt inClass behind) : behind.takeWhile inClass = [] := by
  cases behind with
  | nil => rfl
  | cons c after => exact List.takeWhile_cons_of_neg (by simp [stops c after rfl])

/-- A reader takes the characters in front of a text that stops. -/
theorem takeWhile_append (stops : StopsAt inClass behind)
    (all : ∀ c ∈ front, inClass c = true) : (front ++ behind).takeWhile inClass = front := by
  rw [List.takeWhile_append_of_pos all, stops.takeWhile_eq_nil, List.append_nil]

/-- What a reader takes from a text does not change when a text that stops is put behind it. -/
theorem takeWhile_append_left (stops : StopsAt inClass behind) (front : List Char) :
    (front ++ behind).takeWhile inClass = front.takeWhile inClass := by
  rw [List.takeWhile_append]
  split
  · rename_i whole
    rw [stops.takeWhile_eq_nil, List.append_nil]
    exact ((List.takeWhile_prefix inClass).eq_of_length whole).symm
  · rfl

/-- A reader leaves the text that stops. -/
theorem dropWhile_append (stops : StopsAt inClass behind)
    (all : ∀ c ∈ front, inClass c = true) : (front ++ behind).dropWhile inClass = behind := by
  rw [List.dropWhile_append_of_pos all]
  cases behind with
  | nil => rfl
  | cons c after => exact List.dropWhile_cons_of_neg (by simp [stops c after rfl])

end StopsAt

/-- What a reader leaves is a text that stops. -/
theorem stopsAt_dropWhile (inClass : Char → Bool) (chars : List Char) :
    StopsAt inClass (chars.dropWhile inClass) := by
  intro c after equal
  have first := List.head?_dropWhile_not inClass chars
  rw [equal, List.head?_cons] at first
  exact first

/-- A reader that stops in front of a mark finds the mark there, unless it has read everything. -/
theorem takeWhile_ne_append {mark : Char} {chars : List Char}
    (found : (chars.takeWhile (· != mark)).length < chars.length) :
    chars.takeWhile (· != mark) ++ mark :: chars.drop ((chars.takeWhile (· != mark)).length + 1) =
      chars := by
  induction chars with
  | nil => cases found
  | cons c chars ih =>
      by_cases here : c = mark
      · simp [here]
      · have goesOn : (c != mark) = true := by simpa using here
        have taken : (c :: chars).takeWhile (· != mark) = c :: chars.takeWhile (· != mark) :=
          List.takeWhile_cons_of_pos goesOn
        rw [taken] at found ⊢
        exact congrArg (c :: ·) (ih (Nat.lt_of_succ_lt_succ found))

/-- The first mark of a text is at one place. -/
theorem front_mark_inj {mark : Char} {front other behind rest : List Char} (first : mark ∉ front)
    (otherFirst : mark ∉ other) (same : front ++ mark :: behind = other ++ mark :: rest) :
    front = other ∧ behind = rest := by
  have stops (after : List Char) : StopsAt (· != mark) (mark :: after) := .cons (by simp)
  have unmarked {front : List Char} (absent : mark ∉ front) : ∀ c ∈ front, (c != mark) = true :=
    fun c member => bne_iff_ne.mpr fun equal => absent (equal ▸ member)
  have fronts := congrArg (List.takeWhile (· != mark)) same
  rw [(stops behind).takeWhile_append (unmarked first),
    (stops rest).takeWhile_append (unmarked otherFirst)] at fronts
  subst fronts
  exact ⟨rfl, (List.cons.inj (List.append_cancel_left same)).2⟩

end SqlTemplate.Text
