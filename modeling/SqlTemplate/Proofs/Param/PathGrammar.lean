import SqlTemplate.Proofs.Decimal.Literal
import SqlTemplate.Proofs.Param.PathText

/-!
# The grammar of paths

A path is written as its root and its steps one behind the other: a point and a name, a position
between brackets, or `.size()`.  The same position may be written in more than one way: blanks may
stand inside the brackets, and a fixed position may have a plus sign and zeros in front of its
digits.  `Path.WrittenAs` says which texts write a path, without the reader.

**Reading and writing are inverse to each other** (`Path.read_iff_writtenAs`).  A text is read as a
path exactly when it writes the path, blanks at its ends apart; so no text writes two paths, and
every text that writes none is a fault that keeps the text as it was.  Each path has a plain writing
of its own (`Path.text`), which is read as the path again.

The reader looks for the next point or bracket before it looks at what is in front of it.  So a step
is read up to the first character of the next one, and what writes steps always begins with such a
character (`Path.continues_of_stepsWrittenAs`).
-/

namespace SqlTemplate

set_option autoImplicit false

/-! ## Writings -/

/-- The texts that write a position: its digits, perhaps with a plus sign and zeros in front, or its
name. -/
inductive Position.WrittenAs : Position → List Char → Prop
  | fixed {position : Nat} {sign zeros : List Char} (bounded : position < Path.positionBound)
      (optional : sign = [] ∨ sign = ['+']) (padding : ∀ c ∈ zeros, c = '0') :
      WrittenAs (.fixed position) (sign ++ (zeros ++ (toString position).toList))
  | named {name : String} (named : Text.isName name.toList = true) :
      WrittenAs (.named name) name.toList

/-- The texts that write a step: blanks may stand around a position in its brackets. -/
inductive Segment.WrittenAs : Segment → List Char → Prop
  | key {name : String} (named : Text.isName name.toList = true) :
      WrittenAs (.key name) ('.' :: name.toList)
  | item {position : Position} {before inside behind : List Char}
      (written : position.WrittenAs inside) (frontBlank : before.all Text.isBlank = true)
      (backBlank : behind.all Text.isBlank = true) :
      WrittenAs (.item position) ('[' :: (before ++ inside ++ behind ++ [']']))
  | size : WrittenAs .size ".size()".toList

namespace Path

/-- The texts that write steps one behind the other. -/
inductive StepsWrittenAs : List Segment → List Char → Prop
  | nil : StepsWrittenAs [] []
  | cons {segment : Segment} {segments : List Segment} {front behind : List Char}
      (here : segment.WrittenAs front) (more : StepsWrittenAs segments behind) :
      StepsWrittenAs (segment :: segments) (front ++ behind)

/-- The texts that write a path: the name of its root, and its steps. -/
inductive WrittenAs : Path → List Char → Prop
  | intro {root : String} {segments : List Segment} {steps : List Char}
      (named : Text.isName root.toList = true) (written : StepsWrittenAs segments steps) :
      WrittenAs ⟨root, segments⟩ (root.toList ++ steps)

end Path

/-! ## Positions -/

namespace Path

variable {chars : List Char}

theorem digitsPosition?_eq_some_iff {position : Nat} :
    digitsPosition? chars = some position ↔ position < positionBound ∧
      ∃ zeros, (∀ c ∈ zeros, c = '0') ∧ chars = zeros ++ (toString position).toList := by
  rw [toList_toString, digitsPosition?]
  constructor
  · intro reads
    split at reads
    · cases reads
    · rename_i written
      rw [Bool.or_eq_true, not_or, Bool.not_eq_true', Bool.not_eq_false] at written
      obtain ⟨bounded, equal⟩ := Option.ite_none_right_eq_some.mp reads
      cases equal
      exact ⟨bounded, Decimal.exists_zeros (mt List.isEmpty_iff.mpr written.1)
        (List.all_eq_true.mp written.2)⟩
  · rintro ⟨bounded, zeros, padding, rfl⟩
    have digits : ∀ c ∈ zeros ++ Nat.toDigits 10 position, c.isDigit = true := by
      intro c member
      rcases List.mem_append.mp member with zero | digit
      · rw [padding c zero]
        rfl
      · exact Nat.isDigit_of_mem_toDigits (by decide) (by decide) digit
    have written : ¬ ((zeros ++ Nat.toDigits 10 position).isEmpty ||
        !(zeros ++ Nat.toDigits 10 position).all Char.isDigit) = true := by
      simp [List.all_eq_true.mpr digits]
    rw [if_neg written, Decimal.digitsValue_zeros_append padding]
    exact if_pos bounded

/-- Digits with an optional plus sign write a fixed position. -/
theorem fixedPosition?_eq_some_iff {position : Nat} :
    fixedPosition? chars = some position ↔ Position.WrittenAs (.fixed position) chars := by
  constructor
  · intro reads
    unfold fixedPosition? at reads
    split at reads
    · obtain ⟨bounded, zeros, padding, rfl⟩ := digitsPosition?_eq_some_iff.mp reads
      exact .fixed bounded (.inr rfl) padding
    · obtain ⟨bounded, zeros, padding, rfl⟩ := digitsPosition?_eq_some_iff.mp reads
      exact .fixed bounded (.inl rfl) padding
  · intro written
    obtain ⟨bounded, optional, padding⟩ := written
    rename_i sign zeros
    have reads : digitsPosition? (zeros ++ (toString position).toList) = some position :=
      digitsPosition?_eq_some_iff.mpr ⟨bounded, zeros, padding, rfl⟩
    rcases optional with rfl | rfl
    · refine (fixedPosition?_of_ne ?_).trans reads
      intro after equal
      have plus : '+' ∈ zeros ++ (toString position).toList := equal ▸ List.mem_cons_self ..
      rcases List.mem_append.mp plus with zero | digit
      · exact absurd (padding '+' zero) (by decide)
      · exact absurd (isDigit_of_mem_toString position digit) (by decide)
    · exact reads

/-- What writes a position has no blanks. -/
theorem trim_of_positionWrittenAs {position : Position} (written : position.WrittenAs chars) :
    Text.trim chars = chars := by
  cases written with
  | named named => exact trim_name named
  | fixed bounded optional padding =>
      apply Text.trim_eq_self
      intro c member
      rcases List.mem_append.mp member with plus | digits
      · rcases optional with rfl | rfl
        · cases plus
        · rw [List.mem_singleton.mp plus]
          rfl
      · rcases List.mem_append.mp digits with zero | digit
        · rw [padding c zero]
          rfl
        · exact Text.isBlank_of_isDigit (isDigit_of_mem_toString _ digit)

/-- What is between brackets is read as the position that it writes, blanks at its ends apart. -/
theorem position?_eq_some_iff {position : Position} :
    position? chars = some position ↔ position.WrittenAs (Text.trim chars) := by
  rw [position?]
  constructor
  · intro reads
    split at reads
    · rename_i fixed
      cases reads
      exact fixedPosition?_eq_some_iff.mp fixed
    · obtain ⟨named, equal⟩ := Option.ite_none_right_eq_some.mp reads
      cases equal
      have chars_eq := String.toList_ofList (l := Text.trim chars)
      have written := Position.WrittenAs.named (chars_eq.symm ▸ named)
      rwa [chars_eq] at written
  · intro written
    generalize Text.trim chars = inside at written
    cases written with
    | fixed bounded optional padding =>
        rw [fixedPosition?_eq_some_iff.mpr (.fixed bounded optional padding)]
    | named named =>
        rw [fixedPosition?_name named, if_pos named, String.ofList_toList]

/-- No position is written with a closing bracket. -/
theorem not_mem_of_positionWrittenAs {position : Position} (written : position.WrittenAs chars) :
    ']' ∉ chars := by
  cases written with
  | named named => exact not_mem_name named
  | fixed bounded optional padding =>
      rw [List.mem_append, List.mem_append, not_or, not_or]
      refine ⟨?_, ?_, not_mem_toString _⟩
      · rcases optional with rfl | rfl <;> simp
      · intro member
        exact absurd (padding ']' member) (by decide)

/-! ## Steps -/

/-- A step is read between the first character of it and the next step. -/
theorem segments?_eq_some_singleton {segment : Segment} (written : segment.WrittenAs chars) :
    segments? chars = some [segment] := by
  cases written with
  | key named =>
      rw [segments?, if_pos rfl, nameChars_name named, member?, if_neg, if_pos named,
        List.drop_length, segments?, String.ofList_toList]
      · rfl
      · intro equal
        rw [equal] at named
        exact absurd named (by decide)
  | @item position before inside behind written frontBlank backBlank =>
      refine segments?_item ?_ (position?_eq_some_iff.mpr ?_)
      · have noBracket (blanks : List Char) (blank : blanks.all Text.isBlank = true) :
            ']' ∉ blanks := fun member =>
          absurd (List.all_eq_true.mp blank ']' member) (by decide)
        simp [noBracket before frontBlank, noBracket behind backBlank,
          not_mem_of_positionWrittenAs written]
      · rw [Text.trim_surrounded frontBlank backBlank, trim_of_positionWrittenAs written]
        exact written
  | size =>
      have start : ".size()".toList = '.' :: "size()".toList := rfl
      have whole : nameChars "size()".toList = "size()".toList := rfl
      rw [start, segments?, if_pos rfl, whole, member?, if_pos rfl, List.drop_length, segments?]
      rfl

/-- What writes a step begins with a point or an opening bracket. -/
theorem continues_of_segmentWrittenAs {segment : Segment} (written : segment.WrittenAs chars) :
    Continues chars ∧ chars ≠ [] := by
  cases written with
  | key named => exact ⟨.cons rfl, List.cons_ne_nil _ _⟩
  | item written frontBlank backBlank => exact ⟨.cons rfl, List.cons_ne_nil _ _⟩
  | size => exact ⟨.cons rfl, List.cons_ne_nil _ _⟩

/-- What writes steps may stand behind a path. -/
theorem continues_of_stepsWrittenAs {segments : List Segment}
    (written : StepsWrittenAs segments chars) : Continues chars := by
  cases written with
  | nil => exact .nil
  | cons here more =>
      obtain ⟨continues, some⟩ := continues_of_segmentWrittenAs here
      exact continues.append_of_ne_nil some

/-- What writes steps is read as the steps. -/
theorem segments?_of_stepsWrittenAs {segments : List Segment}
    (written : StepsWrittenAs segments chars) : segments? chars = some segments := by
  induction written with
  | nil => rw [segments?]
  | cons here more ih =>
      rw [segments?_append (continues_of_stepsWrittenAs more) (segments?_eq_some_singleton here),
        ih]
      rfl

/-- The characters up to the next step are those that a name or a size is written with. -/
theorem segmentWrittenAs_of_member? {segment : Segment} (reads : member? chars = some segment) :
    segment.WrittenAs ('.' :: chars) := by
  rw [member?] at reads
  split at reads
  · rename_i size
    cases reads
    rw [size]
    exact .size
  · obtain ⟨named, equal⟩ := Option.ite_none_right_eq_some.mp reads
    cases equal
    have chars_eq := String.toList_ofList (l := chars)
    have written := Segment.WrittenAs.key (chars_eq.symm ▸ named)
    rwa [chars_eq] at written

/-- Steps that are read are written by the characters. -/
theorem stepsWrittenAs_of_segments? {segments : List Segment}
    (reads : segments? chars = some segments) : StepsWrittenAs segments chars := by
  induction chars using segments?.induct generalizing segments with
  | case1 =>
      rw [segments?] at reads
      cases reads
      exact .nil
  | case2 after ih =>
      rw [segments?, if_pos rfl] at reads
      obtain ⟨segment, member, reads⟩ := Option.bind_eq_some_iff.mp reads
      obtain ⟨more, others, reads⟩ := Option.bind_eq_some_iff.mp reads
      cases reads
      have split : nameChars after ++ after.drop (nameChars after).length = after :=
        List.prefix_iff_eq_append.mp (List.takeWhile_prefix _)
      have written := StepsWrittenAs.cons (segmentWrittenAs_of_member? member) (ih others)
      rwa [List.cons_append, split] at written
  | case3 after inside closed noPoint =>
      rename_i ih
      rw [segments?, if_neg noPoint, if_pos rfl] at reads
      dsimp only at reads
      rw [if_pos closed] at reads
      obtain ⟨position, read, reads⟩ := Option.bind_eq_some_iff.mp reads
      obtain ⟨more, others, reads⟩ := Option.bind_eq_some_iff.mp reads
      cases reads
      have split : inside ++ ']' :: after.drop (inside.length + 1) = after :=
        Text.takeWhile_ne_append closed
      obtain ⟨before, behind, around, frontBlank, backBlank⟩ := Text.exists_blanks inside
      have here := Segment.WrittenAs.item (position?_eq_some_iff.mp read) frontBlank backBlank
      rw [← around] at here
      have written := StepsWrittenAs.cons here (ih others)
      rw [List.cons_append, List.append_assoc, List.singleton_append] at written
      rwa [split] at written
  | case4 after inside unclosed =>
      rw [segments?, if_neg (by decide), if_pos rfl] at reads
      dsimp only at reads
      rw [if_neg unclosed] at reads
      cases reads
  | case5 c after noPoint noBracket =>
      rw [segments?, if_neg noPoint, if_neg noBracket] at reads
      cases reads

/-! ## Paths -/

variable {path : Path}

/-- What writes steps ends with no blank. -/
theorem stopsAt_of_stepsWrittenAs {segments : List Segment}
    (written : StepsWrittenAs segments chars) : Text.StopsAt Text.isBlank chars.reverse := by
  induction written with
  | nil => exact .nil
  | @cons segment segments front behind here more ih =>
      rw [List.reverse_append]
      refine ih.append ?_
      cases here with
      | key named =>
          rw [List.reverse_cons]
          refine Text.StopsAt.append ?_ (.cons rfl)
          exact (Text.trim_eq_self_iff.mp (trim_name named)).2
      | item written frontBlank backBlank =>
          rw [List.reverse_cons, List.reverse_append]
          exact .cons rfl
      | size => exact .cons rfl

/-- No blank stands at the ends of what writes a path. -/
theorem trim_of_writtenAs (written : path.WrittenAs chars) : Text.trim chars = chars := by
  obtain ⟨named, written⟩ := written
  have noBlank := stopsAt_blank (continues_of_stepsWrittenAs written)
  rw [Text.trim_append (trim_name named) noBlank,
    Text.trimEnd_eq_self (stopsAt_of_stepsWrittenAs written)]

/-- Characters are read as a path exactly when they write it, blanks at their ends apart. -/
theorem ofChars?_eq_some_iff : ofChars? chars = some path ↔ path.WrittenAs (Text.trim chars) := by
  rw [ofChars?]
  constructor
  · intro reads
    split at reads
    · rename_i named
      obtain ⟨segments, steps, equal⟩ := Option.map_eq_some_iff.mp reads
      cases equal
      have split := List.prefix_iff_eq_append.mp
        (List.takeWhile_prefix (fun c => !beginsStep c) (l := Text.trim chars))
      have root_eq := String.toList_ofList (l := nameChars (Text.trim chars))
      have written := WrittenAs.intro (root_eq.symm ▸ named) (stepsWrittenAs_of_segments? steps)
      rw [root_eq] at written
      rwa [nameChars, split] at written
    · cases reads
  · intro written
    generalize Text.trim chars = inside at written
    obtain ⟨named, written⟩ := written
    rename_i root segments steps
    rw [nameChars_append (continues_of_stepsWrittenAs written), nameChars_name named,
      if_pos named, List.drop_left, segments?_of_stepsWrittenAs written, String.ofList_toList]
    rfl

theorem ofString?_eq_ok_iff_writtenAs {text : String} :
    ofString? text = .ok path ↔ path.WrittenAs (Text.trim text.toList) :=
  ofString?_eq_ok_iff.trans ofChars?_eq_some_iff

/-- A text that writes no path is a fault that keeps the text as it was. -/
theorem ofString?_eq_error_iff {text : String} :
    ofString? text = .error ⟨text⟩ ↔ ∀ path : Path, ¬ path.WrittenAs (Text.trim text.toList) := by
  simp only [← ofString?_eq_ok_iff_writtenAs]
  rw [ofString?]
  cases ofChars? text.toList with
  | none => simp
  | some path => simp

end Path

/-! ## Plain writings -/

/-- The plain writing of a position: its digits, or its name. -/
def Position.chars : Position → List Char
  | .fixed position => (toString position).toList
  | .named name => name.toList

/-- The plain writing of a step. -/
def Segment.chars : Segment → List Char
  | .key name => '.' :: name.toList
  | .item position => '[' :: (position.chars ++ [']'])
  | .size => ".size()".toList

/-- The plain writing of a path. -/
def Path.text (path : Path) : String :=
  .ofList (path.root.toList ++ path.segments.flatMap Segment.chars)

/-- A position that can be written: it is below the bound, or a name. -/
def Position.IsWritable : Position → Prop
  | .fixed position => position < Path.positionBound
  | .named name => Text.isName name.toList = true

/-- A step that can be written: what it names is a name, and its position can be written. -/
def Segment.IsWritable : Segment → Prop
  | .key name => Text.isName name.toList = true
  | .item position => position.IsWritable
  | .size => True

/-- A path that can be written: its root is a name, and all its steps can be written. -/
structure Path.IsWritable (path : Path) : Prop where
  root : Text.isName path.root.toList = true
  segments : ∀ segment ∈ path.segments, segment.IsWritable

theorem Position.chars_writtenAs {position : Position} (writable : position.IsWritable) :
    position.WrittenAs position.chars := by
  cases position with
  | fixed position =>
      have noZeros : ∀ c ∈ ([] : List Char), c = '0' := fun _ none => absurd none List.not_mem_nil
      exact .fixed writable (.inl rfl) noZeros
  | named name => exact .named writable

theorem Segment.chars_writtenAs {segment : Segment} (writable : segment.IsWritable) :
    segment.WrittenAs segment.chars := by
  cases segment with
  | key name => exact .key writable
  | size => exact .size
  | item position =>
      have noBlanks : ([] : List Char).all Text.isBlank = true := rfl
      have written := Segment.WrittenAs.item (Position.chars_writtenAs writable) noBlanks noBlanks
      rwa [List.nil_append, List.append_nil] at written

namespace Path

theorem flatMap_chars_writtenAs {segments : List Segment}
    (writable : ∀ segment ∈ segments, segment.IsWritable) :
    StepsWrittenAs segments (segments.flatMap Segment.chars) := by
  induction segments with
  | nil => exact .nil
  | cons segment segments ih =>
      have ⟨here, others⟩ := List.forall_mem_cons.mp writable
      exact .cons (Segment.chars_writtenAs here) (ih others)

/-- The plain writing of a path writes it. -/
theorem text_writtenAs {path : Path} (writable : path.IsWritable) :
    path.WrittenAs path.text.toList := by
  rw [text, String.toList_ofList]
  exact .intro writable.root (flatMap_chars_writtenAs writable.segments)

/-- **Reading and writing paths are inverse to each other.** The plain writing of a path is read as
the path.  A text is read as a path exactly when it writes the path, blanks at its ends apart, and
it is a fault that keeps the text exactly when it writes none. -/
theorem read_iff_writtenAs :
    (∀ path : Path, path.IsWritable → ofString? path.text = .ok path) ∧
      ∀ text : String,
        (∀ path : Path, ofString? text = .ok path ↔ path.WrittenAs (Text.trim text.toList)) ∧
          (ofString? text = .error ⟨text⟩ ↔
            ∀ path : Path, ¬ path.WrittenAs (Text.trim text.toList)) := by
  refine ⟨fun path writable => ?_, fun text => ⟨fun path => ?_, ofString?_eq_error_iff⟩⟩
  · have written := text_writtenAs writable
    apply ofString?_eq_ok_iff_writtenAs.mpr
    rwa [trim_of_writtenAs written]
  · exact ofString?_eq_ok_iff_writtenAs

/-- A path with a step of each kind. -/
def lineCount : Path :=
  ⟨"order", [.key "größe", .item (.fixed 18446744073709551615), .item (.named "k"), .size]⟩

theorem read_iff_writtenAs_lineCount :
    lineCount.IsWritable ∧ lineCount.text = "order.größe[18446744073709551615][k].size()" ∧
      ofString? lineCount.text = .ok lineCount := by
  have writable : lineCount.IsWritable := by
    refine ⟨by decide +kernel, ?_⟩
    simp only [lineCount, List.forall_mem_cons]
    refine ⟨?_, ?_, ?_, trivial, fun _ none => absurd none List.not_mem_nil⟩
    · show Text.isName "größe".toList = true
      decide +kernel
    · show 18446744073709551615 < positionBound
      decide
    · show Text.isName "k".toList = true
      decide +kernel
  exact ⟨writable, by decide +kernel, read_iff_writtenAs.1 lineCount writable⟩

/-- Blanks, a plus sign and zeros in brackets are read over. -/
example : ofChars? " ids[ +007 ] ".toList = ofChars? "ids[7]".toList := by
  decide +kernel

end Path

end SqlTemplate
