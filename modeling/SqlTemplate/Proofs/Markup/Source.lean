import SqlTemplate.Proofs.Markup.Printing
import SqlTemplate.Proofs.Text.Layout

/-!
# Sources of texts

A text stands in a document as the characters that write it, some of them as references
(`Writes`).  What writes two texts one behind the other is what writes the first and what writes the
second (`Writes.append`).

A reader takes the spaces at the ends of a source away before it replaces the references.  So it may
read less than the source writes, but no other text once spacing is uniform
(`Writes.exists_eventsFrom`).  A comment is no event (`eventsFrom_comment`).
-/

namespace SqlTemplate.Markup

set_option autoImplicit false

/-! ## References one behind the other -/

/-- Characters and what they are when every reference is replaced. -/
inductive Resolves : List Char → List Char → Prop
  | nil : Resolves [] []
  | plain {c : Char} {after resolved : List Char} (noReference : c ≠ '&')
      (later : Resolves after resolved) : Resolves (c :: after) (c :: resolved)
  | reference {inside after resolved : List Char} {c : Char} (noMark : '&' ∉ inside)
      (noEnd : ';' ∉ inside) (stands : referenced? inside = some c)
      (later : Resolves after resolved) :
      Resolves ('&' :: (inside ++ ';' :: after)) (c :: resolved)

namespace Resolves

variable {chars resolved : List Char}

/-- Characters are read as what they resolve to. -/
theorem resolveReferences?_eq (resolves : Resolves chars resolved) :
    resolveReferences? referenced? chars = some resolved := by
  induction resolves with
  | nil => rw [resolveReferences?]
  | plain noReference _ ih => rw [resolveReferences?, if_neg noReference, ih, Option.map_some]
  | @reference inside after resolved c noMark noEnd stands _ ih =>
      have plain : ∀ other ∈ inside, (other != '&' && other != ';') = true := by
        intro other member
        rw [Bool.and_eq_true, bne_iff_ne, bne_iff_ne]
        exact ⟨ne_of_mem_of_not_mem member noMark, ne_of_mem_of_not_mem member noEnd⟩
      rw [resolveReferences?_reference plain stands, ih, Option.map_some]

/-- Characters without references stay as they are. -/
theorem refl {chars : List Char} (noReference : '&' ∉ chars) : Resolves chars chars := by
  induction chars with
  | nil => exact .nil
  | cons c chars ih =>
      have ⟨other, later⟩ := List.ne_and_not_mem_of_not_mem_cons noReference
      exact .plain other.symm (ih later)

theorem append {others resolvedOthers : List Char} (resolves : Resolves chars resolved)
    (behind : Resolves others resolvedOthers) :
    Resolves (chars ++ others) (resolved ++ resolvedOthers) := by
  induction resolves with
  | nil => exact behind
  | plain noReference _ ih => exact .plain noReference ih
  | reference noMark noEnd stands _ ih =>
      rw [List.cons_append, List.append_assoc, List.cons_append]
      exact .reference noMark noEnd stands ih

/-- Characters in front that are no part of a reference stay as they are. -/
theorem of_append_left {plain : List Char} (noReference : '&' ∉ plain)
    (resolves : Resolves (plain ++ chars) resolved) :
    ∃ rest, resolved = plain ++ rest ∧ Resolves chars rest := by
  induction plain generalizing resolved with
  | nil => exact ⟨resolved, rfl, resolves⟩
  | cons c plain ih =>
      have ⟨noMark, later⟩ := List.ne_and_not_mem_of_not_mem_cons noReference
      generalize whole : c :: plain ++ chars = source at resolves
      cases resolves with
      | nil => cases whole
      | plain _ resolves =>
          obtain ⟨rfl, rfl⟩ := List.cons.inj whole
          obtain ⟨rest, rfl, behind⟩ := ih later resolves
          exact ⟨rest, rfl, behind⟩
      | reference => exact absurd (List.cons.inj whole).1.symm noMark

/-- A character at the end that ends no reference stays as it is. -/
theorem of_concat {c : Char} (noEnd : c ≠ ';')
    (resolves : Resolves (chars ++ [c]) resolved) :
    ∃ front, resolved = front ++ [c] ∧ Resolves chars front := by
  generalize whole : chars ++ [c] = source at resolves
  induction resolves generalizing chars with
  | nil => exact absurd whole (by simp)
  | @plain d after resolved noReference later ih =>
      cases chars with
      | nil =>
          obtain ⟨rfl, rfl⟩ := List.cons.inj whole
          cases later
          exact ⟨[], rfl, .nil⟩
      | cons first chars =>
          obtain ⟨rfl, rest⟩ := List.cons.inj whole
          obtain ⟨front, rfl, resolves⟩ := ih rest
          exact ⟨first :: front, rfl, .plain noReference resolves⟩
  | @reference inside after resolved d noMark noEnd' stands later ih =>
      rcases List.eq_nil_or_concat after with rfl | ⟨others, last, rfl⟩
      · have split : chars ++ [c] = ('&' :: inside) ++ [';'] := whole
        exact absurd (List.cons.inj (List.append_inj' split rfl).2).1 noEnd
      · have split : chars ++ [c] = ('&' :: (inside ++ ';' :: others)) ++ [last] := by
          rw [whole]
          simp
        obtain ⟨rfl, same⟩ := List.append_inj' split rfl
        obtain ⟨rfl, _⟩ := List.cons.inj same
        obtain ⟨front, rfl, resolves⟩ := ih (List.concat_eq_append ..).symm
        exact ⟨d :: front, rfl, .reference noMark noEnd' stands resolves⟩

/-- Characters at the end that end no reference stay as they are. -/
theorem of_append_right {plain : List Char} (noEnd : ';' ∉ plain)
    (resolves : Resolves (chars ++ plain) resolved) :
    ∃ front, resolved = front ++ plain ∧ Resolves chars front := by
  induction plain generalizing chars with
  | nil => exact ⟨resolved, by simp, by simpa using resolves⟩
  | cons c plain ih =>
      have ⟨other, later⟩ := List.ne_and_not_mem_of_not_mem_cons noEnd
      rw [List.append_cons] at resolves
      obtain ⟨front, rfl, inFront⟩ := ih later resolves
      obtain ⟨front, rfl, here⟩ := of_concat other.symm inFront
      exact ⟨front, by simp, here⟩

end Resolves

/-! ## Sources -/

/-- A source without tags that is a text when its references are replaced. -/
structure Writes (source text : String) : Prop where
  noTag : '<' ∉ source.toList
  resolves : Resolves source.toList text.toList

namespace Writes

variable {source text : String}

/-- A source of one text and a source of another text write both texts one behind the other. -/
theorem append {others behind : String} (writes : Writes source text)
    (writesOthers : Writes others behind) : Writes (source ++ others) (text ++ behind) := by
  refine ⟨?_, ?_⟩
  · rw [String.toList_append, List.mem_append, not_or]
    exact ⟨writes.noTag, writesOthers.noTag⟩
  · rw [String.toList_append, String.toList_append]
    exact writes.resolves.append writesOthers.resolves

/-- The bytes of a source are read as the text. -/
theorem readText?_eq (writes : Writes source text) :
    readText? (Text.encode source) = some text := by
  rw [readText?, Text.decode?_encode, Option.bind_eq_bind, Option.bind_some,
    writes.resolves.resolveReferences?_eq]
  exact congrArg some String.ofList_toList

/-- No byte of a source opens a tag. -/
theorem angle_not_mem (writes : Writes source text) : byte '<' ∉ Text.encode source :=
  fun member => writes.noTag (Text.mem_of_mem_encode (by decide) member)

end Writes

/-! ## Spaces at the ends of a source -/

/-- A way to write characters in which only spaces are written with spaces. -/
structure KeepsSpaces (write : Char → List UInt8) : Prop where
  space : ∀ c ∈ spaces, ∀ b ∈ write c, isSpace b = true
  other : ∀ c, c ∉ spaces → write c ≠ [] ∧ ∀ b ∈ write c, isSpace b = false

theorem encodeChar_keepsSpaces : KeepsSpaces String.utf8EncodeChar where
  space := by
    have all : spaces.all (fun c => (String.utf8EncodeChar c).all isSpace) = true := by decide
    exact fun c listed b member =>
      List.all_eq_true.mp (List.all_eq_true.mp all c listed) b member
  other c noSpace := ⟨String.utf8EncodeChar_ne_nil, fun _ => isSpace_of_mem_encodeChar noSpace⟩

/-- Bytes that are written the other way round are spaces as before. -/
theorem KeepsSpaces.reverse {write : Char → List UInt8} (keeps : KeepsSpaces write) :
    KeepsSpaces (List.reverse ∘ write) where
  space c listed b member := keeps.space c listed b (List.mem_reverse.mp member)
  other c noSpace :=
    have ⟨written, plain⟩ := keeps.other c noSpace
    ⟨List.reverse_ne_nil_iff.mpr written, fun b member => plain b (List.mem_reverse.mp member)⟩

/-- The spaces in front of what writes characters write the spaces in front of them. -/
theorem KeepsSpaces.dropWhile_flatMap {write : Char → List UInt8} (keeps : KeepsSpaces write)
    (chars : List Char) :
    (chars.flatMap write).dropWhile isSpace =
      (chars.dropWhile spaces.contains).flatMap write := by
  induction chars with
  | nil => rfl
  | cons c chars ih =>
      by_cases space : c ∈ spaces
      · rw [List.flatMap_cons, List.dropWhile_append_of_pos (keeps.space c space), ih,
          List.dropWhile_cons_of_pos (List.contains_iff_mem.mpr space)]
      · obtain ⟨some, plain⟩ := keeps.other c space
        obtain ⟨b, rest, written⟩ := List.exists_cons_of_ne_nil some
        have other : isSpace b = false := plain b (written ▸ List.mem_cons_self ..)
        rw [List.dropWhile_cons_of_neg (mt List.contains_iff_mem.mp space), List.flatMap_cons,
          written, List.cons_append, List.dropWhile_cons_of_neg (by simp [other])]

/-- Without the spaces at its ends, a source is a source without spaces at its ends. -/
theorem exists_trim_encode (source : String) :
    ∃ (front : List Char) (inside : String) (behind : List Char),
      source.toList = front ++ inside.toList ++ behind ∧
        trim (Text.encode source) = Text.encode inside ∧
          (∀ c ∈ front, c ∈ spaces) ∧ ∀ c ∈ behind, c ∈ spaces := by
  have inSpaces {c : Char} {chars : List Char} (taken : c ∈ chars.takeWhile spaces.contains) :
      c ∈ spaces := List.contains_iff_mem.mp (List.mem_takeWhile_imp taken)
  generalize rest : source.toList.dropWhile spaces.contains = later
  refine ⟨source.toList.takeWhile spaces.contains,
    .ofList (later.reverse.dropWhile spaces.contains).reverse,
    (later.reverse.takeWhile spaces.contains).reverse, ?_, ?_, fun c => inSpaces,
    fun c member => inSpaces (List.mem_reverse.mp member)⟩
  · rw [String.toList_ofList, List.append_assoc, ← List.reverse_append,
      List.takeWhile_append_dropWhile, List.reverse_reverse, ← rest,
      List.takeWhile_append_dropWhile]
  · rw [trim, trimEnd, Text.encode, encodeChar_keepsSpaces.dropWhile_flatMap, rest,
      List.reverse_flatMap, encodeChar_keepsSpaces.reverse.dropWhile_flatMap, Text.encode,
      String.toList_ofList, List.flatMap_reverse]

namespace Writes

variable {source text : String}

/-- Without the spaces at its ends, a source writes the text without some blanks at its ends. -/
theorem exists_trimmed (writes : Writes source text) :
    ∃ inside inner, trim (Text.encode source) = Text.encode inside ∧ Writes inside inner ∧
      Text.uniform inner = Text.uniform text ∧ Text.isAllBlank inner = Text.isAllBlank text := by
  obtain ⟨front, inside, behind, split, trimmed, frontSpaces, behindSpaces⟩ :=
    exists_trim_encode source
  have noMark : '&' ∉ front := fun member => absurd (frontSpaces _ member) (by decide)
  have noEnd : ';' ∉ behind := fun member => absurd (behindSpaces _ member) (by decide)
  have frontBlank : front.all Text.isBlank = true :=
    List.all_eq_true.mpr fun c member => isBlank_of_mem_spaces (frontSpaces c member)
  have behindBlank : behind.all Text.isBlank = true :=
    List.all_eq_true.mpr fun c member => isBlank_of_mem_spaces (behindSpaces c member)
  have resolves := writes.resolves
  have noTag := writes.noTag
  rw [split] at resolves noTag
  obtain ⟨kept, whole, resolves⟩ := resolves.of_append_right noEnd
  obtain ⟨inner, rfl, resolves⟩ := resolves.of_append_left noMark
  have insideNoTag : '<' ∉ inside.toList := by
    simp only [List.mem_append, not_or] at noTag
    exact noTag.1.2
  refine ⟨inside, .ofList inner, trimmed, ⟨insideNoTag, ?_⟩, ?_, ?_⟩
  · rwa [String.toList_ofList]
  · refine (Text.uniform_surrounded ?_ frontBlank behindBlank).symm
    rw [String.toList_ofList, whole]
  · rw [Text.isAllBlank, Text.isAllBlank, String.toList_ofList, whole, List.all_append,
      List.all_append, frontBlank, behindBlank, Bool.true_and, Bool.and_true]

/-- A source in front of a tag is one event: a text that is what the source writes once its spacing
is uniform. -/
theorem exists_eventsFrom (writes : Writes source text) (notBlank : Text.isAllBlank text = false)
    (opened : List (List UInt8)) {rest : List UInt8} (stops : IsTextEnd rest) :
    ∃ content inner, eventsFrom opened (Text.encode source ++ rest) =
        .text content :: eventsFrom opened rest ∧ readText? content = some inner ∧
      Text.uniform inner = Text.uniform text ∧ Text.isAllBlank inner = false := by
  obtain ⟨inside, inner, trimmed, writesInner, uniform, blank⟩ := writes.exists_trimmed
  have someBytes : trim (Text.encode source) ≠ [] := by
    intro none
    have nothing : Writes "" "" := ⟨List.not_mem_nil, .nil⟩
    have same : some "" = some inner := by
      rw [← nothing.readText?_eq, ← writesInner.readText?_eq, ← trimmed, none]
      rfl
    rw [← blank, ← Option.some.inj same] at notBlank
    cases notBlank
  refine ⟨_, inner, eventsFrom_text someBytes writes.angle_not_mem opened stops, ?_, uniform,
    blank.trans notBlank⟩
  rw [trimmed]
  exact writesInner.readText?_eq

end Writes

/-! ## Comments -/

/-- A comment: the first mark that ends it is at its end. -/
def IsComment (comment : List UInt8) : Prop :=
  ∃ inside, comment = bytes "<!--" ++ (inside ++ bytes "-->") ∧
    ¬ bytes "-->" <:+: inside ++ bytes "--"

/-- Bytes without a closing angle bracket may stand in a comment. -/
theorem isComment_of_not_mem {inside : List UInt8} (noAngle : byte '>' ∉ inside) :
    IsComment (bytes "<!--" ++ (inside ++ bytes "-->")) := by
  refine ⟨inside, rfl, fun within => ?_⟩
  have angle : byte '>' ∈ bytes "-->" := by decide
  rcases List.mem_append.mp (within.subset angle) with inComment | atEnd
  · exact noAngle inComment
  · exact absurd atEnd (by decide)

/-- A comment ends the text in front of it. -/
theorem IsComment.isTextEnd {comment : List UInt8} (isComment : IsComment comment)
    (rest : List UInt8) : IsTextEnd (comment ++ rest) := by
  obtain ⟨inside, rfl, _⟩ := isComment
  exact fun _ first => (Option.some.inj first).symm

/-- What precedes a mark that does not end earlier. -/
theorem before?_append_mark {mark front : List UInt8} (first : ¬ mark <:+: front ++ mark.dropLast)
    (rest : List UInt8) : Text.before? mark (front ++ (mark ++ rest)) = some front := by
  induction front with
  | nil =>
      cases mark with
      | nil => exact absurd (List.infix_refl []) first
      | cons b mark =>
          have here : (b :: mark).isPrefixOf (b :: (mark ++ rest)) = true :=
            List.isPrefixOf_iff_prefix.mpr (List.prefix_append _ _)
          exact if_pos here
  | cons b front ih =>
      have later : ¬ mark <:+: front ++ mark.dropLast :=
        fun inside => first (inside.trans (List.infix_cons (List.infix_refl _)))
      have notHere : ¬ mark <+: b :: (front ++ (mark ++ rest)) := by
        intro here
        have front : b :: front ++ mark.dropLast <+: b :: (front ++ (mark ++ rest)) := by
          rw [← List.cons_append, List.prefix_append_right_inj]
          exact mark.dropLast_prefix.trans (List.prefix_append _ _)
        refine first (List.prefix_of_prefix_length_le here front ?_).isInfix
        simp only [List.length_append, List.length_cons, List.length_dropLast]
        omega
      rw [List.cons_append, Text.before?, if_neg (mt List.isPrefixOf_iff_prefix.mp notHere),
        ih later, Option.map_some]

/-- Behind its exclamation mark, a comment is skipped. -/
theorem declarationItem_comment {inside : List UInt8}
    (first : ¬ bytes "-->" <:+: inside ++ bytes "--") (rest : List UInt8) :
    declarationItem (bytes "--" ++ (inside ++ (bytes "-->" ++ rest))) =
      (.skipped, inside.length + 5) := by
  have opens : (bytes "--").isPrefixOf (bytes "--" ++ (inside ++ (bytes "-->" ++ rest))) = true :=
    List.isPrefixOf_iff_prefix.mpr (List.prefix_append _ _)
  have dropped : (bytes "--" ++ (inside ++ (bytes "-->" ++ rest))).drop 2 =
      inside ++ (bytes "-->" ++ rest) := rfl
  rw [declarationItem, if_pos opens, dropped, before?_append_mark first rest]

/-- Behind its angle bracket, a comment is an item that is skipped. -/
theorem IsComment.exists_isItem {comment : List UInt8} (isComment : IsComment comment) :
    ∃ inside, comment = byte '<' :: inside ∧ IsItem inside .skipped := by
  obtain ⟨inside, rfl, first⟩ := isComment
  refine ⟨byte '!' :: (bytes "--" ++ (inside ++ bytes "-->")), rfl, fun rest => ?_⟩
  have whole : byte '!' :: (bytes "--" ++ (inside ++ bytes "-->")) ++ rest =
      byte '!' :: (bytes "--" ++ (inside ++ (bytes "-->" ++ rest))) := by simp
  have width : (byte '!' :: (bytes "--" ++ (inside ++ bytes "-->"))).length =
      inside.length + 5 + 1 := by simp [bytes]
  rw [whole, width, itemAt, if_pos rfl, declarationItem_comment first]

/-- A comment in front of a tag or of text is no event. -/
theorem eventsFrom_comment {comment : List UInt8} (isComment : IsComment comment)
    (opened : List (List UInt8)) (rest : List UInt8) :
    eventsFrom opened (comment ++ rest) = eventsFrom opened rest := by
  obtain ⟨inside, rfl, isItem⟩ := isComment.exists_isItem
  exact isItem.eventsFrom_leaf rfl opened rest

end SqlTemplate.Markup
