import SqlTemplate.Proofs.Markup.Balanced

/-!
# The shape of a document

What follows an angle bracket is an item.  Either the document ends in the item, or the item ends
earlier, and then it is the same item whatever follows it (`beginsWithItem_of_itemAt`).

So every document begins with balanced content.  Either a tag stands behind it that closes an
element from before the document, or the document never closes such an element (`splits`): it ends
or becomes faulty in the middle of its own elements (`Unclosing`).
-/

namespace SqlTemplate.Markup

set_option autoImplicit false

/-! ## Where items end -/

/-- A mark that is found does not end earlier. -/
theorem exists_of_before? {mark content front : List UInt8} (some : mark ≠ [])
    (found : Text.before? mark content = .some front) :
    (∃ rest, content = front ++ (mark ++ rest)) ∧ ¬ mark <:+: front ++ mark.dropLast := by
  induction content generalizing front with
  | nil =>
      rw [Text.before?, if_neg (mt List.isEmpty_iff.mp some)] at found
      cases found
  | cons b content ih =>
      rw [Text.before?] at found
      split at found
      · rename_i here
        cases found
        obtain ⟨rest, whole⟩ := List.isPrefixOf_iff_prefix.mp here
        refine ⟨⟨rest, whole.symm⟩, fun within => ?_⟩
        have shorter := within.length_le
        have filled := List.length_pos_of_ne_nil some
        rw [List.nil_append, List.length_dropLast] at shorter
        omega
      · rename_i notHere
        obtain ⟨front, later, rfl⟩ := Option.map_eq_some_iff.mp found
        obtain ⟨⟨rest, rfl⟩, first⟩ := ih later
        refine ⟨⟨rest, rfl⟩, fun within => ?_⟩
        rcases List.infix_cons_iff.mp within with here | inside
        · refine notHere (List.isPrefixOf_iff_prefix.mpr (here.trans ?_))
          refine List.cons_prefix_cons.mpr ⟨rfl, (List.prefix_append_right_inj front).mpr ?_⟩
          exact mark.dropLast_prefix.trans (List.prefix_append _ _)
        · exact first inside

/-- The content of a document type ends with its angle bracket. -/
theorem exists_of_doctypeContent? {depth : Nat} {content doctype : List UInt8}
    (found : doctypeContent? depth content = some doctype) :
    (∃ rest, content = doctype ++ byte '>' :: rest) ∧
      ∀ others, doctypeContent? depth (doctype ++ byte '>' :: others) = some doctype := by
  fun_induction doctypeContent? depth content generalizing doctype with
  | case1 => cases found
  | case2 rest =>
      cases found
      exact ⟨⟨rest, rfl⟩, fun _ => rfl⟩
  | case3 rest depth ih =>
      obtain ⟨doctype, later, rfl⟩ := Option.map_eq_some_iff.mp found
      obtain ⟨⟨rest, rfl⟩, ends⟩ := ih later
      refine ⟨⟨rest, rfl⟩, fun others => ?_⟩
      exact Option.map_eq_some_iff.mpr ⟨_, ends others, rfl⟩
  | case4 depth b rest noAngle ih =>
      obtain ⟨doctype, later, rfl⟩ := Option.map_eq_some_iff.mp found
      obtain ⟨⟨rest, rfl⟩, ends⟩ := ih later
      refine ⟨⟨rest, rfl⟩, fun others => ?_⟩
      rw [List.cons_append, doctypeContent?.eq_def]
      exact (if_neg noAngle).trans (Option.map_eq_some_iff.mpr ⟨_, ends others, rfl⟩)

/-- The content of a tag ends with its angle bracket, unless it goes to the end. -/
theorem exists_of_tagContent (quote : Option UInt8) (content : List UInt8) :
    tagContent quote content = content ∨
      (∃ rest, content = tagContent quote content ++ byte '>' :: rest) ∧
        ∀ others, tagContent quote (tagContent quote content ++ byte '>' :: others) =
          tagContent quote content := by
  fun_induction tagContent quote content with
  | case1 => exact .inl rfl
  | case2 quote b rest ih =>
      rcases ih with whole | ⟨⟨rest, ends⟩, same⟩
      · exact .inl (congrArg (b :: ·) whole)
      · refine .inr ⟨⟨rest, congrArg (b :: ·) ends⟩, fun others => ?_⟩
        rw [List.cons_append, tagContent, same]
  | case3 rest => exact .inr ⟨⟨rest, rfl⟩, fun others => if_pos rfl⟩
  | case4 b rest noAngle ih =>
      rcases ih with whole | ⟨⟨rest, ends⟩, same⟩
      · exact .inl (congrArg (b :: ·) whole)
      · refine .inr ⟨⟨rest, congrArg (b :: ·) ends⟩, fun others => ?_⟩
        rw [List.cons_append, tagContent, if_neg noAngle, same]

/-- What stands up to an angle bracket ends with it, unless it goes to the end. -/
theorem exists_of_uptoAngle (content : List UInt8) :
    uptoAngle content = content ∨
      (∃ rest, content = uptoAngle content ++ byte '>' :: rest) ∧
        ∀ others, uptoAngle (uptoAngle content ++ byte '>' :: others) = uptoAngle content := by
  have noAngle : byte '>' ∉ uptoAngle content := fun member =>
    absurd (List.mem_takeWhile_imp member) (by simp)
  have whole : uptoAngle content ++ content.dropWhile (· != byte '>') = content :=
    List.takeWhile_append_dropWhile
  cases behind : content.dropWhile (· != byte '>') with
  | nil =>
      rw [behind, List.append_nil] at whole
      exact .inl whole
  | cons b rest =>
      have angle := List.head?_dropWhile_not (· != byte '>') content
      rw [behind] at angle whole
      have last : b = byte '>' := by simpa using angle
      rw [last] at whole
      exact .inr ⟨⟨rest, whole.symm⟩, fun others => takeWhile_append_mark noAngle others⟩

/-! ## Declarations -/

/-- Bytes that begin with a mark, the case of letters ignored. -/
theorem exists_of_beginsWith {mark content : List UInt8} (begins : beginsWith mark content = true) :
    ∃ front rest, content = front ++ rest ∧ front.map lower = mark.map lower := by
  obtain ⟨rest, whole⟩ := List.isPrefixOf_iff_prefix.mp begins
  obtain ⟨front, rest, rfl, opens, _⟩ := List.map_eq_append_iff.mp whole.symm
  exact ⟨front, rest, rfl, opens⟩

theorem beginsWith_append {mark front : List UInt8} (opens : front.map lower = mark.map lower)
    (rest : List UInt8) : beginsWith mark (front ++ rest) = true := by
  rw [beginsWith, List.map_append, opens, List.isPrefixOf_iff_prefix]
  exact List.prefix_append _ _

/-- Behind its exclamation mark, character data ends with the first mark that ends it. -/
theorem declarationItem_data {opening content : List UInt8}
    (opens : opening.map lower = (bytes "[cdata[").map lower)
    (first : ¬ bytes "]]>" <:+: content ++ bytes "]]") (rest : List UInt8) :
    declarationItem (opening ++ (content ++ (bytes "]]>" ++ rest))) =
      (.data content, content.length + 10) := by
  have begins := beginsWith_append opens (content ++ (bytes "]]>" ++ rest))
  have width : opening.length = 7 := by
    rw [← List.length_map (f := lower), opens]
    rfl
  have noComment : ¬ (bytes "--").isPrefixOf
      (opening ++ (content ++ (bytes "]]>" ++ rest))) = true := by
    obtain ⟨b, others, rfl⟩ := List.exists_cons_of_length_eq_add_one width
    have bracket : lower b = byte '[' := (List.cons.inj opens).1
    intro comment
    obtain ⟨_, whole⟩ := List.isPrefixOf_iff_prefix.mp comment
    rw [← (List.cons.inj whole).1] at bracket
    exact absurd bracket (by decide)
  rw [declarationItem, if_neg noComment, if_pos begins, List.drop_left' width,
    before?_append_mark first]

/-- Behind its exclamation mark, a document type ends with its content. -/
theorem declarationItem_doctype {b : UInt8} (opens : lower b = byte 'd')
    {content doctype : List UInt8} (found : doctypeContent? 0 (b :: content) = some doctype) :
    declarationItem (b :: content) =
      (if isDoctype doctype then .skipped else .malformed, doctype.length + 1) := by
  have noComment : ¬ (bytes "--").isPrefixOf (b :: content) = true := by
    intro comment
    obtain ⟨_, whole⟩ := List.isPrefixOf_iff_prefix.mp comment
    rw [← (List.cons.inj whole).1] at opens
    exact absurd opens (by decide)
  have noData : ¬ beginsWith (bytes "[cdata[") (b :: content) = true := by
    intro data
    obtain ⟨_, whole⟩ := List.isPrefixOf_iff_prefix.mp data
    rw [← (List.cons.inj whole).1] at opens
    exact absurd opens (by decide)
  have begins : beginsWith (bytes "d") ([b] ++ content) = true :=
    beginsWith_append (List.map_eq_singleton_iff.mpr ⟨b, rfl, opens⟩) content
  rw [declarationItem, if_neg noComment, if_neg noData]
  exact (if_pos begins).trans (by rw [found])

/-- A declaration that is not malformed is the same whatever follows it. -/
theorem exists_of_declarationItem {content : List UInt8} {item : Item} {width : Nat}
    (read : declarationItem content = (item, width)) (proper : item ≠ .malformed) :
    ∃ inside rest, content = inside ++ rest ∧ inside.length = width ∧
      ∀ others, declarationItem (inside ++ others) = (item, width) := by
  unfold declarationItem at read
  split at read
  · rename_i comment
    obtain ⟨behind, rfl⟩ := List.isPrefixOf_iff_prefix.mp comment
    split at read
    · rename_i inside found
      obtain ⟨⟨rest, whole⟩, first⟩ := exists_of_before? (by decide) found
      cases read
      refine ⟨bytes "--" ++ (inside ++ bytes "-->"), rest, ?_, by simp [bytes], fun others => ?_⟩
      · rw [List.append_assoc, List.append_assoc, ← whole]
        rfl
      · simp only [List.append_assoc]
        exact declarationItem_comment first others
    · cases read
      exact absurd rfl proper
  split at read
  · rename_i data
    obtain ⟨opening, behind, rfl, opens⟩ := exists_of_beginsWith data
    have length : opening.length = 7 := by
      rw [← List.length_map (f := lower), opens]
      rfl
    split at read
    · rename_i inside found
      obtain ⟨⟨rest, whole⟩, first⟩ := exists_of_before? (by decide) found
      cases read
      rw [List.drop_left' length] at whole
      refine ⟨opening ++ (inside ++ bytes "]]>"), rest, by simp [whole], ?_, fun others => ?_⟩
      · simp only [List.length_append, length, bytes]
        exact Nat.add_comm 7 (inside.length + 3)
      · simp only [List.append_assoc]
        exact declarationItem_data opens first others
    · cases read
      exact absurd rfl proper
  split at read
  · rename_i letter
    obtain ⟨opening, behind, rfl, opens⟩ := exists_of_beginsWith letter
    obtain ⟨b, rfl, isLetter⟩ := List.map_eq_singleton_iff.mp opens
    split at read
    · rename_i doctype found
      obtain ⟨⟨rest, whole⟩, ends⟩ := exists_of_doctypeContent? found
      cases read
      refine ⟨doctype ++ [byte '>'], rest, by simp [whole], by simp, fun others => ?_⟩
      cases doctype with
      | nil =>
          rw [(List.cons.inj whole).1] at isLetter
          exact absurd isLetter (by decide)
      | cons c doctype =>
          rw [(List.cons.inj whole).1] at isLetter
          rw [List.append_assoc]
          exact declarationItem_doctype isLetter (ends others)
    · cases read
      exact absurd rfl proper
  · cases read
    exact absurd rfl proper

/-! ## Items -/

/-- How an item stands at the front of bytes: they end in it, or it is the same whatever follows. -/
inductive BeginsWithItem (item : Item) : Nat → List UInt8 → Prop
  | last {width : Nat} {content : List UInt8} (ends : content.drop width = []) :
      BeginsWithItem item width content
  | item {inside rest : List UInt8} (isItem : IsItem inside item) :
      BeginsWithItem item inside.length (inside ++ rest)

/-- An item that goes on up to an angle bracket. -/
theorem beginsWithItem_of_angle {item : Item} {inside content : List UInt8}
    (ends : inside = content ∨ (∃ rest, content = inside ++ byte '>' :: rest) ∧
      ∀ others, itemAt (inside ++ byte '>' :: others) = (item, inside.length + 1)) :
    BeginsWithItem item (inside.length + 1) content := by
  rcases ends with rfl | ⟨⟨rest, rfl⟩, same⟩
  · exact .last (List.drop_eq_nil_of_le (Nat.le_succ _))
  · have isItem : IsItem (inside ++ [byte '>']) item := by
      intro others
      rw [List.append_assoc, List.singleton_append, same, List.length_append]
      rfl
    have front : BeginsWithItem item (inside ++ [byte '>']).length (inside ++ [byte '>'] ++ rest) :=
      .item isItem
    rwa [List.append_assoc, List.singleton_append, List.length_append] at front

theorem uptoAngle_cons {b : UInt8} (other : b ≠ byte '>') (content : List UInt8) :
    uptoAngle (b :: content) = b :: uptoAngle content :=
  List.takeWhile_cons_of_pos (bne_iff_ne.mpr other)

/-- Bytes begin with a declaration unless it is malformed. -/
theorem beginsWithItem_declaration {content : List UInt8} {item : Item} {width : Nat}
    (read : declarationItem content = (item, width)) (proper : item ≠ .malformed) :
    BeginsWithItem item (width + 1) (byte '!' :: content) := by
  obtain ⟨inside, rest, rfl, rfl, same⟩ := exists_of_declarationItem read proper
  have isItem : IsItem (byte '!' :: inside) item := by
    intro others
    rw [List.cons_append, itemAt, if_pos rfl, same]
    rfl
  exact .item isItem

/-- Bytes begin with the item that is read from them unless it is malformed. -/
theorem beginsWithItem_of_itemAt {content : List UInt8} {item : Item} {width : Nat}
    (read : itemAt content = (item, width)) (proper : item ≠ .malformed) :
    BeginsWithItem item width content := by
  cases content with
  | nil => exact .last List.drop_nil
  | cons b content =>
    by_cases declares : b = byte '!'
    · subst declares
      rw [itemAt, if_pos rfl] at read
      cases read
      exact beginsWithItem_declaration rfl proper
    by_cases instructs : b = byte '?'
    · subst instructs
      have instruction (content : List UInt8) : itemAt (byte '?' :: content) =
          (if isInstruction (byte '?' :: uptoAngle content) then .skipped else .malformed,
            (byte '?' :: uptoAngle content).length + 1) := by
        rw [itemAt, if_neg declares, if_pos rfl, uptoAngle_cons (by decide)]
      rw [instruction] at read
      cases read
      refine beginsWithItem_of_angle ((exists_of_uptoAngle content).imp (congrArg _) ?_)
      rintro ⟨⟨rest, whole⟩, same⟩
      refine ⟨⟨rest, congrArg (byte '?' :: ·) whole⟩, fun others => ?_⟩
      rw [List.cons_append, instruction, same]
    by_cases closes : b = byte '/'
    · subst closes
      have stop (content : List UInt8) : itemAt (byte '/' :: content) =
          (.stop (stopName (uptoAngle content)),
            (byte '/' :: uptoAngle content).length + 1) := by
        rw [itemAt, if_neg declares, if_neg instructs, if_pos rfl]
        rfl
      rw [stop] at read
      cases read
      refine beginsWithItem_of_angle ((exists_of_uptoAngle content).imp (congrArg _) ?_)
      rintro ⟨⟨rest, whole⟩, same⟩
      refine ⟨⟨rest, congrArg (byte '/' :: ·) whole⟩, fun others => ?_⟩
      rw [List.cons_append, stop, same]
    · have tag (content : List UInt8) : itemAt (b :: content) =
          (tagItem (tagContent none (b :: content)),
            (tagContent none (b :: content)).length + 1) := by
        rw [itemAt, if_neg declares, if_neg instructs, if_neg closes]
      rw [tag] at read
      cases read
      refine beginsWithItem_of_angle ((exists_of_tagContent none (b :: content)).imp_right ?_)
      rintro ⟨ends, same⟩
      refine ⟨ends, fun others => ?_⟩
      -- The item begins with the same byte, whether its content is empty or not.
      obtain ⟨behind, first⟩ : ∃ behind,
          tagContent none (b :: content) ++ byte '>' :: others = b :: behind := by
        obtain ⟨rest, whole⟩ := ends
        cases inside : tagContent none (b :: content) with
        | nil =>
            rw [inside] at whole
            exact ⟨others, congrArg (· :: others) (List.cons.inj whole).1.symm⟩
        | cons c inner =>
            rw [inside] at whole
            exact ⟨inner ++ byte '>' :: others, congrArg (· :: _) (List.cons.inj whole).1.symm⟩
      have again := same others
      rw [first] at again ⊢
      rw [tag, again]

/-! ## Shapes -/

/-- Events that close no element from before them. -/
inductive Unclosing : List Event → Prop
  | nil : Unclosing []
  | fault {behind : List Event} : Unclosing (.fault :: behind)
  | start {tag : Tag} {behind : List Event} : Unclosing behind → Unclosing (.start tag :: behind)
  | append {events behind : List Event} :
      Closed events → Unclosing behind → Unclosing (events ++ behind)

theorem Closed.unclosing {events : List Event} (closed : Closed events) : Unclosing events := by
  rw [← List.append_nil events]
  exact .append closed .nil

/-- Bytes begin with balanced content, behind which a tag closes an element from before them, or
they close no such element. -/
inductive Splits : List UInt8 → Prop
  | closes {content closing name : List UInt8} {width : Nat} (balanced : Balanced content)
      (stops : itemAt closing = (.stop name, width)) : Splits (content ++ byte '<' :: closing)
  | unclosing {content : List UInt8} (stays : ∀ opened, Unclosing (eventsFrom opened content)) :
      Splits content

namespace Splits

variable {content inside rest : List UInt8}

theorem text (noTag : byte '<' ∉ content) (ends : IsTextEnd rest) (splits : Splits rest) :
    Splits (content ++ rest) := by
  cases splits with
  | closes balanced stops =>
      rw [← List.append_assoc]
      exact .closes (.text noTag balanced) stops
  | unclosing stays =>
      have closed : Closed (textEvents content) := by
        rw [← List.append_nil (textEvents content)]
        exact closed_textEvents content .nil
      refine .unclosing fun opened => ?_
      rw [eventsFrom_plain noTag opened ends]
      exact .append closed (stays opened)

theorem leaf {item : Item} {events : List Event} (isItem : IsItem inside item)
    (isLeaf : item.leaf? = some events) (splits : Splits rest) :
    Splits (byte '<' :: (inside ++ rest)) := by
  cases splits with
  | closes balanced stops =>
      rw [← List.append_assoc, ← List.cons_append]
      exact .closes (.leaf isItem isLeaf balanced) stops
  | unclosing stays =>
      have closed : Closed events := by
        rw [← List.append_nil events]
        exact closed_leaf isLeaf .nil
      refine .unclosing fun opened => ?_
      rw [isItem.eventsFrom_leaf isLeaf]
      exact .append closed (stays opened)

/-- What stands behind an element decides. -/
theorem element {opening inner closing : List UInt8} {tag : Tag}
    (opens : IsItem opening (.start tag)) (closes : IsItem closing (.stop tag.name))
    (balanced : Balanced inner) (splits : Splits rest) :
    Splits (byte '<' :: (opening ++ (inner ++ byte '<' :: (closing ++ rest)))) := by
  cases splits with
  | @closes content last name width behind stops =>
      have whole : byte '<' :: (opening ++ (inner ++
          byte '<' :: (closing ++ (content ++ byte '<' :: last)))) =
          byte '<' :: (opening ++ (inner ++ byte '<' :: (closing ++ content))) ++
            byte '<' :: last := by simp
      rw [whole]
      exact .closes (.element opens closes balanced behind) stops
  | unclosing stays =>
      obtain ⟨events, closed, reads⟩ := balanced.exists_events
      refine .unclosing fun opened => ?_
      have split : eventsFrom opened
          (byte '<' :: (opening ++ (inner ++ byte '<' :: (closing ++ rest)))) =
            .start tag :: (events ++ [.stop]) ++ eventsFrom opened rest := by
        rw [opens.eventsFrom_start, reads _ _ (isTextEnd_angle _), closes.eventsFrom_stop]
        simp
      rw [split]
      exact .append (.element closed .nil) (stays opened)

/-- An element is closed behind balanced content, or nothing is closed from the element on. -/
theorem start {opening : List UInt8} {tag : Tag} (opens : IsItem opening (.start tag))
    (splits : Splits content)
    (later : ∀ behind : List UInt8, behind.length < content.length → Splits behind) :
    Splits (byte '<' :: (opening ++ content)) := by
  cases splits with
  | unclosing stays =>
      refine .unclosing fun opened => ?_
      rw [opens.eventsFrom_start]
      exact .start (stays _)
  | @closes inner closing name width balanced stops =>
      obtain ⟨events, closed, reads⟩ := balanced.exists_events
      by_cases same : name = tag.name
      · subst same
        cases beginsWithItem_of_itemAt stops (by simp) with
        | last ends =>
            have last (opened : List (List UInt8)) :
                eventsFrom (tag.name :: opened) (byte '<' :: closing) = [.stop] := by
              rw [eventsFrom, if_pos rfl]
              simp only [stops, if_pos, ends, eventsFrom]
            refine .unclosing fun opened => ?_
            rw [opens.eventsFrom_start, reads _ _ (isTextEnd_angle _), last]
            exact Closed.unclosing (.element closed .nil)
        | @item inside rest isItem =>
            refine element opens isItem balanced (later rest ?_)
            simp only [List.length_append, List.length_cons]
            omega
      · refine .unclosing fun opened => ?_
        rw [opens.eventsFrom_start, reads _ _ (isTextEnd_angle _),
          eventsFrom_mismatch stops same]
        exact .start (.append closed .fault)

/-- Bytes that end in their first item. -/
theorem last {item : Item} {width : Nat} (read : itemAt content = (item, width))
    (ends : content.drop width = []) : Splits (byte '<' :: content) := by
  by_cases stops : ∃ name, item = .stop name
  · obtain ⟨name, rfl⟩ := stops
    exact .closes .nil read
  refine .unclosing fun opened => ?_
  rw [eventsFrom, if_pos rfl]
  simp only [read, ends, eventsFrom]
  cases item with
  | start tag => exact .start .nil
  | stop name => exact absurd ⟨name, rfl⟩ stops
  | empty tag => exact Closed.unclosing (.empty .nil)
  | data content => exact Closed.unclosing (.data .nil)
  | skipped => exact .nil
  | malformed => exact .fault

/-- What follows an angle bracket, if the shape of all shorter bytes is known. -/
theorem angle (shorter : ∀ behind : List UInt8, behind.length ≤ content.length → Splits behind) :
    Splits (byte '<' :: content) := by
  cases read : itemAt content with
  | mk item width =>
    by_cases proper : item = .malformed
    · refine .unclosing fun opened => ?_
      rw [eventsFrom, if_pos rfl]
      simp only [read, proper]
      exact .fault
    cases beginsWithItem_of_itemAt read proper with
    | last ends => exact last read ends
    | @item inside rest isItem =>
        have within (behind : List UInt8) (part : behind.length ≤ rest.length) : Splits behind :=
          shorter behind (by simp only [List.length_append]; omega)
        have onward := within rest (Nat.le_refl _)
        cases item with
        | start tag => exact start isItem onward fun behind part => within behind part.le
        | stop name => exact .closes .nil read
        | empty tag | data content | skipped => exact leaf isItem rfl onward
        | malformed => exact absurd rfl proper

end Splits

/-- Bytes begin with balanced content, and behind it either a tag closes an element from before
them, or no such element is closed at all. -/
theorem splits (content : List UInt8) : Splits content := by
  induction size : content.length using Nat.strong_induction_on generalizing content with
  | _ size ih =>
    subst size
    cases content with
    | nil => exact .unclosing fun opened => by rw [eventsFrom]; exact .nil
    | cons b content =>
      by_cases angle : b = byte '<'
      · subst angle
        exact .angle fun behind part => ih _ (Nat.lt_succ_of_le part) behind rfl
      · obtain ⟨text, rest, whole, noTag, ends⟩ := exists_text (b :: content)
        have some : text ≠ [] := by
          rintro rfl
          rw [List.nil_append] at whole
          exact angle (ends b (whole ▸ rfl))
        have shorter : rest.length < (b :: content).length := by
          have filled := List.length_pos_of_ne_nil some
          rw [whole, List.length_append]
          omega
        rw [whole]
        exact .text noTag ends (ih _ shorter rest rfl)

end SqlTemplate.Markup
