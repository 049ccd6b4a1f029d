import SqlTemplate.Proofs.Markup.Escape
import SqlTemplate.Proofs.Markup.Item
import SqlTemplate.Proofs.Markup.Name

/-!
# Writing elements

An element is written as a start tag with its attributes in quotes, what it holds, and an end tag.
Here is what a reader makes of these bytes, whatever follows them: the attributes of the start tag
are found under their keys (`find_writtenTag`), and the tags and the text between them are events
(`eventsFrom_startTag`, `eventsFrom_endTag`, `eventsFrom_escaped`).
-/

namespace SqlTemplate.Markup

set_option autoImplicit false

/-! ## Printing -/

/-- The bytes that write an attribute, with the space in front of it. -/
def attributeBytes (key value : String) : List UInt8 :=
  byte ' ' :: (bytes key ++ byte '=' :: byte '"' :: (escaped true value ++ [byte '"']))

/-- Attributes of an element by their keys; one without a value is not written. -/
abbrev Fields := List (String × Option String)

namespace Fields

/-- The bytes that write attributes. -/
def print (fields : Fields) : List UInt8 :=
  fields.flatMap fun field => field.2.elim [] (attributeBytes field.1)

/-- Whether these keys are names and no key comes twice. -/
def areKeys (keys : List String) : Bool := keys.all isName && decide keys.Nodup

/-- Whether attributes have names for keys, no key twice. -/
def areProper (fields : Fields) : Bool := areKeys (fields.map Prod.fst)

/-- The value of an attribute, if it has one. -/
def value? (fields : Fields) (key : String) : Option String := (fields.lookup key).join

end Fields

/-- The bytes of a start tag. -/
def startTag (name : String) (fields : Fields) : List UInt8 :=
  byte '<' :: (bytes name ++ (fields.print ++ [byte '>']))

/-- The bytes of an end tag. -/
def endTag (name : String) : List UInt8 := byte '<' :: byte '/' :: (bytes name ++ [byte '>'])

/-- The bytes of an element that holds what these bytes write. -/
def element (name : String) (fields : Fields) (inner : List UInt8) : List UInt8 :=
  startTag name fields ++ (inner ++ endTag name)

/-- The tag that is read where an element starts. -/
def writtenTag (name : String) (fields : Fields) : Tag := ⟨bytes name, fields.print⟩

/-! ## Attributes that are read -/

/-- What is taken in front of a byte of another class. -/
theorem takeWhile_append_cons {inClass : UInt8 → Bool} {front : List UInt8} {b : UInt8}
    (all : ∀ other ∈ front, inClass other = true) (stops : inClass b = false)
    (rest : List UInt8) : (front ++ b :: rest).takeWhile inClass = front := by
  rw [List.takeWhile_append_of_pos all, List.takeWhile_cons_of_neg (by simp [stops]),
    List.append_nil]

theorem takeWhile_of_neg (inClass : UInt8 → Bool) {b : UInt8} (stops : inClass b = false)
    (rest : List UInt8) : (b :: rest).takeWhile inClass = [] :=
  List.takeWhile_cons_of_neg (by simp [stops])

/-- What is taken of bytes in front of a mark that does not occur in them. -/
theorem takeWhile_append_mark {mark : UInt8} {front : List UInt8} (absent : mark ∉ front)
    (rest : List UInt8) : (front ++ mark :: rest).takeWhile (· != mark) = front := by
  have others : ∀ other ∈ front, (other != mark) = true :=
    fun other member => bne_iff_ne.mpr fun same => absent (same ▸ member)
  exact takeWhile_append_cons others (bne_self_eq_false mark) rest

/-- A key, an equals sign and a value in quotes. -/
theorem pairAt?_written {part value : List UInt8} (first : UInt8)
    (key : ∀ b ∈ part, isKeyPart b = true) (unquoted : byte '"' ∉ value) (rest : List UInt8) :
    pairAt? first (part ++ byte '=' :: byte '"' :: (value ++ byte '"' :: rest)) =
      some ⟨first :: part, value, part.length + value.length + 3⟩ := by
  have keyPart := takeWhile_append_cons key (b := byte '=') (by decide)
    (byte '"' :: (value ++ byte '"' :: rest))
  have noGap := takeWhile_of_neg isSpace (b := byte '=') (by decide)
    (byte '"' :: (value ++ byte '"' :: rest))
  have noSpace := takeWhile_of_neg isSpace (b := byte '"') (by decide)
    (value ++ byte '"' :: rest)
  have inQuotes := takeWhile_append_mark unquoted rest
  have closed : value.length < (value ++ byte '"' :: rest).length := by simp
  have sign : (byte '=' == byte '=' && isQuote (byte '"')) = true := by decide
  simp only [pairAt?, keyPart, List.drop_left, noGap, List.length_nil, List.drop_zero, noSpace,
    inQuotes, sign, closed, decide_true, Bool.and_self, if_pos, Nat.add_zero]

theorem drop_written (part value rest : List UInt8) :
    (part ++ byte '=' :: byte '"' :: (value ++ byte '"' :: rest)).drop
      (part.length + value.length + 3) = rest := by
  have whole : part ++ byte '=' :: byte '"' :: (value ++ byte '"' :: rest) =
      (part ++ byte '=' :: byte '"' :: (value ++ [byte '"'])) ++ rest := by simp
  rw [whole]
  exact List.drop_left' (by simp; omega)

/-- The attributes that a reader makes of written fields. -/
def Fields.attributes (fields : Fields) : List Attribute :=
  fields.filterMap fun field => field.2.map fun value =>
    .pair (bytes field.1) (escaped true value)

theorem attributesFrom_attributeBytes {seen : List (List UInt8)} {key : String}
    (isName : isName key = true) (fresh : bytes key ∉ seen) (value : String) (rest : List UInt8) :
    attributesFrom seen (attributeBytes key value ++ rest) =
      .pair (bytes key) (escaped true value) :: attributesFrom (bytes key :: seen) rest := by
  obtain ⟨c, others, letter, spelt⟩ := exists_bytes isName
  have parts : ∀ b ∈ bytes key, isKeyPart b = true :=
    forall_mem_bytes isName fun _ letter => isKeyPart_byte letter
  rw [attributeBytes]
  rw [spelt] at fresh parts ⊢
  have pair := pairAt?_written (byte c) (fun b member => parts b (List.mem_cons_of_mem _ member))
    (quote_not_mem_escaped value) rest
  have space : isSpace (byte ' ') = true := by decide
  have notSpace : ¬isSpace (byte c) = true := by simp [isSpace_byte letter]
  simp only [List.cons_append, List.append_assoc, List.nil_append]
  rw [attributesFrom, if_pos space, attributesFrom, if_neg notSpace, pair]
  simp only [List.contains_eq_mem, fresh, decide_false, drop_written]
  rfl

namespace Fields

/-- The keys of attributes. -/
abbrev keys (fields : Fields) : List String := fields.map Prod.fst

theorem areProper_cons {key : String} {value : Option String} {fields : Fields} :
    areProper ((key, value) :: fields) = true ↔
      isName key = true ∧ key ∉ fields.keys ∧ fields.areProper = true := by
  simp [areProper, areKeys, keys, and_assoc, and_left_comm]

theorem areProper_singleton {key : String} (keyIsName : isName key = true)
    (value : Option String) : areProper [(key, value)] = true :=
  areProper_cons.mpr ⟨keyIsName, List.not_mem_nil, rfl⟩

theorem isName_of_mem_keys {fields : Fields} (proper : fields.areProper = true) {key : String}
    (member : key ∈ fields.keys) : isName key = true :=
  List.all_eq_true.mp (Bool.and_eq_true_iff.mp proper).1 key member

/-- The value of the first key, or of a later one. -/
theorem value?_cons {key other : String} {value : Option String} {fields : Fields} :
    value? ((other, value) :: fields) key = if key = other then value else fields.value? key := by
  rw [value?, List.lookup_cons]
  by_cases same : key = other
  · simp [same]
  · have differs : (key == other) = false := beq_eq_false_iff_ne.mpr same
    rw [differs, if_neg same]
    rfl

/-- A key that is not there has no value. -/
theorem value?_of_not_mem {fields : Fields} {key : String} (absent : key ∉ fields.keys) :
    fields.value? key = none := by
  induction fields with
  | nil => rfl
  | cons field fields ih =>
      have ⟨different, later⟩ := List.ne_and_not_mem_of_not_mem_cons absent
      rw [value?_cons, if_neg different]
      exact ih later

end Fields

/-- The attributes of written fields are read in their order. -/
theorem attributesFrom_print {fields : Fields} (proper : fields.areProper = true)
    {seen : List (List UInt8)} (fresh : ∀ key ∈ fields.keys, bytes key ∉ seen) :
    attributesFrom seen fields.print = fields.attributes := by
  induction fields generalizing seen with
  | nil => exact attributesFrom.eq_1 seen
  | cons field fields ih =>
      obtain ⟨key, value⟩ := field
      obtain ⟨isName, absent, properRest⟩ := Fields.areProper_cons.mp proper
      obtain ⟨here, later⟩ := List.forall_mem_cons.mp fresh
      cases value with
      | none => exact ih properRest later
      | some value =>
          have others : ∀ other ∈ Fields.keys fields, bytes other ∉ bytes key :: seen := by
            intro other listed present
            rcases List.mem_cons.mp present with same | before
            · rw [bytes_inj (Fields.isName_of_mem_keys properRest listed) isName] at same
              exact absent (same ▸ listed)
            · exact later other listed before
          have first := attributesFrom_attributeBytes isName here value (Fields.print fields)
          exact first.trans (congrArg _ (ih properRest others))

/-- The search for a key among written fields. -/
theorem search_attributes {fields : Fields} (proper : fields.areProper = true) {key : String}
    (isName : isName key = true) :
    search (bytes key) fields.attributes = (fields.value? key).elim .absent .value := by
  induction fields with
  | nil => rfl
  | cons field fields ih =>
      obtain ⟨other, value⟩ := field
      obtain ⟨otherIsName, absent, properRest⟩ := Fields.areProper_cons.mp proper
      rw [Fields.value?_cons]
      cases value with
      | none =>
          refine (ih properRest).trans ?_
          split
          · rename_i same
            rw [Fields.value?_of_not_mem (same ▸ absent)]
          · rfl
      | some value =>
          have here : Fields.attributes ((other, some value) :: fields) =
              .pair (bytes other) (escaped true value) :: Fields.attributes fields := rfl
          rw [here, search, readText?_escaped]
          by_cases same : key = other
          · rw [if_pos same, if_pos (congrArg bytes same.symm)]
            rfl
          · have different : bytes other ≠ bytes key :=
              fun equal => same ((bytes_inj otherIsName isName).mp equal).symm
            rw [if_neg same, if_neg different]
            exact ih properRest

/-- The attributes of a written tag are found under their keys. -/
theorem find_writtenTag {name : String} {fields : Fields} (proper : fields.areProper = true)
    {key : String} (isName : isName key = true) :
    (writtenTag name fields).find key = (fields.value? key).elim .absent .value := by
  rw [Tag.find, writtenTag, attributesFrom_print proper fun _ _ => List.not_mem_nil]
  exact search_attributes proper isName

/-! ## Tags that are read -/

/-- Bytes outside of quotes that neither open quotes nor end the tag belong to the tag. -/
theorem tagContent_plain {plain : List UInt8}
    (ordinary : ∀ b ∈ plain, b ≠ byte '>' ∧ isQuote b = false) (rest : List UInt8) :
    tagContent none (plain ++ rest) = plain ++ tagContent none rest := by
  induction plain with
  | nil => rfl
  | cons b plain ih =>
      have ⟨⟨notEnd, notQuote⟩, later⟩ := List.forall_mem_cons.mp ordinary
      rw [List.cons_append, tagContent, if_neg notEnd, notQuote]
      exact congrArg (b :: ·) (ih later)

/-- Bytes in quotes belong to the tag up to the quote that ends them. -/
theorem tagContent_quoted {quote : UInt8} {value : List UInt8} (absent : quote ∉ value)
    (rest : List UInt8) :
    tagContent (some quote) (value ++ quote :: rest) =
      value ++ quote :: tagContent none rest := by
  induction value with
  | nil => rw [List.nil_append, tagContent, if_pos rfl, List.nil_append]
  | cons b value ih =>
      have ⟨other, later⟩ := List.ne_and_not_mem_of_not_mem_cons absent
      rw [List.cons_append, tagContent, if_neg other.symm, ih later, List.cons_append]

theorem ordinary_bytes {name : String} (isName : isName name = true) :
    ∀ b ∈ bytes name, b ≠ byte '>' ∧ isQuote b = false :=
  forall_mem_bytes isName fun _ letter =>
    ⟨byte_ne_of_isAlpha letter '>' (by decide) (by decide), isQuote_byte letter⟩

/-- An attribute belongs to the tag, whatever its value is. -/
theorem tagContent_attributeBytes {key : String} (isName : isName key = true) (value : String)
    (rest : List UInt8) :
    tagContent none (attributeBytes key value ++ rest) =
      attributeBytes key value ++ tagContent none rest := by
  have space : byte ' ' ≠ byte '>' ∧ isQuote (byte ' ') = false := by decide
  have sign : byte '=' ≠ byte '>' ∧ isQuote (byte '=') = false := by decide
  have ordinary : ∀ b ∈ byte ' ' :: (bytes key ++ [byte '=']),
      b ≠ byte '>' ∧ isQuote b = false := by
    refine List.forall_mem_cons.mpr ⟨space, fun b member => ?_⟩
    rcases List.mem_append.mp member with inName | last
    · exact ordinary_bytes isName b inName
    · rw [List.mem_singleton.mp last]
      exact sign
  have whole (behind : List UInt8) : attributeBytes key value ++ behind =
      (byte ' ' :: (bytes key ++ [byte '='])) ++
        byte '"' :: (escaped true value ++ byte '"' :: behind) := by
    simp [attributeBytes]
  have quote : isQuote (byte '"') = true := by decide
  have notEnd : byte '"' ≠ byte '>' := by decide
  rw [whole, whole, tagContent_plain ordinary, tagContent, if_neg notEnd, if_pos quote,
    tagContent_quoted (quote_not_mem_escaped value)]

theorem tagContent_print {fields : Fields} (proper : fields.areProper = true)
    (rest : List UInt8) :
    tagContent none (fields.print ++ rest) = fields.print ++ tagContent none rest := by
  induction fields with
  | nil => rfl
  | cons field fields ih =>
      obtain ⟨key, value⟩ := field
      obtain ⟨isName, _, properRest⟩ := Fields.areProper_cons.mp proper
      cases value with
      | none => exact ih properRest
      | some value =>
          have print : Fields.print ((key, some value) :: fields) =
              attributeBytes key value ++ Fields.print fields := rfl
          rw [print, List.append_assoc, tagContent_attributeBytes isName, ih properRest,
            List.append_assoc]

/-- Attributes begin with a space. -/
theorem head?_print (fields : Fields) {b : UInt8} (first : fields.print.head? = some b) :
    b = byte ' ' := by
  induction fields with
  | nil => cases first
  | cons field fields ih =>
      obtain ⟨key, value⟩ := field
      cases value with
      | none => exact ih first
      | some value => exact (Option.some.inj first).symm

/-- Attributes end with a quote. -/
theorem getLast?_print (fields : Fields) {b : UInt8} (last : fields.print.getLast? = some b) :
    b = byte '"' := by
  induction fields with
  | nil => cases last
  | cons field fields ih =>
      obtain ⟨key, value⟩ := field
      cases value with
      | none => exact ih last
      | some value =>
          have print : Fields.print ((key, some value) :: fields) =
              (byte ' ' :: (bytes key ++ byte '=' :: byte '"' :: escaped true value)) ++
                byte '"' :: Fields.print fields := by
            simp [Fields.print, attributeBytes]
          rw [print, List.getLast?_append_of_ne_nil _ (List.cons_ne_nil _ _),
            List.getLast?_cons] at last
          cases behind : (Fields.print fields).getLast? with
          | none =>
              rw [behind] at last
              exact (Option.some.inj last).symm
          | some other =>
              rw [behind] at last
              exact ih (behind.trans last)

/-- A name with attributes behind it is the tag that was written. -/
theorem tagItem_written {name : String} (isName : isName name = true) (fields : Fields) :
    tagItem (bytes name ++ fields.print) = .start (writtenTag name fields) := by
  have noSpace : ∀ b ∈ bytes name, (!isSpace b) = true :=
    forall_mem_bytes isName fun _ letter => by rw [isSpace_byte letter]; rfl
  have noSlash : ∀ b ∈ bytes name, b ≠ byte '/' :=
    forall_mem_bytes isName fun _ letter => byte_ne_of_isAlpha letter '/' (by decide) (by decide)
  have notEmpty : ¬(bytes name ++ fields.print).getLast? = some (byte '/') := by
    intro last
    rw [List.getLast?_append] at last
    cases behind : fields.print.getLast? with
    | none =>
        rw [behind, Option.none_or] at last
        exact noSlash _ (List.mem_of_getLast? last) rfl
    | some b =>
        rw [behind, Option.some_or, getLast?_print fields behind] at last
        exact absurd (Option.some.inj last) (by decide)
  have front : fields.print.takeWhile (!isSpace ·) = [] ∧
      fields.print.dropWhile (!isSpace ·) = fields.print := by
    cases print : fields.print with
    | nil => exact ⟨rfl, rfl⟩
    | cons b rest =>
        have space : b = byte ' ' := head?_print fields (by rw [print]; rfl)
        rw [space]
        exact ⟨rfl, rfl⟩
  simp only [tagItem, notEmpty, if_neg, not_false_eq_true]
  rw [List.takeWhile_append_of_pos noSpace, List.dropWhile_append_of_pos noSpace, front.1, front.2,
    List.append_nil, writtenTag]

/-- Behind its angle bracket, a start tag is the tag that was written. -/
theorem isItem_startTag {name : String} (isName : isName name = true) {fields : Fields}
    (proper : fields.areProper = true) :
    IsItem (bytes name ++ (fields.print ++ [byte '>'])) (.start (writtenTag name fields)) := by
  intro rest
  have content : tagContent none (bytes name ++ (fields.print ++ byte '>' :: rest)) =
      bytes name ++ fields.print := by
    rw [tagContent_plain (ordinary_bytes isName), tagContent_print proper, tagContent,
      if_pos rfl, List.append_nil]
  obtain ⟨c, others, letter, spelt⟩ := exists_bytes isName
  have front : bytes name ++ (fields.print ++ byte '>' :: rest) =
      byte c :: (others ++ (fields.print ++ byte '>' :: rest)) := by
    rw [spelt, List.cons_append]
  have whole : bytes name ++ (fields.print ++ [byte '>']) ++ rest =
      bytes name ++ (fields.print ++ byte '>' :: rest) := by simp
  have width : (bytes name ++ (fields.print ++ [byte '>'])).length =
      (bytes name ++ fields.print).length + 1 := by simp [Nat.add_assoc]
  have other (mark : Char) (ascii : mark.toNat < 128) (noLetter : mark.isAlpha = false) :
      byte c ≠ byte mark := byte_ne_of_isAlpha letter mark ascii noLetter
  rw [whole, width, front, itemAt, if_neg (other '!' (by decide) (by decide)),
    if_neg (other '?' (by decide) (by decide)), if_neg (other '/' (by decide) (by decide)),
    ← front, content]
  exact congrArg (·, _) (tagItem_written isName fields)

/-- A start tag opens its element. -/
theorem eventsFrom_startTag {name : String} (isName : isName name = true) {fields : Fields}
    (proper : fields.areProper = true) (opened : List (List UInt8)) (rest : List UInt8) :
    eventsFrom opened (startTag name fields ++ rest) =
      .start (writtenTag name fields) :: eventsFrom (bytes name :: opened) rest :=
  (isItem_startTag isName proper).eventsFrom_start opened rest

/-- Behind its angle bracket, an end tag is the end of the element with its name. -/
theorem isItem_endTag {name : String} (isName : isName name = true) :
    IsItem (byte '/' :: (bytes name ++ [byte '>'])) (.stop (bytes name)) := by
  intro rest
  have noAngle : byte '>' ∉ bytes name := fun member =>
    (ordinary_bytes isName _ member).1 rfl
  have noBlank : ∀ b ∈ bytes name, isAsciiBlank b = false :=
    forall_mem_bytes isName fun _ letter => isAsciiBlank_byte letter
  have stop : stopName (bytes name) = bytes name := by
    have kept : trimEnd isAsciiBlank (bytes name) = bytes name :=
      trimEnd_eq_self fun b last => noBlank b (List.mem_of_getLast? last)
    obtain ⟨c, others, _, spelt⟩ := exists_bytes isName
    rw [stopName, kept, spelt]
    rfl
  have whole : byte '/' :: (bytes name ++ [byte '>']) ++ rest =
      byte '/' :: (bytes name ++ byte '>' :: rest) := by simp
  have width : (byte '/' :: (bytes name ++ [byte '>'])).length = (bytes name).length + 2 := by simp
  rw [whole, width, itemAt, if_neg (by decide), if_neg (by decide), if_pos rfl, uptoAngle,
    takeWhile_append_mark noAngle]
  exact congrArg (Item.stop ·, (bytes name).length + 2) stop

/-- An end tag closes the innermost element if it carries its name. -/
theorem eventsFrom_endTag {name : String} (isName : isName name = true)
    (opened : List (List UInt8)) (rest : List UInt8) :
    eventsFrom (bytes name :: opened) (endTag name ++ rest) = .stop :: eventsFrom opened rest :=
  (isItem_endTag isName).eventsFrom_stop opened rest

/-! ## Text that is read -/

/-- Bytes in front of which a text ends: there are none, or a tag begins. -/
def IsTextEnd (content : List UInt8) : Prop := ∀ b, content.head? = some b → b = byte '<'

theorem isTextEnd_nil : IsTextEnd [] := fun _ none => by cases none

theorem isTextEnd_endTag (name : String) (rest : List UInt8) :
    IsTextEnd (endTag name ++ rest) := fun _ first => (Option.some.inj first).symm

theorem isTextEnd_element (name : String) (fields : Fields) (inner rest : List UInt8) :
    IsTextEnd (element name fields inner ++ rest) := fun _ first => (Option.some.inj first).symm

theorem IsTextEnd.append {front behind : List UInt8} (frontEnds : IsTextEnd front)
    (behindEnds : IsTextEnd behind) : IsTextEnd (front ++ behind) := by
  cases front with
  | nil => exact behindEnds
  | cons b front =>
      intro other first
      exact frontEnds other first

/-- Bytes begin with the text in front of the first tag. -/
theorem exists_text (content : List UInt8) :
    ∃ text rest, content = text ++ rest ∧ byte '<' ∉ text ∧ IsTextEnd rest := by
  refine ⟨content.takeWhile (· != byte '<'), content.dropWhile (· != byte '<'),
    List.takeWhile_append_dropWhile.symm, fun member => ?_, fun b first => ?_⟩
  · exact absurd (List.mem_takeWhile_imp member) (by simp)
  · have stops := List.head?_dropWhile_not (· != byte '<') content
    rw [first] at stops
    simpa using stops

/-- The events of a text: one, unless it is blank. -/
def textEvents (content : List UInt8) : List Event :=
  if (trim content).isEmpty then [] else [.text (trim content)]

/-- Bytes in front of a tag or at the end of the document are one event, unless they are blank. -/
theorem eventsFrom_plain {content : List UInt8} (noTag : byte '<' ∉ content)
    (opened : List (List UInt8)) {rest : List UInt8} (stops : IsTextEnd rest) :
    eventsFrom opened (content ++ rest) = textEvents content ++ eventsFrom opened rest := by
  cases content with
  | nil => rfl
  | cons b others =>
      have ⟨notTag, absent⟩ := List.ne_and_not_mem_of_not_mem_cons noTag
      have plain : ∀ other ∈ others, (other != byte '<') = true :=
        fun other member => bne_iff_ne.mpr fun same => absent (same ▸ member)
      have taken : (others ++ rest).takeWhile (· != byte '<') = others := by
        cases rest with
        | nil =>
            rw [List.append_nil]
            exact List.takeWhile_eq_self_iff.mpr plain
        | cons first rest =>
            rw [stops first rfl]
            exact takeWhile_append_mark absent rest
      have behind : (others ++ rest).drop ((b :: others).length - 1) = rest := List.drop_left
      rw [List.cons_append, eventsFrom, if_neg notTag.symm]
      simp only [taken, behind, textEvents]
      split <;> rfl

theorem eventsFrom_text {content : List UInt8} (some : trim content ≠ [])
    (noTag : byte '<' ∉ content) (opened : List (List UInt8)) {rest : List UInt8}
    (stops : IsTextEnd rest) :
    eventsFrom opened (content ++ rest) = .text (trim content) :: eventsFrom opened rest := by
  rw [eventsFrom_plain noTag opened stops, textEvents, if_neg (mt List.isEmpty_iff.mp some)]
  rfl

/-- A text in front of a tag or at the end of the document is one event. -/
theorem eventsFrom_escaped {text : String} (notEmpty : text ≠ "")
    (trimmed : Text.trim text.toList = text.toList) (opened : List (List UInt8))
    {rest : List UInt8} (stops : IsTextEnd rest) :
    eventsFrom opened (escaped false text ++ rest) =
      .text (escaped false text) :: eventsFrom opened rest := by
  have kept : trim (escaped false text) = escaped false text := trim_escaped trimmed
  have someBytes : trim (escaped false text) ≠ [] := kept.symm ▸ escaped_ne_nil notEmpty
  have read := eventsFrom_text someBytes (angle_not_mem_escaped false text) opened stops
  rwa [kept] at read

end SqlTemplate.Markup
