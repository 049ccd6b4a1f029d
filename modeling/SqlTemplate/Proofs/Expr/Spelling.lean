import SqlTemplate.Expr.Lexer
import SqlTemplate.Proofs.Decimal.Literal
import SqlTemplate.Proofs.Text.Letter

/-!
# Spellings of tokens

A token may be written in several ways: a connective by its sign or by its word, a text in either
kind of quotes, a number by any numeral.  `Spelt` says what its spellings are, and `SpeltSigned`
adds the numerals with a minus sign.

Every spelling is read as its token when a blank follows or nothing (`Spelt.isRead`), whatever
stands before.  A numeral with a minus sign is read as one token where an operand is expected
(`isRead_negative`).
-/

namespace SqlTemplate.Expr

set_option autoImplicit false

/-! ## What the spellings are -/

/-- The words that stand for constants and connectives. -/
def keywords : List (String × Token) :=
  [("nil", .term .nil), ("null", .term .nil), ("true", .term (.truth true)),
    ("false", .term (.truth false)), ("and", .operator (.binary .and)),
    ("or", .operator (.binary .or))]

/-- The characters with which a word goes on: parts of names, points, brackets, and empty pairs of
parentheses. -/
inductive GoesOn : List Char → Prop
  | nil : GoesOn []
  | part {c : Char} {rest : List Char} : isWordPart c = true → GoesOn rest → GoesOn (c :: rest)
  | call {rest : List Char} : GoesOn rest → GoesOn ('(' :: ')' :: rest)

/-- A word starts as a name and goes on as a path. -/
inductive IsWord : List Char → Prop
  | mk {first : Char} {rest : List Char} :
      Text.isNameStart first = true → GoesOn rest → IsWord (first :: rest)

/-- The content of a text between quotes, with a backslash before each such quote and before each
backslash. -/
def escaped (quote : Char) (content : List Char) : List Char :=
  content.flatMap fun c => if c = quote ∨ c = '\\' then ['\\', c] else [c]

/-- The spellings of a token, but for numerals with a minus sign. -/
inductive Spelt : Token → List Char → Prop
  | openParen : Spelt .openParen ['(']
  | closeParen : Spelt .closeParen [')']
  | sign (operator : Operator) : Spelt (.operator operator) operator.symbol.toList
  | keyword {word : String} {token : Token} : (word, token) ∈ keywords → Spelt token word.toList
  | word {name : String} :
      IsWord name.toList → name ∉ keywords.map Prod.fst → Spelt (.term (.word name)) name.toList
  | text {quote : Char} (content : String) :
      quote = '"' ∨ quote = '\'' →
        Spelt (.term (.text content)) (quote :: (escaped quote content.toList ++ [quote]))
  | number (numeral : Decimal.Numeral) : Spelt (.term (.number numeral.value)) numeral.chars

/-- The spellings of a token, with a minus sign before a numeral or without. -/
inductive SpeltSigned : Token → List Char → Prop
  | unsigned {token : Token} {spelling : List Char} : Spelt token spelling →
      SpeltSigned token spelling
  | negative (numeral : Decimal.Numeral) :
      SpeltSigned (.term (.number (-numeral.value))) ('-' :: numeral.chars)

/-! ## What ends a spelling -/

/-- Characters in front of which a spelling ends: none at all, or a blank and others. -/
def Ends (behind : List Char) : Prop := ∀ c after, behind = c :: after → Text.isBlank c = true

theorem ends_nil : Ends [] := fun _ _ equal => absurd equal.symm (List.cons_ne_nil _ _)

/-- A reader stops at a blank when its class has no blanks. -/
theorem Ends.stopsAt {behind : List Char} (ends : Ends behind) {inClass : Char → Bool}
    (noBlank : ∀ c, Text.isBlank c = true → inClass c = false) : Text.StopsAt inClass behind :=
  fun c after equal => noBlank c (ends c after equal)

/-- The next character is none that is not a blank. -/
theorem Ends.ne_cons {behind : List Char} (ends : Ends behind) {c : Char}
    (notBlank : Text.isBlank c = false) (after : List Char) : behind ≠ c :: after := by
  intro equal
  rw [ends c after equal] at notBlank
  cases notBlank

/-- Characters that are read as one token after another one, when a blank follows or nothing. -/
def IsRead (previous : Option Token) (token : Token) (spelling : List Char) : Prop :=
  ∃ c rest, spelling = c :: rest ∧ Text.isBlank c = false ∧
    ∀ source offset behind, Ends behind →
      tokenAt source previous offset c (rest ++ behind) = .ok (token, rest.length)

/-! ## Signs -/

theorem tokenAt_of_signToken? {source : String} {previous : Option Token} {offset : Nat} {c : Char}
    {after : List Char} {found : Token × Nat} (sign : signToken? c after = some found) :
    tokenAt source previous offset c after = .ok found := by
  rw [tokenAt, sign]

/-- The characters with which a sign starts, but for the minus sign. -/
def signChars : List Char :=
  ['(', ')', '&', '|', '=', '!', '<', '>', '+', '*', '/', '%', '~']

/-- A character that is no sign starts no sign. -/
theorem signToken?_eq_none {c : Char} (noSign : c ∉ signChars) (after : List Char) :
    signToken? c after = none := by
  unfold signToken?
  split <;> first | rfl | exact absurd (by decide) noSign

/-- A minus sign in front of a blank, or at the end, is an operator. -/
theorem tokenAt_minus {source : String} {previous : Option Token} {offset : Nat}
    {behind : List Char} (ends : Ends behind) :
    tokenAt source previous offset '-' behind = .ok (.operator (.binary .subtract), 0) := by
  have noNumeral : behind.head?.any (fun c => c.isDigit || c == '.') = false := by
    cases behind with
    | nil => rfl
    | cons c after =>
        exact Text.of_isBlank (fun c => (c.isDigit || c == '.') = false) (by decide)
          (ends c after rfl)
  have noNegative : startsNegative previous behind = false := by
    rw [startsNegative, noNumeral, Bool.and_false]
  rw [tokenAt, signToken?_eq_none (by decide), noNegative]
  rfl

/-- A sign of which no other one is the beginning. -/
theorem isRead_of_signToken? {previous : Option Token} {token : Token} {c : Char}
    {rest : List Char} (notBlank : Text.isBlank c = false)
    (sign : ∀ behind, Ends behind → signToken? c (rest ++ behind) = some (token, rest.length)) :
    IsRead previous token (c :: rest) :=
  ⟨c, rest, rfl, notBlank, fun _ _ behind ends => tokenAt_of_signToken? (sign behind ends)⟩

theorem isRead_sign (previous : Option Token) (operator : Operator) :
    IsRead previous (.operator operator) operator.symbol.toList := by
  -- Four signs are the beginning of longer ones, from which a blank tells them apart.
  cases operator with
  | complement => exact isRead_of_signToken? (by decide) fun _ _ => rfl
  | binary operator =>
      cases operator with
      | subtract => exact ⟨'-', [], rfl, by decide, fun _ _ _ ends => tokenAt_minus ends⟩
      | bitAnd =>
          refine isRead_of_signToken? (by decide) fun behind ends => ?_
          show signToken? '&' behind = some _
          rw [signToken?]
          · rfl
          · exact ends.ne_cons (by decide)
      | bitOr =>
          refine isRead_of_signToken? (by decide) fun behind ends => ?_
          show signToken? '|' behind = some _
          rw [signToken?]
          · rfl
          · exact ends.ne_cons (by decide)
      | less =>
          refine isRead_of_signToken? (by decide) fun behind ends => ?_
          show signToken? '<' behind = some _
          rw [signToken?]
          · rfl
          · exact ends.ne_cons (by decide)
      | greater =>
          refine isRead_of_signToken? (by decide) fun behind ends => ?_
          show signToken? '>' behind = some _
          rw [signToken?]
          · rfl
          · exact ends.ne_cons (by decide)
      | or | and | equal | notEqual | lessEqual | greaterEqual | add | multiply | divide
        | remainder => exact isRead_of_signToken? (by decide) fun _ _ => rfl

/-! ## Words -/

/-- Characters in front of which a word ends: none at all, or others than those of words. -/
def EndsWord (behind : List Char) : Prop :=
  Text.StopsAt (fun c => isWordPart c || c == '(') behind

/-- A word ends in front of a blank. -/
theorem Ends.endsWord {behind : List Char} (ends : Ends behind) : EndsWord behind := by
  refine ends.stopsAt fun c blank => ?_
  rw [isWordPart, Text.isNamePart_of_isBlank blank]
  exact Text.of_isBlank
    (fun c => (false || c == '.' || c == '[' || c == ']' || c == '(') = false) (by decide) blank

/-- A word goes up to the characters in front of which it ends. -/
theorem wordChars_append {word behind : List Char} (goesOn : GoesOn word)
    (ends : EndsWord behind) : wordChars (word ++ behind) = word := by
  induction goesOn with
  | nil =>
      cases behind with
      | nil => rfl
      | cons c after =>
          obtain ⟨noPart, noOpening⟩ := Bool.or_eq_false_iff.mp (ends c after rfl)
          show wordChars (c :: after) = []
          rw [wordChars, noPart]
          · rfl
          · rintro after rfl
            cases noOpening
  | @part c rest isPart _ ih =>
      rw [List.cons_append, wordChars, if_pos isPart, ih]
      rintro after rfl
      exact absurd isPart (by decide)
  | call _ ih => exact congrArg ('(' :: ')' :: ·) ih

/-- The first character of a word is none with which another token starts. -/
theorem ne_of_isNameStart {first other : Char} (starts : Text.isNameStart first = true)
    (noStart : Text.isNameStart other = false) : first ≠ other := by
  rintro rfl
  rw [starts] at noStart
  cases noStart

/-- A word is read up to the characters in front of which it ends, whatever stands before. -/
theorem tokenAt_word {first : Char} {rest behind : List Char} (isWord : IsWord (first :: rest))
    (ends : EndsWord behind) (source : String) (previous : Option Token) (offset : Nat) :
    tokenAt source previous offset first (rest ++ behind) =
      .ok (wordToken (.ofList (first :: rest)), rest.length) := by
  obtain ⟨starts, goesOn⟩ := isWord
  have noDigit : first.isDigit = false := Text.isDigit_of_isNameStart starts
  have noSign : first ∉ signChars := fun sign => by
    have each : signChars.all (fun c => !Text.isNameStart c) = true := rfl
    have noStart : Text.isNameStart first = false := by
      simpa using List.all_eq_true.mp each first sign
    exact absurd rfl (ne_of_isNameStart starts noStart)
  have noPoint : first ≠ '.' := ne_of_isNameStart starts (by decide)
  have noMinus : first ≠ '-' := ne_of_isNameStart starts (by decide)
  have noQuote : ¬ (first = '"' ∨ first = '\'') := by
    rw [not_or]
    exact ⟨ne_of_isNameStart starts (by decide), ne_of_isNameStart starts (by decide)⟩
  have noNumeral : startsNumeral first (rest ++ behind) = false := by
    simp [startsNumeral, noDigit, noPoint]
  have isPart : isWordPart first = true := by
    simp [isWordPart, Text.isNamePart_of_isNameStart starts]
  have chars : wordChars (first :: (rest ++ behind)) = first :: rest :=
    wordChars_append (.part isPart goesOn) ends
  rw [tokenAt, signToken?_eq_none noSign, noNumeral]
  simp only [noMinus, noQuote, starts, chars]
  rfl

theorem IsWord.exists_cons {word : List Char} (isWord : IsWord word) :
    ∃ first rest, word = first :: rest ∧ Text.isBlank first = false := by
  obtain ⟨starts, _⟩ := isWord
  exact ⟨_, _, rfl, Text.isBlank_of_isNameStart starts⟩

theorem isRead_word (previous : Option Token) {word : List Char} (isWord : IsWord word) :
    IsRead previous (wordToken (.ofList word)) word := by
  obtain ⟨first, rest, rfl, notBlank⟩ := isWord.exists_cons
  exact ⟨first, rest, rfl, notBlank, fun source offset behind ends =>
    tokenAt_word isWord ends.endsWord source previous offset⟩

/-- A word goes on with any characters of words. -/
theorem goesOn_of_forall {chars : List Char} (parts : ∀ c ∈ chars, isWordPart c = true) :
    GoesOn chars := by
  induction chars with
  | nil => exact .nil
  | cons c rest ih =>
      have ⟨here, others⟩ := List.forall_mem_cons.mp parts
      exact .part here (ih others)

/-- A part of a name is a part of a word. -/
theorem isWordPart_of_isNamePart {c : Char} (isPart : Text.isNamePart c = true) :
    isWordPart c = true := by
  simp [isWordPart, isPart]

/-- A name is a word. -/
theorem isWord_of_isName {word : List Char} (isName : Text.isName word = true) : IsWord word := by
  cases word with
  | nil => cases isName
  | cons first rest =>
      obtain ⟨starts, parts⟩ := Bool.and_eq_true_iff.mp isName
      exact .mk starts (goesOn_of_forall fun c member =>
        isWordPart_of_isNamePart (List.all_eq_true.mp parts c member))

/-- A keyword stands for its token. -/
theorem wordToken_of_mem {word : String} {token : Token} (listed : (word, token) ∈ keywords) :
    wordToken word = token := by
  simp only [keywords, List.mem_cons, List.not_mem_nil, or_false, Prod.mk.injEq] at listed
  rcases listed with ⟨rfl, rfl⟩ | ⟨rfl, rfl⟩ | ⟨rfl, rfl⟩ | ⟨rfl, rfl⟩ | ⟨rfl, rfl⟩ | ⟨rfl, rfl⟩ <;>
    rfl

theorem isRead_keyword (previous : Option Token) {word : String} {token : Token}
    (listed : (word, token) ∈ keywords) : IsRead previous token word.toList := by
  have names : ∀ pair ∈ keywords, Text.isName pair.1.toList = true := by decide
  have read := isRead_word previous (isWord_of_isName (names _ listed))
  rwa [String.ofList_toList, wordToken_of_mem listed] at read

/-- A word that is no keyword is looked up. -/
theorem wordToken_of_not_mem {name : String} (free : name ∉ keywords.map Prod.fst) :
    wordToken name = .term (.word name) := by
  simp only [keywords, List.map_cons, List.map_nil, List.mem_cons, List.not_mem_nil, or_false,
    not_or] at free
  obtain ⟨noNil, noNull, noTrue, noFalse, noAnd, noOr⟩ := free
  rw [wordToken, if_neg (not_or.mpr ⟨noNil, noNull⟩), if_neg noTrue, if_neg noFalse, if_neg noAnd,
    if_neg noOr]

/-! ## Texts -/

/-- A text is read up to its closing quote, as escaped quotes do not close it. -/
theorem quotedChars_escaped {quote : Char} (isQuote : quote = '"' ∨ quote = '\'')
    (content behind : List Char) :
    quotedChars quote (escaped quote content ++ quote :: behind) =
      ⟨content, (escaped quote content).length + 1, true⟩ := by
  induction content with
  | nil => rcases isQuote with rfl | rfl <;> rfl
  | cons c content ih =>
      by_cases escapes : c = quote ∨ c = '\\'
      · have written : escaped quote (c :: content) = '\\' :: c :: escaped quote content := by
          rw [escaped, List.flatMap_cons, if_pos escapes]
          rfl
        rw [written, List.cons_append, List.cons_append, quotedChars, ih]
        rfl
      · have written : escaped quote (c :: content) = c :: escaped quote content := by
          rw [escaped, List.flatMap_cons, if_neg escapes]
          rfl
        rw [not_or] at escapes
        rw [written, List.cons_append, quotedChars, if_neg escapes.1, ih]
        · rfl
        · rintro _ _ rfl
          exact absurd rfl escapes.2

/-- A text is read up to its closing quote, whatever stands before and behind. -/
theorem tokenAt_text {quote : Char} (isQuote : quote = '"' ∨ quote = '\'') (content : String)
    (source : String) (previous : Option Token) (offset : Nat) (behind : List Char) :
    tokenAt source previous offset quote (escaped quote content.toList ++ [quote] ++ behind) =
      .ok (.term (.text content), (escaped quote content.toList ++ [quote]).length) := by
  have read := quotedChars_escaped isQuote content.toList behind
  have noSign : quote ∉ signChars := by
    rcases isQuote with rfl | rfl <;> decide
  have noNumeral (after : List Char) : startsNumeral quote after = false := by
    rcases isQuote with rfl | rfl <;> rfl
  have noMinus : quote ≠ '-' := by
    rcases isQuote with rfl | rfl <;> decide
  rw [List.append_assoc, List.singleton_append, tokenAt, signToken?_eq_none noSign, noNumeral]
  simp only [noMinus, isQuote, read]
  simp

/-- A quote is no blank. -/
theorem isBlank_of_isQuote {quote : Char} (isQuote : quote = '"' ∨ quote = '\'') :
    Text.isBlank quote = false := by
  rcases isQuote with rfl | rfl <;> decide

theorem isRead_text (previous : Option Token) {quote : Char}
    (isQuote : quote = '"' ∨ quote = '\'') (content : String) :
    IsRead previous (.term (.text content))
      (quote :: (escaped quote content.toList ++ [quote])) :=
  ⟨quote, _, rfl, isBlank_of_isQuote isQuote, fun source offset behind _ =>
    tokenAt_text isQuote content source previous offset behind⟩

/-! ## Numerals -/

/-- An exponent ends at a blank. -/
theorem exponentChars_append (numeral : Decimal.Numeral) {behind : List Char} (ends : Ends behind) :
    exponentChars (numeral.exponentChars ++ behind) = numeral.exponentChars := by
  have noDigit : Text.StopsAt Char.isDigit behind :=
    ends.stopsAt fun _ => Text.of_isBlank (fun c => c.isDigit = false) (by decide)
  rw [Decimal.Numeral.exponentChars]
  cases numeral.exponent? with
  | none =>
      cases behind with
      | nil => rfl
      | cons c after =>
          have noMark : ¬ (c == 'e' || c == 'E') = true :=
            Text.of_isBlank (fun c => ¬ (c == 'e' || c == 'E') = true) (by decide)
              (ends c after rfl)
          exact if_neg noMark
  | some exponent =>
      obtain ⟨letter, sign, digits, isLetter, someDigit, allDigits⟩ := exponent
      have isMark : (letter == 'e' || letter == 'E') = true := by
        rcases isLetter with rfl | rfl <;> rfl
      have read := noDigit.takeWhile_append allDigits
      cases sign with
      | plus => exact (if_pos isMark).trans (congrArg (letter :: '+' :: ·) read)
      | minus => exact (if_pos isMark).trans (congrArg (letter :: '-' :: ·) read)
      | none =>
          show exponentChars (letter :: (digits ++ behind)) = letter :: digits
          rw [exponentChars, if_pos isMark, read]
          -- The digits start with none of the two signs.
          all_goals
            intro after equal
            cases digits with
            | nil => exact absurd rfl someDigit
            | cons first rest =>
                have isDigit := allDigits first (List.mem_cons_self ..)
                cases equal
                exact absurd isDigit (by decide)

/-- A numeral ends at a blank. -/
theorem numeralChars_append (numeral : Decimal.Numeral) {behind : List Char} (ends : Ends behind) :
    numeralChars (numeral.chars ++ behind) = numeral.chars := by
  have significand : ∀ c ∈ numeral.whole ++ numeral.fractionChars,
      (c.isDigit || c == '.') = true := by
    have fractionDigits := numeral.fractionDigits
    rw [List.forall_mem_append, Decimal.Numeral.fractionChars]
    refine ⟨fun c listed => by simp [numeral.wholeDigits c listed], ?_⟩
    cases point : numeral.fraction? with
    | none => exact List.forall_mem_nil _
    | some fraction =>
        rw [point] at fractionDigits
        exact List.forall_mem_cons.mpr ⟨rfl, fun c listed => by simp [fractionDigits c listed]⟩
  have stops : Text.StopsAt (fun c => c.isDigit || c == '.') (numeral.exponentChars ++ behind) := by
    refine (numeral.exponentChars_stopsAt (by decide) (by decide)).append ?_
    exact ends.stopsAt fun _ =>
      Text.of_isBlank (fun c => (c.isDigit || c == '.') = false) (by decide)
  have noPart : behind.takeWhile Text.isNamePart = [] :=
    (ends.stopsAt fun _ => Text.isNamePart_of_isBlank).takeWhile_eq_nil
  have parts : numeral.chars ++ behind =
      (numeral.whole ++ numeral.fractionChars) ++ (numeral.exponentChars ++ behind) :=
    List.append_assoc ..
  rw [numeralChars, parts]
  simp only [stops.takeWhile_append significand, List.drop_left, exponentChars_append numeral ends,
    noPart, List.append_nil]
  rfl

theorem numeralValue_chars (numeral : Decimal.Numeral) :
    numeralValue numeral.chars = .ok numeral.value := by
  rw [numeralValue, numeral.literal?_chars]

theorem isRead_number (previous : Option Token) (numeral : Decimal.Numeral) :
    IsRead previous (.term (.number numeral.value)) numeral.chars := by
  obtain ⟨c, rest, chars, starts⟩ := numeral.exists_chars
  have notBlank : Text.isBlank c = false := by
    rcases starts with digit | ⟨rfl, _⟩
    · exact Text.of_isDigit (fun c => Text.isBlank c = false) (by decide) digit
    · decide
  have noSign : c ∉ signChars := by
    rcases starts with digit | ⟨rfl, _⟩
    · exact Text.of_isDigit (fun c => c ∉ signChars) (by decide) digit
    · decide
  refine ⟨c, rest, chars, notBlank, fun source offset behind ends => ?_⟩
  have isNumeral : startsNumeral c (rest ++ behind) = true := by
    rcases starts with digit | ⟨rfl, digit, more, rfl, isDigit⟩
    · simp [startsNumeral, digit]
    · simp [startsNumeral, isDigit]
  have read := numeralChars_append numeral ends
  rw [chars] at read
  have value := numeralValue_chars numeral
  rw [chars] at value
  rw [tokenAt, signToken?_eq_none noSign, isNumeral]
  simp only [← List.cons_append, read, value]
  rfl

/-- A minus sign before a numeral belongs to it where an operand is expected. -/
theorem isRead_negative {previous : Option Token} (expects : expectsOperand previous = true)
    (numeral : Decimal.Numeral) :
    IsRead previous (.term (.number (-numeral.value))) ('-' :: numeral.chars) := by
  refine ⟨'-', numeral.chars, rfl, by decide, fun source offset behind ends => ?_⟩
  have isNegative : startsNegative previous (numeral.chars ++ behind) = true := by
    obtain ⟨c, rest, chars, starts⟩ := numeral.exists_chars
    rw [startsNegative, expects, chars]
    rcases starts with digit | ⟨rfl, _⟩
    · simp [digit]
    · rfl
  rw [tokenAt, signToken?_eq_none (by decide), isNegative]
  simp only [numeralChars_append numeral ends, numeralValue_chars numeral]
  rfl

/-! ## Every spelling is read -/

/-- Every spelling without a minus sign is read as its token, whatever stands before it. -/
theorem Spelt.isRead {token : Token} {spelling : List Char} (spelt : Spelt token spelling)
    (previous : Option Token) : IsRead previous token spelling := by
  cases spelt with
  | openParen => exact isRead_of_signToken? (by decide) fun _ _ => rfl
  | closeParen => exact isRead_of_signToken? (by decide) fun _ _ => rfl
  | sign operator => exact isRead_sign previous operator
  | keyword listed => exact isRead_keyword previous listed
  | @word name isWord free =>
      have read := isRead_word previous isWord
      rwa [String.ofList_toList, wordToken_of_not_mem free] at read
  | text content isQuote => exact isRead_text previous isQuote content
  | number numeral => exact isRead_number previous numeral

/-- Every spelling of a term is read as it where an operand is expected. -/
theorem SpeltSigned.isRead {token : Token} {spelling : List Char}
    (spelt : SpeltSigned token spelling) {previous : Option Token}
    (placed : ∀ leaf, token = .term leaf → expectsOperand previous = true) :
    IsRead previous token spelling := by
  cases spelt with
  | unsigned spelt => exact spelt.isRead previous
  | negative numeral => exact isRead_negative (placed _ rfl) numeral

end SqlTemplate.Expr
