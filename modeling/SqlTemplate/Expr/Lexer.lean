import SqlTemplate.Decimal.Literal
import SqlTemplate.Expr.Error

/-!
# Reading tokens

Tokens are read from left to right and blanks between them are skipped.  Two readings depend on
what stands around a character: a minus sign directly before a digit or a point belongs to the
numeral where an operand is expected and is an operator elsewhere, and a point begins a numeral
only before a digit.  A word may contain points, brackets and the empty pair of parentheses, so
that it can be a path.

`tokenAt` reads one token and gives the number of characters after the first that belong to it;
`tokenize` reads them all.
-/

namespace SqlTemplate.Expr

set_option autoImplicit false

/-! ## Numerals -/

/-- The exponent of a numeral at the front of the characters: the letter `e`, an optional sign and
digits.  It is empty where no exponent starts. -/
def exponentChars : List Char → List Char
  | [] => []
  | mark :: after =>
      if mark == 'e' || mark == 'E' then
        match after with
        | '+' :: digits => mark :: '+' :: digits.takeWhile Char.isDigit
        | '-' :: digits => mark :: '-' :: digits.takeWhile Char.isDigit
        | digits => mark :: digits.takeWhile Char.isDigit
      else []

/-- The numeral at the front of the characters: digits and points, an exponent, and every character
that goes on as in a name, so that a misspelt numeral is reported as a whole. -/
def numeralChars (chars : List Char) : List Char :=
  let digits := chars.takeWhile fun c => c.isDigit || c == '.'
  let afterDigits := chars.drop digits.length
  let exponent := exponentChars afterDigits
  digits ++ exponent ++ (afterDigits.drop exponent.length).takeWhile Text.isNamePart

/-- The number that a numeral writes. -/
def numeralValue (numeral : List Char) : Except ExprError Float :=
  match Decimal.literal? numeral with
  | some value => .ok value
  | none => .error (.invalidNumber (.ofList numeral))

/-! ## Texts -/

/-- The content of a text in quotes, read up to the closing quote. -/
structure Quoted where
  content : List Char
  width : Nat
  closed : Bool

/-- Reads a text after its opening quote.  A backslash takes the next character as it is. -/
def quotedChars (quote : Char) : List Char → Quoted
  | [] => ⟨[], 0, false⟩
  | '\\' :: c :: after =>
      let more := quotedChars quote after
      ⟨c :: more.content, more.width + 2, more.closed⟩
  | c :: after =>
      if c = quote then ⟨[], 1, true⟩
      else
        let more := quotedChars quote after
        ⟨c :: more.content, more.width + 1, more.closed⟩

/-! ## Words -/

/-- Whether a word goes on with this character. -/
def isWordPart (c : Char) : Bool := Text.isNamePart c || c == '.' || c == '[' || c == ']'

/-- The word at the front of the characters. -/
def wordChars : List Char → List Char
  | [] => []
  | '(' :: ')' :: after => '(' :: ')' :: wordChars after
  | c :: after => if isWordPart c then c :: wordChars after else []

/-- The token that a word stands for. -/
def wordToken (word : String) : Token :=
  if word = "nil" ∨ word = "null" then .term .nil
  else if word = "true" then .term (.truth true)
  else if word = "false" then .term (.truth false)
  else if word = "and" then .operator (.binary .and)
  else if word = "or" then .operator (.binary .or)
  else .term (.word word)

/-! ## Tokens -/

/-- The token whose spelling is one of the fixed signs, and its length less one. -/
def signToken? : Char → List Char → Option (Token × Nat)
  | '(', _ => some (.openParen, 0)
  | ')', _ => some (.closeParen, 0)
  | '&', '&' :: _ => some (.operator (.binary .and), 1)
  | '&', _ => some (.operator (.binary .bitAnd), 0)
  | '|', '|' :: _ => some (.operator (.binary .or), 1)
  | '|', _ => some (.operator (.binary .bitOr), 0)
  | '=', '=' :: _ => some (.operator (.binary .equal), 1)
  | '!', '=' :: _ => some (.operator (.binary .notEqual), 1)
  | '<', '=' :: _ => some (.operator (.binary .lessEqual), 1)
  | '<', _ => some (.operator (.binary .less), 0)
  | '>', '=' :: _ => some (.operator (.binary .greaterEqual), 1)
  | '>', _ => some (.operator (.binary .greater), 0)
  | '+', _ => some (.operator (.binary .add), 0)
  | '*', _ => some (.operator (.binary .multiply), 0)
  | '/', _ => some (.operator (.binary .divide), 0)
  | '%', _ => some (.operator (.binary .remainder), 0)
  | '~', _ => some (.operator .complement, 0)
  | _, _ => none

/-- Whether a numeral starts with this character. -/
def startsNumeral (c : Char) (after : List Char) : Bool :=
  c.isDigit || c == '.' && after.head?.any Char.isDigit

/-- Whether a minus sign at this place belongs to a numeral. -/
def startsNegative (previous : Option Token) (after : List Char) : Bool :=
  expectsOperand previous && after.head?.any fun c => c.isDigit || c == '.'

/-- The token that starts with `c`, and the number of characters after `c` that belong to it.  The
token before, the offset and the whole expression are given for the sake of minus signs and of the
report on a character that starts no token. -/
def tokenAt (source : String) (previous : Option Token) (offset : Nat) (c : Char)
    (after : List Char) : Except ExprError (Token × Nat) :=
  match signToken? c after with
  | some found => .ok found
  | none =>
      if startsNumeral c after then do
        let numeral := numeralChars (c :: after)
        let value ← numeralValue numeral
        .ok (.term (.number value), numeral.length - 1)
      else if c = '-' then
        if startsNegative previous after then do
          let numeral := numeralChars after
          let value ← numeralValue numeral
          .ok (.term (.number (-value)), numeral.length)
        else .ok (.operator (.binary .subtract), 0)
      else if c = '"' ∨ c = '\'' then
        let quoted := quotedChars c after
        if quoted.closed then .ok (.term (.text (.ofList quoted.content)), quoted.width)
        else .error (.unterminatedText (.ofList (c :: quoted.content)))
      else if Text.isNameStart c then
        let word := wordChars (c :: after)
        .ok (wordToken (.ofList word), word.length - 1)
      else .error (.unexpectedCharacter c offset source)

/-- The tokens of the characters from an offset on. -/
def tokensFrom (source : String) :
    Option Token → Nat → List Char → Except ExprError (List Token)
  | _, _, [] => .ok []
  | previous, offset, c :: after =>
      if Text.isBlank c then tokensFrom source previous (offset + 1) after
      else do
        let (token, more) ← tokenAt source previous offset c after
        let tokens ← tokensFrom source (some token) (offset + more + 1) (after.drop more)
        .ok (token :: tokens)
termination_by _ _ chars => chars.length
decreasing_by all_goals simp only [List.length_drop, List.length_cons]; omega

/-- The tokens of a test expression. -/
def tokenize (source : String) : Except ExprError (List Token) :=
  tokensFrom source none 0 source.toList

end SqlTemplate.Expr
