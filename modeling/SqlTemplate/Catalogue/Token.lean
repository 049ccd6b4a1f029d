import SqlTemplate.Catalogue.Name

/-!
# Tokens of documents

A document is a sequence of tokens: marks, such as the brackets of tags, and single characters.
Which marks there are depends on the region in which they stand; quotes, for instance, mean nothing
in a comment.  The tokens alone decide where a region ends, whatever the reader makes of them, so
that a comment may begin, and has to end, inside the value of an attribute.
-/

namespace SqlTemplate.Catalogue

set_option autoImplicit false

/-! ## Tokens -/

/-- A token. -/
inductive Token where
  | character (c : Char)
  | tagStart
  | closingStart
  | tagEnd
  | emptyTagEnd
  | instructionStart
  | instructionEnd
  | commentStart
  | commentEnd
  | dataStart
  | dataEnd
  | doctypeStart
  | declarationStart
  | referenceStart
  | referenceEnd
  | equals
  | singleQuote
  | doubleQuote
  deriving Repr, DecidableEq

namespace Token

/-- How a token is written. -/
def text : Token → String
  | character c => c.toString
  | tagStart => "<"
  | closingStart => "</"
  | tagEnd => ">"
  | emptyTagEnd => "/>"
  | instructionStart => "<?"
  | instructionEnd => "?>"
  | commentStart => "<!--"
  | commentEnd => "-->"
  | dataStart => "<![CDATA["
  | dataEnd => "]]>"
  | doctypeStart => "<!DOCTYPE"
  | declarationStart => "<!"
  | referenceStart => "&"
  | referenceEnd => ";"
  | equals => "="
  | singleQuote => "'"
  | doubleQuote => "\""

/-- Whether a token is a quote. -/
def isQuote (token : Token) : Bool := token == singleQuote || token == doubleQuote

/-- Whether a token is a blank. -/
def isSpace : Token → Bool
  | character c => Catalogue.isSpace c
  | _ => false

end Token

/-! ## Regions -/

/-- A region of a document, by the marks that count in it. -/
inductive Region where
  | content
  | doctype
  | declaration
  | quoted (quote : Char)
  | comment
  | data
  | instruction
  deriving Repr, DecidableEq

/-- Where in a document a token stands: in which region, and whether a document type is open around
it. -/
structure Context where
  region : Region
  inDoctype : Bool
  deriving Repr, DecidableEq

/-- A token at the front of some characters, where the next one stands, and how many characters
behind the first belong to it. -/
structure Lexeme where
  token : Token
  context : Context
  width : Nat
  deriving Repr, DecidableEq

namespace Context

/-- Where a document begins. -/
def start : Context := ⟨.content, false⟩

/-- What goes on behind markup of its own. -/
def around (context : Context) : Context :=
  { context with region := if context.inDoctype then .doctype else .content }

/-- In another region. -/
def within (context : Context) (region : Region) : Context := { context with region := region }

/-! ## Reading tokens -/

/-- The token that begins with an opening angle bracket. -/
def markup? (context : Context) (after : List Char) : Option Lexeme :=
  if "?".toList.isPrefixOf after then
    some ⟨.instructionStart, context.within .instruction, 1⟩
  else if "/".toList.isPrefixOf after then some ⟨.closingStart, context.around, 1⟩
  else if "!--".toList.isPrefixOf after then
    some ⟨.commentStart, context.within .comment, 3⟩
  else if "![CDATA[".toList.isPrefixOf after then some ⟨.dataStart, context.within .data, 8⟩
  else if "!DOCTYPE".toList.isPrefixOf after then some ⟨.doctypeStart, ⟨.doctype, true⟩, 8⟩
  else
    match after with
    | '!' :: c :: _ =>
        if context.inDoctype && "AEN".toList.contains c then
          some ⟨.declarationStart, context.within .declaration, 1⟩
        else none
    | c :: _ =>
        if isSpace c || isNamePart c || c == ':' then some ⟨.tagStart, context.around, 0⟩
        else none
    | [] => none

/-- The token that begins with `c` in text and tags. -/
def contentLexeme? (context : Context) (c : Char) (after : List Char) : Option Lexeme :=
  match c with
  | '<' => context.markup? after
  | '>' => some ⟨.tagEnd, context, 0⟩
  | '/' =>
      if after.head? = some '>' then some ⟨.emptyTagEnd, context.around, 1⟩
      else some ⟨.character '/', context.around, 0⟩
  | ']' =>
      if "]>".toList.isPrefixOf after then some ⟨.dataEnd, context.around, 2⟩
      else some ⟨.character ']', context, 0⟩
  | '=' => some ⟨.equals, context, 0⟩
  | '\'' => some ⟨.singleQuote, context, 0⟩
  | '"' => some ⟨.doubleQuote, context, 0⟩
  | '&' => some ⟨.referenceStart, context, 0⟩
  | ';' => some ⟨.referenceEnd, context, 0⟩
  | c => some ⟨.character c, context, 0⟩

/-- The token that begins with `c` in a document type. -/
def doctypeLexeme? (context : Context) (c : Char) (after : List Char) : Option Lexeme :=
  match c with
  | '<' => context.markup? after
  | '>' => some ⟨.tagEnd, .start, 0⟩
  | '\'' => some ⟨.singleQuote, context, 0⟩
  | '"' => some ⟨.doubleQuote, context, 0⟩
  | '&' => some ⟨.referenceStart, context, 0⟩
  | ';' => some ⟨.referenceEnd, context, 0⟩
  | c => some ⟨.character c, context, 0⟩

/-- The token that begins with `c` in a declaration of a document type. -/
def declarationLexeme? (context : Context) (c : Char) : Option Lexeme :=
  match c with
  | '<' => none
  | '>' => some ⟨.tagEnd, context.around, 0⟩
  | '\'' => some ⟨.singleQuote, context.within (.quoted '\''), 0⟩
  | '"' => some ⟨.doubleQuote, context.within (.quoted '"'), 0⟩
  | '&' => some ⟨.referenceStart, context, 0⟩
  | ';' => some ⟨.referenceEnd, context, 0⟩
  | c => some ⟨.character c, context, 0⟩

/-- The token that begins with `c` between quotes in a declaration. -/
def quotedLexeme (context : Context) (quote c : Char) : Lexeme :=
  if c = quote then
    ⟨if c = '"' then .doubleQuote else .singleQuote, context.within .declaration, 0⟩
  else ⟨.character c, context, 0⟩

/-- The token that begins with `c` in a comment; two hyphens have to end it. -/
def commentLexeme? (context : Context) (c : Char) (after : List Char) : Option Lexeme :=
  if "--".toList.isPrefixOf (c :: after) then
    if "->".toList.isPrefixOf after then some ⟨.commentEnd, context.around, 2⟩ else none
  else some ⟨.character c, context, 0⟩

/-- The token that begins with `c` in character data. -/
def dataLexeme (context : Context) (c : Char) (after : List Char) : Lexeme :=
  if "]]>".toList.isPrefixOf (c :: after) then ⟨.dataEnd, context.within .content, 2⟩
  else ⟨.character c, context, 0⟩

/-- The token that begins with `c` in an instruction; marks of one character count there, and no
other region begins. -/
def instructionLexeme (context : Context) (c : Char) (after : List Char) : Lexeme :=
  match c with
  | '?' =>
      if after.head? = some '>' then ⟨.instructionEnd, context.around, 1⟩
      else ⟨.character '?', context, 0⟩
  | '<' => ⟨.tagStart, context, 0⟩
  | '>' => ⟨.tagEnd, context, 0⟩
  | '=' => ⟨.equals, context, 0⟩
  | '\'' => ⟨.singleQuote, context, 0⟩
  | '"' => ⟨.doubleQuote, context, 0⟩
  | '&' => ⟨.referenceStart, context, 0⟩
  | ';' => ⟨.referenceEnd, context, 0⟩
  | c => ⟨.character c, context, 0⟩

/-- The token that begins with `c`. -/
def lexeme? (context : Context) (c : Char) (after : List Char) : Option Lexeme :=
  match context.region with
  | .content => context.contentLexeme? c after
  | .doctype => context.doctypeLexeme? c after
  | .declaration => context.declarationLexeme? c
  | .quoted quote => some (context.quotedLexeme quote c)
  | .comment => context.commentLexeme? c after
  | .data => some (context.dataLexeme c after)
  | .instruction => some (context.instructionLexeme c after)

end Context

end SqlTemplate.Catalogue
