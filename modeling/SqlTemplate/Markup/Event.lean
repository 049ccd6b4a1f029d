import SqlTemplate.Markup.Tag
import SqlTemplate.Text.Split

/-!
# Events of a mapper document

A document is a sequence of events: tags that open, tags of elements without content, tags that
close, text and character data.  Comments, processing instructions and document types are no
events. The sequence ends with the document, or with a fault from which on nothing can be read.

`eventsFrom` reads the events with a list of the names that are open, because a closing tag has to
carry the name of the innermost one.  Text is trimmed before its references are replaced, and text
of blanks only is no event.
-/

namespace SqlTemplate.Markup

set_option autoImplicit false

/-- An event of a mapper document. -/
inductive Event where
  | start (tag : Tag)
  | empty (tag : Tag)
  | stop
  | text (content : List UInt8)
  | data (content : List UInt8)
  | fault
  deriving Repr, DecidableEq

/-! ## What follows an opening angle bracket -/

/-- What follows an opening angle bracket. -/
inductive Item where
  | start (tag : Tag)
  | empty (tag : Tag)
  | stop (name : List UInt8)
  | data (content : List UInt8)
  | skipped
  | malformed
  deriving Repr, DecidableEq

/-- The content of a start tag: everything up to the closing angle bracket outside of quotes. -/
def tagContent : Option UInt8 → List UInt8 → List UInt8
  | _, [] => []
  | some quote, b :: rest => b :: tagContent (if b = quote then none else some quote) rest
  | none, b :: rest =>
      if b = byte '>' then []
      else b :: tagContent (if isQuote b then some b else none) rest

/-- The tag with this content.  A slash at the very end says that the element has no content. -/
def tagItem (content : List UInt8) : Item :=
  let isEmpty := content.getLast? = some (byte '/')
  let content := if isEmpty then content.dropLast else content
  let tag : Tag := ⟨content.takeWhile (!isSpace ·), content.dropWhile (!isSpace ·)⟩
  if isEmpty then .empty tag else .start tag

/-- The name in a closing tag: blanks behind it do not count, unless there is nothing else. -/
def stopName (content : List UInt8) : List UInt8 :=
  let name := trimEnd isAsciiBlank content
  if name.isEmpty then content else name

/-- The content of a document type: it ends where a closing angle bracket has no partner inside. -/
def doctypeContent? : Nat → List UInt8 → Option (List UInt8)
  | _, [] => none
  | depth, b :: rest =>
      if b = byte '>' then
        match depth with
        | 0 => some []
        | depth + 1 => (doctypeContent? depth rest).map (b :: ·)
      else (doctypeContent? (if b = byte '<' then depth + 1 else depth) rest).map (b :: ·)

/-- Whether the content of a document type has the right start and something after it. -/
def isDoctype (content : List UInt8) : Bool :=
  beginsWith (bytes "doctype") content && !(content.drop 7).all isSpace

/-- What follows an opening angle bracket and an exclamation mark, and how long it is. -/
def declarationItem (content : List UInt8) : Item × Nat :=
  if (bytes "--").isPrefixOf content then
    match Text.before? (bytes "-->") (content.drop 2) with
    | some comment => (.skipped, comment.length + 5)
    | none => (.malformed, 0)
  else if beginsWith (bytes "[cdata[") content then
    match Text.before? (bytes "]]>") (content.drop 7) with
    | some data => (.data data, data.length + 10)
    | none => (.malformed, 0)
  else if beginsWith (bytes "d") content then
    match doctypeContent? 0 content with
    | some doctype => (if isDoctype doctype then .skipped else .malformed, doctype.length + 1)
    | none => (.malformed, 0)
  else (.malformed, 0)

/-- The part of bytes before the next closing angle bracket. -/
def uptoAngle (content : List UInt8) : List UInt8 := content.takeWhile (· != byte '>')

/-- Whether a processing instruction is complete, given all that stands between its angle brackets.
The question mark at the end is another one than that at the start. -/
def isInstruction (content : List UInt8) : Bool :=
  2 < content.length && content.getLast? == some (byte '?')

/-- What follows an opening angle bracket, and how long it is.  At the end of the document a tag
and a processing instruction end as well. -/
def itemAt : List UInt8 → Item × Nat
  | [] => (.skipped, 0)
  | b :: rest =>
      if b = byte '!' then
        let (item, width) := declarationItem rest
        (item, width + 1)
      else if b = byte '?' then
        let content := uptoAngle (b :: rest)
        (if isInstruction content then .skipped else .malformed, content.length + 1)
      else if b = byte '/' then
        let content := uptoAngle rest
        (.stop (stopName content), content.length + 2)
      else
        let content := tagContent none (b :: rest)
        (tagItem content, content.length + 1)

/-! ## Events -/

/-- The events of the rest of a document, given the names that are open. -/
def eventsFrom (opened : List (List UInt8)) : List UInt8 → List Event
  | [] => []
  | b :: rest =>
      if b = byte '<' then
        let (item, width) := itemAt rest
        let events := fun opened => eventsFrom opened (rest.drop width)
        match item with
        | .start tag => .start tag :: events (tag.name :: opened)
        | .empty tag => .empty tag :: events opened
        | .stop name =>
            match opened with
            | [] => [.fault]
            | innermost :: outer => if name = innermost then .stop :: events outer else [.fault]
        | .data content => .data content :: events opened
        | .skipped => events opened
        | .malformed => [.fault]
      else
        let content := b :: rest.takeWhile (· != byte '<')
        let events := eventsFrom opened (rest.drop (content.length - 1))
        if (trim content).isEmpty then events else .text (trim content) :: events
termination_by content => content.length
decreasing_by all_goals simp only [List.length_drop, List.length_cons]; omega

/-- The mark of UTF-8 that may stand at the start of a document. -/
def byteOrderMark : List UInt8 := [0xEF, 0xBB, 0xBF]

/-- A document without a mark of UTF-8 at its start. -/
def withoutMark (document : List UInt8) : List UInt8 :=
  (byteOrderMark.isPrefixOf? document).getD document

/-- The events of a document. -/
def events (document : List UInt8) : List Event := eventsFrom [] (withoutMark document)

end SqlTemplate.Markup
