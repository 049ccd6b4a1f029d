import SqlTemplate.Fault
import SqlTemplate.Text.Marker
import SqlTemplate.Text.Spacing

/-!
# Text nodes

A text node is statement text in which every marker of a bound value has become a question
mark.  It keeps the names of the bound values in their order, and whether values are spliced into
the text when it is rendered.

`TextNode.flowing` makes a node from text whose spacing carries no meaning, `TextNode.verbatim` one
from text that is kept as it is between its ends.  A marker without a name is a fault.
-/

namespace SqlTemplate

set_option autoImplicit false

/-- A piece of statement text. -/
structure TextNode where
  raw : String
  sql : String
  parameters : List String
  isSpliced : Bool
  deriving Repr, DecidableEq

namespace TextNode

/-- The character that stands for a bound value. -/
def placeholder : Char := '?'

/-- Statement text with a question mark for each marker of a bound value. -/
def withPlaceholders (pieces : List Text.Piece) : List Char :=
  pieces.map fun
    | .char c => c
    | .marker _ => placeholder

/-- The names of the bound values. -/
def boundNames (pieces : List Text.Piece) : List (List Char) :=
  pieces.filterMap fun
    | .char _ => none
    | .marker inside => some (Text.markedName inside)

/-- Statement text with question marks, and the names of the bound values. -/
def extract (text : String) : Except ConfigFault (String × List String) :=
  let pieces := Text.pieces .bound text.toList
  let names := boundNames pieces
  if names.any List.isEmpty then .error (.emptyPlaceholder text)
  else .ok (.ofList (withPlaceholders pieces), names.map String.ofList)

/-- The node of a text that is taken as it is. -/
def ofRaw (raw : String) : Except ConfigFault TextNode :=
  (extract raw).map fun (sql, parameters) => ⟨raw, sql, parameters, Text.hasMarker .spliced raw⟩

/-- The node of a text whose spacing is made uniform. -/
def flowing (text : String) : Except ConfigFault TextNode := ofRaw (Text.uniform text)

/-- The node of a text that only loses the blanks at its ends. -/
def verbatim (text : String) : Except ConfigFault TextNode := ofRaw (Text.trimmed text)

end TextNode

end SqlTemplate
