import SqlTemplate.Text.Blank

/-!
# Markers in statement text

Statement text names parameters in two ways.  The marker `#{name}` stands for a bound value and the
marker `${name}` for text that is spliced in.  A marker runs from its sign and opening brace to the
first closing brace, whatever lies between; without a closing brace there is no marker.  Markers
are found from left to right and do not overlap.

Inside the braces the name ends at the first comma or colon, so that a type may follow it.
-/

namespace SqlTemplate.Text

set_option autoImplicit false

/-- The two kinds of markers. -/
inductive Marker where
  | bound
  | spliced
  deriving DecidableEq

/-- The sign in front of the opening brace. -/
def Marker.sign : Marker → Char
  | .bound => '#'
  | .spliced => '$'

/-- A part of statement text: a character that belongs to no marker, or what a marker encloses. -/
inductive Piece where
  | char (c : Char)
  | marker (inside : List Char)
  deriving DecidableEq

/-- Whether a marker starts with this character, given the characters after it. -/
def Marker.startsAt (marker : Marker) (c : Char) : List Char → Bool
  | '{' :: after => c == marker.sign && after.contains '}'
  | _ => false

/-- The parts of statement text, told apart by one kind of markers.  The flag says whether the
characters still belong to the marker last found. -/
def piecesFrom (marker : Marker) : Bool → List Char → List Piece
  | _, [] => []
  | true, c :: after => piecesFrom marker (c != '}') after
  | false, c :: after =>
      if marker.startsAt c after then
        .marker (after.tail.takeWhile (· != '}')) :: piecesFrom marker true after
      else .char c :: piecesFrom marker false after

/-- The parts of statement text, told apart by one kind of markers. -/
def pieces (marker : Marker) (chars : List Char) : List Piece := piecesFrom marker false chars

/-- Whether a text has a marker of the kind. -/
def hasMarker (marker : Marker) (text : String) : Bool :=
  (pieces marker text.toList).any fun
    | .marker _ => true
    | .char _ => false

/-- The name that a marker encloses. -/
def markedName (inside : List Char) : List Char :=
  trim (inside.takeWhile fun c => c != ',' && c != ':')

/-- The name that a marker with this text between its braces encloses. -/
def parameterName (inside : String) : String := .ofList (markedName inside.toList)

end SqlTemplate.Text
