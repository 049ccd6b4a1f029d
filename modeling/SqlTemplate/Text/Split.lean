/-!
# Splitting sequences

Two ways to take a sequence apart: into the parts between all occurrences of a separator, and into
what precedes the first occurrence of a mark.
-/

namespace SqlTemplate.Text

set_option autoImplicit false

variable {α : Type} [BEq α]

/-- The parts of a sequence between the occurrences of a separator. -/
def splitOn (separator : α) : List α → List (List α)
  | [] => [[]]
  | first :: rest =>
      if first == separator then [] :: splitOn separator rest
      else
        match splitOn separator rest with
        | [] => [[first]]
        | part :: parts => (first :: part) :: parts

/-- What precedes the first occurrence of a mark in a sequence, if the mark occurs. -/
def before? (mark : List α) : List α → Option (List α)
  | [] => if mark.isEmpty then some [] else none
  | first :: rest =>
      if mark.isPrefixOf (first :: rest) then some [] else (before? mark rest).map (first :: ·)

end SqlTemplate.Text
