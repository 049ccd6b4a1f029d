import SqlTemplate.Text.Split

/-!
# Paths of files

A path is written as parts with slashes between; it is absolute if it starts with a slash.  Joining
a path to a directory changes nothing in either of them, so a path keeps the look in which it was
written; only `canonicalText` writes a path without detours.
-/

namespace SqlTemplate.Files

set_option autoImplicit false

/-- Whether a path starts at the root. -/
def isAbsolute (path : String) : Bool := path.toList.head? == some '/'

/-- A path below a directory; an absolute path stays as it is. -/
def join (directory path : String) : String :=
  if isAbsolute path || directory.isEmpty then path
  else if directory.toList.getLast? == some '/' then directory ++ path
  else directory ++ "/" ++ path

/-- The parts of a path between its slashes. -/
def parts (path : String) : List String := (Text.splitOn '/' path.toList).map String.ofList

/-- The text of a path from the root through the given names. -/
def canonicalText (names : List String) : String := "/" ++ "/".intercalate names

end SqlTemplate.Files
