import SqlTemplate.Files.Path
import SqlTemplate.LoadError

/-!
# Trees of files

A file tree holds the contents of files under the names that lead to them from the root, and the
directory from which relative paths start.  A directory is there if a file is below it, or if it is
above the starting directory.  There are no links, so every file and directory has one canonical
path.

A path is walked part by part.  Every part but the last has to lead to a directory, also where the
walk goes back up, and every name has to be there.
-/

namespace SqlTemplate

set_option autoImplicit false

/-- Files by the names that lead to them, and the directory where relative paths start. -/
structure FileTree where
  files : List (List String × List UInt8)
  start : List String

namespace FileTree

/-- Whether a directory is there. -/
def isDirectory (tree : FileTree) (place : List String) : Bool :=
  place.isPrefixOf tree.start
    || tree.files.any fun (file, _) => place.isPrefixOf file && place.length < file.length

/-- Whether a file is there. -/
def isFile (tree : FileTree) (place : List String) : Bool := (tree.files.lookup place).isSome

/-- Where one part of a path leads. -/
def enter (tree : FileTree) (place : List String) (part : String) :
    Except FileFault (List String) :=
  if !tree.isDirectory place then .error .notADirectory
  else if part = "" ∨ part = "." then .ok place
  else if part = ".." then .ok place.dropLast
  else if tree.isDirectory (place ++ [part]) || tree.isFile (place ++ [part]) then
    .ok (place ++ [part])
  else .error .notFound

/-- The canonical place to which a path leads. -/
def canonical (tree : FileTree) (path : String) : Except FileFault (List String) :=
  if path.isEmpty then .error .notFound
  else (Files.parts path).foldlM tree.enter (if Files.isAbsolute path then [] else tree.start)

/-- The content of the file at a canonical place. -/
def read (tree : FileTree) (place : List String) : Except FileFault (List UInt8) :=
  match tree.files.lookup place with
  | some content => .ok content
  | none => .error (if tree.isDirectory place then .isADirectory else .notFound)

end FileTree

end SqlTemplate
