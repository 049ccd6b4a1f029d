import SqlTemplate.Catalogue.Reading
import SqlTemplate.Catalogue.Scan
import SqlTemplate.Files.Tree
import SqlTemplate.Mapper.Reader
import SqlTemplate.Statement.Registry

/-!
# Loading

A document that is a mapper is read and its statements are registered.  A document that is a
catalogue stands for the documents that it names, and these are loaded in its place, in their
order, before anything that comes after it.  A file may be reached once only, and the first fault
ends the loading; what was registered before it stays.

Loading ends because every step reads a file that was not read before.
-/

namespace SqlTemplate

set_option autoImplicit false

/-- How documents are loaded: the directory below which resources are looked for, if it is not that
of the document that names them, and how deep references may go. -/
structure LoadSettings where
  baseDirectory : Option String := none
  depth : Nat := Mapper.defaultDepth
  deriving Repr, DecidableEq

/-- What loading leaves behind: the registry, and the number of statements or the fault. -/
structure Loaded where
  registry : Registry
  outcome : Except LoadError Nat

/-! ## Files that were not visited -/

namespace FileTree

/-- The files that were not visited. -/
def unvisited (tree : FileTree) (visited : List (List String)) : List (List String × List UInt8) :=
  tree.files.filter fun (file, _) => !visited.contains file

/-- A file that can be read is one of the files. -/
theorem mem_of_read {tree : FileTree} {place : List String} {content : List UInt8}
    (readable : tree.read place = .ok content) : (place, content) ∈ tree.files := by
  simp only [read] at readable
  split at readable
  · rename_i found present
    cases readable
    have ⟨front, back, split, _⟩ := List.lookup_eq_some_iff.mp present
    simp [split]
  · contradiction

/-- Reading a file for the first time leaves fewer files to visit. -/
theorem unvisited_length_lt {tree : FileTree} {visited : List (List String)}
    {place : List String} {content : List UInt8} (fresh : place ∉ visited)
    (readable : tree.read place = .ok content) :
    (tree.unvisited (place :: visited)).length < (tree.unvisited visited).length := by
  have again : tree.unvisited (place :: visited)
      = (tree.unvisited visited).filter fun (file, _) => file != place := by
    simp only [unvisited, List.filter_filter]
    congr 1
    funext (file, _)
    by_cases same : file = place <;> simp [same]
  rw [again, List.length_filter_lt_length_iff_exists]
  refine ⟨(place, content), ?_, by simp⟩
  simpa [unvisited, fresh] using mem_of_read readable

end FileTree

/-! ## Documents -/

/-- A document: where it comes from, the directory of its resources, and its bytes. -/
structure Source where
  location : String
  directory : String
  content : List UInt8

/-- What a document leads to: the registry with its statements and their number, or the paths that
it names. -/
structure Contribution where
  registry : Registry
  count : Nat
  paths : List String

namespace Source

/-- Loads one document. -/
def contribute (source : Source) (settings : LoadSettings) (registry : Registry) :
    Except LoadError Contribution := do
  match ← Catalogue.scan source.location (Catalogue.events source.content) with
  | .mapper =>
      let mapper ← Mapper.read source.location settings.depth source.content
      let registry ← (registry.registerAll mapper.statements).mapError LoadError.config
      .ok ⟨registry, mapper.statements.length, []⟩
  | .resources resources => .ok ⟨registry, 0, resources.map (Files.join source.directory)⟩

end Source

/-- A file that was opened for the first time: its canonical place, and the document in it. -/
structure OpenFile (tree : FileTree) (visited : List (List String)) where
  place : List String
  source : Source
  fresh : place ∉ visited
  readable : tree.read place = .ok source.content

namespace LoadSettings

/-- Opens the file to which a path leads, unless it was visited before. -/
def openFile (settings : LoadSettings) (tree : FileTree) (visited : List (List String))
    (path : String) : Except LoadError (OpenFile tree visited) :=
  match tree.canonical path with
  | .error cause => .error (.unreadable path cause)
  | .ok place =>
      if fresh : place ∉ visited then
        match readable : tree.read place with
        | .error cause => .error (.unreadable path cause)
        | .ok content =>
            let directory :=
              settings.baseDirectory.getD (Files.canonicalText place.dropLast)
            .ok ⟨place, ⟨path, directory, content⟩, fresh, readable⟩
      else .error (.config (.includedTwice path))

/-! ## Loading -/

/-- Loads the documents to which paths lead, one after the other; the documents named by one are
loaded before the paths behind it. -/
def loadPaths (settings : LoadSettings) (tree : FileTree) (visited : List (List String))
    (registry : Registry) (count : Nat) : List String → Loaded
  | [] => ⟨registry, .ok count⟩
  | path :: paths =>
      match settings.openFile tree visited path with
      | .error cause => ⟨registry, .error cause⟩
      | .ok file =>
          match file.source.contribute settings registry with
          | .error cause => ⟨registry, .error cause⟩
          | .ok part =>
              settings.loadPaths tree (file.place :: visited) part.registry (count + part.count)
                (part.paths ++ paths)
termination_by (tree.unvisited visited).length
decreasing_by exact FileTree.unvisited_length_lt file.fresh file.readable

/-- Loads the document to which a path leads. -/
def load (settings : LoadSettings) (tree : FileTree) (registry : Registry) (path : String) :
    Loaded :=
  settings.loadPaths tree [] registry 0 [path]

/-- Loads a document from memory; its resources are looked for below the base directory, or where
relative paths start. -/
def loadText (settings : LoadSettings) (tree : FileTree) (registry : Registry)
    (content : List UInt8) : Loaded :=
  let source : Source := ⟨Mapper.memory, settings.baseDirectory.getD "", content⟩
  match source.contribute settings registry with
  | .error cause => ⟨registry, .error cause⟩
  | .ok part => settings.loadPaths tree [] part.registry part.count part.paths

/-- The registry of the document to which a path leads. -/
def build (settings : LoadSettings) (tree : FileTree) (path : String) :
    Except LoadError Registry :=
  let loaded := settings.load tree .empty path
  loaded.outcome.map fun _ => loaded.registry

end LoadSettings

end SqlTemplate
