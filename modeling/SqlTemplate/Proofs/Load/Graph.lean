import SqlTemplate.Load
import SqlTemplate.Proofs.Load.Address
import SqlTemplate.Proofs.Outcome
import SqlTemplate.Proofs.Statement.Registry

/-!
# The graph of resources

Loading starts at an origin, a file or a document in memory.  An origin is read to a mapper, or to a
catalogue that names further origins (`LoadSettings.reading`).  This does not depend on what was
loaded before, and neither does the tree that it spans: `LoadSettings.follow` leads from an origin
along an address to another one.

Loading a document is reading it and registering its statements (`Source.contribute_eq`).  It stops
at a document in three cases only (`Stops`): the file was visited before, the document cannot be
read, or its statements cannot be registered.
-/

namespace SqlTemplate

set_option autoImplicit false

open Outcome

/-! ## Reading documents -/

/-- Where a document comes from. -/
inductive Origin where
  | file (path : String)
  | memory (content : List UInt8)

/-- What a document says: it is a mapper, or a catalogue of paths. -/
inductive Reading where
  | mapper (content : Mapper)
  | catalogue (paths : List String)

namespace Reading

/-- The statements that a document brings. -/
def statements : Reading → List Statement
  | .mapper content => content.statements
  | .catalogue _ => []

/-- The paths that a document names. -/
def paths : Reading → List String
  | .mapper _ => []
  | .catalogue paths => paths

/-- The mapper that a document is. -/
def mapper? : Reading → Option Mapper
  | .mapper content => some content
  | .catalogue _ => none

/-- The origins that a document names. -/
def named (reading : Reading) : List Origin := reading.paths.map .file

end Reading

/-- Reads a document, to whatever depth references may go. -/
def Source.reading (source : Source) (depth : Nat) : Except LoadError Reading := do
  match ← Catalogue.scan source.location (Catalogue.events source.content) with
  | .mapper => (Mapper.read source.location depth source.content).map .mapper
  | .resources resources => .ok (.catalogue (resources.map (Files.join source.directory)))

/-- The place of the file that an origin leads to. -/
def FileTree.place? (tree : FileTree) : Origin → Option (List String)
  | .file path => (tree.canonical path).toOption
  | .memory _ => none

theorem FileTree.place?_eq_some_iff {tree : FileTree} {path : String} {place : List String} :
    tree.place? (.file path) = some place ↔ tree.canonical path = .ok place :=
  toOption_eq_some_iff

/-- Whether two origins do not lead to the same file. -/
def FileTree.Apart (tree : FileTree) (left right : Origin) : Prop :=
  ∀ place, tree.place? left = some place → tree.place? right ≠ some place

theorem FileTree.Apart.symm {tree : FileTree} {left right : Origin}
    (apart : tree.Apart left right) : tree.Apart right left :=
  fun place here there => apart place there here

namespace LoadSettings

variable (settings : LoadSettings) (tree : FileTree)

/-- The document of an origin. -/
def source : Origin → Except LoadError Source
  | .file path => do
      let place ← (tree.canonical path).mapError (.unreadable path)
      let content ← (tree.read place).mapError (.unreadable path)
      .ok ⟨path, settings.baseDirectory.getD (Files.canonicalText place.dropLast), content⟩
  | .memory content => .ok ⟨Mapper.memory, settings.baseDirectory.getD "", content⟩

/-- Reads the document of an origin. -/
def reading (origin : Origin) : Except LoadError Reading := do
  let source ← settings.source tree origin
  source.reading settings.depth

/-- Loads what an origin leads to. -/
def loadFrom (registry : Registry) : Origin → Loaded
  | .file path => settings.load tree registry path
  | .memory content => settings.loadText tree registry content

/-- Loading what a path leads to. -/
theorem load_eq (registry : Registry) (path : String) :
    settings.load tree registry path = settings.loadFrom tree registry (.file path) := rfl

/-! ## Following addresses -/

/-- The origins that the document of an origin names; a document that cannot be read names none. -/
def named (origin : Origin) : List Origin :=
  match settings.reading tree origin with
  | .ok reading => reading.named
  | .error _ => []

/-- The origin at an address, seen from another one. -/
def follow : Origin → Address → Option Origin
  | origin, [] => some origin
  | origin, index :: address =>
      (settings.named tree origin)[index]?.bind fun next => follow next address

/-- The mapper at an address. -/
def mapperAt? (entry : Origin) (address : Address) : Option Mapper :=
  (settings.follow tree entry address).bind fun origin =>
    (settings.reading tree origin).toOption.bind Reading.mapper?

variable {settings tree}

theorem follow_append (entry : Origin) (address more : Address) :
    settings.follow tree entry (address ++ more) =
      (settings.follow tree entry address).bind fun origin => settings.follow tree origin more := by
  induction address generalizing entry with
  | nil => rfl
  | cons index address ih =>
      rw [List.cons_append, follow, follow, Option.bind_assoc]
      exact congrArg _ (funext fun next => ih next)

theorem named_eq {origin : Origin} {reading : Reading}
    (reads : settings.reading tree origin = .ok reading) :
    settings.named tree origin = reading.named := by
  rw [named, reads]

/-- An origin below another one is named by the document there. -/
theorem follow_concat_eq_some_iff {entry next : Origin} {address : Address} {index : Nat} :
    settings.follow tree entry (address ++ [index]) = some next ↔
      ∃ origin, settings.follow tree entry address = some origin ∧
        (settings.named tree origin)[index]? = some next := by
  rw [follow_append, Option.bind_eq_some_iff]
  simp only [follow, Option.bind_fun_some]

theorem mapperAt?_eq_some_iff {entry : Origin} {address : Address} {mapper : Mapper} :
    settings.mapperAt? tree entry address = some mapper ↔
      ∃ origin, settings.follow tree entry address = some origin ∧
        settings.reading tree origin = .ok (.mapper mapper) := by
  rw [mapperAt?, Option.bind_eq_some_iff]
  refine exists_congr fun origin => and_congr_right fun _ => ?_
  cases settings.reading tree origin with
  | error cause => simp [Except.toOption]
  | ok reading => cases reading <;> simp [Except.toOption, Reading.mapper?]

end LoadSettings

/-! ## Loading one document -/

/-- No statements change no registry. -/
theorem Registry.registerAll_nil (registry : Registry) : registry.registerAll [] = .ok registry :=
  registerAll_eq_ok_iff.mpr
    ⟨⟨List.nodup_nil, fun _ listed => nomatch listed⟩, (List.append_nil _).symm⟩

/-- Loading a document is reading it and registering its statements. -/
theorem Source.contribute_eq (source : Source) (settings : LoadSettings) (registry : Registry) :
    source.contribute settings registry = (do
      let reading ← source.reading settings.depth
      let more ← (registry.registerAll reading.statements).mapError LoadError.config
      .ok ⟨more, reading.statements.length, reading.paths⟩) := by
  rw [contribute, reading]
  cases Catalogue.scan source.location (Catalogue.events source.content) with
  | error cause => rfl
  | ok document =>
      cases document with
      | mapper =>
          show Mapper.read source.location settings.depth source.content >>= _ =
            (Mapper.read source.location settings.depth source.content).map Reading.mapper >>= _
          cases Mapper.read source.location settings.depth source.content with
          | error cause => rfl
          | ok mapper => rfl
      | resources resources =>
          have nothing : (registry.registerAll []).mapError LoadError.config = .ok registry := by
            rw [registry.registerAll_nil]
            rfl
          exact (congrArg (fun outcome : Except LoadError Registry => outcome >>= fun more =>
            Except.ok (Contribution.mk more 0 (resources.map (Files.join source.directory))))
            nothing).symm

/-- Why loading stops at an origin: its file was visited before, its document cannot be read, or
the statements of the document cannot be registered. -/
inductive Stops (settings : LoadSettings) (tree : FileTree) (visited : List (List String))
    (registry : Registry) : Origin → LoadError → Prop
  | again {path : String} {place : List String} :
      tree.canonical path = .ok place → place ∈ visited →
        Stops settings tree visited registry (.file path) (.config (.includedTwice path))
  | unread {origin : Origin} {cause : LoadError} :
      settings.reading tree origin = .error cause →
        Stops settings tree visited registry origin cause
  | taken {origin : Origin} {reading : Reading} {fault : ConfigFault} :
      settings.reading tree origin = .ok reading →
        registry.registerAll reading.statements = .error fault →
          Stops settings tree visited registry origin (.config fault)

section

variable {settings : LoadSettings} {tree : FileTree} {visited : List (List String)}
  {registry : Registry}

/-- A path that cannot be opened stops the loading. -/
theorem LoadSettings.stops_of_openFile {path : String} {cause : LoadError}
    (fails : settings.openFile tree visited path = .error cause) :
    Stops settings tree visited registry (.file path) cause := by
  rw [openFile] at fails
  split at fails
  · rename_i fault missing
    cases fails
    refine .unread ?_
    rw [reading, source, missing]
    rfl
  · rename_i place found
    split at fails
    · split at fails
      · rename_i fault unreadable
        cases fails
        refine .unread ?_
        rw [reading, source, found]
        show ((tree.read place).mapError (LoadError.unreadable path) >>= _) >>= _ = _
        rw [unreadable]
        rfl
      · cases fails
    · rename_i known
      cases fails
      exact .again found (Decidable.not_not.mp known)

/-- A path that is opened leads to the document of its origin. -/
theorem LoadSettings.source_of_openFile {path : String} {file : OpenFile tree visited}
    (opens : settings.openFile tree visited path = .ok file) :
    tree.canonical path = .ok file.place ∧ settings.source tree (.file path) = .ok file.source := by
  rw [openFile] at opens
  split at opens
  · cases opens
  · rename_i place found
    split at opens
    · split at opens
      · cases opens
      · rename_i content readable
        have document : settings.source tree (.file path) = .ok ⟨path,
            settings.baseDirectory.getD (Files.canonicalText place.dropLast), content⟩ := by
          rw [source, found]
          show (tree.read place).mapError (LoadError.unreadable path) >>= _ = _
          rw [readable]
          rfl
        cases opens
        exact ⟨found, document⟩
    · cases opens

/-- A document that contributes nothing stops the loading. -/
theorem Source.stops_of_contribute {origin : Origin} {source : Source} {cause : LoadError}
    (opens : settings.source tree origin = .ok source)
    (fails : source.contribute settings registry = .error cause) :
    Stops settings tree visited registry origin cause := by
  have reads : settings.reading tree origin = source.reading settings.depth := by
    rw [LoadSettings.reading, opens]
    rfl
  rw [contribute_eq, ← reads] at fails
  cases readOutcome : settings.reading tree origin with
  | error other =>
      rw [readOutcome] at fails
      cases fails
      exact .unread readOutcome
  | ok reading =>
      rw [readOutcome] at fails
      change (registry.registerAll reading.statements).mapError LoadError.config >>= _ = _ at fails
      cases registers : registry.registerAll reading.statements with
      | error fault =>
          rw [registers] at fails
          cases fails
          exact .taken readOutcome registers
      | ok more =>
          rw [registers] at fails
          cases fails

/-- A document that contributes is read, and its statements are registered. -/
theorem Source.reading_of_contribute {origin : Origin} {source : Source} {part : Contribution}
    (opens : settings.source tree origin = .ok source)
    (contributes : source.contribute settings registry = .ok part) :
    ∃ reading, settings.reading tree origin = .ok reading ∧
      registry.registerAll reading.statements = .ok part.registry ∧
        part.count = reading.statements.length ∧ part.paths = reading.paths := by
  rw [contribute_eq] at contributes
  obtain ⟨reading, reads, contributes⟩ := bind_eq_ok_iff.mp contributes
  obtain ⟨more, registers, contributes⟩ := bind_eq_ok_iff.mp contributes
  cases contributes
  refine ⟨reading, ?_, mapError_eq_ok_iff.mp registers, rfl, rfl⟩
  rw [LoadSettings.reading, opens]
  exact reads

end

end SqlTemplate
