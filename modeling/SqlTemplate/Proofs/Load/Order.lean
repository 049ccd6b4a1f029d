import SqlTemplate.Proofs.Catalogue.Entries
import SqlTemplate.Proofs.Load.Success

/-!
# The order of entries

The entries of catalogues can be put in another order.  The same origins are reached then, the same
files are mappers, and no file is reached by two references in one order exactly if this is so in
the other one.  So a load succeeds in both orders or in none, and adds the same statements.

A load that fails may leave other statements behind in another order, since it stops at another
document.
-/

namespace SqlTemplate

set_option autoImplicit false

open Outcome

/-! ## Rearranged trees -/

/-- Whether two documents are equal, or catalogues with the same entries in another order. -/
def SameContent (left right : List UInt8) : Prop :=
  left = right ∨ Catalogue.Rearranged (Catalogue.events left) (Catalogue.events right)

theorem SameContent.symm {left right : List UInt8} (same : SameContent left right) :
    SameContent right left :=
  same.imp Eq.symm Catalogue.Rearranged.symm

/-- Whether two files have the same name and the same content. -/
def SameFile (left right : List String × List UInt8) : Prop :=
  left.1 = right.1 ∧ SameContent left.2 right.2

/-- Whether two trees are equal except for the order of the entries of catalogues. -/
structure FileTree.Rearranged (left right : FileTree) : Prop where
  start_eq : left.start = right.start
  files : List.Forall₂ SameFile left.files right.files

/-- What can be told from names is the same for the same files. -/
theorem any_eq_of_sameFile {left right : List (List String × List UInt8)}
    (files : List.Forall₂ SameFile left right) (test : List String → Bool) :
    (left.any fun file => test file.1) = right.any fun file => test file.1 := by
  induction files with
  | nil => rfl
  | cons same _ ih => rw [List.any_cons, List.any_cons, same.1, ih]

/-- The same contents are found under a name. -/
theorem lookup_of_sameFile {left right : List (List String × List UInt8)}
    (files : List.Forall₂ SameFile left right) (place : List String) :
    Option.Rel SameContent (left.lookup place) (right.lookup place) := by
  induction files with
  | nil => exact .none
  | @cons one two _ _ same _ ih =>
      obtain ⟨name, content⟩ := one
      obtain ⟨rfl, here⟩ := same
      rw [List.lookup_cons, List.lookup_cons]
      cases place == two.1 with
      | true => exact .some here
      | false => exact ih

namespace FileTree.Rearranged

variable {left right : FileTree}

theorem symm (rearranged : left.Rearranged right) : right.Rearranged left where
  start_eq := rearranged.start_eq.symm
  files := rearranged.files.flip.imp fun _ _ same => ⟨same.1.symm, same.2.symm⟩

theorem isDirectory_eq (rearranged : left.Rearranged right) (place : List String) :
    left.isDirectory place = right.isDirectory place := by
  rw [isDirectory, isDirectory, rearranged.start_eq]
  exact congrArg _ (any_eq_of_sameFile rearranged.files fun file =>
    place.isPrefixOf file && place.length < file.length)

theorem isFile_eq (rearranged : left.Rearranged right) (place : List String) :
    left.isFile place = right.isFile place := by
  have same := lookup_of_sameFile rearranged.files place
  rw [isFile, isFile]
  generalize left.files.lookup place = leftFound, right.files.lookup place = rightFound at same ⊢
  cases same <;> rfl

/-- Paths lead to the same places. -/
theorem canonical_eq (rearranged : left.Rearranged right) (path : String) :
    left.canonical path = right.canonical path := by
  have enters : left.enter = right.enter := by
    funext place part
    simp only [enter, rearranged.isDirectory_eq, rearranged.isFile_eq]
  rw [canonical, canonical, enters, rearranged.start_eq]

theorem place?_eq (rearranged : left.Rearranged right) (origin : Origin) :
    left.place? origin = right.place? origin := by
  cases origin with
  | memory content => rfl
  | file path => rw [place?, place?, rearranged.canonical_eq]

theorem read_related (rearranged : left.Rearranged right) (place : List String) :
    Related (fun _ _ => True) SameContent (left.read place) (right.read place) := by
  have same := lookup_of_sameFile rearranged.files place
  rw [read, read]
  generalize left.files.lookup place = leftFound, right.files.lookup place = rightFound at same ⊢
  cases same with
  | none => exact .fault trivial
  | some same => exact .result same

end FileTree.Rearranged

/-! ## Rearranged documents -/

/-- Whether two documents say the same, except for the order in which a catalogue names paths. -/
inductive SameReading : Reading → Reading → Prop
  | mapper (content : Mapper) : SameReading (.mapper content) (.mapper content)
  | catalogue {left right : List String} :
      left.Perm right → SameReading (.catalogue left) (.catalogue right)

namespace SameReading

theorem refl (reading : Reading) : SameReading reading reading := by
  cases reading with
  | mapper content => exact .mapper content
  | catalogue paths => exact .catalogue (.refl paths)

theorem named_perm {left right : Reading} (same : SameReading left right) :
    left.named.Perm right.named := by
  cases same with
  | mapper content => exact .refl _
  | catalogue perm => exact perm.map Origin.file

end SameReading

/-- Whether two documents are the same at the same location. -/
structure SameSource (left right : Source) : Prop where
  location : left.location = right.location
  directory : left.directory = right.directory
  content : SameContent left.content right.content

/-- The same documents are read alike. -/
theorem SameSource.reading_related {left right : Source} (same : SameSource left right)
    (depth : Nat) :
    Related (fun _ _ => True) SameReading (left.reading depth) (right.reading depth) := by
  obtain ⟨location, directory, content⟩ := left
  obtain ⟨rfl, rfl, rfl | rearranged⟩ := same
  · cases Source.reading _ depth with
    | error cause => exact .fault trivial
    | ok reading => exact .result (.refl reading)
  · have alike := rearranged.scan right.location
    rw [Source.reading, Source.reading]
    generalize Catalogue.scan right.location (Catalogue.events content) = one,
      Catalogue.scan right.location (Catalogue.events right.content) = two at alike ⊢
    cases alike with
    | fault => exact .fault trivial
    | result same =>
        cases same with
        | intro perm => exact .result (.catalogue (perm.map _))

namespace LoadSettings

variable (settings : LoadSettings) {left right : FileTree}

/-- In rearranged trees, the document of an origin is the same. -/
theorem source_related (rearranged : left.Rearranged right) (origin : Origin) :
    Related (fun _ _ => True) SameSource (settings.source left origin)
      (settings.source right origin) := by
  cases origin with
  | memory content => exact .result ⟨rfl, rfl, .inl rfl⟩
  | file path =>
      rw [source, source, rearranged.canonical_eq]
      cases right.canonical path with
      | error fault => exact .fault trivial
      | ok place =>
          have contents : Related (fun _ _ => True) SameContent
              ((left.read place).mapError (LoadError.unreadable path))
              ((right.read place).mapError (LoadError.unreadable path)) :=
            (rearranged.read_related place).mapError fun _ _ _ => trivial
          exact contents.bind fun _ _ same => .result ⟨rfl, rfl, same⟩

theorem reading_related (rearranged : left.Rearranged right) (origin : Origin) :
    Related (fun _ _ => True) SameReading (settings.reading left origin)
      (settings.reading right origin) :=
  (settings.source_related rearranged origin).bind fun _ _ same =>
    same.reading_related settings.depth

/-- In rearranged trees, a document names the same origins in some order. -/
theorem named_perm (rearranged : left.Rearranged right) (origin : Origin) :
    (settings.named left origin).Perm (settings.named right origin) := by
  have related := settings.reading_related rearranged origin
  rw [named, named]
  generalize settings.reading left origin = one, settings.reading right origin = two at related ⊢
  cases related with
  | fault => exact .refl _
  | result same => exact same.named_perm

end LoadSettings

/-! ## The same is reached -/

section

variable {settings : LoadSettings} {left right : FileTree} {entry origin : Origin}

theorem Reached.rearrange (rearranged : left.Rearranged right)
    (reaches : Reached settings left entry origin) : Reached settings right entry origin := by
  induction reaches with
  | entry => exact .entry
  | named _ names ih => exact .named ih ((settings.named_perm rearranged _).mem_iff.mp names)

theorem reading_mapper_of_rearranged (rearranged : left.Rearranged right) {mapper : Mapper}
    (reads : settings.reading left origin = .ok (.mapper mapper)) :
    settings.reading right origin = .ok (.mapper mapper) := by
  have related := settings.reading_related rearranged origin
  rw [reads] at related
  generalize settings.reading right origin = other at related ⊢
  cases related with
  | result same =>
      cases same
      rfl

theorem ReachedMapper.rearrange (rearranged : left.Rearranged right) {place : List String}
    {mapper : Mapper} (reaches : ReachedMapper settings left entry place mapper) :
    ReachedMapper settings right entry place mapper := by
  obtain ⟨origin, reaches, here, reads⟩ := reaches
  exact ⟨origin, reaches.rearrange rearranged, rearranged.place?_eq origin ▸ here,
    reading_mapper_of_rearranged rearranged reads⟩

theorem Brings.rearrange (rearranged : left.Rearranged right) {statement : Statement}
    (brings : Brings settings left entry statement) : Brings settings right entry statement := by
  obtain ⟨origin, mapper, reaches, reads, member⟩ := brings
  exact ⟨origin, mapper, reaches.rearrange rearranged,
    reading_mapper_of_rearranged rearranged reads, member⟩

/-! ## References -/

/-- No file is reached by two references exactly if no document names the file of the entry, the
files that one document names are different, and two documents name different files. -/
theorem oneReference_iff {tree : FileTree} :
    OneReference settings tree entry ↔
      (∀ document, Reached settings tree entry document →
        ∀ next ∈ settings.named tree document, tree.Apart entry next) ∧
      (∀ document, Reached settings tree entry document →
        (settings.named tree document).Pairwise tree.Apart) ∧
      ∀ one two, Reached settings tree entry one → Reached settings tree entry two → one ≠ two →
        ∀ next ∈ settings.named tree one, ∀ other ∈ settings.named tree two,
          tree.Apart next other := by
  constructor
  · intro once
    refine ⟨?_, ?_, ?_⟩
    · intro document reaches next names place here there
      obtain ⟨index, found⟩ := List.mem_iff_getElem?.mp names
      cases once _ _ place (.entry here) (.listed reaches found there)
    · intro document reaches
      rw [List.pairwise_iff_getElem]
      intro first second isFirst isSecond less place here there
      cases once _ _ place (.listed reaches (List.getElem?_eq_getElem isFirst) here)
        (.listed reaches (List.getElem?_eq_getElem isSecond) there)
      exact Nat.lt_irrefl _ less
    · intro one two toOne toTwo different next names other otherNames place here there
      obtain ⟨first, found⟩ := List.mem_iff_getElem?.mp names
      obtain ⟨second, otherFound⟩ := List.mem_iff_getElem?.mp otherNames
      cases once _ _ place (.listed toOne found here) (.listed toTwo otherFound there)
      exact different rfl
  · rintro ⟨entryApart, within, between⟩
    intro one two place toOne toTwo
    cases toOne with
    | entry here =>
        cases toTwo with
        | entry _ => rfl
        | listed reaches found there =>
            exact absurd there (entryApart _ reaches _ (List.mem_of_getElem? found) place here)
    | @listed document next index _ reaches found here =>
        cases toTwo with
        | entry there =>
            exact absurd here (entryApart _ reaches _ (List.mem_of_getElem? found) place there)
        | @listed other otherNext otherIndex _ otherReaches otherFound there =>
            -- Entries of one document are told apart by their positions.
            by_cases same : document = other
            · subst same
              have apart := List.pairwise_iff_getElem.mp (within document reaches)
              obtain ⟨inside, rfl⟩ := List.getElem?_eq_some_iff.mp found
              obtain ⟨otherInside, rfl⟩ := List.getElem?_eq_some_iff.mp otherFound
              rcases Nat.lt_trichotomy index otherIndex with less | rfl | greater
              · exact absurd there (apart _ _ inside otherInside less place here)
              · rfl
              · exact absurd here (apart _ _ otherInside inside greater place there)
            · exact absurd there (between _ _ reaches otherReaches same _
                (List.mem_of_getElem? found) _ (List.mem_of_getElem? otherFound) place here)

theorem OneReference.rearrange (rearranged : left.Rearranged right)
    (once : OneReference settings left entry) : OneReference settings right entry := by
  have back := rearranged.symm
  have apart : ∀ one two, left.Apart one two → right.Apart one two := by
    intro one two apart place here there
    rw [← rearranged.place?_eq] at here there
    exact apart place here there
  obtain ⟨entryApart, within, between⟩ := oneReference_iff.mp once
  refine oneReference_iff.mpr ⟨?_, ?_, ?_⟩
  · intro document reaches next names
    exact apart _ _ (entryApart document (reaches.rearrange back) next
      ((settings.named_perm back document).mem_iff.mp names))
  · intro document reaches
    have inLeft := (within document (reaches.rearrange back)).imp fun {one two} => apart one two
    exact ((settings.named_perm rearranged document).pairwise_iff FileTree.Apart.symm).mp inLeft
  · intro one two toOne toTwo different next names other otherNames
    exact apart _ _ (between one two (toOne.rearrange back) (toTwo.rearrange back) different
      next ((settings.named_perm back one).mem_iff.mp names)
      other ((settings.named_perm back two).mem_iff.mp otherNames))

theorem Loadable.rearrange {start : Registry} (rearranged : left.Rearranged right)
    (loadable : Loadable settings left start entry) : Loadable settings right start entry := by
  have back := rearranged.symm
  refine ⟨?_, loadable.once.rearrange rearranged, ?_, ?_, ?_⟩
  · intro origin reaches
    obtain ⟨reading, reads⟩ := loadable.readable origin (reaches.rearrange back)
    have related := settings.reading_related rearranged origin
    rw [reads] at related
    generalize settings.reading right origin = other at related ⊢
    cases related with
    | result same => exact ⟨_, rfl⟩
  · intro place mapper reaches
    exact loadable.distinct place mapper (reaches.rearrange back)
  · intro one two oneMapper twoMapper toOne toTwo
    exact loadable.apart one two oneMapper twoMapper (toOne.rearrange back) (toTwo.rearrange back)
  · intro place mapper reaches
    exact loadable.fresh place mapper (reaches.rearrange back)

end

/-! ## Loads in another order -/

/-- Whether two loads succeed alike: with the same count, and with registries in which the same is
found. -/
structure Loaded.Agree (left right : Loaded) : Prop where
  outcome : ∀ count, left.outcome = .ok count ↔ right.outcome = .ok count
  registry : ∀ count, left.outcome = .ok count →
    ∀ key, left.registry.get? key = right.registry.get? key

namespace LoadSettings

variable (settings : LoadSettings) {left right : FileTree} (start : Registry) (path : String)

/-- A load that succeeds in one order succeeds in the other one, with the same result. -/
theorem load_of_rearranged (rearranged : left.Rearranged right) {count : Nat}
    (succeeds : (settings.load left start path).outcome = .ok count) :
    (settings.load right start path).outcome = .ok count ∧
      ∀ key, (settings.load left start path).registry.get? key =
        (settings.load right start path).registry.get? key := by
  rw [load_eq] at succeeds
  rw [load_eq, load_eq]
  obtain ⟨otherCount, rightSucceeds⟩ :=
    exists_eq_ok_of_loadable ((loadable_of_eq_ok succeeds).rearrange rearranged)
  obtain ⟨added, behind, mem_added, counts⟩ := adds_of_eq_ok succeeds
  obtain ⟨otherAdded, otherBehind, mem_otherAdded, otherCounts⟩ := adds_of_eq_ok rightSucceeds
  have same : ∀ statement, statement ∈ added ↔ statement ∈ otherAdded := by
    intro statement
    rw [mem_added, mem_otherAdded]
    have back := rearranged.symm
    exact ⟨fun brings => brings.rearrange rearranged, fun brings => brings.rearrange back⟩
  have distinct : added.Nodup := (List.nodup_append.mp (behind ▸ Registry.nodup _)).2.1
  have otherDistinct : otherAdded.Nodup :=
    (List.nodup_append.mp (otherBehind ▸ Registry.nodup _)).2.1
  have perm : added.Perm otherAdded := (List.perm_ext_iff_of_nodup distinct otherDistinct).mpr same
  refine ⟨?_, Registry.get?_eq_of_mem_iff fun statement => ?_⟩
  · rw [counts, perm.length_eq, ← otherCounts]
    exact rightSucceeds
  · rw [behind, otherBehind, List.mem_append, List.mem_append, same]

/-- **Loading a graph of resources.** A load succeeds exactly where all that its entry leads to can
be loaded; it then adds the statements of all mappers that are reached, and counts them; and the
order of the entries in catalogues changes neither success nor count nor what is found. -/
theorem load_spec (tree : FileTree) :
    ((∃ count, (settings.load tree start path).outcome = .ok count) ↔
      Loadable settings tree start (.file path)) ∧
    (∀ count, (settings.load tree start path).outcome = .ok count →
      ∃ added : List Statement,
        (settings.load tree start path).registry.statements = start.statements ++ added ∧
        (∀ statement, statement ∈ added ↔ Brings settings tree (.file path) statement) ∧
        count = added.length) ∧
    ∀ other, tree.Rearranged other →
      (settings.load tree start path).Agree (settings.load other start path) := by
  refine ⟨?_, ?_, fun other rearranged => ?_⟩
  · rw [load_eq]
    exact ⟨fun ⟨count, succeeds⟩ => loadable_of_eq_ok succeeds, exists_eq_ok_of_loadable⟩
  · rw [load_eq]
    exact fun count succeeds => adds_of_eq_ok succeeds
  · have back := rearranged.symm
    refine ⟨fun count => ⟨fun succeeds => ?_, fun succeeds => ?_⟩, fun count succeeds => ?_⟩
    · exact (settings.load_of_rearranged start path rearranged succeeds).1
    · exact (settings.load_of_rearranged start path back succeeds).1
    · exact (settings.load_of_rearranged start path rearranged succeeds).2

/-- A catalogue that names two paths. -/
def twoEntries (first second : String) : List UInt8 :=
  ("<mappers><mapper resource='" ++ first ++ "'/><mapper resource='" ++ second
    ++ "'/></mappers>").toUTF8.data.toList

/-- A mapper with one statement. -/
def oneStatement (namespaceName : String) : List UInt8 :=
  ("<mapper namespace='" ++ namespaceName
    ++ "'><delete id='all'>delete from t</delete></mapper>").toUTF8.data.toList

/-- A catalogue that names two paths, beside two mappers. -/
def twoMappers (first second : String) : FileTree where
  files := [(["all.xml"], twoEntries first second), (["a.xml"], oneStatement "a"),
    (["b.xml"], oneStatement "b")]
  start := []

/-- Two mappers can be loaded in one order and in the other. -/
theorem load_spec_twoMappers :
    (load {} (twoMappers "b.xml" "a.xml") .empty "all.xml").outcome = .ok 2 ∧
      ∀ key, (load {} (twoMappers "a.xml" "b.xml") .empty "all.xml").registry.get? key =
        (load {} (twoMappers "b.xml" "a.xml") .empty "all.xml").registry.get? key := by
  have inOrder : Catalogue.events (twoEntries "a.xml" "b.xml") =
      [.start "mappers" [], .start "mapper" [("resource", "a.xml")], .stop "mapper",
        .start "mapper" [("resource", "b.xml")], .stop "mapper", .stop "mappers"] := by
    decide +kernel
  have swapped : Catalogue.events (twoEntries "b.xml" "a.xml") =
      [.start "mappers" [], .start "mapper" [("resource", "b.xml")], .stop "mapper",
        .start "mapper" [("resource", "a.xml")], .stop "mapper", .stop "mappers"] := by
    decide +kernel
  have content : SameContent (twoEntries "a.xml" "b.xml") (twoEntries "b.xml" "a.xml") := by
    rw [SameContent, inOrder, swapped]
    exact .inr (@Catalogue.Rearranged.swap "mappers" [] [] [] [.stop "mappers"]
      (.leaf [("resource", "a.xml")]) (.leaf [("resource", "b.xml")]) (.inr rfl) rfl rfl)
  have rearranged : (twoMappers "a.xml" "b.xml").Rearranged (twoMappers "b.xml" "a.xml") :=
    ⟨rfl, .cons ⟨rfl, content⟩ (.cons ⟨rfl, .inl rfl⟩ (.cons ⟨rfl, .inl rfl⟩ .nil))⟩
  have counts :
      (load {} (twoMappers "a.xml" "b.xml") .empty "all.xml").outcome.toOption = some 2 := by
    decide +kernel
  have succeeds := toOption_eq_some_iff.mp counts
  have agree := (load_spec {} .empty "all.xml" (twoMappers "a.xml" "b.xml")).2.2 _ rearranged
  exact ⟨(agree.outcome 2).mp succeeds, agree.registry 2 succeeds⟩

-- A path that leads nowhere stops the load, sooner or later.
example : (load {} (twoMappers "a.xml" "none.xml") .empty "all.xml").registry.keys = ["a.all"] := by
  decide +kernel

example : (load {} (twoMappers "none.xml" "a.xml") .empty "all.xml").registry.keys = [] := by
  decide +kernel

end LoadSettings

end SqlTemplate
