import Mathlib.Data.List.Induction
import Mathlib.Data.List.Nodup
import Mathlib.Data.List.Pairwise
import SqlTemplate.Proofs.Load.Residue

/-!
# When a load succeeds

An entry leads to further origins by references.  A load succeeds exactly where all documents that
are reached can be read, no file is reached by two references, and the keys of all statements are
distinct and not taken (`Loadable`).  It then adds the statements of all mappers that are reached.

A document may be far away from its entry, but two addresses of one file end in two references to a
file somewhere on the way (`OneReference.oneAddress`).  So it is enough to compare references, and
loading can compare addresses.
-/

namespace SqlTemplate

set_option autoImplicit false

/-! ## What is reached -/

/-- The origins to which an entry leads. -/
inductive Reached (settings : LoadSettings) (tree : FileTree) (entry : Origin) : Origin → Prop
  | entry : Reached settings tree entry entry
  | named {origin next : Origin} :
      Reached settings tree entry origin → next ∈ settings.named tree origin →
        Reached settings tree entry next

/-- A reference: the entry of a load, or an entry in the document of an origin.  Two paths to one
document make two references of its entry, but then two references lead to that document. -/
inductive Reference where
  | entry
  | listed (document : Origin) (index : Nat)

/-- Whether a reference leads to the file at a place. -/
inductive LeadsTo (settings : LoadSettings) (tree : FileTree) (entry : Origin) :
    Reference → List String → Prop
  | entry {place : List String} :
      tree.place? entry = some place → LeadsTo settings tree entry .entry place
  | listed {document next : Origin} {index : Nat} {place : List String} :
      Reached settings tree entry document →
        (settings.named tree document)[index]? = some next → tree.place? next = some place →
          LeadsTo settings tree entry (.listed document index) place

/-- Whether no file is reached by two references. -/
def OneReference (settings : LoadSettings) (tree : FileTree) (entry : Origin) : Prop :=
  ∀ left right place, LeadsTo settings tree entry left place →
    LeadsTo settings tree entry right place → left = right

/-- Whether the file at a place is a mapper that is reached. -/
def ReachedMapper (settings : LoadSettings) (tree : FileTree) (entry : Origin)
    (place : List String) (mapper : Mapper) : Prop :=
  ∃ origin, Reached settings tree entry origin ∧ tree.place? origin = some place ∧
    settings.reading tree origin = .ok (.mapper mapper)

/-- What it takes to load all that an entry leads to. -/
structure Loadable (settings : LoadSettings) (tree : FileTree) (start : Registry)
    (entry : Origin) : Prop where
  /-- Every document that is reached can be read. -/
  readable : ∀ origin, Reached settings tree entry origin →
    ∃ reading, settings.reading tree origin = .ok reading
  /-- No file is reached by two references. -/
  once : OneReference settings tree entry
  /-- The keys in one mapper are distinct. -/
  distinct : ∀ place mapper, ReachedMapper settings tree entry place mapper →
    (mapper.statements.map Statement.key).Nodup
  /-- Mappers in different files have different keys. -/
  apart : ∀ left right leftMapper rightMapper,
    ReachedMapper settings tree entry left leftMapper →
      ReachedMapper settings tree entry right rightMapper → left ≠ right →
        ∀ one ∈ leftMapper.statements, ∀ two ∈ rightMapper.statements, one.key ≠ two.key
  /-- No key was taken before. -/
  fresh : ∀ place mapper, ReachedMapper settings tree entry place mapper →
    ∀ statement ∈ mapper.statements, statement.key ∉ start.keys

section

variable {settings : LoadSettings} {tree : FileTree} {entry origin : Origin} {path : String}

/-- What is reached is at an address. -/
theorem reached_iff_follow :
    Reached settings tree entry origin ↔
      ∃ address, settings.follow tree entry address = some origin := by
  constructor
  · intro reaches
    induction reaches with
    | entry => exact ⟨[], rfl⟩
    | named _ names ih =>
        obtain ⟨address, follows⟩ := ih
        obtain ⟨index, found⟩ := List.mem_iff_getElem?.mp names
        exact ⟨address ++ [index], LoadSettings.follow_concat_eq_some_iff.mpr ⟨_, follows, found⟩⟩
  · rintro ⟨address, follows⟩
    induction address using List.reverseRecOn generalizing origin with
    | nil =>
        cases follows
        exact .entry
    | append_singleton address index ih =>
        obtain ⟨before, toBefore, found⟩ := LoadSettings.follow_concat_eq_some_iff.mp follows
        exact .named (ih toBefore) (List.mem_of_getElem? found)

/-- From a file only files are reached. -/
theorem Reached.isFile (reaches : Reached settings tree (.file path) origin) :
    ∃ other, origin = .file other := by
  induction reaches with
  | entry => exact ⟨path, rfl⟩
  | named _ names _ =>
      rw [LoadSettings.named] at names
      split at names
      · obtain ⟨other, _, rfl⟩ := List.mem_map.mp names
        exact ⟨other, rfl⟩
      · cases names

/-- A file that can be read has a place. -/
theorem exists_place_of_reading {reading : Reading}
    (reads : settings.reading tree (.file path) = .ok reading) :
    ∃ place, tree.place? (.file path) = some place := by
  rw [LoadSettings.reading, LoadSettings.source] at reads
  rw [FileTree.place?]
  cases found : tree.canonical path with
  | ok place => exact ⟨place, rfl⟩
  | error fault =>
      rw [found] at reads
      cases reads

/-- A document that names something has a place. -/
theorem Reached.exists_place (reaches : Reached settings tree (.file path) origin) {index : Nat}
    {next : Origin} (names : (settings.named tree origin)[index]? = some next) :
    ∃ place, tree.place? origin = some place := by
  obtain ⟨other, rfl⟩ := reaches.isFile
  cases reads : settings.reading tree (.file other) with
  | ok reading => exact exists_place_of_reading reads
  | error cause =>
      rw [LoadSettings.named, reads] at names
      cases names

/-! ## Addresses and references -/

/-- Whether no file has two addresses. -/
def OneAddress (settings : LoadSettings) (tree : FileTree) (entry : Origin) : Prop :=
  ∀ left right leftOrigin rightOrigin place,
    settings.follow tree entry left = some leftOrigin →
      settings.follow tree entry right = some rightOrigin →
        tree.place? leftOrigin = some place → tree.place? rightOrigin = some place → left = right

/-- Where no file is reached by two references, no file has two addresses. -/
theorem OneReference.oneAddress (once : OneReference settings tree (.file path)) :
    OneAddress settings tree (.file path) := by
  intro left
  -- A reference is the last step of an address, so the induction goes from the end: equal last
  -- steps stand in one document, which has one address by the hypothesis.
  induction left using List.reverseRecOn with
  | nil =>
      intro right leftOrigin rightOrigin place toLeft toRight leftPlace rightPlace
      cases toLeft
      rcases right.eq_nil_or_concat' with rfl | ⟨right, rightIndex, rfl⟩
      · rfl
      · obtain ⟨document, toDocument, names⟩ :=
          LoadSettings.follow_concat_eq_some_iff.mp toRight
        cases once _ _ place (.entry leftPlace)
          (.listed (reached_iff_follow.mpr ⟨right, toDocument⟩) names rightPlace)
  | append_singleton left leftIndex ih =>
      intro right leftOrigin rightOrigin place toLeft toRight leftPlace rightPlace
      obtain ⟨document, toDocument, names⟩ := LoadSettings.follow_concat_eq_some_iff.mp toLeft
      have reaches := reached_iff_follow.mpr ⟨left, toDocument⟩
      rcases right.eq_nil_or_concat' with rfl | ⟨right, rightIndex, rfl⟩
      · cases toRight
        cases once _ _ place (.listed reaches names leftPlace) (.entry rightPlace)
      · obtain ⟨other, toOther, otherNames⟩ := LoadSettings.follow_concat_eq_some_iff.mp toRight
        cases once _ _ place (.listed reaches names leftPlace)
          (.listed (reached_iff_follow.mpr ⟨right, toOther⟩) otherNames rightPlace)
        obtain ⟨above, here⟩ := reaches.exists_place names
        rw [ih right document document above toDocument toOther here here]

/-- Where no file has two addresses, no file is reached by two references. -/
theorem OneAddress.oneReference (unique : OneAddress settings tree entry) :
    OneReference settings tree entry := by
  intro left right place leftLeads rightLeads
  cases leftLeads with
  | entry leftPlace =>
      cases rightLeads with
      | entry rightPlace => rfl
      | listed reaches names rightPlace =>
          obtain ⟨address, follows⟩ := reached_iff_follow.mp reaches
          have same := unique [] _ _ _ place rfl
            (LoadSettings.follow_concat_eq_some_iff.mpr ⟨_, follows, names⟩) leftPlace rightPlace
          exact absurd same.symm (List.append_ne_nil_of_right_ne_nil _ (List.cons_ne_nil _ _))
  | listed reaches names leftPlace =>
      obtain ⟨address, follows⟩ := reached_iff_follow.mp reaches
      have toLeft := LoadSettings.follow_concat_eq_some_iff.mpr ⟨_, follows, names⟩
      cases rightLeads with
      | entry rightPlace =>
          have same := unique _ [] _ _ place toLeft rfl leftPlace rightPlace
          exact absurd same (List.append_ne_nil_of_right_ne_nil _ (List.cons_ne_nil _ _))
      | listed otherReaches otherNames rightPlace =>
          obtain ⟨other, otherFollows⟩ := reached_iff_follow.mp otherReaches
          have same := unique _ _ _ _ place toLeft
            (LoadSettings.follow_concat_eq_some_iff.mpr ⟨_, otherFollows, otherNames⟩)
            leftPlace rightPlace
          obtain ⟨rfl, sameIndex⟩ := List.append_inj' same rfl
          cases sameIndex
          rw [follows] at otherFollows
          cases otherFollows
          rfl

/-! ## Loads that succeed -/

/-- Whether a statement is one of a mapper that is reached. -/
def Brings (settings : LoadSettings) (tree : FileTree) (entry : Origin)
    (statement : Statement) : Prop :=
  ∃ origin mapper, Reached settings tree entry origin ∧
    settings.reading tree origin = .ok (.mapper mapper) ∧ statement ∈ mapper.statements

section Trace

variable {start : Registry} {loaded : Loaded} {trace : Trace}

/-- The statements of the mappers of a trace have distinct keys, which were not taken. -/
theorem Leaves.keys (leaves : Leaves settings tree start entry loaded trace) :
    (∀ step ∈ trace, (step.2.statements.map Statement.key).Nodup ∧
      ∀ statement ∈ step.2.statements, statement.key ∉ start.keys) ∧
    ∀ left ∈ trace, ∀ right ∈ trace, left ≠ right →
      ∀ one ∈ left.2.statements, ∀ two ∈ right.2.statements, one.key ≠ two.key := by
  have distinct := loaded.registry.distinct
  rw [leaves.statements_eq, List.map_append, List.nodup_append] at distinct
  obtain ⟨_, added, fresh⟩ := distinct
  rw [Trace.statements, List.map_flatMap, List.nodup_flatMap] at added
  obtain ⟨each, disjoint⟩ := added
  refine ⟨fun step listed => ⟨each step listed, fun statement member taken => ?_⟩, ?_⟩
  · have present : statement ∈ trace.statements := List.mem_flatMap.mpr ⟨step, listed, member⟩
    exact fresh _ taken _ (List.mem_map_of_mem present) rfl
  · intro left isLeft right isRight different one isOne two isTwo same
    have symmetric : Std.Symm (Function.onFun List.Disjoint fun step : Address × Mapper =>
        step.2.statements.map Statement.key) :=
      ⟨fun _ _ apart _ isRight isLeft => apart isLeft isRight⟩
    have apart := disjoint.forall isLeft isRight different
    exact apart (List.mem_map_of_mem isOne) (same ▸ List.mem_map_of_mem isTwo)

end Trace

/-- A mapper that is reached is at an address. -/
theorem ReachedMapper.exists_address {place : List String} {mapper : Mapper}
    (reaches : ReachedMapper settings tree entry place mapper) :
    ∃ address origin, settings.follow tree entry address = some origin ∧
      tree.place? origin = some place ∧ settings.mapperAt? tree entry address = some mapper := by
  obtain ⟨origin, reaches, here, reads⟩ := reaches
  obtain ⟨address, follows⟩ := reached_iff_follow.mp reaches
  exact ⟨address, origin, follows, here, LoadSettings.mapperAt?_eq_some_iff.mpr ⟨_, follows, reads⟩⟩

/-- A mapper at an address is reached, and is in a file. -/
theorem exists_place_of_mapperAt? {address : Address} {mapper : Mapper}
    (found : settings.mapperAt? tree (.file path) address = some mapper) :
    ∃ origin place, settings.follow tree (.file path) address = some origin ∧
      tree.place? origin = some place ∧ ReachedMapper settings tree (.file path) place mapper := by
  obtain ⟨origin, follows, reads⟩ := LoadSettings.mapperAt?_eq_some_iff.mp found
  have reaches := reached_iff_follow.mpr ⟨address, follows⟩
  obtain ⟨other, rfl⟩ := reaches.isFile
  obtain ⟨place, here⟩ := exists_place_of_reading reads
  exact ⟨_, place, follows, here, _, reaches, here, reads⟩

/-- A run that has nothing pending has met no file at two addresses. -/
theorem LoadProgress.oneAddress {start registry : Registry} {done : List Visit}
    {visited : List (List String)} {count : Nat}
    (progress : LoadProgress settings tree entry start done visited registry count []) :
    OneAddress settings tree entry := by
  intro left right leftOrigin rightOrigin place toLeft toRight leftPlace rightPlace
  obtain ⟨leftVisit, leftDone, rfl, rfl⟩ :=
    progress.done_of_precedes toLeft fun _ first => nomatch first
  obtain ⟨rightVisit, rightDone, rfl, rfl⟩ :=
    progress.done_of_precedes toRight fun _ first => nomatch first
  have symmetric : Std.Symm fun one two : Visit => tree.Apart one.origin two.origin :=
    ⟨fun _ _ => FileTree.Apart.symm⟩
  by_contra different
  have distinct : leftVisit ≠ rightVisit := fun same => different (congrArg Visit.address same)
  exact progress.once.forall leftDone rightDone distinct place leftPlace rightPlace

namespace LoadSettings

variable {start : Registry}

/-- What was loaded could be loaded. -/
theorem loadable_of_eq_ok {count : Nat}
    (succeeds : (settings.loadFrom tree start entry).outcome = .ok count) :
    Loadable settings tree start entry := by
  obtain ⟨done, visited, total, pending, progress, ended⟩ :=
    settings.loadFrom_progress tree start entry
  have leaves := progress.leaves ended
  have ⟨mappers, _⟩ := leaves.whole count succeeds
  have ⟨inside, between⟩ := leaves.keys
  obtain rfl : pending = [] := by
    generalize settings.loadFrom tree start entry = loaded at ended succeeds
    cases ended with
    | finished => rfl
    | stopped stops => cases succeeds
  have unique := progress.oneAddress
  refine ⟨?_, unique.oneReference, ?_, ?_, ?_⟩
  · intro origin reaches
    obtain ⟨address, follows⟩ := reached_iff_follow.mp reaches
    obtain ⟨visit, listed, rfl, rfl⟩ :=
      progress.done_of_precedes follows fun _ first => nomatch first
    exact ⟨visit.reading, progress.read visit listed⟩
  · intro place mapper reaches
    obtain ⟨address, _, _, _, found⟩ := reaches.exists_address
    exact (inside _ ((mappers address mapper).mpr found)).1
  · intro left right leftMapper rightMapper toLeft toRight different
    obtain ⟨leftAddress, leftOrigin, leftFollows, leftPlace, leftFound⟩ := toLeft.exists_address
    obtain ⟨rightAddress, rightOrigin, rightFollows, rightPlace, rightFound⟩ :=
      toRight.exists_address
    refine between _ ((mappers _ _).mpr leftFound) _ ((mappers _ _).mpr rightFound) fun same => ?_
    cases same
    rw [leftFollows] at rightFollows
    cases rightFollows
    rw [leftPlace] at rightPlace
    cases rightPlace
    exact different rfl
  · intro place mapper reaches
    obtain ⟨address, _, _, _, found⟩ := reaches.exists_address
    exact (inside _ ((mappers address mapper).mpr found)).2

/-- A mapper that can be loaded is registered behind the mappers at earlier addresses. -/
theorem registers_of_loadable (loadable : Loadable settings tree start (.file path))
    {loaded : Loaded} {trace : Trace} {address : Address} {mapper : Mapper}
    (leaves : Leaves settings tree start (.file path) loaded trace)
    (found : settings.mapperAt? tree (.file path) address = some mapper)
    (earlier : ∀ step ∈ trace, settings.mapperAt? tree (.file path) step.1 = some step.2 ∧
      step.1.Precedes address) :
    ∃ more, loaded.registry.registerAll mapper.statements = .ok more := by
  obtain ⟨origin, place, follows, here, reaches⟩ := exists_place_of_mapperAt? found
  have fresh : ∀ statement ∈ mapper.statements, statement.key ∉ loaded.registry.keys := by
    intro statement member taken
    rw [Registry.keys, leaves.statements_eq, List.map_append, List.mem_append] at taken
    rcases taken with taken | taken
    · exact loadable.fresh place mapper reaches statement member taken
    · obtain ⟨other, isOther, same⟩ := List.mem_map.mp taken
      obtain ⟨step, listed, otherMember⟩ := List.mem_flatMap.mp isOther
      obtain ⟨stepFound, before⟩ := earlier step listed
      obtain ⟨stepOrigin, stepPlace, stepFollows, there, stepReaches⟩ :=
        exists_place_of_mapperAt? stepFound
      have different : stepPlace ≠ place := by
        rintro rfl
        have same := loadable.once.oneAddress _ _ _ _ _ stepFollows follows there here
        exact Address.not_precedes_self address (same ▸ before)
      exact loadable.apart stepPlace place step.2 mapper stepReaches reaches different
        other otherMember statement member same
  obtain ⟨more, registers, _⟩ :=
    Registry.registerAll_of_fresh (loadable.distinct place mapper reaches) fresh
  exact ⟨more, registers⟩

/-- What can be loaded is loaded. -/
theorem exists_eq_ok_of_loadable (loadable : Loadable settings tree start (.file path)) :
    ∃ count, (settings.loadFrom tree start (.file path)).outcome = .ok count := by
  cases outcome : (settings.loadFrom tree start (.file path)).outcome with
  | ok count => exact ⟨count, rfl⟩
  | error cause =>
      exfalso
      obtain ⟨done, visited, total, pending, progress, ended⟩ :=
        settings.loadFrom_progress tree start (.file path)
      have leaves := progress.leaves ended
      obtain ⟨failed, fails, _, mappers⟩ := leaves.broken cause outcome
      have unique := loadable.once.oneAddress
      cases fails with
      | again toFailed found toEarlier earlierPlace before =>
          have same := unique _ _ _ _ _ toEarlier toFailed earlierPlace
            (FileTree.place?_eq_some_iff.mpr found)
          exact Address.not_precedes_self failed (same ▸ before)
      | unread toFailed unreadable =>
          obtain ⟨reading, reads⟩ :=
            loadable.readable _ (reached_iff_follow.mpr ⟨failed, toFailed⟩)
          rw [unreadable] at reads
          cases reads
      | @taken origin reading fault toFailed reads refused =>
          cases reading with
          | catalogue paths =>
              rw [Reading.statements, Registry.registerAll_nil] at refused
              cases refused
          | mapper mapper =>
              have found : settings.mapperAt? tree (.file path) failed = some mapper :=
                mapperAt?_eq_some_iff.mpr ⟨origin, toFailed, reads⟩
              obtain ⟨more, registers⟩ := registers_of_loadable loadable leaves found
                fun step listed => (mappers step.1 step.2).mp listed
              rw [Reading.statements, registers] at refused
              cases refused

/-- What a load that succeeds adds: the statements of the mappers that are reached. -/
theorem adds_of_eq_ok {count : Nat}
    (succeeds : (settings.loadFrom tree start entry).outcome = .ok count) :
    ∃ added : List Statement,
      (settings.loadFrom tree start entry).registry.statements = start.statements ++ added ∧
      (∀ statement, statement ∈ added ↔ Brings settings tree entry statement) ∧
      count = added.length := by
  obtain ⟨done, visited, total, pending, progress, ended⟩ :=
    settings.loadFrom_progress tree start entry
  have leaves := progress.leaves ended
  obtain ⟨mappers, counted⟩ := leaves.whole count succeeds
  refine ⟨(Trace.ofVisits done).statements, leaves.statements_eq, fun statement => ?_, ?_⟩
  · constructor
    · intro member
      obtain ⟨⟨address, mapper⟩, listed, inside⟩ := List.mem_flatMap.mp member
      obtain ⟨origin, follows, reads⟩ := mapperAt?_eq_some_iff.mp ((mappers _ _).mp listed)
      exact ⟨origin, mapper, reached_iff_follow.mpr ⟨address, follows⟩, reads, inside⟩
    · rintro ⟨origin, mapper, reaches, reads, inside⟩
      obtain ⟨address, follows⟩ := reached_iff_follow.mp reaches
      have found := mapperAt?_eq_some_iff.mpr ⟨origin, follows, reads⟩
      exact List.mem_flatMap.mpr ⟨(address, mapper), (mappers _ _).mpr found, inside⟩
  · have size := congrArg List.length leaves.statements_eq
    rw [List.length_append] at size
    exact Nat.add_left_cancel (counted.trans size)

end LoadSettings

end

end SqlTemplate
