import SqlTemplate.Proofs.Load.Progress

/-!
# What a load leaves behind

A load may fail at any depth, after other documents were registered already.  What it leaves behind
is described by a trace: the mappers that were loaded, in depth-first order, with their addresses.
The registry holds what it held before, and behind it all statements of the trace.

If the load succeeds, the trace has every mapper of the graph.  If it fails, there is an address at
which it failed, and the trace has the mappers at the earlier addresses: each of them completely,
and nothing from the failing address or after it (`LoadSettings.loadFrom_leaves`).
-/

namespace SqlTemplate

set_option autoImplicit false

/-- Mappers with their addresses, in the order in which they are loaded. -/
abbrev Trace := List (Address × Mapper)

/-- The statements of the mappers of a trace. -/
def Trace.statements (trace : Trace) : List Statement :=
  trace.flatMap fun step => step.2.statements

/-- Why a load fails at an address: its file was met at an earlier address, its document cannot be
read, or the statements of its document cannot be registered behind what is there already. -/
inductive FailsAt (settings : LoadSettings) (tree : FileTree) (entry : Origin)
    (registry : Registry) (failed : Address) : LoadError → Prop
  | again {path : String} {place : List String} {earlier : Address} {origin : Origin} :
      settings.follow tree entry failed = some (.file path) → tree.canonical path = .ok place →
        settings.follow tree entry earlier = some origin → tree.place? origin = some place →
          earlier.Precedes failed →
            FailsAt settings tree entry registry failed (.config (.includedTwice path))
  | unread {origin : Origin} {cause : LoadError} :
      settings.follow tree entry failed = some origin →
        settings.reading tree origin = .error cause →
          FailsAt settings tree entry registry failed cause
  | taken {origin : Origin} {reading : Reading} {fault : ConfigFault} :
      settings.follow tree entry failed = some origin →
        settings.reading tree origin = .ok reading →
          registry.registerAll reading.statements = .error fault →
            FailsAt settings tree entry registry failed (.config fault)

/-- What a load from a registry leaves behind: the mappers of a trace. -/
structure Leaves (settings : LoadSettings) (tree : FileTree) (start : Registry) (entry : Origin)
    (loaded : Loaded) (trace : Trace) : Prop where
  /-- Mappers are loaded depth first and in the order of the entries. -/
  ascending : trace.Pairwise fun left right => left.1.Precedes right.1
  /-- Their statements, and no others, are added behind those that were there. -/
  statements_eq : loaded.registry.statements = start.statements ++ trace.statements
  /-- What was there before is found as before. -/
  kept : ∀ key statement, start.get? key = some statement →
    loaded.registry.get? key = some statement
  /-- Of a mapper that was loaded, every statement is found. -/
  present : ∀ step ∈ trace, ∀ statement ∈ step.2.statements,
    loaded.registry.get? statement.key = some statement
  /-- If the load succeeds, all mappers of the graph are loaded and counted. -/
  whole : ∀ count, loaded.outcome = .ok count →
    (∀ address mapper,
      (address, mapper) ∈ trace ↔ settings.mapperAt? tree entry address = some mapper) ∧
    start.size + count = loaded.registry.size
  /-- If it fails, it does so at an address; nothing there is loaded, and all mappers before it
  are. -/
  broken : ∀ cause, loaded.outcome = .error cause →
    ∃ failed, FailsAt settings tree entry loaded.registry failed cause ∧
      (∀ mapper, (failed, mapper) ∉ trace) ∧
      ∀ address mapper, (address, mapper) ∈ trace ↔
        settings.mapperAt? tree entry address = some mapper ∧ address.Precedes failed

/-! ## The trace of what is done -/

/-- The mapper of a document that is done. -/
def Visit.step? (visit : Visit) : Option (Address × Mapper) :=
  visit.reading.mapper?.map fun mapper => (visit.address, mapper)

/-- The mappers among the documents that are done. -/
def Trace.ofVisits (done : List Visit) : Trace := done.filterMap Visit.step?

theorem Reading.mapper?_eq_some_iff {reading : Reading} {mapper : Mapper} :
    reading.mapper? = some mapper ↔ reading = .mapper mapper := by
  cases reading <;> simp [Reading.mapper?]

theorem Visit.step?_eq_some_iff {visit : Visit} {address : Address} {mapper : Mapper} :
    visit.step? = some (address, mapper) ↔
      visit.address = address ∧ visit.reading = .mapper mapper := by
  rw [step?, Option.map_eq_some_iff]
  simp only [Reading.mapper?_eq_some_iff, Prod.mk.injEq]
  constructor
  · rintro ⟨found, reads, here, rfl⟩
    exact ⟨here, reads⟩
  · rintro ⟨here, reads⟩
    exact ⟨mapper, reads, here, rfl⟩

theorem Trace.mem_ofVisits {done : List Visit} {address : Address} {mapper : Mapper} :
    (address, mapper) ∈ Trace.ofVisits done ↔
      ∃ visit ∈ done, visit.address = address ∧ visit.reading = .mapper mapper := by
  simp only [ofVisits, List.mem_filterMap, Visit.step?_eq_some_iff]

/-- Catalogues bring no statements. -/
theorem Trace.statements_ofVisits (done : List Visit) :
    (Trace.ofVisits done).statements = done.flatMap fun visit => visit.reading.statements := by
  induction done with
  | nil => rfl
  | cons visit done ih =>
      obtain ⟨address, origin, reading⟩ := visit
      rw [List.flatMap_cons, ← ih]
      cases reading <;> rfl

/-- The trace of what is done in ascending order ascends. -/
theorem Trace.ofVisits_ascending {done : List Visit}
    (ascending : done.Pairwise fun left right => left.address.Precedes right.address) :
    (Trace.ofVisits done).Pairwise fun left right => left.1.Precedes right.1 := by
  refine List.pairwise_filterMap.mpr (ascending.imp ?_)
  rintro left right earlier ⟨leftAddress, leftMapper⟩ leftStep ⟨rightAddress, rightMapper⟩ rightStep
  obtain ⟨rfl, _⟩ := Visit.step?_eq_some_iff.mp leftStep
  obtain ⟨rfl, _⟩ := Visit.step?_eq_some_iff.mp rightStep
  exact earlier

namespace LoadProgress

variable {settings : LoadSettings} {tree : FileTree} {entry : Origin} {start registry : Registry}
  {done : List Visit} {visited : List (List String)} {count : Nat}
  {pending : List (Address × Origin)}

/-- An address before the first one that is pending is done. -/
theorem done_of_precedes
    (progress : LoadProgress settings tree entry start done visited registry count pending)
    {address : Address} {origin : Origin}
    (follows : settings.follow tree entry address = some origin)
    (before : ∀ next ∈ pending.head?, address.Precedes next.1) :
    ∃ visit ∈ done, visit.address = address ∧ visit.origin = origin := by
  rcases progress.complete address origin follows with ⟨visit, listed, rfl⟩ | below
  · have there := progress.followed visit listed
    rw [follows] at there
    cases there
    exact ⟨visit, listed, rfl, rfl⟩
  · -- What lies below a pending address does not come before the first one.
    obtain ⟨next, listed, more, rfl⟩ := below
    exfalso
    cases pending with
    | nil => cases listed
    | cons first others =>
        have earlier : (next.1 ++ more).Precedes first.1 := before first rfl
        rcases List.mem_cons.mp listed with rfl | listed
        · cases more with
          | nil =>
              rw [List.append_nil] at earlier
              exact Address.not_precedes_self _ earlier
          | cons index more =>
              have later := Address.precedes_append next.1 (List.cons_ne_nil index more)
              exact Address.not_precedes_self _ (earlier.trans later)
        · have leftOf := ((List.pairwise_cons.mp progress.apart).1 next listed).append [] more
          rw [List.append_nil] at leftOf
          exact Address.not_precedes_self _ (earlier.trans leftOf.precedes)

/-- The trace has the mappers of the graph before the first pending address. -/
theorem mem_trace_iff
    (progress : LoadProgress settings tree entry start done visited registry count pending)
    (address : Address) (mapper : Mapper) :
    (address, mapper) ∈ Trace.ofVisits done ↔
      settings.mapperAt? tree entry address = some mapper ∧
        ∀ next ∈ pending.head?, address.Precedes next.1 := by
  rw [Trace.mem_ofVisits, LoadSettings.mapperAt?_eq_some_iff]
  constructor
  · rintro ⟨visit, listed, rfl, reads⟩
    have here := progress.read visit listed
    rw [reads] at here
    refine ⟨⟨visit.origin, progress.followed visit listed, here⟩, fun next first => ?_⟩
    exact progress.before visit listed next (List.mem_of_mem_head? first)
  · rintro ⟨⟨origin, follows, reads⟩, before⟩
    obtain ⟨visit, listed, rfl, rfl⟩ := progress.done_of_precedes follows before
    have here := progress.read visit listed
    rw [reads] at here
    exact ⟨visit, listed, rfl, (Except.ok.inj here).symm⟩

/-- Where a run stops, the load fails. -/
theorem failsAt {failed : Address} {origin : Origin} {cause : LoadError}
    (progress : LoadProgress settings tree entry start done visited registry count
      ((failed, origin) :: pending))
    (stops : Stops settings tree visited registry origin cause) :
    FailsAt settings tree entry registry failed cause := by
  have here : settings.follow tree entry failed = some origin :=
    progress.waiting _ (List.mem_cons_self ..)
  cases stops with
  | again found known =>
      obtain ⟨visit, listed, there⟩ := (progress.visited_iff _).mp known
      exact .again here found (progress.followed visit listed) there
        (progress.before visit listed _ (List.mem_cons_self ..))
  | unread fails => exact .unread here fails
  | taken reads refused => exact .taken here reads refused

/-- A run that has ended leaves the trace of what is done. -/
theorem leaves {loaded : Loaded}
    (progress : LoadProgress settings tree entry start done visited loaded.registry count pending)
    (ended : Ended settings tree visited count pending loaded) :
    Leaves settings tree start entry loaded (Trace.ofVisits done) := by
  have behind : loaded.registry.statements = start.statements ++ (Trace.ofVisits done).statements :=
    (Trace.statements_ofVisits done).symm ▸ progress.statements_eq
  refine ⟨Trace.ofVisits_ascending progress.ascending, behind, ?_, ?_, ?_, ?_⟩
  · intro key statement found
    exact Registry.get?_of_behind behind found
  · intro step listed statement member
    refine Registry.get?_key ?_
    rw [behind]
    exact List.mem_append_right _ (List.mem_flatMap.mpr ⟨step, listed, member⟩)
  · intro total succeeds
    cases ended with
    | stopped stops => cases succeeds
    | finished =>
        cases succeeds
        refine ⟨fun address mapper => ?_, progress.counted⟩
        rw [progress.mem_trace_iff]
        exact and_iff_left fun next first => nomatch first
  · intro cause fails
    cases ended with
    | finished => cases fails
    | @stopped failed origin pending registry reason stops =>
        cases fails
        have exact : ∀ address mapper, (address, mapper) ∈ Trace.ofVisits done ↔
            settings.mapperAt? tree entry address = some mapper ∧ address.Precedes failed := by
          intro address mapper
          rw [progress.mem_trace_iff]
          simp only [List.head?_cons, Option.mem_some_iff, forall_eq']
        refine ⟨failed, progress.failsAt stops, fun mapper listed => ?_, exact⟩
        exact Address.not_precedes_self failed ((exact failed mapper).mp listed).2

end LoadProgress

namespace LoadSettings

/-- **What a load leaves behind.** From every registry and every entry, a file or a document in
memory, a load leaves what was registered before, and behind it the statements of a trace of
mappers: of all mappers of the graph if it succeeds, and otherwise of those before the address at
which it fails. -/
theorem loadFrom_leaves (settings : LoadSettings) (tree : FileTree) (start : Registry)
    (entry : Origin) :
    ∃ trace, Leaves settings tree start entry (settings.loadFrom tree start entry) trace := by
  obtain ⟨done, visited, count, pending, progress, ended⟩ :=
    settings.loadFrom_progress tree start entry
  exact ⟨_, progress.leaves ended⟩

end LoadSettings

end SqlTemplate
