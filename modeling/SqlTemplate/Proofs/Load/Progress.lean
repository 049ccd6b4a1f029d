import SqlTemplate.Proofs.Load.Graph

/-!
# The progress of loading

While documents are loaded, some addresses are done and some are pending.  `LoadProgress` says how
they are related: what is done was met in depth-first order and lies before everything pending,
every address in the graph is done or lies below a pending one, and the registry holds the
statements of the documents that are done, in their order.

One document keeps the progress (`LoadProgress.step`): its address is done, and its entries are
pending in its place.  So a whole run ends with progress: nothing is pending any more, or the
loading stops at the first pending address (`LoadSettings.loadFrom_progress`).
-/

namespace SqlTemplate

set_option autoImplicit false

/-- A document that is done: where it was met, and what it says. -/
structure Visit where
  address : Address
  origin : Origin
  reading : Reading

/-- How far the loading of an entry has come. -/
structure LoadProgress (settings : LoadSettings) (tree : FileTree) (entry : Origin)
    (start : Registry) (done : List Visit) (visited : List (List String)) (registry : Registry)
    (count : Nat) (pending : List (Address × Origin)) : Prop where
  followed : ∀ visit ∈ done, settings.follow tree entry visit.address = some visit.origin
  read : ∀ visit ∈ done, settings.reading tree visit.origin = .ok visit.reading
  waiting : ∀ next ∈ pending, settings.follow tree entry next.1 = some next.2
  ascending : done.Pairwise fun left right => left.address.Precedes right.address
  before : ∀ visit ∈ done, ∀ next ∈ pending, visit.address.Precedes next.1
  apart : pending.Pairwise fun left right => Address.LeftOf left.1 right.1
  complete : ∀ address origin, settings.follow tree entry address = some origin →
    (∃ visit ∈ done, visit.address = address) ∨ ∃ next ∈ pending, next.1 <+: address
  visited_iff : ∀ place, place ∈ visited ↔ ∃ visit ∈ done, tree.place? visit.origin = some place
  once : done.Pairwise fun left right => tree.Apart left.origin right.origin
  statements_eq : registry.statements =
    start.statements ++ done.flatMap fun visit => visit.reading.statements
  counted : start.size + count = registry.size

section

variable {settings : LoadSettings} {tree : FileTree} {entry : Origin} {start registry : Registry}
  {done : List Visit} {visited : List (List String)} {count : Nat}
  {pending : List (Address × Origin)}

namespace LoadProgress

/-- At the beginning, the entry is pending. -/
theorem initial (settings : LoadSettings) (tree : FileTree) (entry : Origin) (start : Registry) :
    LoadProgress settings tree entry start [] [] start 0 [([], entry)] where
  followed _ listed := nomatch listed
  read _ listed := nomatch listed
  waiting next listed := by
    obtain rfl := List.mem_singleton.mp listed
    rfl
  ascending := .nil
  before _ listed := nomatch listed
  apart := List.pairwise_singleton _ _
  complete address _ _ := .inr ⟨_, List.mem_singleton.mpr rfl, List.nil_prefix⟩
  visited_iff place := by simp
  once := .nil
  statements_eq := (List.append_nil _).symm
  counted := rfl

/-! ## One document -/

section Step

variable {address : Address} {origin : Origin} {reading : Reading} {more : Registry}

/-- The entries of a document are what its address leads on to. -/
theorem follow_of_mem_entries (here : settings.follow tree entry address = some origin)
    (reads : settings.reading tree origin = .ok reading) {next : Address × Origin}
    (listed : next ∈ address.entries reading.named) :
    settings.follow tree entry next.1 = some next.2 := by
  obtain ⟨index, found, same⟩ := Address.mem_entries.mp listed
  rw [same, LoadSettings.follow_concat_eq_some_iff]
  exact ⟨origin, here, (LoadSettings.named_eq reads).symm ▸ found⟩

/-- Every address below a document is the document's, or lies below one of its entries. -/
theorem mem_entries_of_follow (here : settings.follow tree entry address = some origin)
    (reads : settings.reading tree origin = .ok reading) {more : List Nat} {other : Origin}
    (follows : settings.follow tree entry (address ++ more) = some other) :
    more = [] ∨ ∃ next ∈ address.entries reading.named, next.1 <+: address ++ more := by
  cases more with
  | nil => exact .inl rfl
  | cons index more =>
      rw [LoadSettings.follow_append, here, Option.bind_some, LoadSettings.follow,
        LoadSettings.named_eq reads] at follows
      obtain ⟨next, found, _⟩ := Option.bind_eq_some_iff.mp follows
      have listed : (address ++ [index], next) ∈ address.entries reading.named :=
        Address.mem_entries.mpr ⟨index, found, rfl⟩
      exact .inr ⟨_, listed, more, List.append_assoc ..⟩

section

variable (progress : LoadProgress settings tree entry start done visited registry count
  ((address, origin) :: pending))
include progress

/-- The first address that is pending goes before the entries there and before the others. -/
theorem precedes_rest {items : List Origin} {next : Address × Origin}
    (listed : next ∈ address.entries items ++ pending) : address.Precedes next.1 := by
  rcases List.mem_append.mp listed with listed | listed
  · exact Address.precedes_of_mem_entries listed
  · exact ((List.pairwise_cons.mp progress.apart).1 next listed).precedes

/-- The entries at the first address that is pending lie to the left of the others. -/
theorem apart_rest (items : List Origin) :
    (address.entries items ++ pending).Pairwise
      fun left right => Address.LeftOf left.1 right.1 := by
  have ⟨leftOf, apart⟩ := List.pairwise_cons.mp progress.apart
  refine List.pairwise_append.mpr ⟨address.entries_leftOf items, apart, ?_⟩
  intro left isEntry right isPending
  exact Address.leftOf_of_mem_entries (leftOf right isPending) isEntry

/-- With its first pending document done, every address is done or lies below a pending one. -/
theorem complete_rest (reads : settings.reading tree origin = .ok reading) {other : Address}
    {otherOrigin : Origin} (follows : settings.follow tree entry other = some otherOrigin) :
    (∃ visit ∈ done ++ [⟨address, origin, reading⟩], visit.address = other) ∨
      ∃ next ∈ address.entries reading.named ++ pending, next.1 <+: other := by
  have here := progress.waiting _ (List.mem_cons_self ..)
  rcases progress.complete other otherOrigin follows with ⟨visit, listed, same⟩ | below
  · exact .inl ⟨visit, List.mem_append_left _ listed, same⟩
  · obtain ⟨next, listed, more, rfl⟩ := below
    rcases List.mem_cons.mp listed with rfl | listed
    · rcases mem_entries_of_follow here reads follows with rfl | ⟨child, isChild, isPrefix⟩
      · exact .inl ⟨⟨address, origin, reading⟩,
          List.mem_append_right _ (List.mem_singleton.mpr rfl), (List.append_nil _).symm⟩
      · exact .inr ⟨child, List.mem_append_left _ isChild, isPrefix⟩
    · exact .inr ⟨next, List.mem_append_right _ listed, List.prefix_append _ _⟩

/-- **A document that is loaded keeps the progress.** -/
theorem step (fresh : ∀ place, tree.place? origin = some place → place ∉ visited)
    (reads : settings.reading tree origin = .ok reading)
    (registers : registry.registerAll reading.statements = .ok more) :
    LoadProgress settings tree entry start (done ++ [⟨address, origin, reading⟩])
      ((tree.place? origin).toList ++ visited) more (count + reading.statements.length)
      (address.entries reading.named ++ pending) := by
  have ⟨here, waiting⟩ := List.forall_mem_cons.mp progress.waiting
  have earlier : ∀ visit ∈ done, visit.address.Precedes address :=
    fun visit listed => progress.before visit listed _ (List.mem_cons_self ..)
  have behind : more.statements = registry.statements ++ reading.statements :=
    (Registry.registerAll_eq_ok_iff.mp registers).2
  refine {
    followed := List.forall_mem_append.mpr ⟨progress.followed, List.forall_mem_singleton.mpr here⟩
    read := List.forall_mem_append.mpr ⟨progress.read, List.forall_mem_singleton.mpr reads⟩
    waiting := List.forall_mem_append.mpr
      ⟨fun next => follow_of_mem_entries here reads, waiting⟩
    ascending := ?ascending
    before := ?before
    apart := progress.apart_rest reading.named
    complete := fun _ _ => progress.complete_rest reads
    visited_iff := ?visited
    once := ?once
    statements_eq := ?statements
    counted := ?counted }
  case ascending =>
    refine List.pairwise_append.mpr ⟨progress.ascending, List.pairwise_singleton _ _, ?_⟩
    exact fun visit listed => List.forall_mem_singleton.mpr (earlier visit listed)
  case before =>
    refine List.forall_mem_append.mpr ⟨fun visit listed next isNext => ?_, ?_⟩
    · exact (earlier visit listed).trans (progress.precedes_rest isNext)
    · exact List.forall_mem_singleton.mpr fun next => progress.precedes_rest
  case visited =>
    intro place
    simp only [List.mem_append, Option.mem_toList, progress.visited_iff, List.mem_singleton,
      or_and_right, exists_or, exists_eq_left]
    exact or_comm
  case once =>
    refine List.pairwise_append.mpr ⟨progress.once, List.pairwise_singleton _ _, ?_⟩
    refine fun visit listed => List.forall_mem_singleton.mpr fun place met again => ?_
    exact fresh place again ((progress.visited_iff place).mpr ⟨visit, listed, met⟩)
  case statements =>
    rw [behind, progress.statements_eq, List.flatMap_append, List.append_assoc,
      List.flatMap_singleton]
  case counted =>
    have size : more.size = registry.size + reading.statements.length := by
      rw [Registry.size, behind, List.length_append]
      rfl
    rw [size, ← progress.counted, Nat.add_assoc]

end

end Step

end LoadProgress

/-! ## Whole runs -/

/-- How a run ends: nothing is pending and the statements are counted, or the run stops at the first
origin that is pending. -/
inductive Ended (settings : LoadSettings) (tree : FileTree) (visited : List (List String))
    (count : Nat) : List (Address × Origin) → Loaded → Prop
  | finished {registry : Registry} : Ended settings tree visited count [] ⟨registry, .ok count⟩
  | stopped {address : Address} {origin : Origin} {pending : List (Address × Origin)}
      {registry : Registry} {cause : LoadError} :
      Stops settings tree visited registry origin cause →
        Ended settings tree visited count ((address, origin) :: pending) ⟨registry, .error cause⟩

namespace LoadSettings

/-- A run that has progressed goes on to its end with progress. -/
theorem loadPaths_progress {paths : List String}
    (progress : LoadProgress settings tree entry start done visited registry count pending)
    (origins : pending.map Prod.snd = paths.map .file) :
    ∃ lastDone lastVisited lastCount lastPending,
      LoadProgress settings tree entry start lastDone lastVisited
          (settings.loadPaths tree visited registry count paths).registry lastCount lastPending ∧
        Ended settings tree lastVisited lastCount lastPending
          (settings.loadPaths tree visited registry count paths) := by
  -- The paths that are left are the pending origins without their addresses.
  fun_induction loadPaths settings tree visited registry count paths generalizing done pending with
  | case1 visited registry count =>
      obtain rfl := List.map_eq_nil_iff.mp origins
      exact ⟨done, visited, count, [], progress, .finished⟩
  | case2 visited registry count path paths cause fails =>
      obtain ⟨⟨address, origin⟩, rest, rfl, rfl, _⟩ := List.map_eq_cons_iff.mp origins
      exact ⟨done, visited, count, _, progress, .stopped (stops_of_openFile fails)⟩
  | case3 visited registry count path paths file opens cause fails =>
      obtain ⟨⟨address, origin⟩, rest, rfl, rfl, _⟩ := List.map_eq_cons_iff.mp origins
      have ⟨_, document⟩ := source_of_openFile opens
      exact ⟨done, visited, count, _, progress,
        .stopped (Source.stops_of_contribute document fails)⟩
  | case4 visited registry count path paths file opens part contributes ih =>
      obtain ⟨⟨address, origin⟩, rest, rfl, rfl, others⟩ := List.map_eq_cons_iff.mp origins
      have ⟨found, document⟩ := source_of_openFile opens
      have place := FileTree.place?_eq_some_iff.mpr found
      obtain ⟨reading, reads, registers, counts, names⟩ :=
        Source.reading_of_contribute document contributes
      have fresh : ∀ other, tree.place? (.file path) = some other → other ∉ visited := by
        intro other same
        rw [place] at same
        cases same
        exact file.fresh
      have next := progress.step fresh reads registers
      rw [place, ← counts] at next
      refine ih next ?_
      rw [List.map_append, Address.map_entries, others, names, List.map_append]
      rfl

/-- **A run ends with progress.** Whatever is loaded and whatever goes wrong, the registry that is
left holds the statements of the documents that are done; and everything is done, or the run has
stopped at the first document that is not. -/
theorem loadFrom_progress (settings : LoadSettings) (tree : FileTree) (start : Registry)
    (entry : Origin) :
    ∃ done visited count pending,
      LoadProgress settings tree entry start done visited
          (settings.loadFrom tree start entry).registry count pending ∧
        Ended settings tree visited count pending (settings.loadFrom tree start entry) := by
  have initial := LoadProgress.initial settings tree entry start
  cases entry with
  | file path => exact loadPaths_progress initial rfl
  | memory content =>
      have document : settings.source tree (.memory content) =
          .ok ⟨Mapper.memory, settings.baseDirectory.getD "", content⟩ := rfl
      rw [loadFrom, loadText]
      split
      · rename_i cause fails
        exact ⟨[], [], 0, _, initial, .stopped (Source.stops_of_contribute document fails)⟩
      · rename_i part contributes
        obtain ⟨reading, reads, registers, counts, names⟩ :=
          Source.reading_of_contribute document contributes
        have fresh : ∀ place, tree.place? (.memory content) = some place → place ∉ [] := by
          intro place missing
          cases missing
        have next := initial.step fresh reads registers
        rw [Nat.zero_add, ← counts] at next
        refine loadPaths_progress next ?_
        rw [List.map_append, Address.map_entries, names]
        exact List.append_nil _

end LoadSettings

end

end SqlTemplate
