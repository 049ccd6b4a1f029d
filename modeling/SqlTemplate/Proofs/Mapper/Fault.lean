import SqlTemplate.Proofs.Mapper.WellFormed
import SqlTemplate.Proofs.Template.Fault
import SqlTemplate.Statement.Bind

/-!
# How binding a statement of a mapper may fail

Binding a statement that was read from a document may fail, but only in the ways that
`Statement.FailsWith` lists (`Mapper.bind_failsWith`).  Every fault has the key of the statement.  A
statement with a fixed text misses parameters, or has a name that writes no path; a statement with a
template fails with a fault of values that some node of the template raises, and it is aborted only
if a remainder is written in some test of the template.

The other faults are out of reach because reading replaces all references: no reference is left in
a statement to be rendered.  This holds for every mapper of a document, also for one that is read
behind others, where a closing tag may come first (`Reader.run_prolog_eq_empty_or_isSound`).
-/

namespace SqlTemplate

set_option autoImplicit false

open Markup (Event)
open Outcome

/-! ## Faults of binding -/

/-- The ways in which binding a statement to parameters may fail. -/
inductive Statement.FailsWith (statement : Statement) (params : Params) :
    Stop BindError → Prop where
  | wrongCount {items : List Value} (fixed : statement.template = none)
      (given : params = .positional items) :
      FailsWith statement params
        (.fault (.binding statement.key (.wrongCount statement.parameters items.length)))
  | noneGiven (fixed : statement.template = none) (given : params = .none) :
      FailsWith statement params (.fault (.binding statement.key (.noneGiven statement.parameters)))
  | notFound {name : String} (fixed : statement.template = none)
      (asked : name ∈ statement.parameters) :
      FailsWith statement params (.fault (.binding statement.key (.notFound name params.shape)))
  | invalidPath {name : String} (fixed : statement.template = none)
      (asked : name ∈ statement.parameters) :
      FailsWith statement params (.fault (.rendering statement.key (.invalidPath ⟨name⟩)))
  | rendering {root : Node} {cause : RenderError} (dynamic : statement.template = some root)
      (ofValues : cause.IsOfValues) (raised : root.Somewhere fun place => place.Raises cause) :
      FailsWith statement params (.fault (.rendering statement.key cause))
  | aborted {root : Node} (dynamic : statement.template = some root)
      (mayAbort : root.Somewhere Node.MayAbort) : FailsWith statement params .aborted

namespace Statement

variable {statement : Statement}

/-- A name of a fixed text fails with itself. -/
theorem argument_failsOnly (fixed : statement.template = none) (params : Params) {name : String}
    (asked : name ∈ statement.parameters) :
    FailsOnly (fun cause => statement.FailsWith params (.fault cause))
      (statement.argument params name) := by
  rw [argument]
  cases resolved : (Scope.root params).resolve name with
  | error cause =>
      rw [Scope.resolve_failsOnly (.root params) name cause resolved]
      exact .error (.invalidPath fixed asked)
  | ok found =>
      cases found with
      | none => exact .error (.notFound fixed asked)
      | some value => exact .ok value

theorem fixedArguments_failsOnly (fixed : statement.template = none) (params : Params) :
    FailsOnly (fun cause => statement.FailsWith params (.fault cause))
      (statement.fixedArguments params) := by
  cases params with
  | positional items =>
      rw [fixedArguments]
      split
      · exact .ok items
      · exact .error (.wrongCount fixed rfl)
  | none =>
      rw [fixedArguments]
      split
      · exact .ok []
      · exact .error (.noneGiven fixed rfl)
  | scalar value | named members | accessor get? =>
      exact .mapM fun name listed => argument_failsOnly fixed _ listed

/-- A statement in whose template no reference is left fails only in the listed ways. -/
theorem bind_failsOnly
    (expanded : ∀ root, statement.template = some root → root.Everywhere Node.IsExpanded)
    (params : Params) : FailsOnly (statement.FailsWith params) (statement.bind params) := by
  have fragment : FailsOnly (statement.FailsWith params) (statement.fragment params) := by
    rw [Statement.fragment]
    cases template : statement.template with
    | none => exact ((fixedArguments_failsOnly template params).map _).reported
    | some root =>
        show FailsOnly _ ((root.generate params).mapError _)
        cases rendered : root.generate params with
        | ok fragment => exact .ok fragment
        | error stop =>
            cases stop with
            | fault cause =>
                have ofValues := Node.isOfValues_of_generate (expanded root template) rendered
                have raised := Node.exists_raised_of_generate rendered
                exact .error (.rendering template ofValues raised)
            | aborted =>
                have mayAbort := Node.exists_mayAbort_of_generate rendered
                exact .error (.aborted template mayAbort)
  exact fragment.bind fun _ => .ok _

end Statement

/-! ## Statements that are read -/

/-- A mapper that is read from any events is sound, or it was finished by a closing tag before it
began and holds nothing. -/
theorem Reader.run_prolog_eq_empty_or_isSound {location : String} {events : List Event}
    {draft : Draft} (finishes : (run location .prolog events).1 = .ok draft) :
    draft = .empty "" ∨ draft.IsSound := by
  induction events with
  | nil => cases finishes
  | cons event events ih =>
      cases event with
      | start tag =>
          right
          exact run_cons_isSound (fun _ => step_prolog_isSound (.inl rfl))
            (fun _ nextSound => run_isSound nextSound) finishes
      | empty tag =>
          right
          exact run_cons_isSound (fun _ => step_prolog_isSound (.inr rfl))
            (fun _ nextSound => run_isSound nextSound) finishes
      | stop =>
          cases finishes
          exact .inl rfl
      | text content | data content => exact ih finishes
      | fault => cases finishes

/-- A statement of a sound draft is made of nodes. -/
theorem Draft.IsSound.exists_isMadeOf {draft : Draft} (sound : draft.IsSound) {location : String}
    {depth : Nat} {mapper : Mapper} (finishes : draft.finish location depth = .ok mapper)
    {statement : Statement} (listed : statement ∈ mapper.statements) :
    ∃ nodes, statement.IsMadeOf mapper.namespaceName nodes := by
  have made := (sound.finish_isWellFormed finishes).statements
  obtain ⟨body, _, nodes, _, isMade⟩ := exists_of_mem_of_forall₂ made listed
  exact ⟨nodes, isMade⟩

namespace Mapper

/-- The template of a statement that is read has no references. -/
theorem template_isExpanded {location : String} {depth : Nat} {events : List Event}
    {mapper : Mapper} (reads : (next location depth events).1 = .ok mapper)
    {statement : Statement} (listed : statement ∈ mapper.statements) {root : Node}
    (dynamic : statement.template = some root) : root.Everywhere Node.IsExpanded := by
  obtain ⟨draft, finishes, becomes⟩ := bind_eq_ok_iff.mp reads
  have becomes := mapError_eq_ok_iff.mp becomes
  rcases Reader.run_prolog_eq_empty_or_isSound finishes with rfl | sound
  · cases becomes
    cases listed
  · obtain ⟨nodes, isMade⟩ := sound.exists_isMadeOf becomes listed
    exact (isMade.dynamic root dynamic).2

/-- **Binding a statement that is read fails only in the listed ways**, whatever the parameters are,
for every mapper that any events give. -/
theorem bind_failsWith {location : String} {depth : Nat} {events : List Event} {mapper : Mapper}
    (reads : (next location depth events).1 = .ok mapper) {statement : Statement}
    (listed : statement ∈ mapper.statements) {params : Params} {stop : Stop BindError}
    (fails : statement.bind params = .error stop) : statement.FailsWith params stop :=
  Statement.bind_failsOnly (fun _ dynamic => template_isExpanded reads listed dynamic) params stop
    fails

/-- A mapper with a statement of fixed text and a statement whose fragment is put into a loop. -/
def townsDocument : List UInt8 :=
  "<mapper namespace='towns'>
      <sql id='cell'><if test='size == nil'>#{town.name}</if></sql>
      <select id='byId'>FROM town WHERE id = #{id}</select>
      <select id='among'>name IN <foreach collection='towns' item='town' separator=', '>
        <include refid='cell'/></foreach></select>
    </mapper>".toUTF8.data.toList

/-- Towns of which the second has no name. -/
def namelessTown : Params :=
  .named [("towns", .array [.object [("name", .text "Oslo")], .object [("size", .ofNat 3)]])]

theorem bind_failsWith_towns :
    ∃ mapper, (next memory defaultDepth (Markup.events townsDocument)).1 = .ok mapper ∧
      mapper.statements.map Statement.key = ["towns.byId", "towns.among"] ∧
        ∀ statement ∈ mapper.statements, ∃ fault,
          statement.bind namelessTown = .error (.fault fault) ∧
            statement.FailsWith namelessTown (.fault fault) := by
  have fails : (next memory defaultDepth (Markup.events townsDocument)).1.map (fun mapper =>
      mapper.statements.map fun statement =>
        (statement.key, (statement.bind namelessTown).map BoundStatement.sql)) =
      .ok [("towns.byId", .error (.fault (.binding "towns.byId" (.notFound "id" "named")))),
        ("towns.among", .error (.fault (.rendering "towns.among"
          (.unresolved "town.name" "#\x7btown.name\x7d"))))] := by decide +kernel
  obtain ⟨mapper, reads, outcomes⟩ := map_eq_ok_iff.mp fails
  refine ⟨mapper, reads, ?_, fun statement listed => ?_⟩
  · have keys := congrArg (List.map Prod.fst) outcomes
    rwa [List.map_map] at keys
  · have outcome := List.mem_map_of_mem (f := fun statement : Statement =>
      (statement.key, (statement.bind namelessTown).map BoundStatement.sql)) listed
    rw [outcomes, List.mem_pair] at outcome
    rcases outcome with first | second
    · have bound := map_eq_error_iff.mp (Prod.mk.inj first).2
      exact ⟨_, bound, bind_failsWith reads listed bound⟩
    · have bound := map_eq_error_iff.mp (Prod.mk.inj second).2
      exact ⟨_, bound, bind_failsWith reads listed bound⟩

end Mapper

end SqlTemplate
