import SqlTemplate.Proofs.Outcome
import SqlTemplate.Session

/-!
# Calls of a session

A session has a method for each thing that a caller may want, and each method asks one function of
the executor.  What becomes of a call is said here without the steps that look it up and bind it
(`Registry.Dispatches`): the executor is asked once, or the call fails with one of three causes, of
which an unknown key counts before a wrong kind and a wrong kind before parameters that do not fit.
Where binding is aborted, the call is aborted with it; calls after it are calls of their own.

Executors work in any monad, so they may keep a state, fail at will or answer differently every
time.  To see when an executor is asked, it is run with a record of its invocations
(`Executor.recorded`).  A sequence of calls leaves exactly the invocations of the calls that are
dispatched, in their order and whatever the executor answers (`Session.answerAll_dispatches`).
A call gives back an answer and no registry; so every call of a sequence finds the registry that
the first one finds.
-/

namespace SqlTemplate

set_option autoImplicit false

open Outcome

/-! ## Calls and invocations -/

/-- The methods of a session. -/
inductive Method where
  | selectOne
  | selectList
  | insert
  | update
  | delete
  deriving Repr, DecidableEq

/-- The functions of an executor. -/
inductive Operation where
  | queryOne
  | queryAll
  | update
  deriving Repr, DecidableEq

namespace Method

/-- The kind of the statements that a method calls. -/
def kind : Method → StatementKind
  | selectOne | selectList => .select
  | insert => .insert
  | update => .update
  | delete => .delete

/-- The function of the executor that a method asks. -/
def operation : Method → Operation
  | selectOne => .queryOne
  | selectList => .queryAll
  | insert | update | delete => .update

end Method

/-- A call of a session. -/
structure Call where
  method : Method
  key : String
  params : Params

/-- What an executor is asked. -/
structure Invocation where
  operation : Operation
  sql : String
  args : List Value

/-- What an executor answers: a row or none, rows, or a number of rows. -/
inductive Answer where
  | row (row : Option Row)
  | rows (rows : List Row)
  | count (count : Nat)

section

variable {m : Type → Type} [Monad m]

namespace Executor

/-- The answer to an invocation. -/
def perform (executor : Executor m) (invocation : Invocation) : m (Except String Answer) :=
  match invocation.operation with
  | .queryOne => Except.map .row <$> executor.queryOne invocation.sql invocation.args
  | .queryAll => Except.map .rows <$> executor.queryAll invocation.sql invocation.args
  | .update => Except.map .count <$> executor.update invocation.sql invocation.args

/-- The answer to a call that is dispatched or fails: the executor is asked, or it is left alone. -/
def reply (executor : Executor m) :
    Except (Stop CallError) Invocation → m (Except (Stop CallError) Answer)
  | .ok invocation =>
      (fun answer => reported (answer.mapError .execution)) <$> executor.perform invocation
  | .error stop => pure (.error stop)

/-- An executor that keeps a record of its invocations and is otherwise the same. -/
def recorded (executor : Executor m) : Executor (StateT (List Invocation) m) where
  queryOne sql args := do
    modify (· ++ [⟨.queryOne, sql, args⟩])
    executor.queryOne sql args
  queryAll sql args := do
    modify (· ++ [⟨.queryAll, sql, args⟩])
    executor.queryAll sql args
  update sql args := do
    modify (· ++ [⟨.update, sql, args⟩])
    executor.update sql args

end Executor

namespace Session

/-- The answer to a call. -/
def answer (session : Session m) (call : Call) : m (Except (Stop CallError) Answer) :=
  match call.method with
  | .selectOne => Except.map .row <$> session.selectOne call.key call.params
  | .selectList => Except.map .rows <$> session.selectList call.key call.params
  | .insert => Except.map .count <$> session.insert call.key call.params
  | .update => Except.map .count <$> session.update call.key call.params
  | .delete => Except.map .count <$> session.delete call.key call.params

/-- The answers to calls one after the other. -/
def answerAll (session : Session m) (calls : List Call) :
    m (List (Except (Stop CallError) Answer)) :=
  calls.mapM session.answer

/-- A session whose executor keeps a record of its invocations. -/
def recorded (session : Session m) : Session (StateT (List Invocation) m) :=
  ⟨session.registry, session.executor.recorded⟩

end Session

end

/-! ## What becomes of a call -/

/-- What becomes of a call: the invocation of the executor, or why the call fails. -/
inductive Registry.Dispatches (registry : Registry) (call : Call) :
    Except (Stop CallError) Invocation → Prop
  | invokes {statement : Statement} {bound : BoundStatement}
      (found : registry.get? call.key = some statement)
      (fits : statement.kind = call.method.kind)
      (binds : registry.bind call.key call.params = .ok bound) :
      Dispatches registry call (.ok ⟨call.method.operation, bound.sql, bound.args⟩)
  | unknown (absent : registry.get? call.key = none) :
      Dispatches registry call (.error (.fault (.notRegistered call.key)))
  | misfits {statement : Statement} (found : registry.get? call.key = some statement)
      (other : statement.kind ≠ call.method.kind) :
      Dispatches registry call
        (.error (.fault (.wrongKind call.key call.method.kind statement.kind)))
  | unbound {statement : Statement} {stop : Stop CallError}
      (found : registry.get? call.key = some statement)
      (fits : statement.kind = call.method.kind)
      (fails : registry.bind call.key call.params = .error stop) :
      Dispatches registry call (.error stop)

namespace Registry

variable {registry : Registry} {call : Call} {outcome other : Except (Stop CallError) Invocation}

/-- Something becomes of every call. -/
theorem exists_dispatches (registry : Registry) (call : Call) :
    ∃ outcome, registry.Dispatches call outcome := by
  cases found : registry.get? call.key with
  | none => exact ⟨_, .unknown found⟩
  | some statement =>
      by_cases fits : statement.kind = call.method.kind
      · cases binds : registry.bind call.key call.params with
        | ok bound => exact ⟨_, .invokes found fits binds⟩
        | error stop => exact ⟨_, .unbound found fits binds⟩
      · exact ⟨_, .misfits found fits⟩

/-- One thing becomes of a call. -/
theorem Dispatches.unique (dispatches : registry.Dispatches call outcome)
    (others : registry.Dispatches call other) : outcome = other := by
  cases dispatches <;> cases others <;> simp_all

/-- Something becomes of all calls of a sequence. -/
theorem exists_forall₂_dispatches (registry : Registry) (calls : List Call) :
    ∃ outcomes, List.Forall₂ registry.Dispatches calls outcomes := by
  induction calls with
  | nil => exact ⟨[], .nil⟩
  | cons call calls ih =>
      obtain ⟨outcome, here⟩ := exists_dispatches registry call
      obtain ⟨outcomes, others⟩ := ih
      exact ⟨outcome :: outcomes, .cons here others⟩

/-- One thing becomes of each call of a sequence. -/
theorem forall₂_dispatches_unique {calls : List Call}
    {outcomes others : List (Except (Stop CallError) Invocation)}
    (dispatches : List.Forall₂ registry.Dispatches calls outcomes)
    (also : List.Forall₂ registry.Dispatches calls others) : outcomes = others := by
  induction dispatches generalizing others with
  | nil =>
      cases also
      rfl
  | cons here _ ih =>
      cases also with
      | cons there rest => rw [here.unique there, ih rest]

/-- A statement that is found and is of the kind that is asked for is bound. -/
theorem prepare_eq_bind {key : String} {params : Params} {kind : StatementKind}
    {statement : Statement} (found : registry.get? key = some statement)
    (fits : statement.kind = kind) :
    registry.prepare key params kind = registry.bind key params := by
  simp only [Registry.prepare, Registry.bind, find, found]
  exact if_pos fits

/-- A statement that is found and is of another kind is not bound. -/
theorem prepare_eq_wrongKind {key : String} {params : Params} {kind : StatementKind}
    {statement : Statement} (found : registry.get? key = some statement)
    (misfits : statement.kind ≠ kind) :
    registry.prepare key params kind = .error (.fault (.wrongKind key kind statement.kind)) := by
  simp only [Registry.prepare, find, found]
  exact if_neg misfits

/-- A statement that is not found is not bound. -/
theorem prepare_eq_notRegistered {key : String} {params : Params} {kind : StatementKind}
    (absent : registry.get? key = none) :
    registry.prepare key params kind = .error (.fault (.notRegistered key)) := by
  simp only [Registry.prepare, find, absent]
  rfl

/-- Looking a statement up, checking its kind and binding it prepares the invocation. -/
theorem Dispatches.prepare (dispatches : registry.Dispatches call outcome) :
    (registry.prepare call.key call.params call.method.kind).map
        (fun bound => ⟨call.method.operation, bound.sql, bound.args⟩) = outcome := by
  cases dispatches with
  | invokes found fits binds =>
      rw [prepare_eq_bind found fits, binds]
      rfl
  | unknown absent =>
      rw [prepare_eq_notRegistered absent]
      rfl
  | misfits found other =>
      rw [prepare_eq_wrongKind found other]
      rfl
  | unbound found fits fails =>
      rw [prepare_eq_bind found fits, fails]
      rfl

end Registry

/-! ## What a session does -/

section

variable {m : Type → Type} [Monad m] [LawfulMonad m]

namespace Session

variable {session : Session m} {kind : StatementKind} {key : String} {params : Params} {α : Type}
  {execute : String → List Value → m (Except String α)} {rewrite : α → Answer}

/-- A call that cannot be prepared leaves the executor alone. -/
theorem map_call_of_error {stop : Stop CallError}
    (fails : session.registry.prepare key params kind = .error stop) :
    Except.map rewrite <$> session.call kind execute key params = pure (.error stop) := by
  simp only [Session.call, fails, map_pure]
  rfl

/-- A call that is prepared asks the executor and gives its answer. -/
theorem map_call_of_ok {bound : BoundStatement}
    (prepared : session.registry.prepare key params kind = .ok bound) :
    Except.map rewrite <$> session.call kind execute key params =
      (fun answer => reported (answer.mapError .execution)) <$>
        Except.map rewrite <$> execute bound.sql bound.args := by
  simp only [Session.call, prepared, ← map_eq_pure_bind, Functor.map_map]
  refine congrArg (· <$> execute bound.sql bound.args) (funext fun result => ?_)
  cases result with
  | error report => rfl
  | ok value => rfl

/-- A call is answered as what becomes of it says. -/
theorem answer_eq {call : Call} {outcome : Except (Stop CallError) Invocation}
    (dispatches : session.registry.Dispatches call outcome) :
    session.answer call = session.executor.reply outcome := by
  rw [← dispatches.prepare]
  obtain ⟨method, key, params⟩ := call
  cases prepared : session.registry.prepare key params method.kind with
  | error stop => cases method <;> exact map_call_of_error prepared
  | ok bound => cases method <;> exact map_call_of_ok prepared

/-- The answers to calls are the replies to what becomes of them. -/
theorem answerAll_eq {calls : List Call} {outcomes : List (Except (Stop CallError) Invocation)}
    (dispatches : List.Forall₂ session.registry.Dispatches calls outcomes) :
    session.answerAll calls = outcomes.mapM session.executor.reply := by
  induction dispatches with
  | nil => simp [answerAll]
  | cons here _ ih =>
      rw [answerAll, List.mapM_cons, List.mapM_cons, answer_eq here, ← ih]
      rfl

end Session

namespace Executor

/-- An invocation is recorded, and answered as without a record. -/
theorem run_perform_recorded (executor : Executor m) (invocation : Invocation)
    (log : List Invocation) :
    (executor.recorded.perform invocation).run log =
      (·, log ++ [invocation]) <$> executor.perform invocation := by
  obtain ⟨operation, sql, args⟩ := invocation
  cases operation <;> simp [perform, recorded]

/-- A reply leaves the record of the invocation, if the executor is asked. -/
theorem run_reply_recorded (executor : Executor m) (outcome : Except (Stop CallError) Invocation)
    (log : List Invocation) :
    (executor.recorded.reply outcome).run log =
      (·, log ++ outcome.toOption.toList) <$> executor.reply outcome := by
  cases outcome with
  | error stop => simp [reply, Except.toOption]
  | ok invocation => simp [reply, Except.toOption, run_perform_recorded]

/-- Replies one after the other leave the record of their invocations, in order. -/
theorem run_mapM_reply_recorded (executor : Executor m)
    (outcomes : List (Except (Stop CallError) Invocation)) (log : List Invocation) :
    (outcomes.mapM executor.recorded.reply).run log =
      (·, log ++ outcomes.filterMap Except.toOption) <$> outcomes.mapM executor.reply := by
  induction outcomes generalizing log with
  | nil => simp
  | cons outcome outcomes ih =>
      have record : (outcome :: outcomes).filterMap Except.toOption =
          outcome.toOption.toList ++ outcomes.filterMap Except.toOption := by
        cases outcome <;> rfl
      simp [List.mapM_cons, run_reply_recorded, ih, record]

end Executor

/-- A sequence of calls is answered as what becomes of each call says, by one reply after the
other, and what becomes of a call depends on nothing but the call and the registry.  The executor
is asked by the calls that are dispatched, once by each and in their order, and by no other. -/
theorem Session.answerAll_dispatches (session : Session m) (calls : List Call) :
    ∃ outcomes,
      (∀ others, List.Forall₂ session.registry.Dispatches calls others ↔ others = outcomes) ∧
        session.answerAll calls = outcomes.mapM session.executor.reply ∧
        ∀ log, (session.recorded.answerAll calls).run log =
          (·, log ++ outcomes.filterMap Except.toOption) <$> session.answerAll calls := by
  obtain ⟨outcomes, dispatches⟩ := Registry.exists_forall₂_dispatches session.registry calls
  refine ⟨outcomes, fun others => ?_, answerAll_eq dispatches, fun log => ?_⟩
  · constructor
    · exact fun dispatched => Registry.forall₂_dispatches_unique dispatched dispatches
    · rintro rfl
      exact dispatches
  · have recorded : session.recorded.answerAll calls =
        outcomes.mapM session.executor.recorded.reply := answerAll_eq dispatches
    rw [recorded, answerAll_eq dispatches]
    exact session.executor.run_mapM_reply_recorded outcomes log

end

/-- An executor that counts what it is asked, changes a row in the first update and refuses the
others. -/
def countingExecutor : Executor (StateM Nat) where
  queryOne _ _ := fun count => (.ok none, count + 1)
  queryAll _ _ := fun count => (.ok [], count + 1)
  update _ _ := fun count => (if count = 0 then .ok 1 else .error "locked", count + 1)

/-- An update without parameters. -/
def touchNotes : Statement := ⟨"", "touch", .update, none, none, none, "UPDATE notes", [], none⟩

/-- A session with one statement, an update, and the executor that counts. -/
def countingSession : Session (StateM Nat) where
  registry := ⟨[touchNotes], by simp⟩
  executor := countingExecutor

/-- Of five calls, three fail before the executor is asked. -/
theorem Session.answerAll_dispatches_counting :
    ((countingSession.recorded.answerAll
        [⟨.update, "touch", .none⟩, ⟨.insert, "touch", .positional [.null]⟩,
          ⟨.selectOne, "gone", .none⟩, ⟨.update, "touch", .none⟩,
          ⟨.update, "touch", .positional [.null]⟩]).run []).run 0 =
      (([.ok (.count 1), .error (.fault (.wrongKind "touch" .insert .update)),
          .error (.fault (.notRegistered "gone")), .error (.fault (.execution "locked")),
          .error (.fault (.bind (.binding "touch" (.wrongCount [] 1))))],
        [⟨.update, "UPDATE notes", []⟩, ⟨.update, "UPDATE notes", []⟩]), 2) := by
  obtain ⟨outcomes, only, answers, record⟩ := Session.answerAll_dispatches countingSession
    [⟨.update, "touch", .none⟩, ⟨.insert, "touch", .positional [.null]⟩,
      ⟨.selectOne, "gone", .none⟩, ⟨.update, "touch", .none⟩,
      ⟨.update, "touch", .positional [.null]⟩]
  have touched : countingSession.registry.Dispatches ⟨.update, "touch", .none⟩
      (.ok ⟨.update, "UPDATE notes", []⟩) :=
    @Registry.Dispatches.invokes _ _ _ ⟨"touch", .update, "UPDATE notes", []⟩ rfl rfl rfl
  have inserted : countingSession.registry.Dispatches ⟨.insert, "touch", .positional [.null]⟩
      (.error (.fault (.wrongKind "touch" .insert .update))) :=
    @Registry.Dispatches.misfits _ _ touchNotes rfl (by decide)
  have dispatched := (only _).mp <|
    .cons touched <| .cons inserted <| .cons (.unknown rfl) <| .cons touched <|
      .cons (.unbound rfl rfl rfl) .nil
  rw [record, answers, ← dispatched]
  rfl

end SqlTemplate
