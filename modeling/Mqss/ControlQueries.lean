import Mqss.Relay

/-!
Queries for a completed control task. A result query and a cancel-reason query
share one destructive look at the store, so a record lasts until its fitting
query in exactly the runs that never ask the other one for it.
-/

namespace Mqss.QOffload
open Mqss.Words Mqss.Machine

/-- The command takes the completed task with this id. -/
def ControlCommand.takes (id : UInt64) : ControlCommand → Bool
  | .GetTaskResult task_id => task_id = id
  | .GetCancelReason task_id => task_id = id
  | _ => false

/-- The task a command asks about. -/
def ControlCommand.about : ControlCommand → Option UInt64
  | .GetTaskStatus task_id => some task_id
  | .GetTaskResult task_id => some task_id
  | .GetCancelReason task_id => some task_id
  | _ => none

/-- What the fitting query is answered: the result of a task that was completed, the
    reason of one that was cancelled. -/
def CompletedControlTask.answer (record : CompletedControlTask) : ControlCommand → Option ControlResult
  | .GetTaskResult task_id =>
    if task_id = record.task_id ∧ record.execution_status = true then some (.TaskResult record) else none
  | .GetCancelReason task_id =>
    if task_id = record.task_id ∧ record.execution_status = false then some (.CancelReason record.cancel_reason)
    else none
  | _ => none

namespace Relay

/-- A call leaves the record of a task, or is the fitting query and is answered with it. -/
def KeepsRecord (config : Config) (id : UInt64) (s : Relay) (op : Op) : Prop :=
  ∀ record, s.tasks.completed_control_tasks.lookup id = some record →
    (∃ request answer, op = .process request ∧ record.answer (Control.command request) = some answer ∧
      (s.process config request).1.response =
        (controlProtocolFor request).encode answer request.response_queue) ∨
    (∀ request, op = .process request → record.answer (Control.command request) = none) ∧
      ∀ t, step config s op = some t → t.tasks.completed_control_tasks.lookup id = some record

/-- A call does not ask the wrong one of the two queries for a record in the store. -/
def AsksFitting (id : UInt64) (s : Relay) (op : Op) : Prop :=
  ∀ record request, s.tasks.completed_control_tasks.lookup id = some record → op = .process request →
    (Control.command request).takes id = true → (record.answer (Control.command request)).isSome = true

/-- The response to a request, and the command's effect on the store. -/
theorem process_response (config : Config) (s : Relay) (request : APIRequest) :
    (s.process config request).1.response =
      (controlProtocolFor request).encode
        (Control.executeControlCommand (Control.command request) s.tasks config s.forwarder).1.result
        request.response_queue := rfl

theorem process_tasks (config : Config) (s : Relay) (request : APIRequest) :
    (s.process config request).2.tasks =
      (Control.executeControlCommand (Control.command request) s.tasks config s.forwarder).2.2 := rfl

/-- A query for a stored task that is not pending gets and removes it. -/
theorem takeCompleted_stored {answer : CompletedControlTask → ControlResult} {tasks : TaskStore} {id : UInt64}
    {record : CompletedControlTask} (idle : id ∉ tasks.pending)
    (found : tasks.completed_control_tasks.lookup id = some record) :
    Control.takeCompleted answer tasks id =
      (answer record, { tasks with completed_control_tasks := tasks.completed_control_tasks.erase id }) := by
  rw [Control.takeCompleted_spec, if_neg idle]
  simp only [found]

/-- A query leaves the records of other tasks. -/
theorem takeCompleted_other (answer : CompletedControlTask → ControlResult) (tasks : TaskStore) {id other : UInt64}
    (apart : other ≠ id) : (Control.takeCompleted answer tasks id).2.completed_control_tasks.lookup other =
      tasks.completed_control_tasks.lookup other := by
  rw [Control.takeCompleted_spec]
  split
  · rfl
  · split
    · rfl
    · exact Finmap.lookup_erase_ne apart

/-- What a request does to a record in the store: the fitting query is answered with it,
    the other query destroys it, and any other request leaves it. -/
theorem process_record {config : Config} {uid : UInt64} {s : Relay} {n : Nat} (ok : Ok uid s n) {id : UInt64}
    {record : CompletedControlTask} (found : s.tasks.completed_control_tasks.lookup id = some record)
    (request : APIRequest) :
    if (Control.command request).takes id then
      (s.process config request).2.tasks.completed_control_tasks.lookup id = none ∧
      ∀ answer, record.answer (Control.command request) = some answer →
        (s.process config request).1.response = (controlProtocolFor request).encode answer request.response_queue
    else record.answer (Control.command request) = none ∧
      (s.process config request).2.tasks.completed_control_tasks.lookup id = some record := by
  have idle : id ∉ s.tasks.pending := fun pending => ok.apart id pending (Finmap.mem_iff.mpr ⟨record, found⟩)
  have key := (ok.completedIds id record found).1
  rw [process_response, process_tasks]
  cases asked : Control.command request with
  | GetTaskResult task_id =>
    by_cases same : task_id = id
    · subst same
      simp only [ControlCommand.takes, decide_true, ↓reduceIte, Control.executeControlCommand, Control.getTaskResult,
        takeCompleted_stored idle found]
      refine ⟨Finmap.lookup_erase _ _, ?_⟩
      intro answer owed
      simp only [CompletedControlTask.answer] at owed
      split at owed
      · rw [Option.some.inj owed]
      · cases owed
    · simp only [ControlCommand.takes, same, decide_false, Bool.false_eq_true, ↓reduceIte,
        Control.executeControlCommand, Control.getTaskResult]
      refine ⟨by simp [CompletedControlTask.answer, key, same], ?_⟩
      rw [takeCompleted_other _ _ (Ne.symm same), found]
  | GetCancelReason task_id =>
    by_cases same : task_id = id
    · subst same
      simp only [ControlCommand.takes, decide_true, ↓reduceIte, Control.executeControlCommand, Control.getCancelReason,
        takeCompleted_stored idle found]
      refine ⟨Finmap.lookup_erase _ _, ?_⟩
      intro answer owed
      simp only [CompletedControlTask.answer] at owed
      split at owed
      · rw [Option.some.inj owed]
      · cases owed
    · simp only [ControlCommand.takes, same, decide_false, Bool.false_eq_true, ↓reduceIte,
        Control.executeControlCommand, Control.getCancelReason]
      refine ⟨by simp [CompletedControlTask.answer, key, same], ?_⟩
      rw [takeCompleted_other _ _ (Ne.symm same), found]
  | _ => exact ⟨rfl, found⟩

/-- A call that is no request leaves every record: a result is stored under an id that has none. -/
theorem call_keeps_record {config : Config} {uid : UInt64} {s t : Relay} {op : Op} {n : Nat} (ok : Ok uid s n)
    {id : UInt64} {record : CompletedControlTask} (found : s.tasks.completed_control_tasks.lookup id = some record)
    (call : ∀ request, op ≠ .process request) (stepped : step config s op = some t) :
    t.tasks.completed_control_tasks.lookup id = some record := by
  have idle : id ∉ s.tasks.pending := fun pending => ok.apart id pending (Finmap.mem_iff.mpr ⟨record, found⟩)
  exact step_keeps_record ok.own idle (fun request same => absurd same (call request)) found stepped

/-- In a consistent store a call keeps a record if and only if it does not ask the wrong query. -/
theorem keepsRecord_iff {config : Config} {uid : UInt64} {s : Relay} {n : Nat} (ok : Ok uid s n) (id : UInt64)
    (op : Op) : KeepsRecord config id s op ↔ AsksFitting id s op := by
  constructor
  · rintro keeps record request found rfl takes
    have effect := @process_record config _ _ _ ok _ _ found request
    rw [if_pos takes] at effect
    rcases keeps record found with ⟨_, answer, same, owed, _⟩ | ⟨_, stays⟩
    · obtain rfl := Op.process.inj same
      rw [owed]
      rfl
    · have kept := stays (s.process config request).2 rfl
      rw [effect.1] at kept
      cases kept
  · intro fitting record found
    by_cases call : ∀ request, op ≠ .process request
    · exact .inr ⟨fun request same => absurd same (call request), fun t stepped => call_keeps_record ok found call stepped⟩
    · simp only [not_forall, not_not] at call
      obtain ⟨request, rfl⟩ := call
      have effect := @process_record config _ _ _ ok _ _ found request
      split at effect
      · rename_i takes
        obtain ⟨answer, owed⟩ := Option.isSome_iff_exists.mp (fitting record request found rfl takes)
        exact .inl ⟨request, answer, rfl, owed, effect.2 answer owed⟩
      · refine .inr ⟨fun other same => ?_, fun t stepped => ?_⟩
        · obtain rfl := Op.process.inj same
          exact effect.1
        · obtain rfl := Option.some.inj stepped
          exact effect.2

/-- The answer to a query depends on what the store has under its task's id. -/
theorem answer_of_view (config : Config) (forwarder : Forward) {command : ControlCommand} {id : UInt64}
    (asks : command.about = some id) {tasks now : TaskStore} (pending : now.pending = tasks.pending)
    (record : now.completed_control_tasks.lookup id = tasks.completed_control_tasks.lookup id) :
    (Control.executeControlCommand command now config forwarder).1 =
      (Control.executeControlCommand command tasks config forwarder).1 := by
  have status : now.status id = tasks.status id := by
    unfold TaskStore.status
    rw [pending, record]
  have taken : ∀ answer, (Control.takeCompleted answer now id).1 = (Control.takeCompleted answer tasks id).1 := by
    intro answer
    rw [Control.takeCompleted_spec, Control.takeCompleted_spec, pending, record]
    split
    · rfl
    · split <;> rfl
  cases command with
  | GetTaskStatus task_id =>
    obtain rfl := Option.some.inj asks
    simp only [Control.executeControlCommand, status]
  | GetTaskResult task_id =>
    obtain rfl := Option.some.inj asks
    simp only [Control.executeControlCommand, Control.getTaskResult, taken]
  | GetCancelReason task_id =>
    obtain rfl := Option.some.inj asks
    simp only [Control.executeControlCommand, Control.getCancelReason, taken]
  | _ => cases asks

/-- A query about one task leaves what the store has under every other id. -/
theorem process_view (config : Config) (s : Relay) {request : APIRequest} {id other : UInt64}
    (asks : (Control.command request).about = some id) (apart : other ≠ id) :
    (s.process config request).2.forwarder = s.forwarder ∧
      (s.process config request).2.tasks.pending = s.tasks.pending ∧
      (s.process config request).2.tasks.completed_control_tasks.lookup other =
        s.tasks.completed_control_tasks.lookup other := by
  have effect : (s.process config request).2 =
      ⟨(Control.executeControlCommand (Control.command request) s.tasks config s.forwarder).2.1,
        (Control.executeControlCommand (Control.command request) s.tasks config s.forwarder).2.2⟩ := rfl
  rw [effect]
  cases command : Control.command request with
  | GetTaskStatus task_id => exact ⟨rfl, rfl, rfl⟩
  | GetTaskResult task_id =>
    rw [command] at asks
    obtain rfl := Option.some.inj asks
    exact ⟨rfl, Control.takeCompleted_pending _ _ _, takeCompleted_other _ _ apart⟩
  | GetCancelReason task_id =>
    rw [command] at asks
    obtain rfl := Option.some.inj asks
    exact ⟨rfl, Control.takeCompleted_pending _ _ _, takeCompleted_other _ _ apart⟩
  | _ => simp [command, ControlCommand.about] at asks

/-- A query about one task does not change the answer to a query about another. -/
theorem queries_independent (config : Config) (s : Relay) {request other : APIRequest} {id id' : UInt64}
    (asks : (Control.command request).about = some id) (asks' : (Control.command other).about = some id')
    (apart : id ≠ id') : ((s.process config request).2.process config other).1 = (s.process config other).1 := by
  obtain ⟨counter, pending, record⟩ := process_view config s asks apart.symm
  have same := answer_of_view config s.forwarder asks' pending record
  have outcome : ∀ u : Relay, (u.process config other).1 =
      ⟨(Control.executeControlCommand (Control.command other) u.tasks config u.forwarder).1.outbound_task,
        (controlProtocolFor other).encode
          (Control.executeControlCommand (Control.command other) u.tasks config u.forwarder).1.result
          other.response_queue⟩ := fun _ => rfl
  rw [outcome, outcome, counter, same]

theorem along_keepsRecord_iff {uid : UInt64} {config : Config} {ops : List Op} {s t : Relay} {n : Nat}
    (ok : Ok uid s n) (few : n + submissions ops ≤ 2 ^ 60) (ran : run (step config) s ops = some t) (id : UInt64) :
    Along (step config) (KeepsRecord config id) s ops ↔ Along (step config) (AsksFitting id) s ops := by
  induction ops generalizing s n with
  | nil => exact Iff.rfl
  | cons op ops ih =>
    obtain ⟨next, stepped, rest⟩ := run_cons.mp ran
    rw [submissions_cons] at few
    rw [along_cons stepped, along_cons stepped, keepsRecord_iff ok id op]
    exact and_congr_right fun _ => ih (step_ok ok (by omega) stepped) (by omega) rest

/-- From every reachable store on, a run keeps the record of a task until its fitting query,
    which is answered with it, if and only if the wrong query is never asked for it. No
    query about one task changes the answer to a query about another. -/
theorem fitting_query_takes_record_iff {uid : UInt64} {config : Config} {before ops : List Op} {s t : Relay}
    (reached : run (step config) (.new uid) before = some s) (ran : run (step config) s ops = some t)
    (few : submissions before + submissions ops ≤ 2 ^ 60) (id : UInt64) :
    (Along (step config) (KeepsRecord config id) s ops ↔ Along (step config) (AsksFitting id) s ops) ∧
    ∀ u request other id', (Control.command request).about = some id → (Control.command other).about = some id' →
      id ≠ id' → ((Relay.process config u request).2.process config other).1 = (Relay.process config u other).1 := by
  refine ⟨?_, fun u request other id' asks asks' apart => queries_independent config u asks asks' apart⟩
  have ok := run_ok (new_ok uid) (by omega) reached
  exact along_keepsRecord_iff ok (by omega) ran id

/-- A control task is created, and its result comes back. -/
def finishedTask (execution_status : Bool) : List Op :=
  [.process { typed_request := some (.create_task {}), response_queue := "client" },
    .processResult { task_id := 11, execution_status := execution_status }]

def askFor (query : TypedRequest) : Op :=
  .process { typed_request := some query, response_queue := "client" }

/-- The status of a cancelled task is asked, and then its reason. -/
def statusThenReason : List Op := [askFor (.task_status 11), askFor (.cancel_reason 11)]

theorem statusThenReason_fits {s : Relay}
    (stored : s.tasks.completed_control_tasks.lookup 11 = some { task_id := 11, execution_status := false })
    {op : Op} (member : op ∈ statusThenReason) : AsksFitting 11 s op := by
  intro record request found same takes
  obtain rfl := Option.some.inj (stored.symm.trans found)
  obtain rfl | rfl : op = askFor (.task_status 11) ∨ op = askFor (.cancel_reason 11) := by
    simpa [statusThenReason] using member
  · obtain rfl := Op.process.inj same
    cases takes
  · obtain rfl := Op.process.inj same
    rfl

theorem cancelled_status_then_reason : ∃ s t,
    run (step makeDefaultConfig) (.new 11) (finishedTask false) = some s ∧
    s.tasks.completed_control_tasks.lookup 11 = some { task_id := 11, execution_status := false } ∧
    run (step makeDefaultConfig) s statusThenReason = some t ∧
    Along (step makeDefaultConfig) (AsksFitting 11) s statusThenReason ∧
    Along (step makeDefaultConfig) (KeepsRecord makeDefaultConfig 11) s statusThenReason := by
  obtain ⟨s, reached, stored⟩ : ∃ s, run (step makeDefaultConfig) (.new 11) (finishedTask false) = some s ∧
      s.tasks.completed_control_tasks.lookup 11 = some { task_id := 11, execution_status := false } :=
    ⟨_, rfl, by decide⟩
  have asks : Along (step makeDefaultConfig) (AsksFitting 11) s statusThenReason := by
    refine ⟨statusThenReason_fits stored List.mem_cons_self, fun next stepped => ⟨?_, fun _ _ => trivial⟩⟩
    -- a status query leaves the store
    obtain rfl := Option.some.inj stepped
    exact statusThenReason_fits stored (List.mem_cons_of_mem _ List.mem_cons_self)
  exact ⟨s, _, reached, stored, rfl, asks,
    (fitting_query_takes_record_iff reached rfl (by decide) 11).1.mpr asks⟩

/-- A cancel-reason query destroys the result of a task that was completed. -/
theorem completed_result_lost_to_reason_query : ∃ s t,
    run (step makeDefaultConfig) (.new 11) (finishedTask true) = some s ∧
    s.tasks.completed_control_tasks.lookup 11 = some { task_id := 11, execution_status := true } ∧
    step makeDefaultConfig s (askFor (.cancel_reason 11)) = some t ∧
    (t.process makeDefaultConfig { typed_request := some (.task_result 11) }).1.response.typed_response =
      some (.error "JOB NOT FOUND") := by
  refine ⟨_, _, rfl, ?_, rfl, ?_⟩
  · decide
  · decide

end Relay
end Mqss.QOffload
