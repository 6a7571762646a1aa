import Mqss.Workers

/-!
The sequential service inside the concurrent one. A worker that goes through its
loop undisturbed computes what the sequential call does and sends the messages
that the call returns, so every sequential run is one of the interleavings.
-/

namespace Mqss.QOffload
open Mqss.Words Mqss.Machine

namespace Service

/-- The steps of a loop that handles one call of the sequential service. Tasks are created
    for requests only. -/
def loop (s : Relay) : Relay.Op → Option (List Event)
  | .forwardDirectTask request => some [.receiveTask request, .numberTask, .registerTask, .sendTask false]
  | .createControlTask _ => none
  | .processResult result =>
    match s.tasks.pending.lookup (widen result.task_id) with
    | none => some [.receiveResult result, .takePending]
    | some pending =>
      match pending.kind with
      | .ControlTask => some [.receiveResult result, .takePending, .storeResult]
      | .DirectTask => some [.receiveResult result, .takePending, .sendResult false]
  | .process request =>
    match Control.command request with
    | .CreateQuantumTask _ =>
      some [.receiveRequest request, .executeRequest, .completeRequest, .sendOutboundTask false, .sendResponse false]
    | .GetTaskResult task_id => queryLoop task_id request
    | .GetCancelReason task_id => queryLoop task_id request
    | _ => some [.receiveRequest request, .executeRequest, .sendResponse false]
where
  queryLoop (task_id : UInt64) (request : APIRequest) : Option (List Event) :=
    if s.tasks.status task_id = .Waiting then some [.receiveRequest request, .executeRequest, .sendResponse false]
    else some [.receiveRequest request, .executeRequest, .completeRequest, .sendResponse false]

/-- The task in a message to QRM. -/
def Seen.task : Seen → Option QuantumTask
  | .forwarded _ task _ => some task
  | _ => none

/-- The response in a message to a control client. -/
def Seen.response : Seen → Option APIResponse
  | .announced _ response _ => some response
  | .answered _ response _ => some response
  | _ => none

/-- The result in a message to a direct client. -/
def Seen.result : Seen → Option QuantumResult
  | .delivered _ _ message _ => some message
  | _ => none

/-- The response that a call of the sequential service returns. -/
def responded (config : Config) (s : Relay) : Relay.Op → List APIResponse
  | .process request => [(s.process config request).1.response]
  | _ => []

/-- The result that a call of the sequential service returns for a direct client. -/
def returned (s : Relay) : Relay.Op → List QuantumResult
  | .processResult result => (s.processResult result).1.direct_result.toList
  | _ => []

/-- The undisturbed loop for a call ends in its state and sends what it returns. -/
def LoopOf (config : Config) (s : Relay) (op : Relay.Op) (es : List Event) : Prop :=
  (∀ t, Relay.step config s op = some t → run step (atRest s) es = some (atRest t)) ∧
    (history step (seen config) (atRest s) es).filterMap Seen.task = Relay.submitted config s op ∧
    (history step (seen config) (atRest s) es).filterMap Seen.response = responded config s op ∧
    (history step (seen config) (atRest s) es).filterMap Seen.result = returned s op

theorem loop_result {config : Config} {s : Relay} {result : QuantumResult} {es : List Event}
    (steps : loop s (.processResult result) = some es) : LoopOf config s (.processResult result) es := by
  unfold loop at steps
  simp only at steps
  cases found : s.tasks.pending.lookup (widen result.task_id) with
  | none =>
    simp only [found] at steps
    obtain rfl := Option.some.inj steps
    have trace : history step (seen config) (atRest s) [.receiveResult result, .takePending] =
        [.processed result none] := by
      simp [history, step, seen, atRest, TaskStore.takePending, found]
    refine ⟨?_, by rw [trace]; rfl, by rw [trace]; rfl, ?_⟩
    · intro t stepped
      obtain rfl := Option.some.inj stepped
      simp [run, step, atRest, TaskStore.takePending, found, Relay.processResult, Forward.processResult_unknown]
    · rw [trace, returned, Relay.processResult, Forward.processResult_unknown found]
      rfl
  | some pending =>
    cases kind : pending.kind with
    | ControlTask =>
      simp only [found, kind] at steps
      obtain rfl := Option.some.inj steps
      have trace : history step (seen config) (atRest s) [.receiveResult result, .takePending, .storeResult] =
          [.processed result (some pending), .stored pending result] := by
        simp [history, step, seen, atRest, TaskStore.takePending, found, kind]
      refine ⟨?_, by rw [trace]; rfl, by rw [trace]; rfl, ?_⟩
      · intro t stepped
        obtain rfl := Option.some.inj stepped
        simp [run, step, atRest, TaskStore.takePending, found, kind, Relay.processResult,
          Forward.processResult_control found kind]
      · rw [trace, returned, Relay.processResult, Forward.processResult_control found kind]
        rfl
    | DirectTask =>
      simp only [found, kind] at steps
      obtain rfl := Option.some.inj steps
      have trace : history step (seen config) (atRest s) [.receiveResult result, .takePending, .sendResult false] =
          [.processed result (some pending), .delivered pending result (Forward.remapped pending result)
            (accepted pending.original_result_destination false)] := by
        simp [history, step, seen, atRest, TaskStore.takePending, found, kind]
      refine ⟨?_, by rw [trace]; rfl, by rw [trace]; rfl, ?_⟩
      · intro t stepped
        obtain rfl := Option.some.inj stepped
        simp [run, step, atRest, TaskStore.takePending, found, kind, Relay.processResult,
          Forward.processResult_direct found kind]
      · rw [trace, returned, Relay.processResult, Forward.processResult_direct found kind]
        rfl

theorem loop_create {config : Config} {s : Relay} {request : APIRequest} {create : CreateQuantumTaskCommand}
    (command : Control.command request = .CreateQuantumTask create) : LoopOf config s (.process request)
      [.receiveRequest request, .executeRequest, .completeRequest, .sendOutboundTask false, .sendResponse false] := by
  have decoded : (controlProtocolFor request).decode request = .CreateQuantumTask create := command
  have processed : s.process config request =
      (⟨some (Forward.readdressed (Control.applyCreateTaskCommand create) s.forwarder.nextTaskId.1 config),
        responseTo request (.TaskCreated (widen (narrow s.forwarder.nextTaskId.1)))⟩,
        ⟨s.forwarder.nextTaskId.2, s.tasks.addControlTask s.forwarder.nextTaskId.1⟩) := by
    simp [Relay.process, Control.process, decoded, Control.executeControlCommand, Forward.createControlTask,
      Forward.readdressed, responseTo]
  have trace : history step (seen config) (atRest s)
      [.receiveRequest request, .executeRequest, .completeRequest, .sendOutboundTask false, .sendResponse false] =
      [.entered ⟨.ControlTask, s.forwarder.nextTaskId.1, s.forwarder.nextTaskId.1, ""⟩,
        .forwarded s.forwarder.nextTaskId.1
          (Forward.readdressed (Control.applyCreateTaskCommand create) s.forwarder.nextTaskId.1 config)
          (accepted config.qrm_task false),
        .announced s.forwarder.nextTaskId.1
          (responseTo request (.TaskCreated (widen (narrow s.forwarder.nextTaskId.1))))
          (accepted request.response_queue false)] := by
    simp [history, step, execute, seen, seenExecuting, atRest, command]
  refine ⟨?_, ?_, ?_, by rw [trace]; rfl⟩
  · intro t stepped
    obtain rfl := Option.some.inj stepped
    rw [processed]
    simp [run, step, execute, atRest, command]
  · rw [trace]
    exact (congrArg (fun outcome => outcome.1.outbound_task.toList) processed).symm
  · rw [trace, responded, processed]
    rfl

theorem seenExecuting_reported {s : Service} {request : APIRequest} :
    ∀ x ∈ s.seenExecuting request, ∃ task_id status, x = .reported task_id status := by
  unfold seenExecuting seenFirst
  split <;> (try split) <;> simp

/-- A request whose command is one access to the store. -/
theorem loop_access {config : Config} {s : Relay} {request : APIRequest} {result : ControlResult}
    (processed : s.process config request = (⟨none, responseTo request result⟩, s))
    (executes : ({ atRest s with controlWorker := .received request } : Service).execute request =
      { atRest s with controlWorker := .answering request result }) :
    LoopOf config s (.process request) [.receiveRequest request, .executeRequest, .sendResponse false] := by
  have trace : history step (seen config) (atRest s) [.receiveRequest request, .executeRequest, .sendResponse false] =
      ({ atRest s with controlWorker := .received request } : Service).seenExecuting request ++
        [.answered request (responseTo request result) (accepted request.response_queue false)] := by
    simp only [history, step, seen, atRest] at executes ⊢
    simp only [executes, List.nil_append, List.append_nil]
  have reports := @seenExecuting_reported { atRest s with controlWorker := .received request } request
  refine ⟨?_, ?_, ?_, ?_⟩
  · intro t stepped
    obtain rfl := Option.some.inj stepped
    rw [processed]
    simp only [run, step, atRest] at executes ⊢
    simp only [executes, Option.bind_some]
  · have none : ∀ x ∈ ({ atRest s with controlWorker := .received request } : Service).seenExecuting request,
        Seen.task x = none := by
      intro x member
      obtain ⟨task_id, status, rfl⟩ := reports x member
      rfl
    rw [trace, List.filterMap_append, List.filterMap_eq_nil_iff.mpr none, Relay.submitted]
    exact (congrArg (fun outcome => outcome.1.outbound_task.toList) processed).symm
  · have none : ∀ x ∈ ({ atRest s with controlWorker := .received request } : Service).seenExecuting request,
        Seen.response x = none := by
      intro x member
      obtain ⟨task_id, status, rfl⟩ := reports x member
      rfl
    rw [trace, List.filterMap_append, List.filterMap_eq_nil_iff.mpr none, responded, processed]
    rfl
  · have none : ∀ x ∈ ({ atRest s with controlWorker := .received request } : Service).seenExecuting request,
        Seen.result x = none := by
      intro x member
      obtain ⟨task_id, status, rfl⟩ := reports x member
      rfl
    rw [trace, List.filterMap_append, List.filterMap_eq_nil_iff.mpr none]
    rfl

theorem process_query {config : Config} {s : Relay} {request : APIRequest} {task_id : UInt64}
    (asks : Control.command request = .GetTaskResult task_id ∨ Control.command request = .GetCancelReason task_id) :
    s.process config request =
      (⟨none, responseTo request (Control.takeCompleted (answerOf request) s.tasks task_id).1⟩,
        ⟨s.forwarder, (Control.takeCompleted (answerOf request) s.tasks task_id).2⟩) := by
  rcases asks with command | command <;>
  · have decoded := command
    unfold Control.command at decoded
    have answer : ∀ task, answerOf request task = _ := fun task => by rw [answerOf, command]
    simp only [Relay.process, Control.process, decoded, Control.executeControlCommand, Control.getTaskResult,
      Control.getCancelReason, responseTo, funext answer]

theorem execute_query {s : Service} {request : APIRequest} {task_id : UInt64}
    (asks : Control.command request = .GetTaskResult task_id ∨ Control.command request = .GetCancelReason task_id) :
    s.execute request = s.lookFirst request task_id ∧ s.seenExecuting request = s.seenFirst task_id := by
  rcases asks with command | command <;> simp [execute, seenExecuting, command]

theorem loop_query {config : Config} {s : Relay} {request : APIRequest} {task_id : UInt64} {es : List Event}
    (asks : Control.command request = .GetTaskResult task_id ∨ Control.command request = .GetCancelReason task_id)
    (steps : loop.queryLoop s task_id request = some es) : LoopOf config s (.process request) es := by
  have processed := @process_query config s request task_id asks
  unfold loop.queryLoop at steps
  split at steps
  · rename_i waiting
    obtain rfl := Option.some.inj steps
    refine @loop_access config s request (.ControlError "JOB IS WAITING") ?_ ?_
    · rw [processed, Control.takeCompleted, Control.refuseWaiting, if_pos waiting]
    · rw [(execute_query asks).1, lookFirst]
      simp [atRest, Control.refuseWaiting, waiting]
  · rename_i done
    obtain rfl := Option.some.inj steps
    have looked : Control.refuseWaiting s.tasks task_id = none := if_neg done
    have executed : ({ atRest s with controlWorker := .received request } : Service).execute request =
        { atRest s with controlWorker := .looked request task_id } := by
      rw [(execute_query asks).1, lookFirst]
      simp [atRest, looked]
    have silent : ({ atRest s with controlWorker := .received request } : Service).seenExecuting request = [] := by
      rw [(execute_query asks).2, seenFirst]
      exact if_neg done
    have trace : history step (seen config) (atRest s)
        [.receiveRequest request, .executeRequest, .completeRequest, .sendResponse false] =
        [.fetched request task_id (s.tasks.completed_control_tasks.lookup task_id),
          .answered request
            (responseTo request (Control.answerTaken (answerOf request) (s.tasks.takeCompletedControlTask task_id).1))
            (accepted request.response_queue false)] := by
      simp only [history, step, seen, atRest] at executed silent ⊢
      simp only [executed, silent, List.nil_append, List.append_nil, List.singleton_append]
    rw [Control.takeCompleted, looked] at processed
    refine ⟨?_, ?_, ?_, by rw [trace]; rfl⟩
    · intro t stepped
      obtain rfl := Option.some.inj stepped
      rw [processed]
      simp only [run, step, atRest] at executed ⊢
      simp only [executed, Option.bind_some]
    · rw [trace]
      exact (congrArg (fun outcome => outcome.1.outbound_task.toList) processed).symm
    · rw [trace, responded, processed]
      rfl

theorem loop_request {config : Config} {s : Relay} {request : APIRequest} {es : List Event}
    (steps : loop s (.process request) = some es) : LoopOf config s (.process request) es := by
  unfold loop at steps
  simp only at steps
  cases command : Control.command request with
  | CreateQuantumTask create =>
    simp only [command] at steps
    obtain rfl := Option.some.inj steps
    exact loop_create command
  | GetTaskResult task_id =>
    simp only [command] at steps
    exact loop_query (.inl command) steps
  | GetCancelReason task_id =>
    simp only [command] at steps
    exact loop_query (.inr command) steps
  | _ =>
    have decoded := command
    unfold Control.command at decoded
    simp only [command] at steps
    obtain rfl := Option.some.inj steps
    refine loop_access ?_ (by rw [execute, command])
    simp only [Relay.process, Control.process, decoded, Control.executeControlCommand]
    rfl

/-- Every call of the sequential service is an undisturbed loop of its worker. -/
theorem loop_spec {config : Config} {s : Relay} {op : Relay.Op} {es : List Event} (steps : loop s op = some es) :
    LoopOf config s op es := by
  cases op with
  | forwardDirectTask request =>
    obtain rfl := Option.some.inj steps
    refine ⟨?_, rfl, rfl, rfl⟩
    intro t stepped
    obtain rfl := Option.some.inj stepped
    rfl
  | createControlTask task => cases steps
  | processResult result => exact loop_result steps
  | process request => exact loop_request steps

/-- Every call but the creation of a task without a request has a loop. -/
theorem loop_exists {op : Relay.Op} (call : ∀ task, op ≠ .createControlTask task) (s : Relay) :
    ∃ es, loop s op = some es := by
  cases op with
  | createControlTask task => exact absurd rfl (call task)
  | forwardDirectTask request => exact ⟨_, rfl⟩
  | processResult result =>
    simp only [loop]
    split
    · exact ⟨_, rfl⟩
    · split <;> exact ⟨_, rfl⟩
  | process request =>
    have query : ∀ task_id, ∃ es, loop.queryLoop s task_id request = some es := by
      intro task_id
      unfold loop.queryLoop
      split <;> exact ⟨_, rfl⟩
    simp only [loop]
    split
    · exact ⟨_, rfl⟩
    · exact query _
    · exact query _
    · exact ⟨_, rfl⟩

/-- Every run of the sequential service is an interleaving of the workers. -/
theorem sequential_run {config : Config} {s t : Relay} {ops : List Relay.Op}
    (called : ∀ op ∈ ops, ∀ task, op ≠ .createControlTask task) (ran : run (Relay.step config) s ops = some t) :
    ∃ es, run step (atRest s) es = some (atRest t) := by
  induction ops generalizing s with
  | nil =>
    obtain rfl := Option.some.inj ran
    exact ⟨[], rfl⟩
  | cons op ops ih =>
    obtain ⟨next, stepped, rest⟩ := run_cons.mp ran
    obtain ⟨es, later⟩ := ih (fun op member => called op (List.mem_cons_of_mem _ member)) rest
    obtain ⟨fs, steps⟩ := loop_exists (called op List.mem_cons_self) s
    exact ⟨fs ++ es, run_append.mpr ⟨atRest next, (@loop_spec config s op fs steps).1 next stepped, later⟩⟩

end Service
end Mqss.QOffload
