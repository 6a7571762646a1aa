import Mqss.Relay

/-!
The three workers of the service over one forwarder and one store, in any
interleaving. Every access to the counter or to the store and every send is one
step of its own; the calls of the sequential service are the runs in which one
worker goes through its loop undisturbed.
-/

namespace Mqss.QOffload
open Mqss.Words Mqss.Machine

/-- The loop of the task worker. -/
inductive TaskWorker
  | idle
  | received (request : QuantumTask)
  | numbered (request : QuantumTask) (forwarded_task_id : UInt64)
  | registered (request : QuantumTask) (forwarded_task_id : UInt64)

/-- The loop of the control worker. A create request is numbered and registered, its task
    is sent and then announced; a query that takes a completed task has looked at its
    status before. -/
inductive ControlWorker
  | idle
  | received (request : APIRequest)
  | numbered (request : APIRequest) (command : CreateQuantumTaskCommand) (task_id : UInt64)
  | registered (request : APIRequest) (command : CreateQuantumTaskCommand) (task_id : UInt64)
  | announcing (request : APIRequest) (task_id : UInt64)
  | looked (request : APIRequest) (task_id : UInt64)
  | answering (request : APIRequest) (result : ControlResult)

/-- The loop of the result worker. -/
inductive ResultWorker
  | idle
  | received (result : QuantumResult)
  | taken (pending : PendingTask) (result : QuantumResult)

/-- The service while its workers run. -/
structure Service where
  forwarder : Forward
  tasks : TaskStore := {}
  taskWorker : TaskWorker := .idle
  controlWorker : ControlWorker := .idle
  resultWorker : ResultWorker := .idle

namespace Service

/-- The service between the loops of its workers. -/
def atRest (s : Relay) : Service := { forwarder := s.forwarder, tasks := s.tasks }

def new (instance_uid : UInt64) : Service := atRest (.new instance_uid)

def Idle (s : Service) : Prop :=
  s.taskWorker = .idle ∧ s.controlWorker = .idle ∧ s.resultWorker = .idle

/-- The transport refuses a message without a destination, and any other one at will. -/
def accepted (destination : String) (fault : Bool) : Bool := decide (destination ≠ "") && !fault

/-- One step of a worker. A receive that times out or fails leaves its worker idle and is
    no step; a send says whether the transport fails. -/
inductive Event
  | receiveTask (request : QuantumTask)
  | numberTask
  | registerTask
  | sendTask (fault : Bool)
  | receiveRequest (request : APIRequest)
  | executeRequest
  | completeRequest
  | sendOutboundTask (fault : Bool)
  | sendResponse (fault : Bool)
  | receiveResult (result : QuantumResult)
  | takePending
  | storeResult
  | sendResult (fault : Bool)

/-- The answer of a query that found its completed task. -/
def answerOf (request : APIRequest) (task : CompletedControlTask) : ControlResult :=
  match Control.command request with
  | .GetCancelReason _ => .CancelReason task.cancel_reason
  | _ => .TaskResult task

/-- The first access of a query that takes a completed task. -/
def lookFirst (s : Service) (request : APIRequest) (task_id : UInt64) : Service :=
  match Control.refuseWaiting s.tasks task_id with
  | some error => { s with controlWorker := .answering request error }
  | none => { s with controlWorker := .looked request task_id }

/-- The first access of a command to the counter or to the store. -/
def execute (s : Service) (request : APIRequest) : Service :=
  match Control.command request with
  | .CreateQuantumTask command =>
    { s with
      forwarder := s.forwarder.nextTaskId.2
      controlWorker := .numbered request command s.forwarder.nextTaskId.1 }
  | .GetTaskStatus task_id => { s with controlWorker := .answering request (.TaskStatus (s.tasks.status task_id)) }
  | .GetTaskResult task_id => s.lookFirst request task_id
  | .GetCancelReason task_id => s.lookFirst request task_id
  | .ListResources => { s with controlWorker := .answering request (.ResourceList ResourceRegistry) }
  | .GetResourceInfo resource_name =>
    { s with controlWorker := .answering request (Control.getResourceInfo resource_name) }
  | .QueryPendingTasks resource_name =>
    { s with controlWorker := .answering request (Control.queryPendingTasks s.tasks resource_name) }
  | .InvalidControl message => { s with controlWorker := .answering request (.ControlError message) }

def step (s : Service) : Event → Option Service
  | .receiveTask request =>
    match s.taskWorker with
    | .idle => some { s with taskWorker := .received request }
    | _ => none
  | .numberTask =>
    match s.taskWorker with
    | .received request =>
      some { s with
        forwarder := s.forwarder.nextTaskId.2
        taskWorker := .numbered request s.forwarder.nextTaskId.1 }
    | _ => none
  | .registerTask =>
    match s.taskWorker with
    | .numbered request id =>
      some { s with
        tasks := s.tasks.addDirectTask (Forward.directEntry request id)
        taskWorker := .registered request id }
    | _ => none
  | .sendTask _ =>
    match s.taskWorker with
    | .registered _ _ => some { s with taskWorker := .idle }
    | _ => none
  | .receiveRequest request =>
    match s.controlWorker with
    | .idle => some { s with controlWorker := .received request }
    | _ => none
  | .executeRequest =>
    match s.controlWorker with
    | .received request => some (s.execute request)
    | _ => none
  | .completeRequest =>
    match s.controlWorker with
    | .numbered request command id =>
      some { s with tasks := s.tasks.addControlTask id, controlWorker := .registered request command id }
    | .looked request id =>
      some { s with
        tasks := (s.tasks.takeCompletedControlTask id).2
        controlWorker := .answering request
          (Control.answerTaken (answerOf request) (s.tasks.takeCompletedControlTask id).1) }
    | _ => none
  | .sendOutboundTask _ =>
    match s.controlWorker with
    | .registered request _ id => some { s with controlWorker := .announcing request id }
    | _ => none
  | .sendResponse _ =>
    match s.controlWorker with
    | .announcing _ _ => some { s with controlWorker := .idle }
    | .answering _ _ => some { s with controlWorker := .idle }
    | _ => none
  | .receiveResult result =>
    match s.resultWorker with
    | .idle => some { s with resultWorker := .received result }
    | _ => none
  | .takePending =>
    match s.resultWorker with
    | .received result =>
      match s.tasks.takePending (widen result.task_id) with
      | (none, tasks) => some { s with tasks := tasks, resultWorker := .idle }
      | (some pending, tasks) => some { s with tasks := tasks, resultWorker := .taken pending result }
    | _ => none
  | .storeResult =>
    match s.resultWorker with
    | .taken pending result =>
      if pending.kind = .ControlTask then
        some { s with
          tasks := s.tasks.storeCompletedControlTask (Forward.completedTask pending result)
          resultWorker := .idle }
      else none
    | _ => none
  | .sendResult _ =>
    match s.resultWorker with
    | .taken pending _ => if pending.kind = .DirectTask then some { s with resultWorker := .idle } else none
    | _ => none

/-- The ids that a step gives out. -/
def numbers (s : Service) : Event → List UInt64
  | .numberTask =>
    match s.taskWorker with
    | .received _ => [s.forwarder.nextTaskId.1]
    | _ => []
  | .executeRequest =>
    match s.controlWorker with
    | .received request => if Control.creates (Control.command request) then [s.forwarder.nextTaskId.1] else []
    | _ => []
  | _ => []

/-! ### What is seen of a step -/

/-- The accesses to the store and the sends of a step, with the message and its outcome. -/
inductive Seen
  | entered (entry : PendingTask)
  | forwarded (task_id : UInt64) (task : QuantumTask) (accepted : Bool)
  | processed (result : QuantumResult) (found : Option PendingTask)
  | stored (pending : PendingTask) (result : QuantumResult)
  | delivered (pending : PendingTask) (result message : QuantumResult) (accepted : Bool)
  | reported (task_id : UInt64) (status : TaskStatus)
  | fetched (request : APIRequest) (task_id : UInt64) (record : Option CompletedControlTask)
  | announced (task_id : UInt64) (response : APIResponse) (accepted : Bool)
  | answered (request : APIRequest) (response : APIResponse) (accepted : Bool)

/-- The response with the outcome of a request. -/
def responseTo (request : APIRequest) (result : ControlResult) : APIResponse :=
  (controlProtocolFor request).encode result request.response_queue

/-- A query that takes a completed task reports a waiting one. -/
def seenFirst (s : Service) (task_id : UInt64) : List Seen :=
  if s.tasks.status task_id = .Waiting then [.reported task_id .Waiting] else []

def seenExecuting (s : Service) (request : APIRequest) : List Seen :=
  match Control.command request with
  | .GetTaskStatus task_id => [.reported task_id (s.tasks.status task_id)]
  | .GetTaskResult task_id => s.seenFirst task_id
  | .GetCancelReason task_id => s.seenFirst task_id
  | _ => []

def seen (config : Config) (s : Service) : Event → List Seen
  | .registerTask =>
    match s.taskWorker with
    | .numbered request id => [.entered (Forward.directEntry request id)]
    | _ => []
  | .sendTask fault =>
    match s.taskWorker with
    | .registered request id => [.forwarded id (Forward.readdressed request id config) (accepted config.qrm_task fault)]
    | _ => []
  | .executeRequest =>
    match s.controlWorker with
    | .received request => s.seenExecuting request
    | _ => []
  | .completeRequest =>
    match s.controlWorker with
    | .numbered _ _ id => [.entered ⟨.ControlTask, id, id, ""⟩]
    | .looked request id => [.fetched request id (s.tasks.completed_control_tasks.lookup id)]
    | _ => []
  | .sendOutboundTask fault =>
    match s.controlWorker with
    | .registered _ command id =>
      [.forwarded id (Forward.readdressed (Control.applyCreateTaskCommand command) id config)
        (accepted config.qrm_task fault)]
    | _ => []
  | .sendResponse fault =>
    match s.controlWorker with
    | .announcing request id =>
      [.announced id (responseTo request (.TaskCreated (widen (narrow id)))) (accepted request.response_queue fault)]
    | .answering request result =>
      [.answered request (responseTo request result) (accepted request.response_queue fault)]
    | _ => []
  | .takePending =>
    match s.resultWorker with
    | .received result => [.processed result (s.tasks.pending.lookup (widen result.task_id))]
    | _ => []
  | .storeResult =>
    match s.resultWorker with
    | .taken pending result => [.stored pending result]
    | _ => []
  | .sendResult fault =>
    match s.resultWorker with
    | .taken pending result =>
      [.delivered pending result (Forward.remapped pending result)
        (accepted pending.original_result_destination fault)]
    | _ => []
  | _ => []

/-! ### What a step can do -/

/-- The query of a request that takes a completed task. -/
def Takes (request : APIRequest) (task_id : UInt64) : Prop :=
  Control.command request = .GetTaskResult task_id ∨ Control.command request = .GetCancelReason task_id

/-- A step, the state after it and what is seen of it. -/
inductive Change (config : Config) (s : Service) : Event → Service → List Seen → Prop
  | receiveTask {request} (loc : s.taskWorker = .idle) :
    Change config s (.receiveTask request) { s with taskWorker := .received request } []
  | numberTask {request} (loc : s.taskWorker = .received request) :
    Change config s .numberTask
      { s with
        forwarder := s.forwarder.nextTaskId.2
        taskWorker := .numbered request s.forwarder.nextTaskId.1 } []
  | registerTask {request id} (loc : s.taskWorker = .numbered request id) :
    Change config s .registerTask
      { s with
        tasks := s.tasks.addDirectTask (Forward.directEntry request id)
        taskWorker := .registered request id } [.entered (Forward.directEntry request id)]
  | sendTask {request id fault} (loc : s.taskWorker = .registered request id) :
    Change config s (.sendTask fault) { s with taskWorker := .idle }
      [.forwarded id (Forward.readdressed request id config) (accepted config.qrm_task fault)]
  | receiveRequest {request} (loc : s.controlWorker = .idle) :
    Change config s (.receiveRequest request) { s with controlWorker := .received request } []
  | numberRequest {request command} (loc : s.controlWorker = .received request)
      (creates : Control.command request = .CreateQuantumTask command) :
    Change config s .executeRequest
      { s with
        forwarder := s.forwarder.nextTaskId.2
        controlWorker := .numbered request command s.forwarder.nextTaskId.1 } []
  | status {request task_id} (loc : s.controlWorker = .received request)
      (asks : Control.command request = .GetTaskStatus task_id) :
    Change config s .executeRequest
      { s with controlWorker := .answering request (.TaskStatus (s.tasks.status task_id)) }
      [.reported task_id (s.tasks.status task_id)]
  | refuse {request task_id} (loc : s.controlWorker = .received request) (asks : Takes request task_id)
      (waiting : s.tasks.status task_id = .Waiting) :
    Change config s .executeRequest { s with controlWorker := .answering request (.ControlError "JOB IS WAITING") }
      [.reported task_id .Waiting]
  | look {request task_id} (loc : s.controlWorker = .received request) (asks : Takes request task_id)
      (done : s.tasks.status task_id ≠ .Waiting) :
    Change config s .executeRequest { s with controlWorker := .looked request task_id } []
  | inform {request result} (loc : s.controlWorker = .received request)
      (creates : Control.creates (Control.command request) = false)
      (status : ∀ task_id, Control.command request ≠ .GetTaskStatus task_id)
      (takes : ∀ task_id, ¬ Takes request task_id) :
    Change config s .executeRequest { s with controlWorker := .answering request result } []
  | registerRequest {request command id} (loc : s.controlWorker = .numbered request command id) :
    Change config s .completeRequest
      { s with tasks := s.tasks.addControlTask id, controlWorker := .registered request command id }
      [.entered ⟨.ControlTask, id, id, ""⟩]
  | take {request id} (loc : s.controlWorker = .looked request id) :
    Change config s .completeRequest
      { s with
        tasks := (s.tasks.takeCompletedControlTask id).2
        controlWorker := .answering request
          (Control.answerTaken (answerOf request) (s.tasks.completed_control_tasks.lookup id)) }
      [.fetched request id (s.tasks.completed_control_tasks.lookup id)]
  | sendOutboundTask {request command id fault} (loc : s.controlWorker = .registered request command id) :
    Change config s (.sendOutboundTask fault) { s with controlWorker := .announcing request id }
      [.forwarded id (Forward.readdressed (Control.applyCreateTaskCommand command) id config)
        (accepted config.qrm_task fault)]
  | announce {request id fault} (loc : s.controlWorker = .announcing request id) :
    Change config s (.sendResponse fault) { s with controlWorker := .idle }
      [.announced id (responseTo request (.TaskCreated (widen (narrow id)))) (accepted request.response_queue fault)]
  | answer {request result fault} (loc : s.controlWorker = .answering request result) :
    Change config s (.sendResponse fault) { s with controlWorker := .idle }
      [.answered request (responseTo request result) (accepted request.response_queue fault)]
  | receiveResult {result} (loc : s.resultWorker = .idle) :
    Change config s (.receiveResult result) { s with resultWorker := .received result } []
  | ignore {result} (loc : s.resultWorker = .received result)
      (missing : s.tasks.pending.lookup (widen result.task_id) = none) :
    Change config s .takePending { s with resultWorker := .idle } [.processed result none]
  | correlate {result entry} (loc : s.resultWorker = .received result)
      (found : s.tasks.pending.lookup (widen result.task_id) = some entry) :
    Change config s .takePending
      { s with
        tasks := { s.tasks with pending := s.tasks.pending.erase (widen result.task_id) }
        resultWorker := .taken entry result } [.processed result (some entry)]
  | store {entry result} (loc : s.resultWorker = .taken entry result) (control : entry.kind = .ControlTask) :
    Change config s .storeResult
      { s with
        tasks := s.tasks.storeCompletedControlTask (Forward.completedTask entry result)
        resultWorker := .idle } [.stored entry result]
  | deliver {entry result fault} (loc : s.resultWorker = .taken entry result) (direct : entry.kind = .DirectTask) :
    Change config s (.sendResult fault) { s with resultWorker := .idle }
      [.delivered entry result (Forward.remapped entry result) (accepted entry.original_result_destination fault)]

theorem takeCompleted_erases (tasks : TaskStore) (id : UInt64) : (tasks.takeCompletedControlTask id).2 =
    { tasks with completed_control_tasks := tasks.completed_control_tasks.erase id } := by
  unfold TaskStore.takeCompletedControlTask
  split
  · rename_i missing
    have nothing : tasks.completed_control_tasks.erase id = tasks.completed_control_tasks := by
      apply Finmap.ext_lookup
      intro other
      by_cases same : other = id
      · rw [same, Finmap.lookup_erase, missing]
      · rw [Finmap.lookup_erase_ne same]
    rw [nothing]
  · rfl

theorem execute_change {config : Config} {s : Service} {request : APIRequest} (loc : s.controlWorker = .received request) :
    Change config s .executeRequest (s.execute request) (s.seenExecuting request) := by
  have query : ∀ task_id, Takes request task_id →
      Change config s .executeRequest (s.lookFirst request task_id) (s.seenFirst task_id) := by
    intro task_id asks
    by_cases waiting : s.tasks.status task_id = .Waiting
    · rw [lookFirst, Control.refuseWaiting, if_pos waiting, seenFirst, if_pos waiting]
      exact .refuse loc asks waiting
    · rw [lookFirst, Control.refuseWaiting, if_neg waiting, seenFirst, if_neg waiting]
      exact .look loc asks waiting
  unfold execute seenExecuting
  cases command : Control.command request with
  | CreateQuantumTask create => exact .numberRequest loc command
  | GetTaskStatus task_id => exact .status loc command
  | GetTaskResult task_id => exact query task_id (.inl command)
  | GetCancelReason task_id => exact query task_id (.inr command)
  | _ =>
    refine .inform loc ?_ ?_ ?_ <;> simp [command, Control.creates, Takes]

theorem step_change {config : Config} {s t : Service} {e : Event} (stepped : step s e = some t) :
    Change config s e t (seen config s e) := by
  cases e with
  | receiveTask request =>
    simp only [step] at stepped
    split at stepped <;> cases stepped
    rename_i loc
    exact .receiveTask loc
  | numberTask =>
    simp only [step] at stepped
    split at stepped <;> cases stepped
    rename_i loc
    exact .numberTask loc
  | registerTask =>
    simp only [step] at stepped
    split at stepped <;> cases stepped
    rename_i loc
    simp only [seen, loc]
    exact .registerTask loc
  | sendTask fault =>
    simp only [step] at stepped
    split at stepped <;> cases stepped
    rename_i loc
    simp only [seen, loc]
    exact .sendTask loc
  | receiveRequest request =>
    simp only [step] at stepped
    split at stepped <;> cases stepped
    rename_i loc
    exact .receiveRequest loc
  | executeRequest =>
    simp only [step] at stepped
    split at stepped <;> cases stepped
    rename_i loc
    simp only [seen, loc]
    exact execute_change loc
  | completeRequest =>
    simp only [step] at stepped
    split at stepped <;> cases stepped
    · rename_i loc
      simp only [seen, loc]
      exact .registerRequest loc
    · rename_i request id loc
      have taken : (s.tasks.takeCompletedControlTask id).1 = s.tasks.completed_control_tasks.lookup id := by
        unfold TaskStore.takeCompletedControlTask
        split <;> simp [*]
      simp only [seen, loc, taken]
      exact .take loc
  | sendOutboundTask fault =>
    simp only [step] at stepped
    split at stepped <;> cases stepped
    rename_i loc
    simp only [seen, loc]
    exact .sendOutboundTask loc
  | sendResponse fault =>
    simp only [step] at stepped
    split at stepped <;> cases stepped
    · rename_i loc
      simp only [seen, loc]
      exact .announce loc
    · rename_i loc
      simp only [seen, loc]
      exact .answer loc
  | receiveResult result =>
    simp only [step] at stepped
    split at stepped <;> cases stepped
    rename_i loc
    exact .receiveResult loc
  | takePending =>
    simp only [step] at stepped
    split at stepped
    · rename_i result loc
      simp only [seen, loc]
      cases found : s.tasks.pending.lookup (widen result.task_id) with
      | none =>
        simp only [TaskStore.takePending, found] at stepped
        cases stepped
        exact .ignore loc found
      | some entry =>
        simp only [TaskStore.takePending, found] at stepped
        cases stepped
        exact .correlate loc found
    · cases stepped
  | storeResult =>
    simp only [step] at stepped
    split at stepped
    · rename_i loc
      split at stepped <;> cases stepped
      rename_i control
      simp only [seen, loc]
      exact .store loc control
    · cases stepped
  | sendResult fault =>
    simp only [step] at stepped
    split at stepped
    · rename_i loc
      split at stepped <;> cases stepped
      rename_i direct
      simp only [seen, loc]
      exact .deliver loc direct
    · cases stepped

end Service
end Mqss.QOffload
