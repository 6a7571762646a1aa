import Mqss.ControlProtocol

/-!
The execution of control commands. A result query and a cancel-reason query look
at the status first and then take the completed task out of the store, whichever
way the task ended.
-/

namespace Mqss.QOffload
open Mqss.Words

structure ControlExecutionOutcome where
  result : ControlResult
  outbound_task : Option QuantumTask := none

structure ControlMessageOutcome where
  outbound_task : Option QuantumTask := none
  response : APIResponse

namespace Control

/-- The first look of a query that takes a completed task: a waiting task is not taken. -/
def refuseWaiting (tasks : TaskStore) (task_id : UInt64) : Option ControlResult :=
  if tasks.status task_id = .Waiting then some (.ControlError "JOB IS WAITING") else none

/-- The second look: take the completed task and answer with a part of it. -/
def answerTaken (answer : CompletedControlTask → ControlResult) (taken : Option CompletedControlTask) :
    ControlResult :=
  match taken with
  | none => .ControlError "JOB NOT FOUND"
  | some task => answer task

def takeCompleted (answer : CompletedControlTask → ControlResult) (tasks : TaskStore) (task_id : UInt64) :
    ControlResult × TaskStore :=
  match refuseWaiting tasks task_id with
  | some error => (error, tasks)
  | none =>
    let (taken, tasks) := tasks.takeCompletedControlTask task_id
    (answerTaken answer taken, tasks)

/-- `handleCommand` for a result query. -/
def getTaskResult : TaskStore → UInt64 → ControlResult × TaskStore := takeCompleted .TaskResult

/-- `handleCommand` for a cancel-reason query. -/
def getCancelReason : TaskStore → UInt64 → ControlResult × TaskStore :=
  takeCompleted (fun task => .CancelReason task.cancel_reason)

def getResourceInfo (resource_name : String) : ControlResult :=
  match ResourceRegistry.find resource_name with
  | none => .ControlError "RESOURCE NOT FOUND"
  | some resource => .ResourceInfo resource

def queryPendingTasks (tasks : TaskStore) (resource_name : String) : ControlResult :=
  match ResourceRegistry.find resource_name with
  | none => .ControlError "RESOURCE NOT FOUND"
  | some _ => .PendingTasks tasks.pendingCount

/-- The task of a create request, before it is given an id. -/
def applyCreateTaskCommand (command : CreateQuantumTaskCommand) : QuantumTask where
  n_qbits := 0
  n_shots := command.shots
  circuit_file_type := command.circuit_format
  preferred_qpu := command.resource_name
  no_modify := command.no_modify
  via_hpc := true
  circuit_files := command.circuit_files

def executeControlCommand (command : ControlCommand) (tasks : TaskStore) (config : Config) (forwarder : Forward) :
    ControlExecutionOutcome × Forward × TaskStore :=
  match command with
  | .CreateQuantumTask create =>
    let (forwarded, forwarder, tasks) := forwarder.createControlTask (applyCreateTaskCommand create) tasks config
    ({ result := .TaskCreated (widen forwarded.task_id), outbound_task := some forwarded }, forwarder, tasks)
  | .GetTaskStatus task_id => ({ result := .TaskStatus (tasks.status task_id) }, forwarder, tasks)
  | .GetTaskResult task_id =>
    let (result, tasks) := getTaskResult tasks task_id
    ({ result := result }, forwarder, tasks)
  | .GetCancelReason task_id =>
    let (result, tasks) := getCancelReason tasks task_id
    ({ result := result }, forwarder, tasks)
  | .ListResources => ({ result := .ResourceList ResourceRegistry }, forwarder, tasks)
  | .GetResourceInfo resource_name => ({ result := getResourceInfo resource_name }, forwarder, tasks)
  | .QueryPendingTasks resource_name => ({ result := queryPendingTasks tasks resource_name }, forwarder, tasks)
  | .InvalidControl message => ({ result := .ControlError message }, forwarder, tasks)

/-- Decode a request, execute its command and encode the response for the same protocol. -/
def process (request : APIRequest) (tasks : TaskStore) (config : Config) (forwarder : Forward) :
    ControlMessageOutcome × Forward × TaskStore :=
  let protocol := controlProtocolFor request
  let (outcome, forwarder, tasks) := executeControlCommand (protocol.decode request) tasks config forwarder
  ({ outbound_task := outcome.outbound_task, response := protocol.encode outcome.result request.response_queue },
    forwarder, tasks)

/-- The command that a request stands for. -/
def command (request : APIRequest) : ControlCommand := (controlProtocolFor request).decode request

def creates : ControlCommand → Bool
  | .CreateQuantumTask _ => true
  | _ => false

/-- A query for a completed task takes it when it is there and the task is not waiting. -/
theorem takeCompleted_spec (answer : CompletedControlTask → ControlResult) (tasks : TaskStore) (task_id : UInt64) :
    takeCompleted answer tasks task_id =
      if task_id ∈ tasks.pending then (.ControlError "JOB IS WAITING", tasks)
      else
        match tasks.completed_control_tasks.lookup task_id with
        | none => (.ControlError "JOB NOT FOUND", tasks)
        | some task =>
          (answer task,
            { tasks with completed_control_tasks := tasks.completed_control_tasks.erase task_id }) := by
  by_cases waiting : task_id ∈ tasks.pending
  · simp [takeCompleted, refuseWaiting, TaskStore.status, waiting]
  · cases found : tasks.completed_control_tasks.lookup task_id with
    | none =>
      simp [takeCompleted, refuseWaiting, TaskStore.status, waiting, found, TaskStore.takeCompletedControlTask,
        answerTaken]
    | some task =>
      have done : tasks.status task_id ≠ .Waiting := by
        simp only [TaskStore.status, waiting, found, ↓reduceIte]
        split <;> simp
      simp [takeCompleted, refuseWaiting, done, waiting, found, TaskStore.takeCompletedControlTask, answerTaken]

/-- No query for a completed task touches the pending ones. -/
theorem takeCompleted_pending (answer : CompletedControlTask → ControlResult) (tasks : TaskStore)
    (task_id : UInt64) : (takeCompleted answer tasks task_id).2.pending = tasks.pending := by
  rw [takeCompleted_spec]
  split
  · rfl
  · split <;> rfl

end Control
end Mqss.QOffload
