import Mqss.Messages
import Mqss.Words
import Mqss.FiniteMap

/-!
The task store and the forwarder of the service. Ids are counted and stored as
64-bit words, written to messages as 32-bit fields, and looked up as the sign
extension of the field that comes back.
-/

namespace Mqss.QOffload
open Mqss.Words

/-- The part of the configuration that forwarding uses. -/
structure Config where
  /-- `queues.request`, `queues.control_request`, `queues.qrm_task`, `queues.result`. -/
  request : String
  control_request : String
  qrm_task : String
  result : String
  /-- `policy.hpc_node`. -/
  hpc_node : Bool

/-- The queues and the policy of the default configuration. -/
def makeDefaultConfig : Config where
  request := "qoffload_request_reception_queue"
  control_request := "qoffload_api_request_reception_queue"
  qrm_task := "quantum_task_collection_queue"
  result := "qoffload_result_reception_queue"
  hpc_node := false

inductive PendingTaskKind
  | DirectTask | ControlTask
  deriving DecidableEq, Repr

/-- Mapping information for a task currently waiting for a QRM result. -/
structure PendingTask where
  kind : PendingTaskKind
  forwarded_task_id : UInt64
  original_task_id : UInt64
  original_result_destination : String
  deriving DecidableEq

inductive TaskStatus
  | Waiting | Completed | Cancelled | NotFound
  deriving DecidableEq, Repr

/-- Result data retained for a completed control task. -/
structure CompletedControlTask where
  task_id : UInt64 := 0
  execution_status : Bool := false
  result_counts : List Counts := []
  cancel_reason : String := ""
  timestamp_scheduled : String := ""
  timestamp_submitted : String := ""
  timestamp_completed : String := ""
  deriving DecidableEq

structure TaskStore where
  pending : Finmap (fun _ : UInt64 => PendingTask) := ∅
  completed_control_tasks : Finmap (fun _ : UInt64 => CompletedControlTask) := ∅
  deriving DecidableEq

namespace TaskStore

def addDirectTask (tasks : TaskStore) (task : PendingTask) : TaskStore :=
  { tasks with pending := tasks.pending.insert task.forwarded_task_id task }

def addControlTask (tasks : TaskStore) (task_id : UInt64) : TaskStore :=
  tasks.addDirectTask ⟨.ControlTask, task_id, task_id, ""⟩

/-- Find and remove a pending task. -/
def takePending (tasks : TaskStore) (task_id : UInt64) : Option PendingTask × TaskStore :=
  match tasks.pending.lookup task_id with
  | none => (none, tasks)
  | some task => (some task, { tasks with pending := tasks.pending.erase task_id })

def status (tasks : TaskStore) (task_id : UInt64) : TaskStatus :=
  if task_id ∈ tasks.pending then .Waiting
  else
    match tasks.completed_control_tasks.lookup task_id with
    | none => .NotFound
    | some completed => if completed.execution_status then .Completed else .Cancelled

def pendingCount (tasks : TaskStore) : Nat := tasks.pending.keys.card

def storeCompletedControlTask (tasks : TaskStore) (result : CompletedControlTask) : TaskStore :=
  { tasks with completed_control_tasks := tasks.completed_control_tasks.insert result.task_id result }

/-- Find and remove a completed control task. -/
def takeCompletedControlTask (tasks : TaskStore) (task_id : UInt64) : Option CompletedControlTask × TaskStore :=
  match tasks.completed_control_tasks.lookup task_id with
  | none => (none, tasks)
  | some result =>
    (some result, { tasks with completed_control_tasks := tasks.completed_control_tasks.erase task_id })

@[simp] theorem addDirectTask_pending (tasks : TaskStore) (task : PendingTask) :
    (tasks.addDirectTask task).pending = tasks.pending.insert task.forwarded_task_id task := rfl

@[simp] theorem addDirectTask_completed (tasks : TaskStore) (task : PendingTask) :
    (tasks.addDirectTask task).completed_control_tasks = tasks.completed_control_tasks := rfl

@[simp] theorem store_pending (tasks : TaskStore) (result : CompletedControlTask) :
    (tasks.storeCompletedControlTask result).pending = tasks.pending := rfl

@[simp] theorem takePending_fst (tasks : TaskStore) (task_id : UInt64) :
    (tasks.takePending task_id).1 = tasks.pending.lookup task_id := by
  unfold takePending
  split <;> simp [*]

/-- An entry is gone once it is taken; the others stay. -/
theorem takePending_lookup (tasks : TaskStore) (task_id other : UInt64) :
    (tasks.takePending task_id).2.pending.lookup other =
      if other = task_id then none else tasks.pending.lookup other := by
  unfold takePending
  split
  · rename_i missing
    split
    · rename_i same
      rw [same, missing]
    · rfl
  · split
    · rename_i same
      rw [same, Finmap.lookup_erase]
    · rename_i apart
      rw [Finmap.lookup_erase_ne apart]

@[simp] theorem takePending_completed (tasks : TaskStore) (task_id : UInt64) :
    (tasks.takePending task_id).2.completed_control_tasks = tasks.completed_control_tasks := by
  unfold takePending
  split <;> rfl

end TaskStore

inductive ResultProcessingKind
  | UnknownTask | DirectResult | ControlResultStored
  deriving DecidableEq, Repr

structure ResultProcessingOutcome where
  kind : ResultProcessingKind := .UnknownTask
  direct_result : Option QuantumResult := none
  direct_result_destination : String := ""
  deriving DecidableEq

structure Forward where
  instance_uid : UInt64
  next_task_index : UInt64 := 0
  deriving DecidableEq

namespace Forward

/-- The next task id; counter and id wrap around at 64 bits. -/
def nextTaskId (forwarder : Forward) : UInt64 × Forward :=
  (forwarder.next_task_index * 10000 + forwarder.instance_uid,
    { forwarder with next_task_index := forwarder.next_task_index + 1 })

/-- A task under the service's id, to be answered on the service's result queue. -/
def readdressed (task : QuantumTask) (task_id : UInt64) (config : Config) : QuantumTask :=
  { task with
    task_id := narrow task_id
    result_destination := config.result
    priority := if config.hpc_node then 1 else task.priority }

/-- The entry that maps a direct request's id back. -/
def directEntry (request : QuantumTask) (forwarded_task_id : UInt64) : PendingTask where
  kind := .DirectTask
  forwarded_task_id := forwarded_task_id
  original_task_id := widen request.task_id
  original_result_destination := request.result_destination

def forwardDirectTask (forwarder : Forward) (request : QuantumTask) (tasks : TaskStore) (config : Config) :
    QuantumTask × Forward × TaskStore :=
  let (forwarded_task_id, forwarder) := forwarder.nextTaskId
  (readdressed request forwarded_task_id config, forwarder,
    tasks.addDirectTask (directEntry request forwarded_task_id))

def createControlTask (forwarder : Forward) (task : QuantumTask) (tasks : TaskStore) (config : Config) :
    QuantumTask × Forward × TaskStore :=
  let (task_id, forwarder) := forwarder.nextTaskId
  (readdressed task task_id config, forwarder, tasks.addControlTask task_id)

/-- The counts of a circuit as they are stored, copied entry by entry. -/
def storedCounts (counts : Counts) : Counts :=
  counts.entries.foldl (fun stored entry => FiniteMap.emplace stored entry.1 entry.2) ∅

/-- The record kept of a control task's result; the reason of a cancellation and the time
    stamps stay empty. -/
def completedTask (pending : PendingTask) (result : QuantumResult) : CompletedControlTask where
  task_id := pending.original_task_id
  execution_status := result.execution_status
  result_counts := result.results.map (fun circuit_result => storedCounts circuit_result.counts)

/-- The result sent to a direct client, with the client's id and destination put back. -/
def remapped (pending : PendingTask) (result : QuantumResult) : QuantumResult :=
  { result with
    task_id := narrow pending.original_task_id
    destination := pending.original_result_destination }

def processResult (result : QuantumResult) (tasks : TaskStore) : ResultProcessingOutcome × TaskStore :=
  let forwarded_task_id := widen result.task_id
  match tasks.takePending forwarded_task_id with
  | (none, tasks) => ({}, tasks)
  | (some pending, tasks) =>
    match pending.kind with
    | .ControlTask =>
      ({ kind := .ControlResultStored }, tasks.storeCompletedControlTask (completedTask pending result))
    | .DirectTask =>
      ({ kind := .DirectResult
         direct_result := some (remapped pending result)
         direct_result_destination := pending.original_result_destination }, tasks)

/-- A result without a pending task changes nothing. -/
theorem processResult_unknown {result : QuantumResult} {tasks : TaskStore}
    (missing : tasks.pending.lookup (widen result.task_id) = none) : processResult result tasks = ({}, tasks) := by
  simp [processResult, TaskStore.takePending, missing]

/-- A result of a direct task is remapped for its client. -/
theorem processResult_direct {result : QuantumResult} {tasks : TaskStore} {pending : PendingTask}
    (found : tasks.pending.lookup (widen result.task_id) = some pending) (direct : pending.kind = .DirectTask) :
    processResult result tasks =
      ({ kind := .DirectResult
         direct_result := some (remapped pending result)
         direct_result_destination := pending.original_result_destination },
        (tasks.takePending (widen result.task_id)).2) := by
  simp [processResult, TaskStore.takePending, found, direct]

/-- A result of a control task is stored. -/
theorem processResult_control {result : QuantumResult} {tasks : TaskStore} {pending : PendingTask}
    (found : tasks.pending.lookup (widen result.task_id) = some pending) (control : pending.kind = .ControlTask) :
    processResult result tasks =
      ({ kind := .ControlResultStored },
        (tasks.takePending (widen result.task_id)).2.storeCompletedControlTask (completedTask pending result)) := by
  simp [processResult, TaskStore.takePending, found, control]

/-- Whatever became of it, a result leaves no entry under its id and touches no other. -/
theorem processResult_lookup (result : QuantumResult) (tasks : TaskStore) (id : UInt64) :
    (processResult result tasks).2.pending.lookup id =
      if id = widen result.task_id then none else tasks.pending.lookup id := by
  rw [← TaskStore.takePending_lookup]
  cases found : tasks.pending.lookup (widen result.task_id) with
  | none => simp [processResult, TaskStore.takePending, found]
  | some pending =>
    cases kind : pending.kind with
    | DirectTask => rw [processResult_direct found kind]
    | ControlTask => rw [processResult_control found kind, TaskStore.store_pending]

/-- A result is stored under the id of its task, and only when that is a control task. -/
theorem processResult_completed (result : QuantumResult) (tasks : TaskStore) (id : UInt64) :
    (processResult result tasks).2.completed_control_tasks.lookup id =
        tasks.completed_control_tasks.lookup id ∨
      ∃ pending, tasks.pending.lookup (widen result.task_id) = some pending ∧ pending.kind = .ControlTask ∧
        pending.original_task_id = id ∧
        (processResult result tasks).2.completed_control_tasks.lookup id = some (completedTask pending result) := by
  cases found : tasks.pending.lookup (widen result.task_id) with
  | none => exact .inl (by rw [processResult_unknown found])
  | some pending =>
    cases kind : pending.kind with
    | DirectTask => exact .inl (by rw [processResult_direct found kind, TaskStore.takePending_completed])
    | ControlTask =>
      rw [processResult_control found kind]
      by_cases same : pending.original_task_id = id
      · refine .inr ⟨pending, rfl, kind, same, ?_⟩
        rw [← same]
        exact Finmap.lookup_insert _
      · refine .inl ?_
        have apart : id ≠ (completedTask pending result).task_id := fun equal => same equal.symm
        rw [TaskStore.storeCompletedControlTask, Finmap.lookup_insert_of_ne _ apart,
          TaskStore.takePending_completed]

end Forward
end Mqss.QOffload
