import Mqss.Forward
import Mqss.Decimal
import Mathlib.Data.List.DropRight

/-!
The control interface between its two wire protocols and the commands they stand
for. A request that selects a typed operation is decoded and answered by the
typed protocol, every other one by the REST-like protocol.
-/

namespace Mqss.QOffload
open Mqss.Words

structure ResourceInfo where
  name : String
  qubits : UInt32
  online : Bool
  deriving DecidableEq

/-- The resources of the registry. -/
def ResourceRegistry : List ResourceInfo :=
  [⟨"QLM", 38, false⟩, ⟨"Q5", 5, false⟩, ⟨"Q20", 20, true⟩, ⟨"AQT20", 20, true⟩, ⟨"QExa20", 20, true⟩]

def ResourceRegistry.find (name : String) : Option ResourceInfo :=
  ResourceRegistry.find? (fun resource => resource.name == name)

structure CreateQuantumTaskCommand where
  shots : Int32 := 0
  circuit_files : List String := []
  circuit_format : String := ""
  resource_name : String := ""
  no_modify : Bool := false
  deriving DecidableEq

/-- A request independent of the protocol it came in. -/
inductive ControlCommand
  | CreateQuantumTask (command : CreateQuantumTaskCommand)
  | GetTaskStatus (task_id : UInt64)
  | GetTaskResult (task_id : UInt64)
  | GetCancelReason (task_id : UInt64)
  | ListResources
  | GetResourceInfo (resource_name : String)
  | QueryPendingTasks (resource_name : String)
  | InvalidControl (message : String)
  deriving DecidableEq

/-- The outcome of a command, to be encoded by the protocol of its request. -/
inductive ControlResult
  | TaskCreated (task_id : UInt64)
  | TaskStatus (status : TaskStatus)
  | TaskResult (task : CompletedControlTask)
  | CancelReason (reason : String)
  | ResourceList (resources : List ResourceInfo)
  | ResourceInfo (resource : ResourceInfo)
  | PendingTasks (count : Nat)
  | ControlError (message : String)
  deriving DecidableEq

namespace Typed

def decode (request : APIRequest) : ControlCommand :=
  match request.typed_request with
  | none => .InvalidControl "INVALID CONTROL REQUEST"
  | some (.create_task create) =>
    .CreateQuantumTask
      { shots := create.shots
        circuit_files := create.circuit
        circuit_format := create.circuit_format
        resource_name := create.resource_name
        no_modify := create.no_modify }
  | some (.task_status uuid) => .GetTaskStatus (widen uuid)
  | some (.task_result uuid) => .GetTaskResult (widen uuid)
  | some (.cancel_reason uuid) => .GetCancelReason (widen uuid)
  | some .list_resources => .ListResources
  | some (.resource_info resource_name) => .GetResourceInfo resource_name
  | some (.pending_tasks resource_name) => .QueryPendingTasks resource_name

/-- One circuit of a response, its counts assigned entry by entry. -/
def circuitResult (counts : Counts) : CircuitResult where
  counts := counts.entries.foldl (fun output entry => output.insert entry.1 entry.2) ∅

/-- The response to a result query. -/
def taskResult (task : CompletedControlTask) : TaskResultResponse where
  result := task.result_counts.map circuitResult
  timestamp_submitted := task.timestamp_submitted
  timestamp_scheduled := task.timestamp_scheduled
  timestamp_completed := task.timestamp_completed

def response : ControlResult → TypedResponse
  | .TaskCreated task_id => .create_task (narrow task_id)
  | .TaskStatus .Waiting => .task_status .WAITING
  | .TaskStatus .Completed => .task_status .COMPLETED
  | .TaskStatus .Cancelled => .task_status .CANCELLED
  | .TaskStatus .NotFound => .error "JOB NOT FOUND"
  | .TaskResult task => .task_result (taskResult task)
  | .CancelReason reason => .cancel_reason reason
  | .ResourceList resources => .resources (resources.map ResourceInfo.name)
  | .ResourceInfo resource => .resource_info resource.name resource.qubits.toInt32 resource.online
  | .PendingTasks count => .pending_tasks (Int32.ofNat count)
  | .ControlError message => .error message

def encode (result : ControlResult) (destination_queue : String) : APIResponse where
  destination_queue := destination_queue
  typed_response := some (response result)

end Typed

namespace Rest

/-- The parts of a path between its slashes. -/
def parts : List Char → List (List Char)
  | [] => []
  | c :: rest =>
    if c = '/' then [] :: parts rest
    else
      match parts rest with
      | [] => [[c]]
      | first :: others => (c :: first) :: others

/-- Split a path without its leading and trailing slashes. -/
def splitPath (path : List Char) : List (List Char) :=
  parts ((path.dropWhile (· = '/')).rdropWhile (· = '/'))

def parseTaskId (text : List Char) : Option UInt64 :=
  (Decimal.fromChars (2 ^ 64) text).map UInt64.ofNat

def requiredInt (data : Struct) (key : String) : Option Int32 :=
  match data.find key with
  | some (.number (.finite number)) =>
    if number.den = 1 ∧ -2147483648 ≤ number.num ∧ number.num ≤ 2147483647 then some (Int32.ofInt number.num)
    else none
  | _ => none

def requiredBool (data : Struct) (key : String) : Option Bool :=
  match data.find key with
  | some (.boolean value) => some value
  | _ => none

def requiredString (data : Struct) (key : String) : Option String :=
  match data.find key with
  | some (.string value) => some value
  | _ => none

def stringValue : Value → Option String
  | .string value => some value
  | _ => none

def requiredStringList (data : Struct) (key : String) : Option (List String) :=
  match data.find key with
  | some (.list values) => values.mapM stringValue
  | _ => none

def createTaskCommand (request : APIRequest) : ControlCommand :=
  if request.method ≠ "POST" then .InvalidControl "INVALID METHOD"
  else
    match requiredInt request.data "shots", requiredStringList request.data "circuit",
      requiredString request.data "circuit_format", requiredString request.data "resource_name",
      requiredBool request.data "no_modify" with
    | some shots, some circuit, some circuit_format, some resource_name, some no_modify =>
      if shots < 0 then .InvalidControl "INVALID JOB REQUEST"
      else .CreateQuantumTask ⟨shots, circuit, circuit_format, resource_name, no_modify⟩
    | _, _, _, _, _ => .InvalidControl "INVALID JOB REQUEST"

/-- A query for a task, from the last part of its path. -/
def taskQuery (task_id : UInt64) (query : List Char) : ControlCommand :=
  if query = "status".toList then .GetTaskStatus task_id
  else if query = "result".toList then .GetTaskResult task_id
  else if query = "cancel_reason".toList then .GetCancelReason task_id
  else .InvalidControl "UNKNOWN CONTROL REQUEST"

def getCommand (path : List (List Char)) : ControlCommand :=
  match path with
  | [first] => if first = "resources".toList then .ListResources else .InvalidControl "UNKNOWN CONTROL REQUEST"
  | [first, name] =>
    if first = "resources".toList ∧ name ≠ [] then .GetResourceInfo (String.ofList name)
    else .InvalidControl "UNKNOWN CONTROL REQUEST"
  | [first, name, query] =>
    if first = "job".toList then
      match parseTaskId name with
      | none => .InvalidControl "INVALID JOB ID"
      | some task_id => taskQuery task_id query
    else if first = "resources".toList ∧ name ≠ [] ∧ query = "num_pending_jobs".toList then
      .QueryPendingTasks (String.ofList name)
    else .InvalidControl "UNKNOWN CONTROL REQUEST"
  | _ => .InvalidControl "UNKNOWN CONTROL REQUEST"

def decode (request : APIRequest) : ControlCommand :=
  let path := splitPath request.request.toList
  if path = ["job".toList] then createTaskCommand request
  else if request.method ≠ "GET" then .InvalidControl "INVALID METHOD"
  else getCommand path

def setString (body : Struct) (key value : String) : Struct := body.set key (.string value)
def setNumber (body : Struct) (key : String) (value : Rat) : Struct := body.set key (.number (.finite value))
def setBool (body : Struct) (key : String) (value : Bool) : Struct := body.set key (.boolean value)
def setError (body : Struct) (message : String) : Struct := setString body "Error" message

/-- One entry of the result list: a number for each state that was counted. -/
def setCounts (counts : Counts) : Struct :=
  counts.entries.foldl (fun entry count => setNumber entry count.1 count.2.toInt) []

def setTaskResult (body : Struct) (task : CompletedControlTask) : Struct :=
  let body := body.set "result" (.list (task.result_counts.map (fun counts => .struct (setCounts counts))))
  let body := setString body "timestamp_scheduled" task.timestamp_scheduled
  let body := setString body "timestamp_submitted" task.timestamp_submitted
  setString body "timestamp_completed" task.timestamp_completed

def setResource (body : Struct) (resource : ResourceInfo) : Struct :=
  setBool (setNumber (setString body "name" resource.name) "qubits" resource.qubits.toNat) "online" resource.online

def setResources (body : Struct) (resources : List ResourceInfo) : Struct :=
  body.set "resources" (.list (resources.map (fun resource => .struct (setResource [] resource))))

def responseBody : ControlResult → Struct
  | .TaskCreated task_id => setString [] "uuid" (toString task_id.toNat)
  | .TaskStatus .Waiting => setString [] "status" "WAITING"
  | .TaskStatus .Completed => setString [] "status" "COMPLETED"
  | .TaskStatus .Cancelled => setString [] "status" "CANCELLED"
  | .TaskStatus .NotFound => setError [] "JOB NOT FOUND"
  | .TaskResult task => setTaskResult [] task
  | .CancelReason reason => setString [] "cancel_reason" reason
  | .ResourceList resources => setResources [] resources
  | .ResourceInfo resource => setResource [] resource
  | .PendingTasks count => setNumber [] "num_pending_jobs" count
  | .ControlError message => setError [] message

def encode (result : ControlResult) (destination_queue : String) : APIResponse where
  response_body := some (responseBody result)
  destination_queue := destination_queue

end Rest

inductive Protocol
  | typed | rest
  deriving DecidableEq, Repr

def controlProtocolFor (request : APIRequest) : Protocol :=
  if request.typed_request.isSome then .typed else .rest

def Protocol.decode (protocol : Protocol) (request : APIRequest) : ControlCommand :=
  match protocol with
  | .typed => Typed.decode request
  | .rest => Rest.decode request

/-- A command and the queue its response goes to. -/
structure DecodedControlRequest where
  command : ControlCommand
  response_queue : String
  deriving DecidableEq

def Protocol.decoded (protocol : Protocol) (request : APIRequest) : DecodedControlRequest where
  command := protocol.decode request
  response_queue := request.response_queue

def Protocol.encode (protocol : Protocol) (result : ControlResult) (destination_queue : String) : APIResponse :=
  match protocol with
  | .typed => Typed.encode result destination_queue
  | .rest => Rest.encode result destination_queue

end Mqss.QOffload
