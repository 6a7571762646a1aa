import Mathlib.Data.List.AList
import Mathlib.Data.Rat.Init

/-!
The protocol messages of the service: tasks and their results, and the requests
and responses of the control interface in their typed and REST-like forms.
-/

namespace Mqss

/-- A double-precision number, exact when it is finite. -/
inductive Double
  | finite (value : Rat)
  | infinity (negative : Bool)
  | nan
  deriving DecidableEq

/-- A dynamically typed value; `unset` is one with no kind. -/
inductive Value
  | unset
  | null
  | number (value : Double)
  | string (value : String)
  | boolean (value : Bool)
  | struct (fields : List (String × Value))
  | list (values : List Value)

/-- The fields of a structure, under distinct keys. -/
abbrev Struct := List (String × Value)

/-- The value of a field, if it is there. -/
def Struct.find (data : Struct) (key : String) : Option Value :=
  (data.find? (fun field => field.1 == key)).map Prod.snd

/-- Assign a field, in its place when it is there. -/
def Struct.set (data : Struct) (key : String) (value : Value) : Struct :=
  if data.any (fun field => field.1 == key) then
    data.map (fun field => if field.1 == key then (key, value) else field)
  else data ++ [(key, value)]

/-- Task submitted for quantum circuit execution. -/
structure QuantumTask where
  task_id : Int32 := 0
  n_qbits : Int32 := 0
  n_shots : Int32 := 0
  circuit_files : List String := []
  circuit_file_type : String := ""
  result_destination : String := ""
  preferred_qpu : String := ""
  scheduled_qpu : String := ""
  priority : Int32 := 0
  optimisation_level : Int32 := 0
  no_modify : Bool := false
  transpiler_flag : Bool := false
  result_type : Int32 := 0
  submit_time : String := ""
  circuits_qiskit : List Value := []
  additional_information : String := ""
  restricted_resource_names : List String := []
  user_identity : String := ""
  token : String := ""
  via_hpc : Bool := false

/-- Measurement counts, under distinct bitstrings in the order of the map's iteration. -/
abbrev Counts := AList (fun _ : String => Int32)

/-- Measurement counts for one executed circuit. -/
structure CircuitResult where
  counts : Counts
  deriving DecidableEq

/-- Result of a completed quantum task execution. -/
structure QuantumResult where
  task_id : Int32 := 0
  results : List CircuitResult := []
  destination : String := ""
  execution_status : Bool := false
  executed_qpu : String := ""
  executed_circuits : List String := []
  additional_information : String := ""
  execution_time : Double := .finite 0
  deriving DecidableEq

/-- Typed payload for creating a quantum task through the API interface. -/
structure CreateTaskRequest where
  shots : Int32 := 0
  circuit : List String := []
  circuit_format : String := ""
  resource_name : String := ""
  no_modify : Bool := false
  deriving DecidableEq

/-- The operation selected by a typed request, with its payload. -/
inductive TypedRequest
  | create_task (request : CreateTaskRequest)
  | task_status (uuid : Int32)
  | task_result (uuid : Int32)
  | cancel_reason (uuid : Int32)
  | list_resources
  | resource_info (resource_name : String)
  | pending_tasks (resource_name : String)
  deriving DecidableEq

/-- API request envelope shared by the two protocols. -/
structure APIRequest where
  authorization : String := ""
  method : String := ""
  request : String := ""
  data : Struct := []
  response_queue : String := ""
  typed_request : Option TypedRequest := none

/-- Status of a task managed through the API interface. -/
inductive ApiTaskStatus
  | UNSPECIFIED | WAITING | COMPLETED | CANCELLED
  deriving DecidableEq

/-- Typed response returned for a task-result query. -/
structure TaskResultResponse where
  result : List CircuitResult := []
  timestamp_submitted : String := ""
  timestamp_scheduled : String := ""
  timestamp_completed : String := ""
  deriving DecidableEq

/-- The typed response to a request. -/
inductive TypedResponse
  | create_task (uuid : Int32)
  | task_status (status : ApiTaskStatus)
  | task_result (response : TaskResultResponse)
  | cancel_reason (cancel_reason : String)
  | resources (resources : List String)
  | resource_info (name : String) (num_qubits : Int32) (online : Bool)
  | pending_tasks (num_pending_jobs : Int32)
  | error (message : String)
  deriving DecidableEq

/-- API response envelope shared by the two protocols. -/
structure APIResponse where
  response_body : Option Struct := none
  destination_queue : String := ""
  typed_response : Option TypedResponse := none

end Mqss
