import Mqss.Lives

/-!
The service among its clients, with QRM and the configured result queue. QRM
answers each task it received at most once; the service itself writes to the
result queue when a client names that queue as the destination of its result or
of a response, and what it wrote comes back to it as a result of its own.
-/

namespace Mqss.QOffload
open Mqss.Words Mqss.Machine Mqss.FiniteMap

/-- Where a message in the result queue comes from: QRM's answer to a task, or the service. -/
inductive Source
  | answer (task_id : UInt64)
  | relayed
  deriving DecidableEq

/-- The service with the messages in its result queue, the tasks that QRM has not answered
    (with the id in their message), and the source of the result in the result worker. -/
structure Deployment where
  service : Service
  results : List (QuantumResult × Source) := []
  asked : List (UInt64 × Int32) := []
  source : Source := .relayed

namespace Deployment
open Service (Event Seen)

def new (instance_uid : UInt64) : Deployment := { service := .new instance_uid }

/-- A worker takes a step, the result worker receives the next message in its queue, or QRM
    answers a task. -/
inductive Act
  | work (e : Event)
  | receiveResult
  | answer (request : UInt64 × Int32) (result : QuantumResult)

/-- A task that QRM received. -/
def asks : Seen → Option (UInt64 × Int32)
  | .forwarded id task true => some (id, task.task_id)
  | _ => none

section Step
variable (config : Config) (misread : APIResponse → Option QuantumResult)

/-- A message of the service as the result worker would read it from its own queue. What it
    makes of a response is up to the message format. -/
def relays : Seen → Option (QuantumResult × Source)
  | .delivered entry _ message true =>
    if entry.original_result_destination = config.result then some (message, .relayed) else none
  | .announced _ response true =>
    if response.destination_queue = config.result then (misread response).map (·, .relayed) else none
  | .answered _ response true =>
    if response.destination_queue = config.result then (misread response).map (·, .relayed) else none
  | _ => none

def step (d : Deployment) : Act → Option Deployment
  | .work (.receiveResult _) => none
  | .work e =>
    (d.service.step e).map (fun service =>
      { d with
        service := service
        results := d.results ++ (d.service.seen config e).filterMap (relays config misread)
        asked := d.asked ++ (d.service.seen config e).filterMap asks })
  | .receiveResult =>
    match d.results with
    | [] => none
    | (result, source) :: results =>
      (d.service.step (.receiveResult result)).map (fun service =>
        { d with service := service, results := results, source := source })
  | .answer request result =>
    if request ∈ d.asked ∧ result.task_id = request.2 then
      some { d with asked := d.asked.erase request, results := d.results ++ [(result, .answer request.1)] }
    else none

/-- The cases of a step. -/
inductive Move (d : Deployment) : Act → Deployment → Prop
  | work {e : Event} {service : Service} (stepped : d.service.step e = some service)
    (other : ∀ result, e ≠ .receiveResult result) :
    Move d (.work e) { d with
      service := service
      results := d.results ++ (d.service.seen config e).filterMap (relays config misread)
      asked := d.asked ++ (d.service.seen config e).filterMap asks }
  | receive {result : QuantumResult} {source : Source} {results : List (QuantumResult × Source)} {service : Service}
    (next : d.results = (result, source) :: results)
    (stepped : d.service.step (.receiveResult result) = some service) :
    Move d .receiveResult { d with service := service, results := results, source := source }
  | answer {request : UInt64 × Int32} {result : QuantumResult} (asked : request ∈ d.asked)
    (named : result.task_id = request.2) :
    Move d (.answer request result)
      { d with asked := d.asked.erase request, results := d.results ++ [(result, .answer request.1)] }

end Step

/-- QRM's answers. -/
def answers (_ : Deployment) : Act → List (UInt64 × QuantumResult)
  | .answer request result => [(request.1, result)]
  | _ => []

variable {config : Config} {misread : APIResponse → Option QuantumResult} {d d' : Deployment} {act : Act}

theorem step_move (stepped : step config misread d act = some d') : Move config misread d act d' := by
  cases act with
  | work e =>
    cases e with
    | receiveResult result => cases stepped
    | _ =>
      obtain ⟨service, worked, rfl⟩ := Option.map_eq_some_iff.mp stepped
      exact .work worked nofun
  | receiveResult =>
    cases queue : d.results with
    | nil => simp [step, queue] at stepped
    | cons message results =>
      simp only [step, queue] at stepped
      obtain ⟨service, worked, rfl⟩ := Option.map_eq_some_iff.mp stepped
      exact .receive queue worked
  | answer request result =>
    simp only [step, Option.ite_none_right_eq_some, Option.some.injEq] at stepped
    obtain ⟨⟨asked, named⟩, rfl⟩ := stepped
    exact .answer asked named

end Deployment
end Mqss.QOffload
