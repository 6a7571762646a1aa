import Mqss.Isolation
import Mqss.Pipeline

/-!
The service in front of the workflow, both on one broker. The service's task queue is the
scheduler's, so the tasks that it forwards go through the workflow with those of other
clients, and their results come back to the result queue of the service. No answer is
assumed of the QRM here: what the service correlates with a task is shown to be computed
for that task.
-/

namespace Mqss.QOffload
open Mqss.Words Mqss.Machine Mqss.FiniteMap Mqss.Conveyor List
open QrmWorkflow (Site Workflow Payload Item Serves Stems Conveys)

/-- The service and the workflow, which holds the queues of both. -/
structure Installation where
  service : Service
  workflow : Workflow := {}

/-- What a receive makes of messages that it does not expect: of a response, and of a task
    that was sent to the result queue. -/
structure Crossed where
  response : APIResponse → Option Payload
  task : QuantumTask → Option QuantumResult

namespace Installation

def new (instance_uid : UInt64) : Installation := { service := .new instance_uid }

/-- A worker of the service takes a step, the result worker receives the next message in its
    queue, the broker pushes that to a receive that returns another one, or none, or the
    workflow takes a step. -/
inductive Event
  | work (e : Service.Event)
  | receiveResult
  | discardResult
  | qrm (e : QrmWorkflow.Event)

/-- The requests that the service receives, and what is seen of the service and of the workflow. -/
inductive Seen
  | task (request : QuantumTask)
  | control (request : APIRequest)
  | service (seen : Service.Seen)
  | qrm (seen : QrmWorkflow.Seen)

def requests : Service.Event → List Seen
  | .receiveTask request => [.task request]
  | .receiveRequest request => [.control request]
  | _ => []

/-- `receive<QuantumResult>` on the next message. -/
def decode (crossed : Crossed) : Payload → Option QuantumResult
  | .result result => some result
  | .task task => crossed.task task

/-- What an accepted message of the service adds to the queues. -/
def post (config : Config) (crossed : Crossed) (workflow : Workflow) : Service.Seen → Workflow
  | .forwarded _ task true => workflow.put config.qrm_task (.task task)
  | .delivered entry _ message true => workflow.put entry.original_result_destination (.result message)
  | .announced _ response true | .answered _ response true =>
    match crossed.response response with
    | none => workflow
    | some message => workflow.put response.destination_queue message
  | _ => workflow

section Step
variable (config : Config) (site : Site) (crossed : Crossed)

def step (s : Installation) : Event → Option Installation
  | .work (.receiveResult _) => none
  | .work e =>
    (s.service.step e).map fun service =>
      { service := service, workflow := (s.service.seen config e).foldl (post config crossed) s.workflow }
  | .receiveResult =>
    match s.service.resultWorker, s.workflow.queues config.result with
    | .idle, message :: rest =>
      match decode crossed message with
      | none => some { s with workflow := s.workflow.take config.result rest }
      | some result =>
        (s.service.step (.receiveResult result)).map fun service =>
          { service := service, workflow := s.workflow.take config.result rest }
    | _, _ => none
  | .discardResult =>
    match s.workflow.queues config.result with
    | [] => none
    | _ :: rest => some { s with workflow := s.workflow.take config.result rest }
  | .qrm e => (QrmWorkflow.step site s.workflow e).map fun workflow => { s with workflow := workflow }

def seen (s : Installation) : Event → List Seen
  | .work e => requests e ++ (s.service.seen config e).map .service
  | .qrm e => (QrmWorkflow.seen site s.workflow e).map .qrm
  | _ => []

/-- Everything a step can do. -/
inductive Move (s : Installation) : Event → Installation → List Seen → Prop
  | work {e service shown} (change : Service.Change config s.service e service shown)
      (other : ∀ result, e ≠ .receiveResult result) :
      Move s (.work e) ⟨service, shown.foldl (post config crossed) s.workflow⟩ (requests e ++ shown.map .service)
  | received {message rest result} (front : s.workflow.queues config.result = message :: rest)
      (read : decode crossed message = some result) (idle : s.service.resultWorker = .idle) :
      Move s .receiveResult ⟨{ s.service with resultWorker := .received result }, s.workflow.take config.result rest⟩ []
  | unread {message rest} (front : s.workflow.queues config.result = message :: rest)
      (unread : decode crossed message = none) :
      Move s .receiveResult { s with workflow := s.workflow.take config.result rest } []
  | discarded {message rest} (front : s.workflow.queues config.result = message :: rest) :
      Move s .discardResult { s with workflow := s.workflow.take config.result rest } []
  | qrm {e workflow shown} (change : QrmWorkflow.Change site s.workflow e workflow shown) :
      Move s (.qrm e) { s with workflow := workflow } (shown.map .qrm)

variable {config site crossed} {s t : Installation} {e : Event}

theorem step_move (stepped : step config site crossed s e = some t) : Move config site crossed s e t (seen config site s e) := by
  cases e with
  | work e =>
    cases e with
    | receiveResult result => cases stepped
    | _ =>
      obtain ⟨service, worked, rfl⟩ := Option.map_eq_some_iff.mp stepped
      exact .work (Service.step_change worked) nofun
  | receiveResult =>
    simp only [step] at stepped
    split at stepped
    · rename_i message rest idle front
      split at stepped
      · rename_i unread
        obtain rfl := Option.some.inj stepped
        exact .unread front unread
      · rename_i result read
        obtain ⟨service, worked, rfl⟩ := Option.map_eq_some_iff.mp stepped
        simp only [Service.step, idle, Option.some.injEq] at worked
        subst worked
        exact .received front read idle
    · cases stepped
  | discardResult =>
    simp only [step] at stepped
    split at stepped
    · cases stepped
    · rename_i message rest front
      obtain rfl := Option.some.inj stepped
      exact .discarded front
  | qrm e =>
    obtain ⟨workflow, worked, rfl⟩ := Option.map_eq_some_iff.mp stepped
    exact .qrm (QrmWorkflow.step_change worked)
end Step

/-! ### What comes back -/

/-- A task that the service's send got accepted is one that the workflow accepted. -/
def qrmSeen : Seen → List QrmWorkflow.Seen
  | .service (.forwarded _ task true) => [.accepted task]
  | .qrm seen => [seen]
  | _ => []

def forwarded? : Seen → Option (UInt64 × QuantumTask)
  | .service (.forwarded id task true) => some (id, task)
  | _ => none

def processed? : Seen → Option QuantumResult
  | .service (.processed result _) => some result
  | _ => none

def completed? : Seen → Option (PendingTask × QuantumResult)
  | .service (.stored entry result) => some (entry, result)
  | .service (.delivered entry result _ _) => some (entry, result)
  | _ => none

/-- What is seen of the workflow. -/
def qrmTrace (trace : List Seen) : List QrmWorkflow.Seen := trace.flatMap qrmSeen

/-- The tasks that the service forwarded, with their ids. -/
def forwarded (trace : List Seen) : List (UInt64 × QuantumTask) := trace.filterMap forwarded?

/-- The results that the service looked up in its table. -/
def processed (trace : List Seen) : List QuantumResult := trace.filterMap processed?

/-- The tasks that got their result. -/
def completed (trace : List Seen) : List (PendingTask × QuantumResult) := trace.filterMap completed?

/-- The results that the workflow sent to the service. -/
def returned (config : Config) (trace : List QrmWorkflow.Seen) : List QuantumResult :=
  ((QrmWorkflow.reports trace).filter fun report => report.1 = config.result).map Prod.snd

/-- The result that the result worker has received. -/
def inHand : ResultWorker → List QuantumResult
  | .received result => [result]
  | _ => []

/-- The queues that clients leave to the service and the workflow. -/
def reserved (config : Config) (site : Site) : List String := config.result :: site.queues.own

/-- No client names a reserved queue. -/
def NamesOther (config : Config) (site : Site) : Event → Prop
  | .work e => ∀ queue ∈ reserved config site, Service.NamesOther queue e
  | .qrm (.submit task _) => task.result_destination ∉ reserved config site
  | _ => True

/-- The service forwards to the scheduler, and its results have a queue of their own. -/
structure Joined (config : Config) (site : Site) : Prop where
  qrm_task : config.qrm_task = site.queues.scheduler
  apart : (reserved config site).Nodup

/-- The result queue is none of the workflow's. -/
theorem Joined.result_apart (joined : Joined config site) : config.result ∉ site.queues.own :=
  (nodup_cons.mp joined.apart).1

theorem Joined.result_ne (joined : Joined config site) : config.result ≠ site.queues.scheduler := fun same =>
  joined.result_apart (same ▸ QrmWorkflow.program_own site.queues .scheduler)

/-- A result was computed for a forwarded task, and a pending task is the one under the field
    of its id. -/
def Correlated (config : Config) (site : Site) (trace : List Seen) (entry : PendingTask) (result : QuantumResult) :
    Prop :=
  ∃ task ∈ forwarded trace, Serves site config.result result task.2 ∧
    entry.forwarded_task_id = widen (narrow task.1)

/-- The service's results are those of the tasks that it forwarded, in their order. -/
structure Connected (config : Config) (site : Site) (trace : List Seen) (s : Installation) : Prop where
  own : s.service.Own
  unnamed : ∀ queue ∈ reserved config site, s.service.Unnamed queue
  conveys : Conveys site (qrmTrace trace) s.workflow
  order : ∃ queued, s.workflow.queues config.result = queued.map .result ∧
    (processed trace ++ (inHand s.service.resultWorker ++ queued)).Sublist (returned config (qrmTrace trace))
  tasks : (QrmWorkflow.tasks (qrmTrace trace)).filter (fun task => task.result_destination = config.result) =
    (forwarded trace).map Prod.snd
  named : ∀ task ∈ forwarded trace, task.2.task_id = narrow task.1
  taken : ∀ entry result, s.service.resultWorker = .taken entry result → Correlated config site trace entry result

/-! ### Steps of the service -/

/-- A workflow that differs in other queues only. -/
structure Agrees (queues : List String) (w v : Workflow) : Prop where
  scheduler : v.scheduler = w.scheduler
  compiler : v.compiler = w.compiler
  submitter : v.submitter = w.submitter
  held : ∀ queue ∈ queues, v.queues queue = w.queues queue

variable {config : Config} {site : Site} {crossed : Crossed} {w v : Workflow}

theorem agrees_rfl (queues : List String) (w : Workflow) : Agrees queues w w := ⟨rfl, rfl, rfl, fun _ _ => rfl⟩

theorem agrees_put {queues : List String} {queue : String} (elsewhere : queue ∉ queues) (w : Workflow)
    (message : Payload) : Agrees queues w (w.put queue message) := by
  refine ⟨rfl, rfl, rfl, fun other member => ?_⟩
  have apart : other ≠ queue := by
    rintro rfl
    exact elsewhere member
  rw [Workflow.put_queues, Function.update_of_ne apart]

theorem Agrees.fewer {queues few : List String} (agrees : Agrees queues w v) (fewer : ∀ queue ∈ few, queue ∈ queues) :
    Agrees few w v :=
  ⟨agrees.scheduler, agrees.compiler, agrees.submitter, fun queue member => agrees.held queue (fewer queue member)⟩

theorem Agrees.belt (agrees : Agrees site.queues.own w v) : v.belt site.queues = w.belt site.queues := by
  have waiting : ∀ program : QrmWorkflow.Program, Workflow.waiting v.queues (program.queue site.queues) =
      Workflow.waiting w.queues (program.queue site.queues) := by
    intro program
    rw [Workflow.waiting, Workflow.waiting, agrees.held _ (QrmWorkflow.program_own _ program)]
  have atScheduler := waiting .scheduler
  have atCompiler := waiting .compiler
  have atSubmitter := waiting .submitter
  simp only [QrmWorkflow.Program.queue] at atScheduler atCompiler atSubmitter
  simp only [Workflow.belt, agrees.scheduler, agrees.compiler, agrees.submitter, atScheduler, atCompiler, atSubmitter]

theorem Agrees.conveys {trace : List QrmWorkflow.Seen} (agrees : Agrees site.queues.own w v)
    (conveys : Conveys site trace w) : Conveys site trace v := by
  refine ⟨⟨conveys.plain.apart, fun queue own message member => ?_⟩, by rw [agrees.belt]; exact conveys.image,
    conveys.elsewhere⟩
  rw [agrees.held queue own] at member
  exact conveys.plain.tasks queue own message member

section
variable {s t : Service} {e : Service.Event} {shown : List Service.Seen}

/-- The receipt of a request alone says nothing else. -/
theorem requests_seen (e : Service.Event) : qrmTrace (requests e) = [] ∧ forwarded (requests e) = [] ∧
    processed (requests e) = [] ∧ completed (requests e) = [] := by
  cases e <;> exact ⟨rfl, rfl, rfl, rfl⟩

/-- The service forwards a task, or leaves the reserved queues alone. -/
theorem work_posts (unnamed : ∀ queue ∈ reserved config site, s.Unnamed queue)
    (change : Service.Change config s e t shown) :
    (∃ id task, shown = [.forwarded id task true] ∧ task.task_id = narrow id ∧
      task.result_destination = config.result) ∨
    qrmTrace (shown.map .service) = [] ∧ forwarded (shown.map .service) = [] ∧
      ∀ w, Agrees (reserved config site) w (shown.foldl (post config crossed) w) := by
  have forwards : ∀ id task accepted, task.task_id = narrow id → task.result_destination = config.result →
      shown = [.forwarded id task accepted] → (∃ id task, shown = [.forwarded id task true] ∧
        task.task_id = narrow id ∧ task.result_destination = config.result) ∨
      qrmTrace (shown.map .service) = [] ∧ forwarded (shown.map .service) = [] ∧
        ∀ w, Agrees (reserved config site) w (shown.foldl (post config crossed) w) := by
    rintro id task accepted named sent rfl
    cases accepted with
    | true => exact .inl ⟨id, task, rfl, named, sent⟩
    | false => exact .inr ⟨rfl, rfl, agrees_rfl _⟩
  have responds : ∀ (response : APIResponse) w, response.destination_queue ∉ reserved config site →
      Agrees (reserved config site) w (match crossed.response response with
        | none => w
        | some message => w.put response.destination_queue message) := by
    intro response w elsewhere
    split
    · exact agrees_rfl _ _
    · exact agrees_put elsewhere _ _
  cases change with
  | sendTask => exact forwards _ _ _ rfl rfl rfl
  | sendOutboundTask => exact forwards _ _ _ rfl rfl rfl
  | @announce request id fault loc =>
    have elsewhere : request.response_queue ∉ reserved config site := fun member =>
      (unnamed _ member).control request (by rw [loc]; rfl) rfl
    refine .inr ⟨rfl, rfl, fun w => ?_⟩
    cases Service.accepted request.response_queue fault with
    | false => exact agrees_rfl _ _
    | true => exact responds _ w (by rwa [Service.responseTo_queue])
  | @answer request result fault loc =>
    have elsewhere : request.response_queue ∉ reserved config site := fun member =>
      (unnamed _ member).control request (by rw [loc]; rfl) rfl
    refine .inr ⟨rfl, rfl, fun w => ?_⟩
    cases Service.accepted request.response_queue fault with
    | false => exact agrees_rfl _ _
    | true => exact responds _ w (by rwa [Service.responseTo_queue])
  | @deliver entry result fault loc direct =>
    have elsewhere : entry.original_result_destination ∉ reserved config site := fun member =>
      (unnamed _ member).held entry result loc direct rfl
    refine .inr ⟨rfl, rfl, fun w => ?_⟩
    cases Service.accepted entry.original_result_destination fault with
    | false => exact agrees_rfl _ _
    | true => exact agrees_put elsewhere _ _
  | _ => exact .inr ⟨rfl, rfl, agrees_rfl _⟩

/-- The result that the worker has received is the next one that it looks up. -/
theorem work_results (change : Service.Change config s e t shown) (other : ∀ result, e ≠ .receiveResult result) :
    processed (shown.map .service) ++ inHand t.resultWorker = inHand s.resultWorker := by
  cases change with
  | receiveResult => exact absurd rfl (other _)
  | ignore loc => simp [processed, processed?, inHand, loc]
  | correlate loc => simp [processed, processed?, inHand, loc]
  | store loc => simp [processed, processed?, inHand, loc]
  | deliver loc => simp [processed, processed?, inHand, loc]
  | _ => rfl

theorem work_completed (change : Service.Change config s e t shown) {x : PendingTask × QuantumResult}
    (member : x ∈ completed (shown.map .service)) : s.resultWorker = .taken x.1 x.2 := by
  cases change with
  | store loc =>
    obtain rfl := mem_singleton.mp member
    exact loc
  | deliver loc =>
    obtain rfl := mem_singleton.mp member
    exact loc
  | _ => cases member
end

/-! ### Steps of the workflow -/

/-- The workflow adds to the result queue what it sends there. -/
theorem qrm_results {e : QrmWorkflow.Event} {shown : List QrmWorkflow.Seen} (joined : Joined config site)
    (change : QrmWorkflow.Change site w e v shown) :
    v.queues config.result = w.queues config.result ++ (returned config shown).map .result := by
  have fresh := joined.result_apart
  have apart : ∀ program : QrmWorkflow.Program, config.result ≠ program.queue site.queues := by
    rintro program same
    exact fresh (same ▸ QrmWorkflow.program_own _ program)
  have atScheduler := apart .scheduler
  have atCompiler := apart .compiler
  have atSubmitter := apart .submitter
  simp only [QrmWorkflow.Program.queue] at atScheduler atCompiler atSubmitter
  cases change with
  | submitted => simp [returned, QrmWorkflow.reports, QrmWorkflow.Seen.report?, atScheduler]
  | @received program => cases program <;> simp [returned, QrmWorkflow.reports, Workflow.load, apart]
  | unread | discarded => simp [returned, QrmWorkflow.reports, apart]
  | forwarded => simp [returned, QrmWorkflow.reports, atCompiler]
  | submittedOn => simp [returned, QrmWorkflow.reports, atSubmitter]
  | @reported task result fault hand =>
    by_cases here : task.result_destination = config.result
    · simp [returned, QrmWorkflow.reports, QrmWorkflow.Seen.report?, here]
    · simp [returned, QrmWorkflow.reports, QrmWorkflow.Seen.report?, here, Ne.symm here]
  | _ => simp [returned, QrmWorkflow.reports]

/-- A task that a client gives to the workflow itself is none of the service's. -/
theorem qrm_tasks {e : QrmWorkflow.Event} {shown : List QrmWorkflow.Seen} (names : NamesOther config site (.qrm e))
    (change : QrmWorkflow.Change site w e v shown) :
    (QrmWorkflow.tasks shown).filter (fun task => task.result_destination = config.result) = [] := by
  cases change with
  | submitted =>
    have other := (not_or.mp (mem_cons.not.mp names)).1
    simp [QrmWorkflow.tasks, QrmWorkflow.Seen.task?, other]
  | reported => rfl
  | _ => rfl

/-! ### Runs of both -/

theorem qrmTrace_append (trace more : List Seen) : qrmTrace (trace ++ more) = qrmTrace trace ++ qrmTrace more :=
  flatMap_append
theorem forwarded_append (trace more : List Seen) : forwarded (trace ++ more) = forwarded trace ++ forwarded more :=
  filterMap_append
theorem processed_append (trace more : List Seen) : processed (trace ++ more) = processed trace ++ processed more :=
  filterMap_append
theorem completed_append (trace more : List Seen) : completed (trace ++ more) = completed trace ++ completed more :=
  filterMap_append
theorem returned_append (trace more : List QrmWorkflow.Seen) :
    returned config (trace ++ more) = returned config trace ++ returned config more := by
  simp [returned, QrmWorkflow.reports]

theorem Correlated.mono {trace : List Seen} {entry : PendingTask} {result : QuantumResult}
    (correlated : Correlated config site trace entry result) (more : List Seen) :
    Correlated config site (trace ++ more) entry result := by
  obtain ⟨task, member, serves, same⟩ := correlated
  exact ⟨task, by rw [forwarded_append]; exact mem_append_left _ member, serves, same⟩

/-- What is seen of the workflow tells nothing of the service. -/
theorem qrm_seen (shown : List QrmWorkflow.Seen) : qrmTrace (shown.map .qrm) = shown ∧
    forwarded (shown.map .qrm) = [] ∧ processed (shown.map .qrm) = [] := by
  refine ⟨?_, ?_, ?_⟩
  · simp [qrmTrace, flatMap_map, qrmSeen]
  · simp [forwarded, forwarded?]
  · simp [processed, processed?]

/-- Another queue than the three says nothing to the workflow. -/
theorem agrees_take {queues : List String} {queue : String} (elsewhere : queue ∉ queues) (w : Workflow)
    (rest : List Payload) : Agrees queues w (w.take queue rest) := by
  refine ⟨rfl, rfl, rfl, fun other member => ?_⟩
  have apart : other ≠ queue := by
    rintro rfl
    exact elsewhere member
  rw [Workflow.take_queues, Function.update_of_ne apart]

variable {trace : List Seen} {s t : Installation} {e : Event}

/-- The results that came back are those of some of the forwarded tasks, in their order. -/
theorem Connected.results (connected : Connected config site trace s) :
    SublistForall₂ (fun result task => Serves site config.result result task.2)
      (returned config (qrmTrace trace)) (forwarded trace) := by
  have sent := sublistForall₂_map_left_iff.mp (image_lose connected.conveys.image (sublist_append_left _ _))
  have own := @image_filter _ _ _ _ _ (fun report => decide (report.1 = config.result))
    (fun task => decide (task.result_destination = config.result)) sent (fun report task stems => by rw [stems.1])
  rw [connected.tasks] at own
  refine sublistForall₂_map_left_iff.mpr (image_mono (sublistForall₂_map_right_iff.mp own) ?_)
  rintro report task ⟨stems, here⟩
  rw [of_decide_eq_true here] at stems
  exact stems

theorem completed_taken {more : List Seen} (move : Move config site crossed s e t more) {x : PendingTask × QuantumResult}
    (member : x ∈ completed more) : s.service.resultWorker = .taken x.1 x.2 := by
  cases move with
  | @work e service shown change =>
    rw [completed_append, (requests_seen e).2.2.2, nil_append] at member
    exact work_completed change member
  | received | unread | discarded => cases member
  | @qrm e workflow shown change => simp [completed, completed?] at member

/-- A result that finds a pending task was computed for the task under the field of its id. -/
theorem Connected.correlated (connected : Connected config site trace s) {entry : PendingTask} {result : QuantumResult}
    (loc : s.service.resultWorker = .received result)
    (found : s.service.tasks.pending.lookup (widen result.task_id) = some entry) :
    Correlated config site trace entry result := by
  obtain ⟨queued, _, order⟩ := connected.order
  have member : result ∈ returned config (qrmTrace trace) :=
    order.subset (by simp [loc, inHand])
  obtain ⟨task, among, serves⟩ := image_stems connected.results member
  refine ⟨task, among, serves, ?_⟩
  have answer := serves.task_id
  rw [(connected.own.pending _ _ found).1, answer, connected.named task among]

/-- Requests are no messages of the workflow's, nor results. -/
theorem Connected.requested {more : List Seen} (connected : Connected config site (trace ++ more) s)
    (e : Service.Event) : Connected config site (trace ++ (requests e ++ more)) s := by
  obtain ⟨qrm, none, nothing, _⟩ := requests_seen e
  have told : qrmTrace (trace ++ (requests e ++ more)) = qrmTrace (trace ++ more) := by
    rw [qrmTrace_append, qrmTrace_append (requests e), qrm, nil_append, ← qrmTrace_append]
  have sent : forwarded (trace ++ (requests e ++ more)) = forwarded (trace ++ more) := by
    rw [forwarded_append, forwarded_append (requests e), none, nil_append, ← forwarded_append]
  have seen : processed (trace ++ (requests e ++ more)) = processed (trace ++ more) := by
    rw [processed_append, processed_append (requests e), nothing, nil_append, ← processed_append]
  obtain ⟨own, unnamed, conveys, order, tasks, named, taken⟩ := connected
  refine ⟨own, unnamed, by rwa [told], by rwa [told, seen], by rwa [told, sent], by rwa [sent], fun entry result loc => ?_⟩
  obtain ⟨task, member, serves, same⟩ := taken entry result loc
  exact ⟨task, by rwa [sent], serves, same⟩

theorem step_connected (joined : Joined config site) (connected : Connected config site trace s)
    (names : NamesOther config site e) (stepped : step config site crossed s e = some t) :
    Connected config site (trace ++ seen config site s e) t := by
  have move := step_move stepped
  generalize seen config site s e = more at move
  have fresh := joined.result_apart
  obtain ⟨queued, held, order⟩ := connected.order
  cases move with
  | @work e service shown change other =>
    refine Connected.requested ?_ e
    have own := Service.step_own connected.own change
    have unnamed : ∀ queue ∈ reserved config site, service.Unnamed queue := fun queue member =>
      Service.step_unnamed (connected.unnamed queue member) (names queue member) change
    have results := work_results change other
    have taken : ∀ entry result, service.resultWorker = .taken entry result →
        Correlated config site (trace ++ shown.map .service) entry result := by
      intro entry result loc
      rcases change.taken loc with before | ⟨rfl, received, found⟩
      · exact (connected.taken entry result before).mono _
      · exact (connected.correlated received found).mono _
    rcases @work_posts config site crossed _ _ _ _ connected.unnamed change with
      ⟨id, task, rfl, named, sent⟩ | ⟨silent, none, agrees⟩
    · have one : qrmTrace [.service (.forwarded id task true)] = [.accepted task] := rfl
      refine ⟨own, unnamed, ?_, ⟨queued, ?_, ?_⟩, ?_, ?_, taken⟩
      · have other : QrmWorkflow.NamesOther site.queues (.submit task false) := by rwa [← sent] at fresh
        rw [qrmTrace_append]
        simp only [foldl_cons, foldl_nil, post, joined.qrm_task]
        exact QrmWorkflow.step_conveys connected.conveys other .submitted
      · simp only [foldl_cons, foldl_nil, post, joined.qrm_task, Workflow.put_queues]
        rw [Function.update_of_ne joined.result_ne, held]
      · rw [processed_append, append_assoc, ← append_assoc (processed (map _ _)), results, qrmTrace_append, returned_append]
        exact order.trans (sublist_append_left _ _)
      · rw [qrmTrace_append, QrmWorkflow.tasks_append, filter_append, connected.tasks, forwarded_append, map_append]
        simp [qrmTrace, qrmSeen, QrmWorkflow.tasks, QrmWorkflow.Seen.task?, sent, forwarded, forwarded?]
      · intro other member
        rw [forwarded_append] at member
        rcases mem_append.mp member with old | new
        · exact connected.named other old
        · obtain rfl := mem_singleton.mp new
          exact named
    · refine ⟨own, unnamed, ?_, ⟨queued, ?_, ?_⟩, ?_, ?_, taken⟩
      · rw [qrmTrace_append, silent, append_nil]
        exact ((agrees s.workflow).fewer fun queue member => mem_cons_of_mem _ member).conveys connected.conveys
      · rw [(agrees s.workflow).held _ mem_cons_self, held]
      · rw [qrmTrace_append, silent, append_nil, processed_append, append_assoc, ← append_assoc (processed (shown.map _)),
          results]
        exact order
      · rw [qrmTrace_append, silent, append_nil, forwarded_append, none, append_nil]
        exact connected.tasks
      · rw [forwarded_append, none, append_nil]
        exact connected.named
  | @received message rest result front read idle =>
    have change : Service.Change config s.service (.receiveResult result)
      { s.service with resultWorker := .received result } [] := .receiveResult idle
    have other : ∀ queue, Service.NamesOther queue (.receiveResult result) := fun _ => trivial
    have unnamed : ∀ queue ∈ reserved config site, Service.Unnamed queue { s.service with resultWorker := .received result } :=
      fun queue member => Service.step_unnamed (connected.unnamed queue member) (other queue) change
    obtain ⟨first, queued, rfl, rfl, rfl⟩ := map_eq_cons_iff.mp (held.symm.trans front)
    obtain rfl := Option.some.inj read
    rw [append_nil]
    refine ⟨Service.step_own connected.own change, unnamed, ?_, ⟨queued, ?_, ?_⟩, connected.tasks, connected.named,
      by rintro _ _ ⟨⟩⟩
    · exact (agrees_take fresh _ _).conveys connected.conveys
    · rw [Workflow.take_queues, Function.update_self]
    · simpa [inHand, idle] using order
  | @unread message rest front _ | @discarded message rest front =>
    obtain ⟨first, queued, rfl, rfl, rfl⟩ := map_eq_cons_iff.mp (held.symm.trans front)
    rw [append_nil]
    refine ⟨connected.own, connected.unnamed, ?_, ⟨queued, ?_, ?_⟩, connected.tasks, connected.named, connected.taken⟩
    · exact (agrees_take fresh _ _).conveys connected.conveys
    · rw [Workflow.take_queues, Function.update_self]
    · refine Sublist.trans ?_ order
      exact ((sublist_cons_self first queued).append_left _).append_left _
  | @qrm e workflow shown change =>
    obtain ⟨told, nothing, none⟩ := qrm_seen shown
    have other : QrmWorkflow.NamesOther site.queues e := by
      cases e with
      | submit task fault => exact fun member => names (mem_cons_of_mem _ member)
      | _ => trivial
    refine ⟨connected.own, connected.unnamed, ?_, ⟨queued ++ returned config shown, ?_, ?_⟩, ?_, ?_, ?_⟩
    · rw [qrmTrace_append, told]
      exact QrmWorkflow.step_conveys connected.conveys other change
    · rw [qrm_results joined change, held, map_append]
    · rw [processed_append, none, append_nil, qrmTrace_append, told, returned_append, ← append_assoc, ← append_assoc,
        append_assoc (processed trace)]
      exact order.append (Sublist.refl _)
    · rw [qrmTrace_append, told, QrmWorkflow.tasks_append, filter_append, qrm_tasks names change, append_nil,
        forwarded_append, nothing, append_nil]
      exact connected.tasks
    · rw [forwarded_append, nothing, append_nil]
      exact connected.named
    · intro entry result loc
      exact (connected.taken entry result loc).mono _

theorem new_connected (joined : Joined config site) (uid : UInt64) : Connected config site [] (new uid) := by
  have own : site.queues.own.Nodup := (nodup_cons.mp joined.apart).2
  refine ⟨Service.new_own uid, fun queue _ => Service.new_unnamed queue uid, ⟨⟨own, ?_⟩, .nil, ?_⟩, ⟨[], rfl, ?_⟩, rfl, ?_,
    nofun⟩
  · simp [new]
  · simp [qrmTrace, QrmWorkflow.tasks]
  · simp [processed, inHand, new, Service.new, Service.atRest]
  · simp [forwarded]

theorem run_connected {uid : UInt64} {es : List Event} (joined : Joined config site)
    (names : ∀ e ∈ es, NamesOther config site e) (ran : run (step config site crossed) (new uid) es = some s) :
    Connected config site (history (step config site crossed) (seen config site) (new uid) es) s :=
  history_invariant (fun _ _ _ _ connected other stepped => step_connected joined connected other stepped)
    (new_connected joined uid) (along_of_events names _) ran

theorem run_correlated {uid : UInt64} {es : List Event} (joined : Joined config site)
    (names : ∀ e ∈ es, NamesOther config site e) (ran : run (step config site crossed) (new uid) es = some s) :
    ∀ x ∈ completed (history (step config site crossed) (seen config site) (new uid) es),
      Correlated config site (history (step config site crossed) (seen config site) (new uid) es) x.1 x.2 := by
  have keeps : ∀ trace s e next,
      (Connected config site trace s ∧ ∀ x ∈ completed trace, Correlated config site trace x.1 x.2) →
        NamesOther config site e → step config site crossed s e = some next →
          Connected config site (trace ++ seen config site s e) next ∧
            ∀ x ∈ completed (trace ++ seen config site s e), Correlated config site (trace ++ seen config site s e) x.1 x.2 := by
    rintro trace s e next ⟨connected, got⟩ other stepped
    refine ⟨step_connected joined connected other stepped, fun x member => ?_⟩
    rw [completed_append] at member
    rcases mem_append.mp member with old | new
    · exact (got x old).mono _
    · exact (connected.taken _ _ (completed_taken (step_move stepped) new)).mono _
  have start : ∀ x ∈ completed [], Correlated config site [] x.1 x.2 := by simp [completed]
  exact (history_invariant keeps ⟨new_connected joined uid, start⟩ (along_of_events names _) ran).2

/-- The results that the service looked up so far are those of forwarded tasks. -/
theorem Connected.processed_serves (connected : Connected config site trace s) :
    SublistForall₂ (fun result task => Serves site config.result result task.2) (processed trace) (forwarded trace) := by
  obtain ⟨queued, _, order⟩ := connected.order
  exact image_lose connected.results ((sublist_append_left _ _).trans order)

/-- In every run of the service and the workflow, whatever fails in it, the results that the
    service looks up were computed for some of the tasks that it forwarded, in their order
    and for each task once. -/
theorem results_are_those_of_forwarded_tasks {uid : UInt64} {es : List Event} (joined : Joined config site)
    (names : ∀ e ∈ es, NamesOther config site e) (ran : run (step config site crossed) (new uid) es = some s) :
    SublistForall₂ (fun result task => Serves site config.result result task.2)
      (processed (history (step config site crossed) (seen config site) (new uid) es))
      (forwarded (history (step config site crossed) (seen config site) (new uid) es)) :=
  (run_connected joined names ran).processed_serves

/-- The service's task queue is the scheduler's. -/
def gateway : Site :=
  { QrmWorkflow.bench with queues := { QrmWorkflow.defaultQueues with scheduler := makeDefaultConfig.qrm_task } }

def uncrossed : Crossed := ⟨fun _ => none, fun _ => none⟩

/-- A direct request, which the workflow answers. -/
def relayedRun : List Event :=
  [.work (.receiveTask { task_id := 5, result_destination := "client", circuit_files := ["bell_state.mlir"] }),
    .work .numberTask, .work .registerTask, .work (.sendTask false), .qrm (.receive .scheduler), .qrm (.forward false),
    .qrm (.receive .compiler), .qrm (.compile (fun _ => 3) QrmWorkflow.backwards), .qrm (.forwardCompiled false),
    .qrm (.receive .submitter), .qrm (.execute 3), .qrm (.report false), .receiveResult, .work .takePending,
    .work (.sendResult false)]

theorem gateway_joined : Joined makeDefaultConfig gateway := ⟨rfl, by decide⟩

theorem relayedRun_names : ∀ e ∈ relayedRun, NamesOther makeDefaultConfig gateway e := by
  simp [relayedRun, NamesOther, Service.NamesOther, reserved, gateway, makeDefaultConfig, QrmWorkflow.defaultQueues,
    QrmWorkflow.bench, QrmWorkflow.QueueConfig.own]

theorem relayedRun_processed : ∃ s, run (step makeDefaultConfig gateway uncrossed) (new 11) relayedRun = some s ∧
    (processed (history (step makeDefaultConfig gateway uncrossed) (seen makeDefaultConfig gateway) (new 11)
      relayedRun)).length = 1 ∧
    SublistForall₂ (fun result task => Serves gateway makeDefaultConfig.result result task.2)
      (processed (history (step makeDefaultConfig gateway uncrossed) (seen makeDefaultConfig gateway) (new 11) relayedRun))
      (forwarded (history (step makeDefaultConfig gateway uncrossed) (seen makeDefaultConfig gateway) (new 11)
        relayedRun)) :=
  ⟨_, rfl, rfl, results_are_those_of_forwarded_tasks gateway_joined relayedRun_names rfl⟩

end Installation
end Mqss.QOffload
