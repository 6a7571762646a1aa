import Mqss.Provenance

/-!
The service does not show. What its clients get for their direct requests is what the
workflow would send them for the same tasks: results for the destinations they name, under
their own ids, in the order of the requests and for each of them once.
-/

namespace Mqss.QOffload
open Mqss.Words Mqss.Machine Mqss.Conveyor List
open QrmWorkflow (Site Serves Compiled createJob createAndSubmit_returned)

namespace Installation

def asked? : Seen → Option QuantumTask
  | .task request => some request
  | _ => none

def looked? : Seen → Option (QuantumResult × Option PendingTask)
  | .service (.processed result found) => some (result, found)
  | _ => none

def sent? : Seen → Option (String × QuantumResult)
  | .service (.delivered entry _ message true) => some (entry.original_result_destination, message)
  | _ => none

/-- The direct requests that the service received. -/
def asked (trace : List Seen) : List QuantumTask := trace.filterMap asked?

/-- The results that the service looked up, with the entries that it found. -/
def looked (trace : List Seen) : List (QuantumResult × Option PendingTask) := trace.filterMap looked?

/-- The results that the service sent to its clients, with their destinations. -/
def sent (trace : List Seen) : List (String × QuantumResult) := trace.filterMap sent?

/-- What is to be sent for a result that was looked up. -/
def remap? : QuantumResult × Option PendingTask → Option (String × QuantumResult)
  | (result, some entry) =>
    if entry.kind = .DirectTask then some (entry.original_result_destination, Forward.remapped entry result) else none
  | (_, none) => none

/-- What the result worker is about to send. -/
def inDelivery : ResultWorker → List (String × QuantumResult)
  | .taken entry result => (remap? (result, some entry)).toList
  | _ => []

/-- A forwarded task under its id, with the request that it was made of if that is a direct one. -/
structure Dispatch where
  request : Option QuantumTask
  id : UInt64
  task : QuantumTask

def Dispatch.forwarded (made : Dispatch) : UInt64 × QuantumTask := (made.id, made.task)

/-- A task that was made of a direct request or of a control request, for which an entry was filed. -/
inductive Made (config : Config) (trace : List Seen) : Dispatch → Prop
  | direct {request id} (entered : .entered (Forward.directEntry request id) ∈ served trace) :
      Made config trace ⟨some request, id, Forward.readdressed request id config⟩
  | control {id task} (entered : .entered ⟨.ControlTask, id, id, ""⟩ ∈ served trace) : Made config trace ⟨none, id, task⟩

/-- The service drops a task, or the result of a direct one. -/
def Drops (config : Config) (s : Service) : Service.Event → Prop
  | .sendTask fault | .sendOutboundTask fault => Service.accepted config.qrm_task fault = false
  | .sendResult fault => ∃ entry result, s.resultWorker = .taken entry result ∧
      Service.accepted entry.original_result_destination fault = false
  | _ => False

/-- The direct requests are forwarded in their order, and what is found is sent in its order;
    all of it, where the service drops nothing. -/
structure Ordered (config : Config) (lossless : Prop) (trace : List Seen) (s : Installation) : Prop where
  forwards : ∃ made : List Dispatch, made.map Dispatch.forwarded = forwarded trace ∧ (∀ task ∈ made, Made config trace task) ∧
    Kept lossless (made.filterMap Dispatch.request ++ s.service.taskWorker.request.toList) (asked trace)
  found : ∀ result entry, (result, some entry) ∈ looked trace →
    .entered entry ∈ served trace ∧ entry.forwarded_task_id = widen result.task_id
  sends : Kept lossless (sent trace ++ inDelivery s.service.resultWorker) ((looked trace).filterMap remap?)

variable {config : Config} {site : Site} {crossed : Crossed} {uid : UInt64} {n : Nat} {trace more : List Seen}
  {s t : Installation} {e : Event}

theorem asked_append (trace more : List Seen) : asked (trace ++ more) = asked trace ++ asked more := filterMap_append
theorem looked_append (trace more : List Seen) : looked (trace ++ more) = looked trace ++ looked more := filterMap_append
theorem sent_append (trace more : List Seen) : sent (trace ++ more) = sent trace ++ sent more := filterMap_append

theorem processed_looked (trace : List Seen) : processed trace = (looked trace).map Prod.fst := by
  rw [looked, map_filterMap, processed]
  congr 1
  funext seen
  unfold processed? looked?
  split <;> simp_all

theorem mem_looked {result : QuantumResult} {known : Option PendingTask} :
    (result, known) ∈ looked trace ↔ .processed result known ∈ served trace := by
  constructor
  · intro member
    obtain ⟨seen, among, same⟩ := mem_filterMap.mp member
    refine mem_filterMap.mpr ⟨seen, among, ?_⟩
    unfold looked? at same
    split at same
    · obtain ⟨rfl, rfl⟩ := Prod.mk.inj (Option.some.inj same)
      rfl
    · cases same
  · intro member
    obtain ⟨seen, among, same⟩ := mem_filterMap.mp member
    refine mem_filterMap.mpr ⟨seen, among, ?_⟩
    cases seen with
    | service shown =>
      obtain rfl := Option.some.inj same
      rfl
    | _ => cases same

theorem Made.mono {task : Dispatch} (made : Made config trace task) (more : List Seen) :
    Made config (trace ++ more) task := by
  cases made with
  | direct entered => exact .direct (served_mono entered more)
  | control entered => exact .control (served_mono entered more)

/-- A request that is received is no result, and what is seen of the service is no request. -/
theorem requests_told (act : Service.Event) (shown : List Service.Seen) :
    asked (requests act ++ shown.map .service) = asked (requests act) ∧
      looked (requests act ++ shown.map .service) = looked (shown.map .service) ∧
        sent (requests act ++ shown.map .service) = sent (shown.map .service) := by
  have silent : asked (shown.map .service) = [] := by simp [asked, asked?]
  refine ⟨by rw [asked_append, silent, append_nil], ?_, ?_⟩ <;> cases act <;> rfl

/-- A request that is received is nothing that the workflow gets or sends, either. -/
theorem requests_silent (act : Service.Event) (shown : List Service.Seen) :
    qrmTrace (requests act ++ shown.map .service) = qrmTrace (shown.map .service) ∧
      forwarded (requests act ++ shown.map .service) = forwarded (shown.map .service) ∧
        processed (requests act ++ shown.map .service) = processed (shown.map .service) := by
  obtain ⟨noTask, noForward, noResult, _⟩ := requests_seen act
  refine ⟨?_, ?_, ?_⟩
  · rw [qrmTrace_append, noTask, nil_append]
  · rw [forwarded_append, noForward, nil_append]
  · rw [processed_append, noResult, nil_append]

/-- What is seen of the workflow is none of these. -/
theorem qrm_told (shown : List QrmWorkflow.Seen) : asked (shown.map .qrm) = [] ∧ looked (shown.map .qrm) = [] ∧
    sent (shown.map .qrm) = [] := by
  refine ⟨?_, ?_, ?_⟩
  · simp [asked, asked?]
  · simp [looked, looked?]
  · simp [sent, sent?]

section
variable {service next : Service} {act : Service.Event} {shown : List Service.Seen}

/-- What a step forwards, of the request in hand and the one that it receives. -/
structure Forwards (config : Config) (trace : List Seen) (service : Service) (act : Service.Event) (next : Service)
    (shown : List Service.Seen) (made : List Dispatch) : Prop where
  told : made.map Dispatch.forwarded = forwarded (shown.map .service)
  filed : ∀ task ∈ made, Made config trace task
  order : Kept (¬ Drops config service act) (made.filterMap Dispatch.request ++ next.taskWorker.request.toList)
    (service.taskWorker.request.toList ++ asked (requests act))

/-- A step of another worker forwards none of the requests in hand. -/
theorem Forwards.quiet (silent : forwarded (shown.map .service) = [])
    (same : next.taskWorker.request.toList = service.taskWorker.request.toList ++ asked (requests act)) :
    Forwards config trace service act next shown [] :=
  ⟨silent.symm, by simp, .same same⟩

/-- The request in hand is forwarded before the next one is received, unless the send fails. -/
theorem work_forwards (task : TaskHeard trace service.taskWorker) (control : ControlHeard trace service.controlWorker)
    (change : Service.Change config service act next shown) :
    ∃ made : List Dispatch, Forwards config trace service act next shown made := by
  cases change with
  | receiveTask loc | numberTask loc | registerTask loc => exact ⟨[], .quiet rfl (by rw [loc]; rfl)⟩
  | @sendTask request id fault loc =>
    rw [loc] at task
    cases taken : Service.accepted config.qrm_task fault with
    | true =>
      refine ⟨[⟨some request, id, Forward.readdressed request id config⟩], rfl, ?_, .same (by rw [loc]; rfl)⟩
      intro made member
      obtain rfl := mem_singleton.mp member
      exact .direct task.2
    | false => exact ⟨[], rfl, by simp, nil_sublist _, fun safe => absurd taken safe⟩
  | @sendOutboundTask request command id fault loc =>
    rw [loc] at control
    cases taken : Service.accepted config.qrm_task fault with
    | true =>
      refine ⟨[⟨none, id, Forward.readdressed (Control.applyCreateTaskCommand command) id config⟩], rfl, ?_,
        .same (append_nil service.taskWorker.request.toList).symm⟩
      intro made member
      obtain rfl := mem_singleton.mp member
      exact .control control.2
    | false => exact ⟨[], .quiet rfl (append_nil _).symm⟩
  | _ => exact ⟨[], .quiet rfl (append_nil _).symm⟩

/-- An entry that is found was registered under the id of the result. -/
theorem work_finds (traces : service.Traces uid n (served trace)) (change : Service.Change config service act next shown)
    {result : QuantumResult} {entry : PendingTask} (member : (result, some entry) ∈ looked (shown.map .service)) :
    .entered entry ∈ served trace ∧ entry.forwarded_task_id = widen result.task_id := by
  cases change with
  | correlate loc found =>
    obtain ⟨rfl, same⟩ := Prod.mk.inj (mem_singleton.mp member)
    obtain rfl := Option.some.inj same
    exact ⟨traces.pending found, (traces.ok.own.pending _ _ found).1⟩
  | ignore =>
    obtain ⟨_, same⟩ := Prod.mk.inj (mem_singleton.mp member)
    cases same
  | _ => cases member

/-- What was found is sent before the next result is looked up, unless the send fails. -/
theorem work_sends (change : Service.Change config service act next shown) :
    Kept (¬ Drops config service act) (sent (shown.map .service) ++ inDelivery next.resultWorker)
      (inDelivery service.resultWorker ++ (looked (shown.map .service)).filterMap remap?) := by
  cases change with
  | receiveResult loc | ignore loc =>
    rw [loc]
    exact .same rfl
  | @correlate result entry loc found =>
    have one : [(result, some entry)].filterMap remap? = (remap? (result, some entry)).toList := by
      cases made : remap? (result, some entry) <;> simp [made]
    rw [loc]
    exact .same one.symm
  | @store entry result loc control =>
    have none : remap? (result, some entry) = none := by simp [remap?, control]
    rw [loc]
    exact .same (by rw [inDelivery, none]; rfl)
  | @deliver entry result fault loc direct =>
    have one : inDelivery (.taken entry result) =
        [(entry.original_result_destination, Forward.remapped entry result)] := by simp [inDelivery, remap?, direct]
    cases taken : Service.accepted entry.original_result_destination fault with
    | true => exact .same (by rw [loc, one]; rfl)
    | false => exact ⟨nil_sublist _, fun safe => absurd ⟨entry, result, loc, taken⟩ safe⟩
  | _ => exact .same (append_nil _).symm
end

variable {lossless : Prop}

theorem new_ordered (config : Config) (lossless : Prop) (uid : UInt64) : Ordered config lossless [] (new uid) := by
  refine ⟨⟨[], rfl, ?_, .same rfl⟩, ?_, .same rfl⟩
  · simp
  · simp [looked]

theorem step_ordered (ordered : Ordered config lossless trace s) (dealt : Dealt config uid n trace s)
    (safe : lossless → ∀ act, e = .work act → ¬ Drops config s.service act)
    (stepped : step config site crossed s e = some t) : Ordered config lossless (trace ++ seen config site s e) t := by
  have move := step_move stepped
  generalize seen config site s e = more at move
  obtain ⟨⟨made, told, filed, order⟩, found, sends⟩ := ordered
  cases move with
  | @work act service shown change other =>
    obtain ⟨askedNow, lookedNow, sentNow⟩ := requests_told act shown
    obtain ⟨new, forwards⟩ := work_forwards dealt.task dealt.control change
    have drops : lossless → ¬ Drops config s.service act := fun holds => safe holds act rfl
    refine ⟨⟨made ++ new, ?_, ?_, ?_⟩, ?_, ?_⟩
    · rw [map_append, told, forwards.told, forwarded_append, (requests_silent act shown).2.1]
    · intro task member
      rcases mem_append.mp member with old | recent
      · exact (filed task old).mono _
      · exact (forwards.filed task recent).mono _
    · have now := (forwards.order.mono drops).append_left (made.filterMap Dispatch.request)
      rw [← append_assoc, ← append_assoc] at now
      rw [filterMap_append, asked_append, askedNow]
      exact now.trans (order.append_right _)
    · intro result entry member
      rw [looked_append, lookedNow] at member
      rcases mem_append.mp member with old | recent
      · obtain ⟨entered, key⟩ := found result entry old
        exact ⟨served_mono entered _, key⟩
      · obtain ⟨entered, key⟩ := work_finds dealt.traces change recent
        exact ⟨served_mono entered _, key⟩
    · have now := ((work_sends change).mono drops).append_left (sent trace)
      rw [← append_assoc, ← append_assoc] at now
      rw [sent_append, sentNow, looked_append, lookedNow, filterMap_append]
      exact now.trans (sends.append_right _)
  | received front read idle =>
    rw [append_nil]
    rw [idle] at sends
    exact ⟨⟨made, told, filed, order⟩, found, sends⟩
  | unread | discarded =>
    rw [append_nil]
    exact ⟨⟨made, told, filed, order⟩, found, sends⟩
  | @qrm act workflow shown change =>
    obtain ⟨noRequest, noResult, noMessage⟩ := qrm_told shown
    refine ⟨⟨made, ?_, fun task member => (filed task member).mono _, ?_⟩, ?_, ?_⟩
    · rw [forwarded_append, (qrm_seen shown).2.1, append_nil, told]
    · rwa [asked_append, noRequest, append_nil]
    · intro result entry member
      rw [looked_append, noResult, append_nil] at member
      obtain ⟨entered, key⟩ := found result entry member
      exact ⟨served_mono entered _, key⟩
    · rwa [sent_append, noMessage, append_nil, looked_append, noResult, append_nil]

theorem run_ordered {es : List Event} (few : numbered config site crossed (new uid) es ≤ 2 ^ 60)
    (ran : run (step config site crossed) (new uid) es = some s) :
    ∃ n, Dealt config uid n (history (step config site crossed) (seen config site) (new uid) es) s ∧
      Ordered config False (history (step config site crossed) (seen config site) (new uid) es) s := by
  have keeps : ∀ n trace s e t, Dealt config uid n trace s ∧ Ordered config False trace s → n + (numbers s e).length ≤ 2 ^ 60 →
      True → step config site crossed s e = some t → Dealt config uid (n + (numbers s e).length)
        (trace ++ seen config site s e) t ∧ Ordered config False (trace ++ seen config site s e) t :=
    fun _ _ _ _ _ both few _ stepped => ⟨step_dealt both.1 few stepped, step_ordered both.2 both.1 False.elim stepped⟩
  have both := run_counted _ keeps ⟨new_dealt config uid, new_ordered config False uid⟩ (by rwa [Nat.zero_add])
    (along_of_forall (fun _ _ => trivial) _ es) ran
  rw [nil_append] at both
  exact ⟨_, both⟩

/-- What is sent for a request is what the workflow would send for it, and the result names
    its destination. -/
def Relays (site : Site) (report : String × QuantumResult) (request : QuantumTask) : Prop :=
  ∃ result, Serves site report.1 result request ∧ report.2 = { result with destination := report.1 }

/-- A result of the forwarded task is one of the request, once the service has remapped it. -/
theorem relays_remapped {request : QuantumTask} {id : UInt64} {result : QuantumResult}
    (serves : Serves site config.result result (Forward.readdressed request id config)) :
    Relays site (request.result_destination, Forward.remapped (Forward.directEntry request id) result) request := by
  obtain ⟨_, fd, compiled, submitted, rounds, made, ran⟩ := serves
  obtain ⟨device, circuit, others, job, counts, selected, files, created, assembled, rfl⟩ :=
    createAndSubmit_returned.mp ran
  -- The request is compiled as the forwarded task is, and its job is the same.
  have own : Compiled site.library fd request { request with circuit_files := compiled.circuit_files } :=
    ⟨rfl, made.circuits⟩
  have same : createJob (site.behind submitted) { request with circuit_files := compiled.circuit_files } circuit =
      some job := by
    rw [← created, made.others]
    rfl
  refine ⟨{ task_id := request.task_id, executed_circuits := [circuit], results := [⟨counts⟩] },
    ⟨rfl, fd, _, submitted, rounds, own, ?_⟩, ?_⟩
  · exact createAndSubmit_returned.mpr ⟨device, circuit, others, job, counts, selected, files, same, assembled, rfl⟩
  · simp [Forward.remapped, Forward.directEntry, narrow_widen]

/-- A result of a forwarded task is looked up under the id of the task. -/
theorem Connected.key (connected : Connected config site trace s) {task : UInt64 × QuantumTask}
    (among : task ∈ forwarded trace) (fits : Fits task.1) {result : QuantumResult}
    (serves : Serves site config.result result task.2) : widen result.task_id = task.1 := by
  rw [serves.task_id, connected.named task among]
  exact fits

/-- What is to be sent for the result of a forwarded task is for the request that it was made of. -/
theorem remap_relays (connected : Connected config site trace s) (dealt : Dealt config uid n trace s)
    (ordered : Ordered config lossless trace s) (fit : ∀ task ∈ forwarded trace, Fits task.1) {result : QuantumResult}
    {entry : PendingTask} {task : Dispatch} (found : (result, some entry) ∈ looked trace)
    (among : task.forwarded ∈ forwarded trace) (made : Made config trace task)
    (serves : Serves site config.result result task.task) :
    Option.Rel (Relays site) (remap? (result, some entry)) task.request := by
  obtain ⟨entered, key⟩ := ordered.found result entry found
  have same : entry.forwarded_task_id = task.id := key.trans (connected.key among (fit task.forwarded among) serves)
  cases made with
  | direct filed =>
    obtain rfl := dealt.entered_unique entered filed same
    exact .some (relays_remapped serves)
  | control filed =>
    obtain rfl := dealt.entered_unique entered filed same
    exact .none

/-- In every run of the service and the workflow, whatever fails in it, as long as clients name
    none of the queues in between, the ids last and those of the forwarded tasks fit, the
    clients of direct requests get what the workflow would send them for some of the
    requests, in the order in which the requests were received and for each of them once. -/
theorem answers_follow_requests {es : List Event} (joined : Joined config site)
    (names : ∀ e ∈ es, NamesOther config site e) (few : numbered config site crossed (new uid) es ≤ 2 ^ 60)
    (fit : ∀ task ∈ forwarded (history (step config site crossed) (seen config site) (new uid) es), Fits task.1)
    (ran : run (step config site crossed) (new uid) es = some s) :
    SublistForall₂ (Relays site) (sent (history (step config site crossed) (seen config site) (new uid) es))
      (asked (history (step config site crossed) (seen config site) (new uid) es)) := by
  have connected := run_connected joined names ran
  obtain ⟨n, dealt, ordered⟩ := run_ordered few ran
  have results := connected.processed_serves
  generalize history (step config site crossed) (seen config site) (new uid) es = trace at *
  obtain ⟨made, told, filed, order⟩ := ordered.forwards
  rw [processed_looked, ← told] at results
  have image := sublistForall₂_map_right_iff.mp (sublistForall₂_map_left_iff.mp results)
  have relays : SublistForall₂ (Relays site) ((looked trace).filterMap remap?) (made.filterMap Dispatch.request) := by
    refine image_filterMap image ?_
    rintro ⟨result, found⟩ member task among serves report remaps
    cases found with
    | none => cases remaps
    | some entry =>
      have here : task.forwarded ∈ forwarded trace := told ▸ mem_map_of_mem among
      have related := remap_relays connected dealt ordered fit member here (filed task among) serves
      rw [remaps] at related
      generalize task.request = origin at related
      cases related with
      | some relays => exact ⟨_, rfl, relays⟩
  have sentInOrder := image_lose relays ((sublist_append_left _ _).trans ordered.sends.among)
  exact image_among sentInOrder ((sublist_append_left _ _).trans order.among)

theorem relayedRun_sent : ∃ s, run (step makeDefaultConfig gateway uncrossed) (new 11) relayedRun = some s ∧
    (sent (history (step makeDefaultConfig gateway uncrossed) (seen makeDefaultConfig gateway) (new 11)
      relayedRun)).length = 1 ∧
    SublistForall₂ (Relays gateway)
      (sent (history (step makeDefaultConfig gateway uncrossed) (seen makeDefaultConfig gateway) (new 11) relayedRun))
      (asked (history (step makeDefaultConfig gateway uncrossed) (seen makeDefaultConfig gateway) (new 11) relayedRun)) :=
  ⟨_, rfl, rfl, answers_follow_requests gateway_joined relayedRun_names (by decide) relayedRun_fit rfl⟩

end Installation
end Mqss.QOffload
