import Mqss.Deployment

/-!
Tasks and other clients. As long as no client names the result queue and ids
survive their field, the results of a task are QRM's answers to it, and what
becomes of a task depends on its own request, its own answer and its own queries.
-/

namespace Mqss.QOffload
open Mqss.Words Mqss.Machine Mqss.FiniteMap

/-- The direct request that a task worker handles. -/
def TaskWorker.request : TaskWorker → Option QuantumTask
  | .idle => none
  | .received request => some request
  | .numbered request _ => some request
  | .registered request _ => some request

/-- The request that a control worker handles. -/
def ControlWorker.request : ControlWorker → Option APIRequest
  | .idle => none
  | .received request => some request
  | .numbered request _ _ => some request
  | .registered request _ _ => some request
  | .announcing request _ => some request
  | .looked request _ => some request
  | .answering request _ => some request

namespace Service

/-- A request names another queue than this one for its result or response. -/
def NamesOther (queue : String) : Event → Prop
  | .receiveTask request => request.result_destination ≠ queue
  | .receiveRequest request => request.response_queue ≠ queue
  | _ => True

/-- The entry's client gets its result elsewhere. -/
def Elsewhere (queue : String) (entry : PendingTask) : Prop :=
  entry.kind = .DirectTask → entry.original_result_destination ≠ queue

/-- No client of the service named this queue. -/
structure Unnamed (queue : String) (s : Service) : Prop where
  task : ∀ request, s.taskWorker.request = some request → request.result_destination ≠ queue
  control : ∀ request, s.controlWorker.request = some request → request.response_queue ≠ queue
  pending : ∀ id entry, s.tasks.pending.lookup id = some entry → Elsewhere queue entry
  held : ∀ entry result, s.resultWorker = .taken entry result → Elsewhere queue entry

theorem new_unnamed (queue : String) (uid : UInt64) : (new uid).Unnamed queue := by
  refine ⟨nofun, nofun, ?_, nofun⟩
  intro id entry found
  cases found

variable {config : Config} {queue : String} {s t : Service} {e : Event} {seen : List Seen}

theorem step_unnamed (unnamed : s.Unnamed queue) (other : NamesOther queue e) (change : Change config s e t seen) :
    t.Unnamed queue := by
  obtain ⟨task, control, pending, held⟩ := unnamed
  cases change with
  | receiveTask loc =>
    refine ⟨?_, control, pending, held⟩
    intro request same
    obtain rfl := Option.some.inj same
    exact other
  | receiveRequest loc =>
    refine ⟨task, ?_, pending, held⟩
    intro request same
    obtain rfl := Option.some.inj same
    exact other
  | @registerTask request id loc =>
    have named : request.result_destination ≠ queue := task request (by rw [loc]; rfl)
    refine ⟨?_, control, ?_, held⟩
    · intro _ same
      obtain rfl := Option.some.inj same
      exact named
    · intro other entry found
      rcases lookup_of_insert found with ⟨_, rfl⟩ | old
      · intro _
        exact named
      · exact pending other entry old
  | @registerRequest request command id loc =>
    refine ⟨task, fun other same => control other (by rw [loc]; exact same), ?_, held⟩
    intro other entry found
    rcases lookup_of_insert found with ⟨_, rfl⟩ | old
    · exact nofun
    · exact pending other entry old
  | numberTask loc => exact ⟨fun request same => task request (by rw [loc]; exact same), control, pending, held⟩
  | sendTask loc => exact ⟨nofun, control, pending, held⟩
  | take loc =>
    rw [takeCompleted_erases]
    exact ⟨task, fun request same => control request (by rw [loc]; exact same), pending, held⟩
  | announce loc => exact ⟨task, nofun, pending, held⟩
  | answer loc => exact ⟨task, nofun, pending, held⟩
  | receiveResult loc => exact ⟨task, control, pending, nofun⟩
  | ignore loc => exact ⟨task, control, pending, nofun⟩
  | correlate loc found =>
    refine ⟨task, control, fun id entry kept => pending id entry (lookup_of_erase kept).2, ?_⟩
    intro entry result taken
    obtain ⟨rfl, rfl⟩ := ResultWorker.taken.inj taken
    exact pending _ _ found
  | store loc => exact ⟨task, control, pending, nofun⟩
  | deliver loc => exact ⟨task, control, pending, nofun⟩
  | numberRequest loc => exact ⟨task, fun request same => control request (by rw [loc]; exact same), pending, held⟩
  | status loc => exact ⟨task, fun request same => control request (by rw [loc]; exact same), pending, held⟩
  | refuse loc => exact ⟨task, fun request same => control request (by rw [loc]; exact same), pending, held⟩
  | look loc => exact ⟨task, fun request same => control request (by rw [loc]; exact same), pending, held⟩
  | inform loc => exact ⟨task, fun request same => control request (by rw [loc]; exact same), pending, held⟩
  | sendOutboundTask loc => exact ⟨task, fun request same => control request (by rw [loc]; exact same), pending, held⟩

theorem responseTo_queue (request : APIRequest) (result : ControlResult) :
    (responseTo request result).destination_queue = request.response_queue := by
  unfold responseTo
  cases controlProtocolFor request <;> rfl

/-- While no client named the result queue, the service writes nothing into it. -/
theorem unnamed_relays_nothing {misread : APIResponse → Option QuantumResult} (unnamed : s.Unnamed config.result)
    (change : Change config s e t seen) : seen.filterMap (Deployment.relays config misread) = [] := by
  cases change with
  | @announce request id fault loc =>
    have other : request.response_queue ≠ config.result := unnamed.control request (by rw [loc]; rfl)
    rw [List.filterMap_eq_nil_iff]
    intro x member
    obtain rfl := List.mem_singleton.mp member
    cases accepted request.response_queue fault <;> simp [Deployment.relays, responseTo_queue, other]
  | @answer request result fault loc =>
    have other : request.response_queue ≠ config.result := unnamed.control request (by rw [loc]; rfl)
    rw [List.filterMap_eq_nil_iff]
    intro x member
    obtain rfl := List.mem_singleton.mp member
    cases accepted request.response_queue fault <;> simp [Deployment.relays, responseTo_queue, other]
  | @deliver entry result fault loc direct =>
    have other := unnamed.held entry result loc direct
    rw [List.filterMap_eq_nil_iff]
    intro x member
    obtain rfl := List.mem_singleton.mp member
    cases accepted entry.original_result_destination fault <;> simp [Deployment.relays, other]
  | _ => rfl

/-- QRM is asked for a task under the field of its id. -/
theorem asks_narrow (change : Change config s e t seen) :
    ∀ request ∈ seen.filterMap Deployment.asks, request.2 = narrow request.1 := by
  have field : ∀ (id : UInt64) (task : QuantumTask) (accepted : Bool), task.task_id = narrow id →
      ∀ request ∈ [Seen.forwarded id task accepted].filterMap Deployment.asks, request.2 = narrow request.1 := by
    intro id task accepted named request member
    cases accepted with
    | false => cases member
    | true =>
      obtain rfl := List.mem_singleton.mp member
      exact named
  cases change with
  | sendTask => exact field _ _ _ rfl
  | sendOutboundTask => exact field _ _ _ rfl
  | announce =>
    intro request member
    cases member
  | _ =>
    intro request member
    cases member

/-- The result worker is handed results by its receive alone, and takes entries for them. -/
theorem Change.received {result : QuantumResult} (change : Change config s e t seen)
    (other : ∀ result, e ≠ .receiveResult result) (loc : t.resultWorker = .received result) :
    s.resultWorker = .received result := by
  cases change with
  | receiveResult => exact absurd rfl (other _)
  | ignore => cases loc
  | correlate => cases loc
  | store => cases loc
  | deliver => cases loc
  | _ => exact loc

theorem Change.taken {entry : PendingTask} {result : QuantumResult} (change : Change config s e t seen)
    (loc : t.resultWorker = .taken entry result) :
    s.resultWorker = .taken entry result ∨ e = .takePending ∧ s.resultWorker = .received result ∧
      s.tasks.pending.lookup (widen result.task_id) = some entry := by
  cases change with
  | receiveResult => cases loc
  | ignore => cases loc
  | correlate there found =>
    obtain ⟨rfl, rfl⟩ := ResultWorker.taken.inj loc
    exact .inr ⟨rfl, there, found⟩
  | store => cases loc
  | deliver => cases loc
  | _ => exact .inl loc

end Service

namespace Deployment
open Service (Event Seen Unnamed NamesOther)

/-- No request received in this step names the result queue. -/
def NamesOtherQueue (config : Config) : Act → Prop
  | .work e => NamesOther config.result e
  | _ => True

/-- A pending task that is correlated with QRM's answer to some task is that task. -/
def AnswersFit (d : Deployment) (act : Act) : Prop :=
  act = .work .takePending → ∀ id, d.source = .answer id → widen (narrow id) ∈ d.service.tasks.pending → Fits id

/-- A message is QRM's answer to the task that it names. -/
def Stems (answered : List (UInt64 × QuantumResult)) (result : QuantumResult) (source : Source) : Prop :=
  ∃ id, source = .answer id ∧ result.task_id = narrow id ∧ (id, result) ∈ answered

/-- Everything in the result queue and with the result worker is an answer of QRM's, and a
    task's result is the answer to that task. -/
structure Sound (config : Config) (answered : List (UInt64 × QuantumResult)) (d : Deployment) : Prop where
  own : d.service.Own
  unnamed : d.service.Unnamed config.result
  asked : ∀ request ∈ d.asked, request.2 = narrow request.1
  results : ∀ message ∈ d.results, Stems answered message.1 message.2
  received : ∀ result, d.service.resultWorker = .received result → Stems answered result d.source
  taken : ∀ entry result, d.service.resultWorker = .taken entry result →
    d.source = .answer entry.forwarded_task_id ∧ (entry.forwarded_task_id, result) ∈ answered

theorem Stems.mono {answered : List (UInt64 × QuantumResult)} {result : QuantumResult} {source : Source}
    (stems : Stems answered result source) (more : List (UInt64 × QuantumResult)) :
    Stems (answered ++ more) result source := by
  obtain ⟨id, same, named, member⟩ := stems
  exact ⟨id, same, named, List.mem_append_left _ member⟩

variable {config : Config} {misread : APIResponse → Option QuantumResult} {d d' : Deployment} {act : Act}
  {answered : List (UInt64 × QuantumResult)}

/-- A result that finds a pending task is QRM's answer to that task. -/
theorem Sound.correlated (sound : Sound config answered d)
    (fit : ∀ id, d.source = .answer id → widen (narrow id) ∈ d.service.tasks.pending → Fits id)
    {result : QuantumResult} {entry : PendingTask} (loc : d.service.resultWorker = .received result)
    (found : d.service.tasks.pending.lookup (widen result.task_id) = some entry) :
    d.source = .answer entry.forwarded_task_id ∧ (entry.forwarded_task_id, result) ∈ answered := by
  obtain ⟨id, source, named, member⟩ := sound.received result loc
  have key := (sound.own.pending _ _ found).1
  rw [named] at found key
  have fits := fit id source (Finmap.mem_iff.mpr ⟨entry, found⟩)
  have home : entry.forwarded_task_id = id := key.trans fits
  rw [home]
  exact ⟨source, member⟩

theorem step_sound (sound : Sound config answered d) (names : NamesOtherQueue config act) (fit : AnswersFit d act)
    (move : Move config misread d act d') : Sound config (answered ++ answers d act) d' := by
  cases move with
  | @work e service stepped other =>
    have change := @Service.step_change config d.service service e stepped
    have nothing := @Service.unnamed_relays_nothing config _ _ _ _ misread sound.unnamed change
    have unanswered : answers d (.work e) = [] := rfl
    rw [unanswered, List.append_nil]
    refine ⟨Service.step_own sound.own change, Service.step_unnamed sound.unnamed names change, ?_, ?_, ?_, ?_⟩
    · intro request member
      rcases List.mem_append.mp member with old | new
      · exact sound.asked request old
      · exact Service.asks_narrow change request new
    · rw [nothing, List.append_nil]
      exact sound.results
    · intro result loc
      exact sound.received result (change.received other loc)
    · intro entry result loc
      rcases change.taken loc with held | ⟨rfl, received, found⟩
      · exact sound.taken entry result held
      · exact sound.correlated (fit rfl) received found
  | @receive result source results service next stepped =>
    have change := @Service.step_change config d.service service _ stepped
    have here : Stems answered result source := by
      have member : (result, source) ∈ d.results := by
        rw [next]
        exact List.mem_cons_self
      exact sound.results _ member
    have unanswered : answers d .receiveResult = [] := rfl
    rw [unanswered, List.append_nil]
    have worker : service.resultWorker = .received result := by
      cases idle : d.service.resultWorker <;> simp only [Service.step, idle, Option.some.injEq, reduceCtorEq] at stepped
      rw [← stepped]
    have elsewhere : NamesOther config.result (.receiveResult result) := trivial
    refine ⟨Service.step_own sound.own change, Service.step_unnamed sound.unnamed elsewhere change, sound.asked, ?_, ?_,
      ?_⟩
    · intro message member
      apply sound.results message
      rw [next]
      exact List.mem_cons_of_mem _ member
    · intro other loc
      rw [worker] at loc
      obtain rfl := ResultWorker.received.inj loc
      exact here
    · intro entry other loc
      rw [worker] at loc
      cases loc
  | @answer request result asked named =>
    refine ⟨sound.own, sound.unnamed, ?_, ?_, ?_, ?_⟩
    · intro other member
      exact sound.asked other (List.mem_of_mem_erase member)
    · intro message member
      rcases List.mem_append.mp member with old | new
      · exact (sound.results message old).mono _
      · obtain rfl := List.mem_singleton.mp new
        refine ⟨request.1, rfl, named.trans (sound.asked request asked), ?_⟩
        exact List.mem_append_right _ List.mem_cons_self
    · intro other loc
      exact (sound.received other loc).mono _
    · intro entry other loc
      exact ⟨(sound.taken entry other loc).1, List.mem_append_left _ (sound.taken entry other loc).2⟩

/-- What a step does to a task for its own sake: its registration, the correlation of QRM's
    answer to it, what the result worker does with that, and the queries of its client. -/
def own (id : UInt64) (mine : APIRequest → Bool) (source : Source) (seen : Seen) : List Deed :=
  match seen with
  | .processed _ _ => if source = .answer id then Service.deeds id seen else []
  | .fetched request _ _ => if mine request then Service.deeds id seen else []
  | _ => Service.deeds id seen

def numbers (d : Deployment) : Act → List UInt64
  | .work e => d.service.numbers e
  | _ => []

/-- The number of ids that a run gives out. -/
def numbered (config : Config) (misread : APIResponse → Option QuantumResult) (d : Deployment) (acts : List Act) : Nat :=
  (history (step config misread) numbers d acts).length

variable {uid id : UInt64} {mine : APIRequest → Bool} {n : Nat}

theorem new_sound (config : Config) (uid : UInt64) : Sound config [] (new uid) :=
  ⟨Service.new_own uid, Service.new_unnamed _ uid, by simp [new], by simp [new], nofun, nofun⟩

/-- A direct request on its way to QRM. -/
def submit (request : QuantumTask) : List Act :=
  [.work (.receiveTask request), .work .numberTask, .work .registerTask, .work (.sendTask false)]

def finish : List Act := [.work .takePending, .work (.sendResult false)]

end Deployment
end Mqss.QOffload
