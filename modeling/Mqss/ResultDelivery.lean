import Mqss.Lives

/-!
What becomes of a result that was correlated with its task. The store and the
result worker give it away before it is sent, so it reaches its client as long as
whoever takes it is asked for the right thing, has somewhere to send it and the
transport accepts it.
-/

namespace Mqss.QOffload
open Mqss.Words Mqss.Machine Mqss.FiniteMap

/-- A record that has nothing to tell but the reason of a cancellation. -/
def CompletedControlTask.OnlyReason (record : CompletedControlTask) : Prop :=
  record = { task_id := record.task_id, cancel_reason := record.cancel_reason }

/-- An answer with the content of a record: its result, or its reason when there is nothing else. -/
def ControlResult.Carries (record : CompletedControlTask) (answer : ControlResult) : Prop :=
  answer = .TaskResult record ∨ record.OnlyReason ∧ answer = .CancelReason record.cancel_reason

/-- The outcome of a query that took a record. -/
def ControlResult.taken : ControlResult → Bool
  | .TaskResult _ => true
  | .CancelReason _ => true
  | _ => false

namespace Service

/-- A message with the result was accepted for the client's destination: the remapped result
    of a direct task, or a response to a query for a control task. -/
def Sent (entry : PendingTask) (result : QuantumResult) (trace : List Seen) : Prop :=
  match entry.kind with
  | .DirectTask => .delivered entry result (Forward.remapped entry result) true ∈ trace
  | .ControlTask => ∃ request answer, Takes request entry.forwarded_task_id ∧
      answer.Carries (Forward.completedTask entry result) ∧ .answered request (responseTo request answer) true ∈ trace

/-- The result is stored, or its task is pending still. -/
def Available (entry : PendingTask) (result : QuantumResult) (s : Service) : Prop :=
  s.tasks.completed_control_tasks.lookup entry.forwarded_task_id = some (Forward.completedTask entry result) ∨
    entry.forwarded_task_id ∈ s.tasks.pending

/-- Every correlated result is available or was sent. -/
def ResultsKept (trace : List Seen) (s : Service) : Prop :=
  ∀ before result entry after, trace = before ++ .processed result (some entry) :: after →
    Available entry result s ∨ Sent entry result after

/-- A step that gives a result away passes it on: a direct result is accepted for its client;
    a query that takes a record has a response queue and asks for the result, unless there
    is nothing in the record but a reason; and the response of such a query does not fail. -/
def PassesOn (s : Service) : Event → Prop
  | .sendResult fault => ∀ entry result, s.resultWorker = .taken entry result →
      accepted entry.original_result_destination fault = true
  | .completeRequest => ∀ request id record, s.controlWorker = .looked request id →
      s.tasks.completed_control_tasks.lookup id = some record →
      request.response_queue ≠ "" ∧ (¬ record.OnlyReason → Control.command request = .GetTaskResult id)
  | .sendResponse fault => ∀ request answer, s.controlWorker = .answering request answer → answer.taken = true →
      fault = false
  | _ => True

/-- A result is with the result worker, in the store, with the control worker, or sent. -/
def Whereabouts (entry : PendingTask) (result : QuantumResult) (after : List Seen) (s : Service) : Prop :=
  s.resultWorker = .taken entry result ∨
  (entry.kind = .ControlTask ∧
    s.tasks.completed_control_tasks.lookup entry.forwarded_task_id = some (Forward.completedTask entry result)) ∨
  (entry.kind = .ControlTask ∧ ∃ request answer, s.controlWorker = .answering request answer ∧
    Takes request entry.forwarded_task_id ∧ answer.Carries (Forward.completedTask entry result) ∧
    request.response_queue ≠ "") ∨
  Sent entry result after

/-- Every correlated result is somewhere, and a look is that of a query for a record. -/
structure Followed (trace : List Seen) (s : Service) : Prop where
  somewhere : ∀ before result entry after, trace = before ++ .processed result (some entry) :: after →
    Whereabouts entry result after s
  looked : ∀ request id, s.controlWorker = .looked request id → Takes request id

theorem Sent.mono {entry : PendingTask} {result : QuantumResult} {trace : List Seen} (sent : Sent entry result trace)
    (more : List Seen) : Sent entry result (trace ++ more) := by
  unfold Sent at sent ⊢
  cases kind : entry.kind with
  | DirectTask =>
    rw [kind] at sent
    exact List.mem_append_left _ sent
  | ControlTask =>
    rw [kind] at sent
    obtain ⟨request, answer, takes, carries, member⟩ := sent
    exact ⟨request, answer, takes, carries, List.mem_append_left _ member⟩

variable {config : Config} {uid : UInt64} {s t : Service} {e : Event} {seen trace after : List Seen} {n : Nat}
  {entry : PendingTask} {result : QuantumResult}

/-- The answer of a fitting query carries its record. -/
theorem answerOf_carries {request : APIRequest} {id : UInt64} {record : CompletedControlTask} (takes : Takes request id)
    (fitting : ¬ record.OnlyReason → Control.command request = .GetTaskResult id) :
    (answerOf request record).Carries record := by
  rcases takes with command | command
  · exact .inl (by rw [answerOf, command])
  · refine .inr ⟨?_, by rw [answerOf, command]⟩
    by_contra more
    have other := fitting more
    rw [command] at other
    cases other

/-- A result that the result worker holds is stored or sent on. -/
theorem step_held (own : s.Own) (passes : PassesOn s e) (change : Change config s e t seen)
    (held : s.resultWorker = .taken entry result) : Whereabouts entry result (after ++ seen) t := by
  cases change with
  | @store other value loc control =>
    rw [held] at loc
    obtain ⟨rfl, rfl⟩ := ResultWorker.taken.inj loc
    refine .inr (.inl ⟨control, ?_⟩)
    rw [← own.held _ _ held control]
    exact Finmap.lookup_insert _
  | @deliver other value fault loc direct =>
    have accepted : Service.accepted entry.original_result_destination fault = true := passes entry result held
    rw [held] at loc
    obtain ⟨rfl, rfl⟩ := ResultWorker.taken.inj loc
    refine .inr (.inr (.inr ?_))
    unfold Sent
    rw [direct, accepted]
    exact List.mem_append_right _ List.mem_cons_self
  | receiveResult loc =>
    rw [held] at loc
    cases loc
  | ignore loc =>
    rw [held] at loc
    cases loc
  | correlate loc =>
    rw [held] at loc
    cases loc
  | _ => exact .inl held

/-- A stored result stays or is taken by a fitting query that has a response queue. -/
theorem step_stored (ok : Ok uid s n) (passes : PassesOn s e)
    (looked : ∀ request id, s.controlWorker = .looked request id → Takes request id)
    (change : Change config s e t seen) (control : entry.kind = .ControlTask)
    (found : s.tasks.completed_control_tasks.lookup entry.forwarded_task_id =
      some (Forward.completedTask entry result)) : Whereabouts entry result (after ++ seen) t := by
  cases change with
  | @take request id loc =>
    rw [takeCompleted_erases]
    by_cases same : id = entry.forwarded_task_id
    · subst same
      obtain ⟨queue, fitting⟩ := passes request _ _ loc found
      refine .inr (.inr (.inl ⟨control, request, _, rfl, looked request _ loc, ?_, queue⟩))
      rw [found]
      exact answerOf_carries (looked request _ loc) fitting
    · exact .inr (.inl ⟨control, (Finmap.lookup_erase_ne (Ne.symm same)).trans found⟩)
  | @store other value loc other_control =>
    refine .inr (.inl ⟨control, ?_⟩)
    have origin := ok.own.held other value loc other_control
    have apart : entry.forwarded_task_id ≠ (Forward.completedTask other value).task_id := by
      intro same
      have key : entry.forwarded_task_id = other.forwarded_task_id := same.trans origin
      have here : resultPlace entry.forwarded_task_id s.resultWorker = 1 := by simp [loc, resultPlace, key]
      have stored := count_eq_one found
      have once := ok.once entry.forwarded_task_id
      unfold places at once
      omega
    exact (Finmap.lookup_insert_of_ne _ apart).trans found
  | _ => exact .inr (.inl ⟨control, found⟩)

/-- A result that the control worker answers with is sent. -/
theorem step_answering (passes : PassesOn s e) (change : Change config s e t seen)
    (control : entry.kind = .ControlTask) {request : APIRequest} {answer : ControlResult}
    (loc : s.controlWorker = .answering request answer) (takes : Takes request entry.forwarded_task_id)
    (carries : answer.Carries (Forward.completedTask entry result)) (queue : request.response_queue ≠ "") :
    Whereabouts entry result (after ++ seen) t := by
  have taken : answer.taken = true := by
    rcases carries with rfl | ⟨_, rfl⟩ <;> rfl
  have stays : t.controlWorker = s.controlWorker → Whereabouts entry result (after ++ seen) t :=
    fun same => .inr (.inr (.inl ⟨control, request, answer, same.trans loc, takes, carries, queue⟩))
  cases change with
  | @answer other value fault there =>
    have intact : fault = false := passes request answer loc taken
    rw [loc] at there
    obtain ⟨rfl, rfl⟩ := ControlWorker.answering.inj there
    have accepted : Service.accepted request.response_queue fault = true := by simp [Service.accepted, queue, intact]
    refine .inr (.inr (.inr ?_))
    unfold Sent
    rw [control, accepted]
    exact ⟨request, answer, takes, carries, List.mem_append_right _ List.mem_cons_self⟩
  | receiveRequest there => simp [loc] at there
  | numberRequest there => simp [loc] at there
  | status there => simp [loc] at there
  | refuse there => simp [loc] at there
  | look there => simp [loc] at there
  | inform there => simp [loc] at there
  | registerRequest there => simp [loc] at there
  | take there => simp [loc] at there
  | sendOutboundTask there => simp [loc] at there
  | announce there => simp [loc] at there
  | _ => exact stays rfl

theorem step_followed (ok : Ok uid s n) (passes : PassesOn s e) (followed : Followed trace s)
    (change : Change config s e t seen) : Followed (trace ++ seen) t := by
  constructor
  · intro before result entry after split
    rcases split_append split with ⟨rest, same, rfl⟩ | ⟨first, _, new⟩
    · rcases followed.somewhere before result entry rest same with held | ⟨control, found⟩ |
        ⟨control, request, answer, loc, takes, carries, queue⟩ | sent
      · exact step_held ok.own passes change held
      · exact step_stored ok passes followed.looked change control found
      · exact step_answering passes change control loc takes carries queue
      · exact .inr (.inr (.inr (sent.mono seen)))
    · have member : .processed result (some entry) ∈ seen := by rw [new]; simp
      cases change with
      | correlate loc found =>
        rw [List.mem_singleton] at member
        obtain ⟨rfl, same⟩ := Seen.processed.inj member
        obtain rfl := Option.some.inj same
        exact .inl rfl
      | _ => simp at member
  · intro request id loc
    cases change with
    | look there asks =>
      obtain ⟨rfl, rfl⟩ := ControlWorker.looked.inj loc
      exact asks
    | _ => first | cases loc | exact followed.looked request id loc

/-- In a run whose every step passes on the results it gives away, and that does not exhaust
    the ids, each correlated result is available or was sent to its client whenever no
    worker is inside its loop. -/
theorem correlated_results_kept {es : List Event} (ran : run step (new uid) es = some t)
    (few : (new uid).numbered es ≤ 2 ^ 60) (met : Along step PassesOn (new uid) es) (idle : t.Idle) :
    ResultsKept (history step (Service.seen config) (new uid) es) t := by
  have start : Followed [] (new uid) := by
    refine ⟨?_, nofun⟩
    intro before result entry after split
    cases before <;> cases split
  have keeps : ∀ trace s e next, Followed trace s → PassesOn s e ∧ (∃ n, Ok uid s n) → step s e = some next →
      Followed (trace ++ Service.seen config s e) next := by
    rintro trace s e next followed ⟨passes, n, ok⟩ stepped
    exact step_followed ok passes followed (step_change stepped)
  have sound := along_ok (new_ok uid) (by omega : 0 + (new uid).numbered es ≤ 2 ^ 60)
  have followed := history_invariant keeps start (along_and.mpr ⟨met, sound⟩) ran
  intro before result entry after split
  rcases followed.somewhere before result entry after split with held | ⟨_, found⟩ | ⟨_, _, _, loc, _⟩ | sent
  · rw [idle.2.2] at held
    cases held
  · exact .inl (.inl found)
  · rw [idle.2.1] at loc
    cases loc
  · exact .inr sent

/-- A control task whose result has come back, and a result query for it. -/
def controlTaskDone : List Event :=
  [.receiveRequest { typed_request := some (.create_task {}), response_queue := "client" }, .executeRequest,
    .completeRequest, .sendOutboundTask false, .sendResponse false,
    .receiveResult { task_id := 11, execution_status := true }, .takePending, .storeResult]

def fetchInto (response_queue : String) : List Event :=
  [.receiveRequest { typed_request := some (.task_result 11), response_queue := response_queue }, .executeRequest,
    .completeRequest, .sendResponse false]

/-- A direct task after the control task, whose result is sent. -/
def directTaskDone : List Event :=
  [.receiveTask { task_id := 7, result_destination := "client" }, .numberTask, .registerTask, .sendTask false,
    .receiveResult { task_id := 10011 }, .takePending, .sendResult false]

/-- The steps that pass on whatever they find. -/
def Event.plain : Event → Bool
  | .sendResult _ | .completeRequest => false
  | .sendResponse fault => !fault
  | _ => true

theorem along_plain {es : List Event} (plain : ∀ e ∈ es, e.plain = true) (s : Service) : Along step PassesOn s es := by
  refine along_mono (fun s e (passes : e.plain = true) => ?_) (along_of_events plain s)
  cases e with
  | sendResult | completeRequest => cases passes
  | sendResponse fault => exact fun _ _ _ _ => by simpa [Event.plain] using passes
  | _ => trivial

theorem directResult_kept : ∃ t, run step (new 11) (controlTaskDone ++ (fetchInto "client" ++ directTaskDone)) = some t ∧
    t.Idle ∧ t.tasks = {} ∧ ResultsKept (history step (Service.seen makeDefaultConfig) (new 11)
      (controlTaskDone ++ (fetchInto "client" ++ directTaskDone))) t := by
  have created : Along step PassesOn (new 11) (controlTaskDone.take 2 ++ controlTaskDone.drop 2) := by
    refine (along_append rfl).mpr ⟨along_plain (by decide) _, (along_cons rfl).mpr ⟨?_, along_plain (by decide) _⟩⟩
    rintro _ _ _ ⟨⟩
  obtain ⟨stored, ran⟩ : ∃ s, run step (new 11) controlTaskDone = some s := ⟨_, rfl⟩
  have fetched : Along step PassesOn stored ((fetchInto "client").take 2 ++ (fetchInto "client").drop 2) := by
    obtain rfl := Option.some.inj ran
    refine (along_append rfl).mpr ⟨along_plain (by decide) _, (along_cons rfl).mpr ⟨?_, along_plain (by decide) _⟩⟩
    rintro _ _ _ ⟨⟩ _
    exact ⟨by decide, fun _ => rfl⟩
  obtain ⟨free, emptied⟩ : ∃ s, run step stored (fetchInto "client") = some s := by
    obtain rfl := Option.some.inj ran
    exact ⟨_, rfl⟩
  have sent : Along step PassesOn free (directTaskDone.take 6 ++ directTaskDone.drop 6) := by
    obtain rfl := Option.some.inj ran
    obtain rfl := Option.some.inj emptied
    refine (along_append rfl).mpr ⟨along_plain (by decide) _, (along_cons rfl).mpr ⟨?_, along_plain (by decide) _⟩⟩
    rintro entry result loc
    obtain ⟨rfl, _⟩ := ResultWorker.taken.inj loc
    decide
  have met := (along_append ran).mpr ⟨created, (along_append emptied).mpr ⟨fetched, sent⟩⟩
  exact ⟨_, rfl, ⟨rfl, rfl, rfl⟩, by decide, correlated_results_kept rfl (by decide) met ⟨rfl, rfl, rfl⟩⟩

/-- A result query without a response queue takes the result and sends it nowhere. -/
theorem result_lost_without_queue : ∃ t, run step (new 11) (controlTaskDone ++ fetchInto "") = some t ∧ t.Idle ∧
    t.tasks = {} ∧
    ¬ ResultsKept (history step (Service.seen makeDefaultConfig) (new 11) (controlTaskDone ++ fetchInto "")) t := by
  refine ⟨_, rfl, ⟨rfl, rfl, rfl⟩, by decide, ?_⟩
  intro kept
  have trace : history step (Service.seen makeDefaultConfig) (new 11) (controlTaskDone ++ fetchInto "") =
      [.entered ⟨.ControlTask, 11, 11, ""⟩,
        .forwarded 11 (Forward.readdressed (Control.applyCreateTaskCommand {}) 11 makeDefaultConfig) true,
        .announced 11 (Typed.encode (.TaskCreated 11) "client") true] ++
      .processed { task_id := 11, execution_status := true } (some ⟨.ControlTask, 11, 11, ""⟩) ::
        [.stored ⟨.ControlTask, 11, 11, ""⟩ { task_id := 11, execution_status := true },
          .fetched { typed_request := some (.task_result 11) } 11 (some { task_id := 11, execution_status := true }),
          .answered { typed_request := some (.task_result 11) }
            (Typed.encode (.TaskResult { task_id := 11, execution_status := true }) "") false] := rfl
  rcases kept _ _ _ _ trace with (stored | pending) | ⟨request, answer, _, _, sent⟩
  · cases stored
  · exact absurd pending (by decide)
  · simp at sent

end Service
end Mqss.QOffload
