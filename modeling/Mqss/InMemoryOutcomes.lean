import Mqss.InMemoryCalls

/-!
What the outcome of a receive says. Judged by the state of its last locked section,
a receive reports a stopped transport, gives a message or times out as the flag and
the queue of its address have it, and after a shutdown nothing succeeds any more.
-/

namespace Mqss.InMemory
open Mqss.Machine

/-- The result of a receive fits the state it was decided in and the timeout it was given. -/
structure Judged (src : Address) (timeout : Option Int) (st : State) (result : Result Message) : Prop where
  unavailable : (∃ status, result = .error status ∧ status.code = .Unavailable) ↔ st.stopped = true
  message : (∃ message, result = .ok message) ↔ st.stopped = false ∧ st.contents src.name ≠ []
  timeout : (∃ status, result = .error status ∧ status.code = .Timeout) →
    st.stopped = false ∧ st.contents src.name = [] ∧ timeout ≠ none

theorem judged_stopped {src : Address} {timeout : Option Int} {st : State} (stopped : st.stopped = true)
    (reason : String) : Judged src timeout st (.error (.unavailable reason)) := by
  refine ⟨?_, ?_, ?_⟩
  · exact iff_of_true ⟨_, rfl, rfl⟩ stopped
  · simp [stopped]
  · rintro ⟨status, same, code⟩
    obtain rfl := Except.error.inj same
    cases code

theorem judged_message {src : Address} {timeout : Option Int} {st : State} {envelope : Envelope}
    {rest : List Envelope} (running : st.stopped = false) (queue : st.contents src.name = envelope :: rest)
    (message : Message) : Judged src timeout st (.ok message) := by
  refine ⟨?_, ?_, ?_⟩
  · simp [running]
  · exact iff_of_true ⟨message, rfl⟩ ⟨running, by simp [queue]⟩
  · rintro ⟨status, same, _⟩
    cases same

theorem judged_empty {src : Address} {timeout : Option Int} {st : State} (running : st.stopped = false)
    (empty : st.contents src.name = []) (given : timeout ≠ none) (reason : String) :
    Judged src timeout st (.error (.timeout reason)) := by
  refine ⟨?_, ?_, fun _ => ⟨running, empty, given⟩⟩
  · refine iff_of_false ?_ (by simp [running])
    rintro ⟨status, same, code⟩
    obtain rfl := Except.error.inj same
    cases code
  · simp [empty]

/-- What `receive` decides after its wait, which ends for something ready or for its timeout. -/
theorem take_judged {src : Address} {timeout : Option Int} {st : State} (waited : Bool)
    (cause : ready src st = true ∨ timeout ≠ none) : Judged src timeout st (take waited src st).1 := by
  cases stopped : st.stopped with
  | true =>
    rw [take_stopped stopped]
    exact judged_stopped stopped _
  | false =>
    cases queue : st.contents src.name with
    | cons envelope rest =>
      rw [take_some waited stopped (State.lookup_of_contents queue)]
      exact judged_message stopped queue _
    | nil =>
      have nothing : ready src st = false := (not_ready_iff src st).mpr ⟨stopped, queue⟩
      have given : timeout ≠ none := cause.resolve_left (by simp [nothing])
      rw [take_empty waited stopped queue]
      cases waited
      · exact judged_empty stopped queue given _
      · exact judged_empty stopped queue given _

theorem receive_judged {src : Address} {args : ReceiveArgs} {st after : State} {result : Result Message}
    (named : src.name ≠ "") (returns : receive src args st = .returns result after) :
    Judged src args.timeout st result := by
  rw [receive, if_neg named] at returns
  split_ifs at returns with here zero
  · obtain ⟨rfl, rfl⟩ := Section.returns.inj returns
    exact take_judged false (.inl here)
  · obtain ⟨rfl, rfl⟩ := Section.returns.inj returns
    obtain ⟨running, empty⟩ := (not_ready_iff src st).mp (Bool.eq_false_iff.mpr here)
    exact judged_empty running empty (by simp [zero]) _

theorem wake_judged {src : Address} {timeout : Option Int} {told : Bool} {cause : Wake} {st after : State}
    {result : Result Message} (allowed : Wake.allowed timeout told cause = true)
    (returns : wake src timeout cause st = .returns result after) : Judged src timeout st result := by
  unfold wake at returns
  split_ifs at returns with ends
  obtain ⟨rfl, rfl⟩ := Section.returns.inj returns
  apply take_judged timeout.isSome
  rcases ends with rfl | here
  · exact .inr (Option.isSome_iff_ne_none.mp allowed)
  · exact .inl here

/-- A step at which a receive ends, with the receive its thread called last. -/
theorem ended_judged {es : List Event} {p next : Process} {e : Event} (origins : Origins es p)
    (stepped : step p e = some next) {thread : ThreadId} {src : Address} {result : Result Message}
    (seen : .received thread src result ∈ observe p e) (named : src.name ≠ "") :
    ∃ args, LastCall (es ++ [e]) thread (.receive thread src args) ∧ Judged src args.timeout p.shared result := by
  have observed : ∀ {caller : ThreadId} {address : Address} {verdict : Section},
      Observation.received thread src result ∈ verdict.observed caller address →
      thread = caller ∧ src = address ∧ ∃ after, verdict = .returns result after := by
    intro caller address verdict member
    cases verdict with
    | waits => cases member
    | returns given after =>
      obtain ⟨rfl, rfl, rfl⟩ := Observation.received.inj (List.mem_singleton.mp member)
      exact ⟨rfl, rfl, after, rfl⟩
  cases step_move stepped with
  | returned | waits =>
    obtain ⟨rfl, rfl, _, returns⟩ := observed seen
    exact ⟨_, .now rfl es, receive_judged named returns⟩
  | @wokenUp caller address timeout told cause given after waited allowed verdict =>
    simp only [observe, waited] at seen
    obtain ⟨rfl, rfl, _, returns⟩ := observed seen
    obtain ⟨args, rfl, last⟩ := origins.waiting thread src timeout told waited
    exact ⟨args, last.later (by simp [Event.caller]), wake_judged allowed returns⟩
  | @waitsOn caller address timeout told cause waited verdict =>
    simp only [observe, waited, verdict] at seen
    cases seen
  | refused => cases List.mem_singleton.mp seen
  | raised after free calls raises =>
    cases e with
    | send => cases List.mem_singleton.mp seen
    | shutdown => cases seen
    | _ => cases raises
  | stoppedBefore => cases seen
  | notified => cases seen

theorem stopped_stays {p next : Process} {e : Event} (stopped : p.shared.stopped = true)
    (stepped : step p e = some next) :
    next.shared = p.shared ∧ ∀ observation ∈ observe p e, observation.failed = true := by
  have change := step_change stepped
  generalize p.shared = st, next.shared = after, observe p e = all at change stopped
  cases change with
  | pushed thread dest envelope named running => simp [stopped] at running
  | popped thread src envelope rest running queued => simp [stopped] at running
  | stopped running => simp [stopped] at running
  | kept _ failed => exact ⟨rfl, failed⟩

/-- After a shutdown the shared state stays as it is, and every call fails. -/
theorem stopped_for_good {p q : Process} {fs : List Event} (stopped : p.shared.stopped = true)
    (ran : run step p fs = some q) :
    q.shared = p.shared ∧ ∀ observation ∈ history step observe p fs, observation.failed = true := by
  have keeps : ∀ (all : List Observation) s e next,
      s.shared = p.shared ∧ (∀ observation ∈ all, observation.failed = true) → True → step s e = some next →
      next.shared = p.shared ∧ ∀ observation ∈ all ++ observe s e, observation.failed = true := by
    rintro all s e next ⟨same, failed⟩ _ stepped
    obtain ⟨kept, now⟩ := stopped_stays (by rw [same]; exact stopped) stepped
    exact ⟨kept.trans same, List.forall_mem_append.mpr ⟨failed, now⟩⟩
  exact history_invariant keeps ⟨rfl, by simp⟩ (along_of_forall (fun _ _ => trivial) _ _) ran

/-- In every reachable state, a receive that ends reports the state of its last locked
    section, and nothing succeeds or changes once the transport is stopped. -/
theorem outcomes_mean_what_they_say {es : List Event} {p : Process} (ran : run step .new es = some p) :
    (∀ e next thread src result, step p e = some next → .received thread src result ∈ observe p e →
      src.name ≠ "" → ∃ args, LastCall (es ++ [e]) thread (.receive thread src args) ∧
        ((∃ status, result = .error status ∧ status.code = .Unavailable) ↔ p.shared.stopped = true) ∧
        ((∃ message, result = .ok message) ↔ p.shared.stopped = false ∧ p.shared.contents src.name ≠ []) ∧
        ((∃ status, result = .error status ∧ status.code = .Timeout) →
          p.shared.stopped = false ∧ p.shared.contents src.name = [] ∧ args.timeout ≠ none)) ∧
    (p.shared.stopped = true → ∀ fs q, run step p fs = some q →
      q.shared = p.shared ∧ ∀ observation ∈ history step observe p fs, observation.failed = true) := by
  refine ⟨?_, fun stopped fs q => stopped_for_good stopped⟩
  intro e next thread src result stepped seen named
  obtain ⟨args, last, judged⟩ := ended_judged (run_origins ran) stepped seen named
  exact ⟨args, last, judged.unavailable, judged.message, judged.timeout⟩

/-- A receive of 20 milliseconds waits on an address that stays empty. -/
def waitedInVain : List Event := [.receive 0 ⟨"queue.empty"⟩ { timeout := some 20 }, .wake 0 .spurious]

theorem waitedInVain_times_out : ∃ p next args, run step .new waitedInVain = some p ∧
    step p (.wake 0 .timedOut) = some next ∧
    LastCall (waitedInVain ++ [.wake 0 .timedOut]) 0 (.receive 0 ⟨"queue.empty"⟩ args) ∧
    p.shared.stopped = false ∧ p.shared.contents "queue.empty" = [] ∧ args.timeout ≠ none := by
  obtain ⟨args, last, _, _, empty⟩ := (@outcomes_mean_what_they_say waitedInVain _ rfl).1 (.wake 0 .timedOut) _ 0
    ⟨"queue.empty"⟩ (.error (.timeout "receive timed out")) rfl (List.mem_singleton.mpr rfl) (by decide)
  exact ⟨_, _, args, rfl, rfl, last, empty ⟨_, rfl, rfl⟩⟩

end Mqss.InMemory
