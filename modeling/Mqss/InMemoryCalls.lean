import Mqss.InMemory

/-!
The calls of the in-memory transport, thread by thread. A thread that waits is
inside the receive it called last, a thread that is to notify is inside the send
or the shutdown it called last, and a wait begins only where nothing is ready.
-/

namespace Mqss.InMemory
open Mqss.Machine

/-- The thread whose call an event begins; a wake-up and a notification go on with one. -/
def Event.caller : Event → Option ThreadId
  | .send thread _ _ _ => some thread
  | .receive thread _ _ => some thread
  | .shutdown thread => some thread
  | .wake _ _ => none
  | .notifyAll _ => none

/-- The call a thread made last. -/
def LastCall (es : List Event) (thread : ThreadId) (e : Event) : Prop :=
  e.caller = some thread ∧ ∃ before after, es = before ++ e :: after ∧ ∀ f ∈ after, f.caller ≠ some thread

theorem LastCall.now {e : Event} {thread : ThreadId} (calls : e.caller = some thread) (es : List Event) :
    LastCall (es ++ [e]) thread e :=
  ⟨calls, es, [], rfl, by simp⟩

theorem LastCall.later {es : List Event} {thread : ThreadId} {e f : Event} (last : LastCall es thread e)
    (other : f.caller ≠ some thread) : LastCall (es ++ [f]) thread e := by
  obtain ⟨calls, before, after, rfl, none⟩ := last
  refine ⟨calls, before, after ++ [f], by simp, ?_⟩
  intro g member
  rcases List.mem_append.mp member with old | new
  · exact none g old
  · obtain rfl := List.mem_singleton.mp new
    exact other

/-- A call that notifies when it leaves its locked section: a send that succeeds, or the
    shutdown that sets the flag. -/
def Event.raises : Event → Prop
  | .send _ _ _ _ => True
  | .shutdown _ => True
  | _ => False

/-- What a step does to the threads, with the guards it passed. -/
inductive Move (p : Process) : Event → Process → Prop
  | refused {thread dest envelope args} (free : p.threads thread = .idle) :
      Move p (.send thread dest envelope args) (p.at thread .idle p.shared)
  | raised {thread e} (after : State) (free : p.threads thread = .idle) (calls : e.caller = some thread)
      (raises : e.raises) : Move p e (p.at thread .notifying after)
  | returned {thread src args} (result : Result Message) (after : State) (free : p.threads thread = .idle)
      (verdict : receive src args p.shared = .returns result after) :
      Move p (.receive thread src args) (p.at thread .idle after)
  | waits {thread src args} (free : p.threads thread = .idle) (verdict : receive src args p.shared = .waits) :
      Move p (.receive thread src args) (p.at thread (.waiting src args.timeout false) p.shared)
  | wokenUp {thread src timeout notified cause} (result : Result Message) (after : State)
      (waited : p.threads thread = .waiting src timeout notified)
      (allowed : Wake.allowed timeout notified cause = true)
      (verdict : wake src timeout cause p.shared = .returns result after) :
      Move p (.wake thread cause) (p.at thread .idle after)
  | waitsOn {thread src timeout notified cause} (waited : p.threads thread = .waiting src timeout notified)
      (verdict : wake src timeout cause p.shared = .waits) :
      Move p (.wake thread cause) (p.at thread (.waiting src timeout false) p.shared)
  | stoppedBefore {thread} (free : p.threads thread = .idle) (stopped : p.shared.stopped = true) :
      Move p (.shutdown thread) (p.at thread .idle p.shared)
  | notified {thread} (due : p.threads thread = .notifying) :
      Move p (.notifyAll thread) ⟨p.shared, Function.update (InMemory.notified ∘ p.threads) thread .idle⟩

theorem ready_iff (src : Address) (st : State) :
    ready src st = true ↔ st.stopped = true ∨ st.contents src.name ≠ [] := by
  unfold ready State.contents
  cases st.stopped with
  | true => simp
  | false =>
    cases st.queues.lookup src.name with
    | none => simp
    | some queue => cases queue <;> simp

/-- Nothing is ready when the transport runs and the queue is empty. -/
theorem not_ready_iff (src : Address) (st : State) :
    ready src st = false ↔ st.stopped = false ∧ st.contents src.name = [] := by
  rw [← Bool.not_eq_true, ready_iff, not_or, Bool.not_eq_true, not_not]

/-- A receive waits only for an address with nothing to give. -/
theorem receive_waits {src : Address} {args : ReceiveArgs} {st : State} (waits : receive src args st = .waits) :
    ready src st = false := by
  unfold receive at waits
  split_ifs at waits with unnamed nothing
  exact Bool.eq_false_iff.mpr nothing

theorem wake_waits {src : Address} {timeout : Option Int} {cause : Wake} {st : State}
    (waits : wake src timeout cause st = .waits) : ready src st = false := by
  unfold wake at waits
  split_ifs at waits with ends
  exact Bool.eq_false_iff.mpr fun here => ends (.inr here)

theorem at_same {p : Process} {thread : ThreadId} {now : Thread} (here : p.threads thread = now) :
    p.at thread now p.shared = p := by
  rw [Process.at, ← here, Function.update_eq_self]

theorem step_move {p next : Process} {e : Event} (stepped : step p e = some next) : Move p e next := by
  cases e with
  | send thread dest envelope args =>
    simp only [step] at stepped
    split at stepped
    · rename_i free
      obtain rfl := Option.some.inj stepped
      rcases send_cases dest envelope args p.shared with ⟨sent, _, _, _⟩ | ⟨refused, after⟩
      · rw [sent]
        exact .raised _ free rfl trivial
      · rw [refused, after]
        exact .refused free
    · cases stepped
  | receive thread src args =>
    simp only [step] at stepped
    split at stepped
    · rename_i free
      obtain rfl := Option.some.inj stepped
      cases verdict : InMemory.receive src args p.shared with
      | returns result after => exact .returned result after free verdict
      | waits => exact .waits free verdict
    · cases stepped
  | wake thread cause =>
    simp only [step] at stepped
    split at stepped
    · rename_i src timeout notified waited
      split at stepped
      · rename_i allowed
        obtain rfl := Option.some.inj stepped
        cases verdict : InMemory.wake src timeout cause p.shared with
        | returns result after => exact .wokenUp result after waited allowed verdict
        | waits => exact .waitsOn waited verdict
      · cases stepped
    · cases stepped
  | shutdown thread =>
    simp only [step] at stepped
    split at stepped
    · rename_i free
      split at stepped
      · rename_i stopped
        obtain rfl := Option.some.inj stepped
        have moved := @Move.stoppedBefore p thread free stopped
        rwa [at_same free] at moved
      · obtain rfl := Option.some.inj stepped
        exact .raised _ free rfl trivial
    · cases stepped
  | notifyAll thread =>
    simp only [step] at stepped
    split at stepped
    · rename_i due
      obtain rfl := Option.some.inj stepped
      exact .notified due
    · cases stepped

/-- What a step leaves of a thread is new for the one it is about and old for the others. -/
theorem threads_at {p : Process} {thread other : ThreadId} {now found : Thread} {shared : State}
    (here : (p.at thread now shared).threads other = found) :
    other = thread ∧ now = found ∨ other ≠ thread ∧ p.threads other = found := by
  by_cases same : other = thread
  · subst same
    exact .inl ⟨rfl, by simpa [Process.at] using here⟩
  · exact .inr ⟨same, by simpa [Process.at, same] using here⟩

/-- Where the threads stand fits the calls they made last. -/
structure Origins (es : List Event) (p : Process) : Prop where
  waiting : ∀ thread src timeout notified, p.threads thread = .waiting src timeout notified →
    ∃ args, args.timeout = timeout ∧ LastCall es thread (.receive thread src args)
  notifying : ∀ thread, p.threads thread = .notifying → ∃ e, e.raises ∧ LastCall es thread e

theorem Origins.set {es : List Event} {p : Process} (origins : Origins es p) {e : Event} {thread : ThreadId}
    (about : ∀ other, other ≠ thread → e.caller ≠ some other) {now : Thread} {shared : State}
    (waiting : ∀ src timeout notified, now = .waiting src timeout notified →
      ∃ args, args.timeout = timeout ∧ LastCall (es ++ [e]) thread (.receive thread src args))
    (notifying : now = .notifying → ∃ f, f.raises ∧ LastCall (es ++ [e]) thread f) :
    Origins (es ++ [e]) (p.at thread now shared) := by
  constructor
  · intro other src timeout notified here
    rcases threads_at here with ⟨rfl, same⟩ | ⟨apart, before⟩
    · exact waiting src timeout notified same
    · obtain ⟨args, same, last⟩ := origins.waiting other src timeout notified before
      exact ⟨args, same, last.later (about other apart)⟩
  · intro other here
    rcases threads_at here with ⟨rfl, same⟩ | ⟨apart, before⟩
    · exact notifying same
    · obtain ⟨f, raises, last⟩ := origins.notifying other before
      exact ⟨f, raises, last.later (about other apart)⟩

/-- What notifying all waiting threads leaves of one. -/
theorem threads_notified {p : Process} {thread other : ThreadId} {found : Thread}
    (here : Function.update (notified ∘ p.threads) thread .idle other = found) :
    other = thread ∧ found = .idle ∨ other ≠ thread ∧ found = notified (p.threads other) := by
  by_cases same : other = thread
  · subst same
    exact .inl ⟨rfl, by simpa using here.symm⟩
  · exact .inr ⟨same, by simpa [same] using here.symm⟩

theorem notified_waiting {thread : Thread} {src : Address} {timeout : Option Int} {told : Bool}
    (here : notified thread = .waiting src timeout told) : told = true ∧ ∃ before, thread = .waiting src timeout before := by
  cases thread with
  | idle => cases here
  | notifying => cases here
  | waiting src' timeout' before =>
    obtain ⟨rfl, rfl, rfl⟩ := Thread.waiting.inj here
    exact ⟨rfl, before, rfl⟩

theorem notified_notifying {thread : Thread} (here : notified thread = .notifying) : thread = .notifying := by
  cases thread with
  | idle => cases here
  | notifying => rfl
  | waiting => cases here

/-- A thread that waits was called to receive by this step or waited before it. -/
theorem waiting_before {p next : Process} {e : Event} (stepped : step p e = some next) {other : ThreadId}
    {src : Address} {timeout : Option Int} {told : Bool} (waits : next.threads other = .waiting src timeout told) :
    (∃ args, e = .receive other src args) ∨ ∃ before, p.threads other = .waiting src timeout before := by
  cases step_move stepped with
  | refused | raised | returned | wokenUp | stoppedBefore =>
    rcases threads_at waits with ⟨_, same⟩ | ⟨_, before⟩
    · cases same
    · exact .inr ⟨told, before⟩
  | @waits thread src' args free verdict =>
    rcases threads_at waits with ⟨rfl, same⟩ | ⟨_, before⟩
    · obtain ⟨rfl, _, _⟩ := Thread.waiting.inj same
      exact .inl ⟨args, rfl⟩
    · exact .inr ⟨told, before⟩
  | @waitsOn thread src' timeout' told' cause waited verdict =>
    rcases threads_at waits with ⟨rfl, same⟩ | ⟨_, before⟩
    · obtain ⟨rfl, rfl, _⟩ := Thread.waiting.inj same
      exact .inr ⟨told', waited⟩
    · exact .inr ⟨told, before⟩
  | @notified thread due =>
    rcases threads_notified waits with ⟨_, same⟩ | ⟨_, same⟩
    · cases same
    · obtain ⟨_, before, waited⟩ := notified_waiting same.symm
      exact .inr ⟨before, waited⟩

theorem step_origins {es : List Event} {p next : Process} {e : Event} (origins : Origins es p)
    (stepped : step p e = some next) : Origins (es ++ [e]) next := by
  have own : ∀ {thread : ThreadId}, e.caller = some thread → ∀ other, other ≠ thread → e.caller ≠ some other :=
    fun calls other apart same => apart (Option.some.inj (same.symm.trans calls))
  cases step_move stepped with
  | refused free | returned _ _ free _ | stoppedBefore free _ =>
    exact origins.set (own rfl) (fun _ _ _ same => by cases same) (fun same => by cases same)
  | raised after free calls raises =>
    refine origins.set (own calls) (fun _ _ _ same => by cases same) fun _ => ?_
    exact ⟨e, raises, .now calls es⟩
  | @waits thread src args free verdict =>
    refine origins.set (own rfl) ?_ (fun same => by cases same)
    intro src' timeout notified same
    obtain ⟨rfl, rfl, _⟩ := Thread.waiting.inj same
    exact ⟨args, rfl, .now rfl es⟩
  | wokenUp result after waited allowed verdict =>
    exact origins.set (fun _ _ same => by cases same) (fun _ _ _ same => by cases same) (fun same => by cases same)
  | @waitsOn thread src timeout told cause waited verdict =>
    refine origins.set (fun _ _ same => by cases same) ?_ (fun same => by cases same)
    intro src' timeout' told' same
    obtain ⟨rfl, rfl, _⟩ := Thread.waiting.inj same
    obtain ⟨args, given, last⟩ := origins.waiting thread src timeout told waited
    exact ⟨args, given, last.later (by simp [Event.caller])⟩
  | @notified thread due =>
    constructor
    · intro other src timeout told here
      rcases threads_notified here with ⟨_, same⟩ | ⟨_, same⟩
      · cases same
      · obtain ⟨_, before, waited⟩ := notified_waiting same.symm
        obtain ⟨args, given, last⟩ := origins.waiting other src timeout before waited
        exact ⟨args, given, last.later (by simp [Event.caller])⟩
    · intro other here
      rcases threads_notified here with ⟨_, same⟩ | ⟨_, same⟩
      · cases same
      · obtain ⟨f, raises, last⟩ := origins.notifying other (notified_notifying same.symm)
        exact ⟨f, raises, last.later (by simp [Event.caller])⟩

theorem run_origins {es : List Event} {p : Process} (ran : run step .new es = some p) : Origins es p := by
  have start : Origins [] Process.new := by
    constructor
    · intro thread src timeout told here
      cases here
    · intro thread here
      cases here
  have keeps : ∀ (before : List Event) s e next, Origins before s → True → step s e = some next →
      Origins (before ++ [e]) next := fun before s e next origins _ stepped => step_origins origins stepped
  have reached := history_invariant keeps start (along_of_forall (fun _ _ => trivial) _ _) ran
  rwa [history_events ran] at reached

end Mqss.InMemory
