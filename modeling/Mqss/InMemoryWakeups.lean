import Mqss.InMemoryCalls

/-!
No wake-up is lost. A receiver that sleeps although its address has a message, or
although the transport is stopped, is about to be notified: some thread has left
the locked section of a send or of the shutdown and has not notified yet.
-/

namespace Mqss.InMemory
open Mqss.Machine

/-- A receiver that sleeps while it could go on is owed a notification. -/
def Awake (p : Process) : Prop :=
  ∀ thread src timeout, p.threads thread = .waiting src timeout false → ready src p.shared = true →
    ∃ other, p.threads other = .notifying

/-- A receive that returns leaves nothing ready that was not. -/
theorem verdict_ready {src other : Address} {st after : State} {result : Result Message}
    (verdict : Verdict src st (.returns result after)) (here : ready other after = true) : ready other st = true := by
  cases verdict with
  | failed bad => exact here
  | @took envelope rest running contents =>
    rw [ready_iff] at here ⊢
    apply here.imp id
    intro some_left
    by_cases same : other.name = src.name
    · rw [same]
      simp [State.contents, contents]
    · by_cases drained : rest = []
      · simpa [State.contents, drained, Finmap.lookup_erase_ne same] using some_left
      · simpa [State.contents, drained, Finmap.lookup_insert_of_ne _ same] using some_left

/-- A thread that was not to notify goes on without making anything ready. -/
theorem Awake.set {p : Process} (awake : Awake p) {thread : ThreadId} (quiet : p.threads thread ≠ .notifying)
    {now : Thread} {after : State} (less : ∀ src, ready src after = true → ready src p.shared = true)
    (sleeps : ∀ src timeout, now = .waiting src timeout false → ready src after = false) :
    Awake (p.at thread now after) := by
  intro other src timeout asleep here
  rcases threads_at asleep with ⟨_, same⟩ | ⟨_, before⟩
  · rw [at_shared, sleeps src timeout same] at here
    cases here
  · obtain ⟨due, notifies⟩ := awake other src timeout before (less src here)
    have apart : due ≠ thread := by
      rintro rfl
      exact quiet notifies
    exact ⟨due, by simpa [Process.at, apart] using notifies⟩

theorem step_awake {p next : Process} {e : Event} (awake : Awake p) (stepped : step p e = some next) :
    Awake next := by
  cases step_move stepped with
  | refused free | stoppedBefore free _ =>
    exact awake.set (by simp [free]) (fun _ here => here) (fun _ _ same => by cases same)
  | @raised thread _ after free calls raises =>
    intro other src timeout asleep here
    exact ⟨thread, by simp [Process.at]⟩
  | @returned thread src args result after free verdict =>
    have held := receive_verdict src args p.shared
    rw [verdict] at held
    exact awake.set (by simp [free]) (fun _ here => verdict_ready held here) (fun _ _ same => by cases same)
  | @wokenUp thread src timeout told cause result after waited allowed verdict =>
    have held := wake_verdict src timeout cause p.shared
    rw [verdict] at held
    exact awake.set (by simp [waited]) (fun _ here => verdict_ready held here) (fun _ _ same => by cases same)
  | waits free verdict =>
    refine awake.set (by simp [free]) (fun _ here => here) fun src timeout same => ?_
    obtain ⟨rfl, _, _⟩ := Thread.waiting.inj same
    exact receive_waits verdict
  | waitsOn waited verdict =>
    refine awake.set (by simp [waited]) (fun _ here => here) fun src timeout same => ?_
    obtain ⟨rfl, _, _⟩ := Thread.waiting.inj same
    exact wake_waits verdict
  | notified due =>
    -- Every thread that waits has been told.
    intro other src timeout asleep here
    rcases threads_notified asleep with ⟨_, same⟩ | ⟨_, same⟩
    · cases same
    · cases (notified_waiting same.symm).1

theorem run_awake {es : List Event} {p : Process} (ran : run step .new es = some p) : Awake p := by
  have start : Awake Process.new := by
    intro thread src timeout asleep here
    cases asleep
  exact invariant (fun _ _ _ awake stepped => step_awake awake stepped) start ran

/-- A notified receiver may wake up, and it returns when something is ready for it. -/
theorem notified_returns {p : Process} {thread : ThreadId} {src : Address} {timeout : Option Int}
    (told : p.threads thread = .waiting src timeout true) (here : ready src p.shared = true) :
    ∃ next, step p (.wake thread .notified) = some next ∧ next.threads thread = .idle := by
  refine ⟨_, by simp only [step, told, Wake.allowed, ↓reduceIte]; rfl, ?_⟩
  simp [wake, here, Process.resume, Process.at]

/-- In every reachable state a receiver that sleeps unnotified on a message or on a stopped
    transport is owed a notification by a send or a shutdown that has left its locked
    section; so when none is under way, none sleeps so. -/
theorem no_wakeup_is_lost {es : List Event} {p : Process} (ran : run step .new es = some p) :
    (∀ thread src timeout, p.threads thread = .waiting src timeout false →
      p.shared.contents src.name ≠ [] ∨ p.shared.stopped = true →
      ∃ other call, p.threads other = .notifying ∧ call.raises ∧ LastCall es other call) ∧
    ((∀ other, p.threads other ≠ .notifying) →
      ∀ thread src timeout, p.threads thread = .waiting src timeout false →
        p.shared.contents src.name = [] ∧ p.shared.stopped = false) := by
  have awake := run_awake ran
  have owed : ∀ thread src timeout, p.threads thread = .waiting src timeout false →
      p.shared.contents src.name ≠ [] ∨ p.shared.stopped = true → ∃ other, p.threads other = .notifying :=
    fun thread src timeout asleep here => awake thread src timeout asleep ((ready_iff src p.shared).mpr here.symm)
  constructor
  · intro thread src timeout asleep here
    obtain ⟨other, notifies⟩ := owed thread src timeout asleep here
    obtain ⟨call, raises, last⟩ := (run_origins ran).notifying other notifies
    exact ⟨other, call, notifies, raises, last⟩
  · intro none thread src timeout asleep
    by_contra trouble
    have here : p.shared.contents src.name ≠ [] ∨ p.shared.stopped = true := by
      rw [not_and_or, Bool.not_eq_false] at trouble
      exact trouble
    obtain ⟨other, notifies⟩ := owed thread src timeout asleep here
    exact none other notifies

/-- A receiver sleeps while a send on its address has not notified yet. -/
def sleepingOnMessage : List Event :=
  [.receive 0 ⟨"queue.wait"⟩ {}, .send 1 ⟨"queue.wait"⟩ { payload := "delayed" } {}]

theorem sleepingOnMessage_owed : ∃ p, run step .new sleepingOnMessage = some p ∧
    p.threads 0 = .waiting ⟨"queue.wait"⟩ none false ∧ p.shared.contents "queue.wait" ≠ [] ∧
    ∃ other call, p.threads other = .notifying ∧ call.raises ∧ LastCall sleepingOnMessage other call := by
  refine ⟨_, rfl, rfl, by decide, ?_⟩
  exact (@no_wakeup_is_lost sleepingOnMessage _ rfl).1 0 ⟨"queue.wait"⟩ none rfl (.inl (by decide))

end Mqss.InMemory
