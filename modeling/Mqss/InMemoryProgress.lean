import Mqss.InMemoryWakeups
import Mqss.InMemoryOutcomes
import Mqss.Progress

/-!
Wake-ups come to an end. The notifications under way and the wake-ups that they
cause are finite work, whatever order the scheduler picks; when it is done, every
thread has left the transport but the receivers for whom there is nothing. After
the shutdown no receiver is left.
-/

namespace Mqss.InMemory
open Mqss.Machine Mqss.Progress

/-- The steps that the transport owes: a notification that is due, and the wake-up of a
    thread that was notified. -/
def Event.wakesUp : Event → Bool
  | .notifyAll _ => true
  | .wake _ .notified => true
  | _ => false

/-- The threads that ever called the transport. -/
def callers (es : List Event) : List ThreadId := (es.filterMap Event.caller).dedup

/-- A thread that was notified and has not woken up. -/
def Thread.told : Thread → Bool
  | .waiting _ _ true => true
  | _ => false

def Thread.notifies : Thread → Bool
  | .notifying => true
  | _ => false

/-- Every thread has left the transport but the receivers for whom there is nothing. -/
def Process.Settled (p : Process) : Prop :=
  ∀ thread, p.threads thread = .idle ∨ ∃ src timeout, p.threads thread = .waiting src timeout false ∧
    p.shared.contents src.name = [] ∧ p.shared.stopped = false

/-! ### The work of waking up -/

/-- Outside of some threads nobody is inside a call. -/
def Within (threads : List ThreadId) (p : Process) : Prop := ∀ thread, thread ∉ threads → p.threads thread = .idle

/-- Each notification wakes all the others up at most. -/
def wakeWork (threads : List ThreadId) (p : Process) : Nat :=
  stationed Thread.notifies threads p.threads * (threads.length + 1) + stationed Thread.told threads p.threads

theorem Within.member {threads : List ThreadId} {p : Process} (within : Within threads p) {thread : ThreadId}
    (busy : p.threads thread ≠ .idle) : thread ∈ threads := by
  by_contra outside
  exact busy (within thread outside)

theorem Within.at {threads : List ThreadId} {p : Process} (within : Within threads p) {thread : ThreadId}
    (member : thread ∈ threads) (now : Thread) (shared : State) : Within threads (p.at thread now shared) := by
  intro other outside
  have apart : other ≠ thread := by
    rintro rfl
    exact outside member
  simpa [Process.at, apart] using within other outside

/-- The wake-up of a notified thread is for one. -/
theorem wake_told {p next : Process} {thread : ThreadId} (stepped : step p (.wake thread .notified) = some next) :
    (p.threads thread).told = true := by
  simp only [step] at stepped
  split at stepped
  · rename_i src timeout notified waits
    split at stepped
    · rename_i allowed
      have yes : notified = true := allowed
      rw [waits, yes]
      rfl
    · cases stepped
  · cases stepped

/-- After its wake-up the thread has left, or it waits to be notified again. -/
theorem wake_settles {p next : Process} {thread : ThreadId} (stepped : step p (.wake thread .notified) = some next) :
    ∃ now shared, next = p.at thread now shared ∧ now.told = false ∧ now.notifies = false := by
  cases step_move stepped with
  | raised after free calls raises => cases calls
  | @wokenUp thread src timeout notified cause result after waited allowed verdict =>
    exact ⟨.idle, after, rfl, rfl, rfl⟩
  | @waitsOn thread src timeout notified cause waited verdict =>
    exact ⟨.waiting src timeout false, p.shared, rfl, rfl, rfl⟩

theorem notifies_notified (thread : Thread) : (notified thread).notifies = thread.notifies := by
  cases thread <;> rfl

theorem wake_uses {threads : List ThreadId} (distinct : threads.Nodup) :
    Uses step (Within threads) Event.wakesUp (wakeWork threads) := by
  intro p e next within works stepped
  cases e with
  | wake thread cause =>
    cases cause with
    | notified =>
      have told := wake_told stepped
      obtain ⟨now, shared, rfl, untold, silent⟩ := wake_settles stepped
      have member : thread ∈ threads := by
        refine within.member fun idle => ?_
        rw [idle] at told
        cases told
      have quiet : (p.threads thread).notifies = false := by
        cases here : p.threads thread with
        | waiting src timeout notified => rfl
        | idle => rfl
        | notifying =>
          rw [here] at told
          cases told
      have fewer := stationed_update distinct member Thread.told p.threads now
      have same := stationed_update distinct member Thread.notifies p.threads now
      rw [told, untold, Bool.toNat_true, Bool.toNat_false] at fewer
      rw [quiet, silent] at same
      refine ⟨within.at member now shared, ?_⟩
      show stationed Thread.notifies threads (Function.update p.threads thread now) * (threads.length + 1) +
        stationed Thread.told threads (Function.update p.threads thread now) < _
      rw [Nat.add_right_cancel same, wakeWork]
      omega
    | spurious => cases works
    | timedOut => cases works
  | notifyAll thread =>
    cases step_move stepped with
    | raised after free calls raises => cases calls
    | notified due =>
      have member : thread ∈ threads := within.member (by rw [due]; simp)
      have fewer := stationed_update distinct member Thread.notifies (notified ∘ p.threads) .idle
      have others : stationed Thread.notifies threads (notified ∘ p.threads) =
          stationed Thread.notifies threads p.threads :=
        List.countP_congr fun other _ => by simp [notifies_notified]
      have one : ((notified ∘ p.threads) thread).notifies.toNat = 1 := by
        rw [Function.comp_apply, due]
        rfl
      have none : Thread.idle.notifies.toNat = 0 := rfl
      rw [others, one, none] at fewer
      have left : stationed Thread.notifies threads (Function.update (notified ∘ p.threads) thread .idle) + 1 =
          stationed Thread.notifies threads p.threads := fewer
      have all := stationed_le Thread.told threads (Function.update (notified ∘ p.threads) thread .idle)
      constructor
      · intro other outside
        have apart : other ≠ thread := by
          rintro rfl
          exact outside member
        simp [apart, within other outside, InMemory.notified]
      · show stationed Thread.notifies threads (Function.update (notified ∘ p.threads) thread .idle) *
          (threads.length + 1) +
            stationed Thread.told threads (Function.update (notified ∘ p.threads) thread .idle) < wakeWork threads p
        rw [wakeWork, ← left, Nat.add_mul, Nat.one_mul]
        omega
  | _ => cases works

/-- There is no more of it than every thread notifying all the others. -/
theorem wakeWork_le (threads : List ThreadId) (p : Process) :
    wakeWork threads p ≤ threads.length * (threads.length + 2) := by
  have notifying := stationed_le Thread.notifies threads p.threads
  have told := stationed_le Thread.told threads p.threads
  calc wakeWork threads p
      ≤ threads.length * (threads.length + 1) + threads.length :=
        Nat.add_le_add (Nat.mul_le_mul_right _ notifying) told
    _ = threads.length * (threads.length + 2) := (Nat.mul_succ _ _).symm

/-! ### Where it ends -/

/-- Whoever is inside a call of the transport has called it. -/
theorem run_within {es : List Event} {p : Process} (ran : run step .new es = some p) : Within (callers es) p := by
  have origins := run_origins ran
  have called : ∀ thread e, LastCall es thread e → thread ∈ callers es := by
    rintro thread e ⟨calls, before, after, rfl, _⟩
    rw [callers, List.mem_dedup, List.mem_filterMap]
    exact ⟨e, by simp, calls⟩
  intro thread outside
  cases here : p.threads thread with
  | idle => rfl
  | waiting src timeout notified =>
    obtain ⟨args, _, last⟩ := origins.waiting thread src timeout notified here
    exact absurd (called thread _ last) outside
  | notifying =>
    obtain ⟨e, _, last⟩ := origins.notifying thread here
    exact absurd (called thread e last) outside

/-- At rest nobody is about to notify or to wake up, so whoever is left sleeps for a reason. -/
theorem settled_of_rests {q : Process} (awake : Awake q) (rests : Rests step Event.wakesUp q) : q.Settled := by
  have silent : ∀ thread, q.threads thread ≠ .notifying := by
    intro thread due
    have none := rests (.notifyAll thread) rfl
    simp [step, due] at none
  intro thread
  cases here : q.threads thread with
  | idle => exact .inl rfl
  | notifying => exact absurd here (silent thread)
  | waiting src timeout notified =>
    cases notified with
    | true =>
      have none := rests (.wake thread .notified) rfl
      simp [step, here, Wake.allowed] at none
    | false =>
      refine .inr ⟨src, timeout, rfl, ?_⟩
      have nothing : ready src q.shared = false := by
        by_contra some_
        obtain ⟨other, due⟩ := awake thread src timeout here (by simpa using some_)
        exact silent other due
      obtain ⟨running, empty⟩ := (not_ready_iff src q.shared).mp nothing
      exact ⟨empty, running⟩

/-- At most `n + 2` of these steps for each of the `n` threads that have called. -/
theorem wakeups_bounded {es fs : List Event} {p q : Process} (ran : run step .new es = some p)
    (works : ∀ f ∈ fs, f.wakesUp = true) (later : run step p fs = some q) :
    fs.length ≤ (callers es).length * ((callers es).length + 2) := by
  have distinct : (callers es).Nodup := List.nodup_dedup _
  obtain ⟨_, bound⟩ := length_le (wake_uses distinct) (run_within ran) works later
  have most := wakeWork_le (callers es) p
  omega

theorem wakeups_rest {es : List Event} {p : Process} (ran : run step .new es = some p) :
    ∃ fs q, (∀ f ∈ fs, f.wakesUp = true) ∧ run step p fs = some q ∧ Rests step Event.wakesUp q := by
  have distinct : (callers es).Nodup := List.nodup_dedup _
  obtain ⟨fs, q, works, later, _, rests⟩ := comes_to_rest (wake_uses distinct) (run_within ran)
  exact ⟨fs, q, works, later, rests⟩

theorem settled_at_rest {es fs : List Event} {p q : Process} (ran : run step .new es = some p)
    (later : run step p fs = some q) (rests : Rests step Event.wakesUp q) : q.Settled :=
  settled_of_rests (run_awake (run_append.mpr ⟨p, ran, later⟩)) rests

/-- From every reachable state on, the notifications under way and the wake-ups that they
    cause come to an end in every order, and then no receiver sleeps for whom there is a
    message, or who has not seen the shutdown. -/
theorem wakeups_come_to_an_end {es : List Event} {p : Process} (ran : run step .new es = some p) :
    (∀ fs q, (∀ f ∈ fs, f.wakesUp = true) → run step p fs = some q →
      fs.length ≤ (callers es).length * ((callers es).length + 2) ∧ (Rests step Event.wakesUp q → q.Settled)) ∧
    ∃ fs q, (∀ f ∈ fs, f.wakesUp = true) ∧ run step p fs = some q ∧ q.Settled := by
  constructor
  · intro fs q works later
    exact ⟨wakeups_bounded ran works later, settled_at_rest ran later⟩
  · obtain ⟨fs, q, works, later, rests⟩ := wakeups_rest ran
    exact ⟨fs, q, works, later, settled_at_rest ran later rests⟩

/-- The receiver that sleeps on a message is woken up after at most eight of these steps. -/
theorem sleepingOnMessage_wakes : ∃ p, run step .new sleepingOnMessage = some p ∧
    (∀ fs q, (∀ f ∈ fs, f.wakesUp = true) → run step p fs = some q →
      fs.length ≤ 8 ∧ (Rests step Event.wakesUp q → q.Settled)) ∧
    ∃ fs q, (∀ f ∈ fs, f.wakesUp = true) ∧ run step p fs = some q ∧ q.Settled :=
  ⟨_, rfl, @wakeups_come_to_an_end sleepingOnMessage _ rfl⟩

/-! ### The shutdown -/

/-- A receiver that waited when the transport was stopped still waits, or it was told. -/
def Dismissed (p : Process) (seen : List Observation) (q : Process) : Prop :=
  q.shared.stopped = true ∧ ∀ thread src timeout told, p.threads thread = .waiting src timeout told →
    (∃ told', q.threads thread = .waiting src timeout told') ∨
      .received thread src (.error (.unavailable "transport shut down")) ∈ seen

/-- A wake-up on a stopped transport returns so. -/
theorem wake_stopped {p next : Process} (stopped : p.shared.stopped = true) {thread : ThreadId} {src : Address}
    {timeout : Option Int} {told : Bool} (waits : p.threads thread = .waiting src timeout told)
    (stepped : step p (.wake thread .notified) = some next) :
    next = p.at thread .idle p.shared ∧ observe p (.wake thread .notified) =
      [.received thread src (.error (.unavailable "transport shut down"))] := by
  have verdict : wake src timeout .notified p.shared =
      .returns (.error (.unavailable "transport shut down")) p.shared := by
    have here : ready src p.shared = true := (ready_iff src p.shared).mpr (.inl stopped)
    simp [wake, here, take_stopped stopped]
  simp only [step, waits, verdict] at stepped
  split at stepped
  · obtain rfl := Option.some.inj stepped
    simp [observe, waits, verdict, Section.observed, Process.resume]
  · cases stepped

theorem step_dismissed {p s next : Process} {seen : List Observation} {e : Event} (dismissed : Dismissed p seen s)
    (works : e.wakesUp = true) (stepped : step s e = some next) : Dismissed p (seen ++ observe s e) next := by
  obtain ⟨stopped, waited⟩ := dismissed
  cases e with
  | wake thread cause =>
    cases cause with
    | notified =>
      cases here : s.threads thread with
      | idle => simp [step, here] at stepped
      | notifying => simp [step, here] at stepped
      | waiting src timeout told =>
        obtain ⟨rfl, shown⟩ := wake_stopped stopped here stepped
        refine ⟨stopped, ?_⟩
        intro other src' timeout' told' began
        rw [shown]
        rcases waited other src' timeout' told' began with ⟨told'', still⟩ | gone
        · by_cases same : other = thread
          · subst same
            obtain ⟨rfl, _, _⟩ := Thread.waiting.inj (still.symm.trans here)
            exact .inr (List.mem_append_right _ List.mem_cons_self)
          · exact .inl ⟨told'', by simpa [Process.at, same] using still⟩
        · exact .inr (List.mem_append_left _ gone)
    | spurious => cases works
    | timedOut => cases works
  | notifyAll thread =>
    cases step_move stepped with
    | raised after free calls raises => cases calls
    | notified due =>
      refine ⟨stopped, ?_⟩
      intro other src timeout told began
      rcases waited other src timeout told began with ⟨told', still⟩ | gone
      · have apart : other ≠ thread := by
          rintro rfl
          rw [due] at still
          cases still
        exact .inl ⟨true, by simp [apart, still, notified]⟩
      · exact .inr (List.mem_append_left _ gone)
  | _ => cases works

/-- Every thread has left the transport, its queues are as they were, and each receiver that
    waited was told of the shutdown. -/
structure Dismisses (p : Process) (fs : List Event) (q : Process) : Prop where
  left : ∀ thread, q.threads thread = .idle
  kept : q.shared = p.shared
  told : ∀ thread src timeout told, p.threads thread = .waiting src timeout told →
    .received thread src (.error (.unavailable "transport shut down")) ∈ history step observe p fs

theorem dismisses_at_rest {es fs : List Event} {p q : Process} (ran : run step .new es = some p)
    (stopped : p.shared.stopped = true) (works : ∀ f ∈ fs, f.wakesUp = true) (later : run step p fs = some q)
    (rests : Rests step Event.wakesUp q) : Dismisses p fs q := by
  have start : Dismissed p [] p := ⟨stopped, fun _ _ _ told waits => .inl ⟨told, waits⟩⟩
  have keeps : ∀ seen s e next, Dismissed p seen s → e.wakesUp = true → step s e = some next →
      Dismissed p (seen ++ observe s e) next :=
    fun _ _ _ _ dismissed works stepped => step_dismissed dismissed works stepped
  obtain ⟨still, dismissed⟩ := history_invariant keeps start (along_of_events works p) later
  have left : ∀ thread, q.threads thread = .idle := by
    intro thread
    rcases settled_at_rest ran later rests thread with idle | ⟨src, timeout, _, _, running⟩
    · exact idle
    · rw [running] at still
      cases still
  refine ⟨left, (stopped_for_good stopped later).1, ?_⟩
  intro thread src timeout told waits
  rcases dismissed thread src timeout told waits with ⟨told', still⟩ | gone
  · rw [left thread] at still
    cases still
  · exact gone

/-- Once the transport is stopped, the notifications under way and the wake-ups that they
    cause come to an end in every order, and then every receiver that waited has returned
    `Unavailable`. -/
theorem shutdown_dismisses_receivers {es : List Event} {p : Process} (ran : run step .new es = some p)
    (stopped : p.shared.stopped = true) :
    (∀ fs q, (∀ f ∈ fs, f.wakesUp = true) → run step p fs = some q →
      fs.length ≤ (callers es).length * ((callers es).length + 2) ∧
        (Rests step Event.wakesUp q → Dismisses p fs q)) ∧
    ∃ fs q, (∀ f ∈ fs, f.wakesUp = true) ∧ run step p fs = some q ∧ Dismisses p fs q := by
  constructor
  · intro fs q works later
    exact ⟨wakeups_bounded ran works later, dismisses_at_rest ran stopped works later⟩
  · obtain ⟨fs, q, works, later, rests⟩ := wakeups_rest ran
    exact ⟨fs, q, works, later, dismisses_at_rest ran stopped works later rests⟩

/-- One thread waits for a message when another one shuts the transport down. -/
def stoppedWhileWaiting : List Event := [.receive 0 ⟨"queue.wait"⟩ {}, .shutdown 1]

theorem stoppedWhileWaiting_dismissed : ∃ p, run step .new stoppedWhileWaiting = some p ∧
    (∃ src timeout told, p.threads 0 = .waiting src timeout told) ∧
    (∀ fs q, (∀ f ∈ fs, f.wakesUp = true) → run step p fs = some q →
      fs.length ≤ 8 ∧ (Rests step Event.wakesUp q → Dismisses p fs q)) ∧
    ∃ fs q, (∀ f ∈ fs, f.wakesUp = true) ∧ run step p fs = some q ∧ Dismisses p fs q :=
  ⟨_, rfl, ⟨_, _, _, rfl⟩, @shutdown_dismisses_receivers stoppedWhileWaiting _ rfl rfl⟩

end Mqss.InMemory
