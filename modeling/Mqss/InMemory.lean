import Mqss.Machine
import Mqss.Transport

/-!
The in-memory transport. Any number of threads call `send`, `receive` and the
destructor's `shutdown` on one shared state. A step is one locked section, one
`notify_all`, or one wake-up of a thread that waits on the condition variable.
The shared state is allocated with the transport and outlives it, so the calls
never find it missing.
-/

namespace Mqss.InMemory
open Mqss.Machine

/-- The state behind the mutex: the stop flag and the queues by address name. -/
structure State where
  stopped : Bool
  queues : Finmap (fun _ : String => List Envelope)
  deriving DecidableEq

def State.new : State := ⟨false, ∅⟩

/-- The envelopes queued under a name. -/
def State.contents (st : State) (name : String) : List Envelope := (st.queues.lookup name).getD []

theorem State.lookup_of_contents {st : State} {name : String} {envelope : Envelope} {rest : List Envelope}
    (queue : st.contents name = envelope :: rest) : st.queues.lookup name = some (envelope :: rest) := by
  unfold State.contents at queue
  cases found : st.queues.lookup name with
  | none => simp [found] at queue
  | some queued => simpa [found] using queue

/-- Build a message without completion handlers. -/
def makeMessageFromEnvelope (envelope : Envelope) : Message := { envelope := envelope }

/-- `send` up to the end of its locked section. -/
def send (dest : Address) (envelope : Envelope) (args : SendArgs) (st : State) : Status × State :=
  if dest.name = "" then (.invalidArgument "send destination name is empty", st)
  else if args.confirm then (.unsupported "send confirmation is not supported", st)
  else if st.stopped then (.unavailable "transport shut down", st)
  else (.success, { st with queues := st.queues.insert dest.name (st.contents dest.name ++ [envelope]) })

/-- The condition a receiver waits for: a message of its address or the stop flag. -/
def ready (src : Address) (st : State) : Bool :=
  st.stopped ||
    match st.queues.lookup src.name with
    | none => false
    | some queue => !queue.isEmpty

/-- `receive` after its wait: the stop flag first, then the front of the queue. -/
def take (waited_with_timeout : Bool) (src : Address) (st : State) : Result Message × State :=
  if st.stopped then (.error (.unavailable "transport shut down"), st)
  else
    match st.queues.lookup src.name with
    | some (envelope :: rest) =>
      -- A drained queue is erased, not kept empty.
      (.ok (makeMessageFromEnvelope envelope),
        { st with queues := if rest = [] then st.queues.erase src.name else st.queues.insert src.name rest })
    | _ =>
      (.error (if waited_with_timeout then .timeout "receive timed out" else .timeout "no message received"), st)

/-- What a locked section of `receive` comes to: it returns, or it waits on the
    condition variable, which releases the mutex. -/
inductive Section
  | returns (result : Result Message) (after : State)
  | waits

/-- `receive` up to its first wait. -/
def receive (src : Address) (args : ReceiveArgs) (st : State) : Section :=
  if src.name = "" then .returns (.error (.invalidArgument "receive source name is empty")) st
  else if ready src st then
    let (result, after) := take false src st
    .returns result after
  else if args.timeout = some 0 then .returns (.error (.timeout "no message received")) st
  else .waits

/-- Why a wait on the condition variable ends. -/
inductive Wake
  | notified | spurious | timedOut
  deriving DecidableEq

/-- `receive` from a wake-up on: a wait that timed out returns whatever the
    predicate says, any other wake-up waits on unless the predicate holds. -/
def wake (src : Address) (timeout : Option Int) (cause : Wake) (st : State) : Section :=
  if cause = .timedOut ∨ ready src st then
    let (result, after) := take timeout.isSome src st
    .returns result after
  else .waits

/-- Where a thread stands between two steps. -/
inductive Thread
  | idle
  | waiting (src : Address) (timeout : Option Int) (notified : Bool)
  | notifying
  deriving DecidableEq

abbrev ThreadId := Nat

structure Process where
  shared : State
  threads : ThreadId → Thread

def Process.new : Process := ⟨.new, fun _ => .idle⟩

def Process.at (p : Process) (thread : ThreadId) (now : Thread) (shared : State) : Process :=
  { shared := shared, threads := Function.update p.threads thread now }

@[simp] theorem at_shared (p : Process) (thread : ThreadId) (now : Thread) (shared : State) :
    (p.at thread now shared).shared = shared := rfl

/-- `notify_all`: every waiting thread becomes free to wake up. -/
def notified : Thread → Thread
  | .waiting src timeout _ => .waiting src timeout true
  | other => other

inductive Event
  | send (thread : ThreadId) (dest : Address) (envelope : Envelope) (args : SendArgs)
  | receive (thread : ThreadId) (src : Address) (args : ReceiveArgs)
  | wake (thread : ThreadId) (cause : Wake)
  | shutdown (thread : ThreadId)
  | notifyAll (thread : ThreadId)

/-- Whether a wait may end this way: a notification must have been sent, a
    time-out needs a timeout, and a spurious wake-up may always happen. -/
def Wake.allowed (timeout : Option Int) (notified : Bool) : Wake → Bool
  | .notified => notified
  | .spurious => true
  | .timedOut => timeout.isSome

/-- The thread and the shared state after a locked section of `receive`. -/
def Process.resume (p : Process) (thread : ThreadId) (src : Address) (timeout : Option Int) : Section → Process
  | .returns _ after => p.at thread .idle after
  | .waits => p.at thread (.waiting src timeout false) p.shared

def step (p : Process) : Event → Option Process
  | .send thread dest envelope args =>
    match p.threads thread with
    | .idle =>
      let (status, after) := InMemory.send dest envelope args p.shared
      some (p.at thread (if status.ok then .notifying else .idle) after)
    | _ => none
  | .receive thread src args =>
    match p.threads thread with
    | .idle => some (p.resume thread src args.timeout (InMemory.receive src args p.shared))
    | _ => none
  | .wake thread cause =>
    match p.threads thread with
    | .waiting src timeout notified =>
      if cause.allowed timeout notified then
        some (p.resume thread src timeout (InMemory.wake src timeout cause p.shared))
      else none
    | _ => none
  | .shutdown thread =>
    match p.threads thread with
    | .idle =>
      -- A second shutdown returns without notifying.
      if p.shared.stopped then some p
      else some (p.at thread .notifying { p.shared with stopped := true })
    | _ => none
  | .notifyAll thread =>
    match p.threads thread with
    | .notifying => some ⟨p.shared, Function.update (notified ∘ p.threads) thread .idle⟩
    | _ => none

/-- What the caller of `send` and `receive` learns: the verdict of a send's locked
    section, and the result of a receive that ends. -/
inductive Observation
  | sent (thread : ThreadId) (dest : Address) (envelope : Envelope) (status : Status)
  | received (thread : ThreadId) (src : Address) (result : Result Message)
  deriving DecidableEq

def Section.observed (thread : ThreadId) (src : Address) : Section → List Observation
  | .returns result _ => [.received thread src result]
  | .waits => []

def observe (p : Process) : Event → List Observation
  | .send thread dest envelope args => [.sent thread dest envelope (InMemory.send dest envelope args p.shared).1]
  | .receive thread src args => (InMemory.receive src args p.shared).observed thread src
  | .wake thread cause =>
    match p.threads thread with
    | .waiting src timeout _ => (InMemory.wake src timeout cause p.shared).observed thread src
    | _ => []
  | .shutdown _ => []
  | .notifyAll _ => []

/-! ### What one locked section does -/

/-- A send that succeeds puts its envelope behind the others of its address;
    any other send leaves the state as it was. -/
theorem send_cases (dest : Address) (envelope : Envelope) (args : SendArgs) (st : State) :
    ((send dest envelope args st).1 = .success ∧ dest.name ≠ "" ∧ st.stopped = false ∧
      (send dest envelope args st).2 =
        { st with queues := st.queues.insert dest.name (st.contents dest.name ++ [envelope]) }) ∨
    ((send dest envelope args st).1.ok = false ∧ (send dest envelope args st).2 = st) := by
  unfold send
  by_cases unnamed : dest.name = ""
  · right; simp [unnamed]
  · by_cases confirm : args.confirm
    · right; simp [unnamed, confirm]
    · cases stopped : st.stopped
      · left; simp [unnamed, confirm]
      · right; simp [unnamed, confirm]

theorem take_stopped {st : State} (stopped : st.stopped = true) (waited : Bool) (src : Address) :
    take waited src st = (.error (.unavailable "transport shut down"), st) := by
  simp [take, stopped]

/-- A take from a running transport gives the oldest envelope of the address. -/
theorem take_some {st : State} {src : Address} {envelope : Envelope} {rest : List Envelope} (waited : Bool)
    (running : st.stopped = false) (queued : st.queues.lookup src.name = some (envelope :: rest)) :
    take waited src st = (.ok (makeMessageFromEnvelope envelope),
      { st with queues := if rest = [] then st.queues.erase src.name else st.queues.insert src.name rest }) := by
  simp [take, running, queued]

theorem take_empty {st : State} {src : Address} (waited : Bool) (running : st.stopped = false)
    (empty : st.contents src.name = []) :
    take waited src st =
      (.error (if waited then .timeout "receive timed out" else .timeout "no message received"), st) := by
  unfold State.contents at empty
  cases found : st.queues.lookup src.name with
  | none => simp [take, running, found]
  | some queue =>
    rw [found] at empty
    obtain rfl : queue = [] := empty
    simp [take, running, found]

/-- Everything a locked section of `receive` can come to. -/
inductive Verdict (src : Address) (st : State) : Section → Prop
  | took {envelope : Envelope} {rest : List Envelope} (running : st.stopped = false)
      (contents : st.queues.lookup src.name = some (envelope :: rest)) :
      Verdict src st (.returns (.ok (makeMessageFromEnvelope envelope))
        { st with queues := if rest = [] then st.queues.erase src.name else st.queues.insert src.name rest })
  | failed {status : Status} (bad : status.ok = false) : Verdict src st (.returns (.error status) st)
  | waits : Verdict src st .waits

theorem take_verdict (waited : Bool) (src : Address) (st : State) :
    Verdict src st (.returns (take waited src st).1 (take waited src st).2) := by
  cases stopped : st.stopped with
  | true =>
    rw [take_stopped stopped]
    exact .failed (Status.ok_unavailable _)
  | false =>
    rcases queue : st.contents src.name with _ | ⟨envelope, rest⟩
    · rw [take_empty waited stopped queue]
      cases waited
      · exact .failed (Status.ok_timeout _)
      · exact .failed (Status.ok_timeout _)
    · have queued := State.lookup_of_contents queue
      rw [take_some waited stopped queued]
      exact .took stopped queued

theorem receive_verdict (src : Address) (args : ReceiveArgs) (st : State) : Verdict src st (receive src args st) := by
  unfold receive
  split_ifs
  · exact .failed (Status.ok_invalidArgument _)
  · exact take_verdict false src st
  · exact .failed (Status.ok_timeout _)
  · exact .waits

theorem wake_verdict (src : Address) (timeout : Option Int) (cause : Wake) (st : State) :
    Verdict src st (wake src timeout cause st) := by
  unfold wake
  split_ifs
  · exact take_verdict timeout.isSome src st
  · exact .waits

/-- A send or receive that ends without success. -/
def Observation.failed : Observation → Bool
  | .sent _ _ _ status => !status.ok
  | .received _ _ (.ok _) => false
  | .received _ _ (.error _) => true

/-- Everything a step can do to the shared state, with what is seen of it. -/
inductive Change (st : State) : State → List Observation → Prop
  | pushed (thread : ThreadId) (dest : Address) (envelope : Envelope) (named : dest.name ≠ "")
      (running : st.stopped = false) :
      Change st { st with queues := st.queues.insert dest.name (st.contents dest.name ++ [envelope]) }
        [.sent thread dest envelope .success]
  | popped (thread : ThreadId) (src : Address) (envelope : Envelope) (rest : List Envelope)
      (running : st.stopped = false) (queued : st.queues.lookup src.name = some (envelope :: rest)) :
      Change st
        { st with queues := if rest = [] then st.queues.erase src.name else st.queues.insert src.name rest }
        [.received thread src (.ok (makeMessageFromEnvelope envelope))]
  | stopped (running : st.stopped = false) : Change st { st with stopped := true } []
  | kept (seen : List Observation) (failed : ∀ observation ∈ seen, observation.failed = true) : Change st st seen

theorem verdict_change {p : Process} {src : Address} {verdict : Section} (held : Verdict src p.shared verdict)
    (thread : ThreadId) (timeout : Option Int) :
    Change p.shared (p.resume thread src timeout verdict).shared (verdict.observed thread src) := by
  cases held with
  | took running queued => exact .popped thread src _ _ running queued
  | failed bad => exact .kept _ (by simp [Section.observed, Observation.failed])
  | waits => exact .kept _ (by simp [Section.observed])

/-- Every step of the transport makes one of these changes. -/
theorem step_change {p next : Process} {e : Event} (stepped : step p e = some next) :
    Change p.shared next.shared (observe p e) := by
  cases e with
  | send thread dest envelope args =>
    simp only [step] at stepped
    split at stepped
    · obtain rfl := Option.some.inj stepped
      simp only [observe, at_shared]
      rcases send_cases dest envelope args p.shared with ⟨sent, named, running, after⟩ | ⟨refused, after⟩
      · rw [sent, after]
        exact .pushed thread dest envelope named running
      · rw [after]
        exact .kept _ (by simp [Observation.failed, refused])
    · cases stepped
  | receive thread src args =>
    simp only [step] at stepped
    split at stepped
    · obtain rfl := Option.some.inj stepped
      exact verdict_change (receive_verdict src args p.shared) thread args.timeout
    · cases stepped
  | wake thread cause =>
    simp only [step] at stepped
    split at stepped
    · rename_i src timeout notified waiting
      split at stepped
      · obtain rfl := Option.some.inj stepped
        simp only [observe, waiting]
        exact verdict_change (wake_verdict src timeout cause p.shared) thread timeout
      · cases stepped
    · cases stepped
  | shutdown thread =>
    simp only [step] at stepped
    split at stepped
    · split at stepped
      · obtain rfl := Option.some.inj stepped
        exact .kept _ (by simp [observe])
      · rename_i running
        obtain rfl := Option.some.inj stepped
        exact .stopped (by simpa using running)
    · cases stepped
  | notifyAll thread =>
    simp only [step] at stepped
    split at stepped
    · obtain rfl := Option.some.inj stepped
      exact .kept _ (by simp [observe])
    · cases stepped

end Mqss.InMemory
