import Mqss.InMemory
import Mqss.Mailbox

/-!
The in-memory transport is a set of mailboxes: every step that sends or receives
puts into or gets from the mailbox of its address, whatever the threads do in
between, so each address is first-in first-out without loss or duplication.
-/

namespace Mqss.InMemory
open Mqss.Machine
open Mqss.Mailbox (Action Boxes act puts gets puts_append gets_append run_balance)

/-- The envelopes of the successful sends to a name, in the order of their locked sections. -/
def sentTo (name : String) : List Observation → List Envelope
  | [] => []
  | .sent _ dest envelope status :: rest =>
    if dest.name = name ∧ status.ok then envelope :: sentTo name rest else sentTo name rest
  | .received _ _ _ :: rest => sentTo name rest

/-- The envelopes returned by the successful receives from a name, in the order of their pops. -/
def receivedFrom (name : String) : List Observation → List Envelope
  | [] => []
  | .received _ src (.ok message) :: rest =>
    if src.name = name then message.envelope :: receivedFrom name rest else receivedFrom name rest
  | .received _ _ (.error _) :: rest => receivedFrom name rest
  | .sent _ _ _ _ :: rest => receivedFrom name rest

/-- What an observation means for the mailboxes. -/
def Observation.action : Observation → List (Action String Envelope)
  | .sent _ dest envelope status => if status.ok then [.put dest.name envelope] else []
  | .received _ src (.ok message) => [.get src.name message.envelope]
  | .received _ _ (.error _) => []

theorem action_failed {observation : Observation} (failed : observation.failed = true) :
    observation.action = [] := by
  rcases observation with ⟨thread, dest, envelope, status⟩ | ⟨thread, src, result⟩
  · simp [Observation.action, show status.ok = false by simpa [Observation.failed] using failed]
  · cases result with
    | ok message => simp [Observation.failed] at failed
    | error status => rfl

theorem sentTo_eq_puts (name : String) (seen : List Observation) :
    sentTo name seen = puts name (seen.flatMap Observation.action) := by
  induction seen with
  | nil => rfl
  | cons observation rest ih =>
    rw [List.flatMap_cons, puts_append, ← ih]
    rcases observation with ⟨thread, dest, envelope, status⟩ | ⟨thread, src, result⟩
    · cases fine : status.ok
      · simp [sentTo, Observation.action, puts, fine]
      · by_cases same : dest.name = name
        · simp [sentTo, Observation.action, puts, fine, same]
        · simp [sentTo, Observation.action, puts, fine, same]
    · cases result <;> simp [sentTo, Observation.action, puts]

theorem receivedFrom_eq_gets (name : String) (seen : List Observation) :
    receivedFrom name seen = gets name (seen.flatMap Observation.action) := by
  induction seen with
  | nil => rfl
  | cons observation rest ih =>
    rw [List.flatMap_cons, gets_append, ← ih]
    rcases observation with ⟨thread, dest, envelope, status⟩ | ⟨thread, src, result⟩
    · cases fine : status.ok <;> simp [receivedFrom, Observation.action, gets, fine]
    · cases result with
      | error status => simp [receivedFrom, Observation.action, gets]
      | ok message =>
        by_cases same : src.name = name
        · simp [receivedFrom, Observation.action, gets, same]
        · simp [receivedFrom, Observation.action, gets, same]

theorem contents_pushed (st : State) (name : String) (queue : List Envelope) :
    State.contents { st with queues := st.queues.insert name queue } =
      Function.update st.contents name queue := by
  funext other
  by_cases same : other = name
  · subst same; simp [State.contents]
  · simp [State.contents, same, Finmap.lookup_insert_of_ne]

theorem contents_popped (st : State) (name : String) (rest : List Envelope) :
    State.contents { st with queues := if rest = [] then st.queues.erase name else st.queues.insert name rest } =
      Function.update st.contents name rest := by
  by_cases drained : rest = []
  · funext other
    by_cases same : other = name
    · subst same; simp [State.contents, drained]
    · simp [State.contents, drained, same, Finmap.lookup_erase_ne]
  · simp only [drained, ↓reduceIte]
    exact contents_pushed st name rest

/-- Popping the oldest envelope is getting it from the mailbox. -/
theorem act_popped {st : State} {name : String} {envelope : Envelope} {rest : List Envelope}
    (queued : st.queues.lookup name = some (envelope :: rest)) :
    act st.contents (.get name envelope) = some (State.contents
      { st with queues := if rest = [] then st.queues.erase name else st.queues.insert name rest }) := by
  have contents : st.contents name = envelope :: rest := by simp [State.contents, queued]
  rw [contents_popped]
  simp [act, contents]

/-- Every step of the transport acts on the mailboxes as its observations say. -/
theorem step_refines (p : Process) (e : Event) (next : Process) (stepped : step p e = some next) :
    run act p.shared.contents ((observe p e).flatMap Observation.action) = some next.shared.contents := by
  have change := step_change stepped
  generalize p.shared = st, next.shared = after, observe p e = seen at change
  cases change with
  | pushed thread dest envelope named running => simp [Observation.action, run, act, contents_pushed]
  | popped thread src envelope rest running queued =>
    simpa [Observation.action, makeMessageFromEnvelope, run] using act_popped queued
  | stopped running => rfl
  | kept seen failed =>
    have silent : seen.flatMap Observation.action = [] := by
      rw [List.flatMap_eq_nil_iff]
      intro observation member
      exact action_failed (failed observation member)
    simp [silent]

/-- No name is kept with an empty queue. -/
def NoEmptyQueue (st : State) : Prop := ∀ name, st.queues.lookup name ≠ some []

theorem noEmptyQueue_insert {st : State} (kept : NoEmptyQueue st) (name : String) {queue : List Envelope}
    (some_left : queue ≠ []) : NoEmptyQueue { st with queues := st.queues.insert name queue } := by
  intro other
  by_cases same : other = name
  · subst same; simpa using some_left
  · simpa [Finmap.lookup_insert_of_ne _ same] using kept other

theorem noEmptyQueue_erase {st : State} (kept : NoEmptyQueue st) (name : String) :
    NoEmptyQueue { st with queues := st.queues.erase name } := by
  intro other
  by_cases same : other = name
  · subst same; simp
  · simpa [Finmap.lookup_erase_ne same] using kept other

theorem step_noEmptyQueue (p : Process) (e : Event) (next : Process) (kept : NoEmptyQueue p.shared)
    (stepped : step p e = some next) : NoEmptyQueue next.shared := by
  have change := step_change stepped
  generalize p.shared = st, next.shared = after, observe p e = seen at change kept
  cases change with
  | pushed thread dest envelope named running =>
    exact noEmptyQueue_insert kept dest.name (by simp)
  | popped thread src envelope rest running queued =>
    by_cases drained : rest = []
    · simpa [drained] using noEmptyQueue_erase kept src.name
    · simpa [drained] using noEmptyQueue_insert kept src.name drained
  | stopped running => exact kept
  | kept seen failed => exact kept

/-- A step in which a send or a receive fails leaves every queue as it was. -/
theorem failed_keeps_queues {p next : Process} {e : Event} (stepped : step p e = some next)
    {observation : Observation} (seen : observation ∈ observe p e) (failed : observation.failed = true) :
    next.shared.queues = p.shared.queues := by
  have change := step_change stepped
  generalize p.shared = st, next.shared = after, observe p e = all at change seen
  cases change with
  | pushed thread dest envelope named running =>
    obtain rfl := List.mem_singleton.mp seen
    simp [Observation.failed] at failed
  | popped thread src envelope rest running queued =>
    obtain rfl := List.mem_singleton.mp seen
    simp [Observation.failed] at failed
  | stopped running => rfl
  | kept _ _ => rfl

/-- At every point of every run, each address has returned a prefix of what was
    sent to it and still holds the rest; failures change nothing, and the map
    holds no empty queue. -/
theorem fifo_without_loss_or_duplication {es : List Event} {p : Process} (ran : run step .new es = some p) :
    (∀ name, sentTo name (history step observe .new es) =
      receivedFrom name (history step observe .new es) ++ p.shared.contents name) ∧
    (∀ name (k : Nat) envelope, (receivedFrom name (history step observe .new es))[k]? = some envelope →
      (sentTo name (history step observe .new es))[k]? = some envelope) ∧
    (∀ e next observation, step p e = some next → observation ∈ observe p e → observation.failed = true →
      next.shared.queues = p.shared.queues) ∧
    (∀ name, p.shared.queues.lookup name ≠ some []) := by
  have balance : ∀ name, sentTo name (history step observe .new es) =
      receivedFrom name (history step observe .new es) ++ p.shared.contents name := by
    intro name
    have refined := run_balance (history_refines step_refines ran) name
    rw [← sentTo_eq_puts, ← receivedFrom_eq_gets] at refined
    simpa [Process.new, State.new, State.contents] using refined
  refine ⟨balance, ?_, ?_, ?_⟩
  · intro name k envelope returned
    rw [balance name]
    exact List.getElem?_append_left (List.getElem?_eq_some_iff.mp returned).1 ▸ returned
  · intro e next observation stepped seen failed
    exact failed_keeps_queues stepped seen failed
  · exact invariant step_noEmptyQueue (by intro name; simp [Process.new, State.new]) ran

/-- A receiver waits on an empty queue, another one on a second address, and a send wakes the first. -/
def blockedReceive : List Event :=
  [.receive 0 ⟨"queue.wait"⟩ {}, .receive 1 ⟨"queue.empty"⟩ { timeout := some 20 },
    .send 2 ⟨"queue.wait"⟩ { payload := "delayed" } {}, .notifyAll 2, .wake 0 .notified, .wake 1 .spurious,
    .wake 1 .timedOut]

theorem blockedReceive_gets_delayed :
    receivedFrom "queue.wait" (history step observe .new blockedReceive) = [{ payload := "delayed" }] ∧
    sentTo "queue.wait" (history step observe .new blockedReceive) =
      receivedFrom "queue.wait" (history step observe .new blockedReceive) ++ [] :=
  ⟨by decide, (@fifo_without_loss_or_duplication blockedReceive _ rfl).1 "queue.wait"⟩

end Mqss.InMemory
