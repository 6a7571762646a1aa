import Mqss.RabbitMqCalls
import Mqss.Progress

/-!
The shutdown of a RabbitMQ transport. It sets a flag and wakes nobody up: a receive
in progress finds the flag at the head of its wait loop. So a send whose stop check
comes after the shutdown is refused, and a receive has at most three more steps to
take, whatever its broker, the other receives and the other transports do in
between. A send or a round of the wait loop that is past its check when the flag is
set has been accounted for by the step before: the send may still publish, the round
may still time out.
-/

namespace Mqss.RabbitMq
open Mqss.Machine Mqss.Progress

/-- The steps that a call takes itself; the broker's pushes and what happens to its
    message after the return are not among them. -/
def Event.advances (c : CallId) : Event → Bool
  | .fetch d | .consume d | .wait d | .poll d | .giveUp d | .cancel d _ | .fail d _ => d = c
  | _ => false

/-- The client library throws. -/
def Event.throws : Event → Bool
  | .cancel _ thrown => thrown
  | .fail _ _ => true
  | _ => false

/-- The steps that a call has left on a stopped transport. -/
def Phase.left : Phase → Nat
  | .connected => 3
  | .waiting => 3
  | .polling => 2
  | .leaving _ => 1
  | .returned _ => 0

/-- A call that is in its wait loop or on the way to it, or that has left it with a
    message or for the shutdown. -/
def Call.Loops (call : Call) : Prop :=
  match call.phase with
  | .connected => call.args.timeout ≠ some 0
  | .polling | .waiting => True
  | .leaving result | .returned result => ∀ status, result = .error status → status.code = .Unavailable

theorem advances_call {e : Event} {c : CallId} (advances : e.advances c = true) : e.call = some c := by
  cases e with
  | fetch d | consume d | wait d | poll d | giveUp d | cancel d _ | fail d _ =>
    have same : d = c := by simpa [Event.advances] using advances
    rw [same, Event.call]
  | _ => cases advances

/-- A transport stays stopped. -/
theorem step_stays_stopped {s t : Rabbit} {e : Event} {transport : TransportId} (stopped : s.stopped transport = true)
    (stepped : step s e = some t) : t.stopped transport = true := by
  cases step_change stepped with
  | @stopped other =>
    by_cases same : transport = other
    · subst same
      exact Function.update_self _ _ _
    · exact (Function.update_of_ne same _ _).trans stopped
  | rejected | fetchedNone | fetched | cancelled | failed => simpa using stopped
  | _ => exact stopped

theorem finish_call (s : Rabbit) (c : CallId) (call : Call) (result : Except Status Delivery) :
    ∃ now, (s.finish c call result).calls c = some now ∧ now.phase = .returned result ∧
      now.transport = call.transport := by
  unfold Rabbit.finish
  split
  · exact ⟨_, Function.update_self _ _ _, rfl, rfl⟩
  · exact ⟨_, Function.update_self _ _ _, rfl, rfl⟩

/-- What a step makes of a call whose transport is stopped. -/
structure Nears (c : CallId) (call : Call) (e : Event) (now : Call) : Prop where
  transport : now.transport = call.transport
  fewer : now.phase.left + (e.advances c).toNat ≤ call.phase.left
  loops : call.Loops → now.Loops

/-- Any other step leaves the call where it stands. -/
theorem step_bystands {s t : Rabbit} {e : Event} {c : CallId} {call : Call} (found : s.calls c = some call)
    (other : e.advances c = false) (stepped : step s e = some t) :
    ∃ now, t.calls c = some now ∧ now.transport = call.transport ∧ now.phase = call.phase ∧ now.args = call.args := by
  by_cases about : e.call = some c
  · have self : ∀ {d : CallId} {now : Call}, d = c → (s.set d now).calls c = some now := by
      rintro d now rfl
      exact Function.update_self _ _ _
    cases step_change stepped with
    | refused | published | stopped => cases about
    | unacked | unrejected => exact ⟨call, found, rfl, rfl, rfl⟩
    | rejected status new | opened new =>
      obtain rfl := Option.some.inj about
      simp [new] at found
    | fetchedNone | fetched | consumed | waited | polled | gaveUp | cancelled | failed =>
      obtain rfl := Option.some.inj about
      simp [Event.advances] at other
    | pushed was | copied was | droppedLast was | dropped was | acked was | rejectedBack was | rejectedForGood was =>
      obtain rfl := Option.some.inj about
      obtain rfl := Option.some.inj (found.symm.trans was)
      exact ⟨_, self rfl, rfl, rfl, rfl⟩
  · exact ⟨call, (step_frame stepped about).trans found, rfl, rfl, rfl⟩

/-- A call that returns has no step left. -/
theorem nears_finish {s : Rabbit} {c : CallId} {call before : Call} {result : Except Status Delivery} {e : Event}
    (transport : before.transport = call.transport) (busy : 0 < call.phase.left)
    (loops : call.Loops → ∀ status, result = .error status → status.code = .Unavailable) :
    ∃ now, (s.finish c before result).calls c = some now ∧ Nears c call e now := by
  obtain ⟨now, found, phase, same⟩ := finish_call s c before result
  refine ⟨now, found, same.trans transport, ?_, ?_⟩
  · have few := Bool.toNat_le (e.advances c)
    rw [phase, Phase.left]
    omega
  · intro loop
    rw [Call.Loops, phase]
    exact loops loop

/-- Every step brings a call whose transport is stopped nearer to its return. -/
theorem step_nears {s t : Rabbit} {e : Event} {c : CallId} {call : Call} (stopped : s.stopped call.transport = true)
    (found : s.calls c = some call) (stepped : step s e = some t) :
    ∃ now, t.calls c = some now ∧ Nears c call e now := by
  by_cases own : e.advances c = true
  · have about := advances_call own
    cases e with
    | fetch d =>
      obtain rfl := Option.some.inj about
      have phase : call.phase = .connected := by
        cases phase : call.phase <;> simp [step, found, phase] at stepped ⊢
      have polls : call.args.timeout = some 0 := by
        by_contra waits
        simp [step, found, phase, waits] at stepped
      have busy : 0 < call.phase.left := by simp [phase, Phase.left]
      have never : ¬ call.Loops := by simp [Call.Loops, phase, polls]
      simp only [step, found, phase, polls, ↓reduceIte, Option.some.injEq] at stepped
      subst stepped
      unfold Rabbit.fetch
      split
      · exact nears_finish rfl busy fun loop => absurd loop never
      · exact nears_finish rfl busy fun loop => absurd loop never
    | consume d =>
      obtain rfl := Option.some.inj about
      cases phase : call.phase with
      | connected =>
        simp only [step, found, phase] at stepped
        split at stepped
        · cases stepped
        · obtain rfl := Option.some.inj stepped
          exact ⟨_, Function.update_self _ _ _, rfl, by simp [phase, Phase.left, Event.advances],
            fun _ => trivial⟩
      | _ => simp [step, found, phase] at stepped
    | wait d =>
      -- The loop does not wait once it has seen the flag.
      obtain rfl := Option.some.inj about
      cases phase : call.phase <;> simp [step, found, phase, stopped] at stepped
    | poll d =>
      obtain rfl := Option.some.inj about
      cases phase : call.phase with
      | waiting =>
        simp only [step, found, phase, Option.some.injEq] at stepped
        subst stepped
        refine ⟨_, Function.update_self _ _ _, ?_⟩
        unfold Call.poll
        split
        · exact ⟨rfl, by simp [phase, Phase.left, Event.advances], fun _ => trivial⟩
        · exact ⟨rfl, by simp [phase, Phase.left, Event.advances], by rintro _ _ ⟨⟩⟩
      | _ => simp [step, found, phase] at stepped
    | giveUp d =>
      obtain rfl := Option.some.inj about
      cases phase : call.phase with
      | polling =>
        simp only [step, found, phase, Call.giveUp, stopped, ↓reduceIte, Option.map_some, Option.some.injEq] at stepped
        subst stepped
        refine ⟨_, Function.update_self _ _ _, rfl, by simp [phase, Phase.left, Event.advances], ?_⟩
        rintro _ _ ⟨⟩
        rfl
      | _ => simp [step, found, phase] at stepped
    | cancel d thrown =>
      obtain rfl := Option.some.inj about
      cases phase : call.phase with
      | leaving result =>
        simp only [step, found, phase, Option.some.injEq] at stepped
        subst stepped
        refine nears_finish rfl (by simp [phase, Phase.left]) fun loop => ?_
        rw [Call.Loops, phase] at loop
        exact loop
      | _ => simp [step, found, phase] at stepped
    | fail d what =>
      obtain rfl := Option.some.inj about
      have unavailable : ∀ status, (Except.error (.unavailable ("receive failed: " ++ what)) : Except Status Delivery) =
          .error status → status.code = .Unavailable := by
        rintro _ ⟨⟩
        rfl
      cases phase : call.phase with
      | connected | waiting =>
        simp only [step, found, phase, Option.some.injEq] at stepped
        subst stepped
        exact nears_finish rfl (by simp [phase, Phase.left]) fun _ => unavailable
      | _ => simp [step, found, phase] at stepped
    | _ => cases own
  · have other : e.advances c = false := by simpa using own
    obtain ⟨now, there, transport, phase, args⟩ := step_bystands found other stepped
    refine ⟨now, there, transport, by simp [phase, other], fun loop => ?_⟩
    rw [Call.Loops, phase, args]
    exact loop

/-! ### After the shutdown -/

/-- A call of a stopped transport that can take no step has returned. -/
theorem stands_returned {s : Rabbit} {c : CallId} {call : Call} (stopped : s.stopped call.transport = true)
    (found : s.calls c = some call)
    (stands : ∀ e : Event, e.advances c = true → e.throws = false → step s e = none) :
    call.phase.finished = true := by
  cases phase : call.phase with
  | connected =>
    by_cases polls : call.args.timeout = some 0
    · have none := stands (.fetch c) (by simp [Event.advances]) rfl
      simp [step, found, phase, polls] at none
    · have none := stands (.consume c) (by simp [Event.advances]) rfl
      simp [step, found, phase, polls] at none
  | polling =>
    have none := stands (.giveUp c) (by simp [Event.advances]) rfl
    simp [step, found, phase, Call.giveUp, stopped] at none
  | waiting =>
    have none := stands (.poll c) (by simp [Event.advances]) rfl
    simp [step, found, phase] at none
  | leaving result =>
    have none := stands (.cancel c false) (by simp [Event.advances]) rfl
    simp [step, found, phase] at none
  | returned result => rfl

/-- A call whose transport is stopped, with the steps that it has left. -/
def Closing (transport : TransportId) (c : CallId) (s : Rabbit) : Prop :=
  s.stopped transport = true ∧ ∃ call, s.calls c = some call ∧ call.transport = transport

def Rabbit.left (c : CallId) (s : Rabbit) : Nat :=
  match s.calls c with
  | none => 0
  | some call => call.phase.left

theorem step_closing {s t : Rabbit} {e : Event} {transport : TransportId} {c : CallId}
    (closing : Closing transport c s) (stepped : step s e = some t) :
    Closing transport c t ∧ t.left c + (e.advances c).toNat ≤ s.left c := by
  obtain ⟨stopped, call, found, rfl⟩ := closing
  obtain ⟨now, there, nears⟩ := step_nears stopped found stepped
  refine ⟨⟨step_stays_stopped stopped stepped, now, there, nears.transport⟩, ?_⟩
  simpa only [Rabbit.left, found, there] using nears.fewer

theorem advances_uses (transport : TransportId) (c : CallId) :
    Uses step (Closing transport c) (Event.advances c) (Rabbit.left c) := by
  intro s e t closing advances stepped
  obtain ⟨closing, fewer⟩ := step_closing closing stepped
  rw [advances, Bool.toNat_true] at fewer
  exact ⟨closing, fewer⟩

theorem advances_spares (transport : TransportId) (c : CallId) :
    Spares step (Closing transport c) (fun e => e.advances c = false) (Rabbit.left c) := by
  intro s e t closing other stepped
  obtain ⟨closing, fewer⟩ := step_closing closing stepped
  rw [other, Bool.toNat_false, Nat.add_zero] at fewer
  exact ⟨closing, fewer⟩

/-- A receive that was in its wait loop leaves it with a message or for the shutdown. -/
theorem run_loops {s t : Rabbit} {fs : List Event} {transport : TransportId} {c : CallId} {call : Call}
    (stopped : s.stopped transport = true) (found : s.calls c = some call) (mine : call.transport = transport)
    (loops : call.Loops) (later : run step s fs = some t) :
    ∃ now, t.calls c = some now ∧ now.transport = transport ∧ now.Loops := by
  have start : s.stopped transport = true ∧ ∃ now, s.calls c = some now ∧ now.transport = transport ∧ now.Loops :=
    ⟨stopped, call, found, mine, loops⟩
  have keeps : ∀ s e next, (s.stopped transport = true ∧ ∃ now, s.calls c = some now ∧ now.transport = transport ∧
      now.Loops) → step s e = some next → (next.stopped transport = true ∧ ∃ now, next.calls c = some now ∧
        now.transport = transport ∧ now.Loops) := by
    rintro s e next ⟨stopped, call, found, rfl, loops⟩ stepped
    obtain ⟨now, there, nears⟩ := step_nears stopped found stepped
    exact ⟨step_stays_stopped stopped stepped, now, there, nears.transport, nears.loops loops⟩
  exact (invariant keeps start later).2

/-- What holds from the shutdown of a transport on. -/
structure Rabbit.ShutDown (transport : TransportId) (s t : Rabbit) (fs : List Event) : Prop where
  /-- A send that makes its stop check now sends nothing. -/
  refuses : ∀ dest envelope args fault,
    (t.send transport dest envelope args fault).1.ok = false ∧ (t.send transport dest envelope args fault).2 = t
  /-- A new receive returns at once and takes nothing. -/
  rejects : ∀ c src args next, step t (.receive c transport src args) = some next →
    next.ready = t.ready ∧ ∃ now status, next.calls c = some now ∧ now.phase = .returned (.error status)
  /-- A receive in progress takes three more steps at most, and can take them. -/
  ends : ∀ c call, s.calls c = some call → call.transport = transport → fs.countP (Event.advances c) ≤ 3 ∧
    ∃ now, t.calls c = some now ∧
      ((∀ e : Event, e.advances c = true → e.throws = false → step t e = none) → now.phase.finished = true) ∧
      (call.Loops → ∀ status, now.phase = .returned (.error status) → status.code = .Unavailable)

/-- From any state in which a transport is stopped, in every run: it refuses every send that
    has not passed its stop check, its new receives return an error, and each receive in
    progress comes to its end after at most three steps of its own. One that has yet to make
    a stop check in its wait loop ends with a message or `Unavailable`. -/
theorem shutdown_ends_receives {s t : Rabbit} {fs : List Event} {transport : TransportId}
    (stopped : s.stopped transport = true) (later : run step s fs = some t) : s.ShutDown transport t fs := by
  have still : t.stopped transport = true :=
    invariant (fun _ _ _ before stepped => step_stays_stopped before stepped) stopped later
  refine ⟨?_, ?_, ?_⟩
  · intro dest envelope args fault
    unfold Rabbit.send
    by_cases unnamed : dest.name = ""
    · simp [unnamed]
    · by_cases confirm : args.confirm = true
      · simp [unnamed, confirm]
      · simp [unnamed, confirm, still]
  · intro c src args next stepped
    simp only [step] at stepped
    split at stepped
    · obtain rfl := Option.some.inj stepped
      unfold Rabbit.receive
      by_cases unnamed : src.name = ""
      · simp [unnamed, finish_error, Call.closed]
      · simp [unnamed, still, finish_error, Call.closed]
    · cases stepped
  · intro c call found mine
    have closing : Closing transport c s := ⟨stopped, call, found, mine⟩
    obtain ⟨⟨_, now, there, transport_⟩, bound⟩ :=
      countP_le (advances_uses transport c) (advances_spares transport c) closing
        (fun _ _ => Bool.eq_false_or_eq_true _) later
    have three : s.left c ≤ 3 := by
      simp only [Rabbit.left, found]
      cases call.phase <;> simp [Phase.left]
    refine ⟨by omega, now, there, ?_, ?_⟩
    · intro stands
      exact stands_returned (by rw [transport_]; exact still) there stands
    · intro loops status returned
      obtain ⟨same, there', _, loops⟩ := run_loops stopped found mine loops later
      obtain rfl := Option.some.inj (there.symm.trans there')
      rw [Call.Loops, returned] at loops
      exact loops status rfl

/-- A receive waits for a push when its transport is shut down. -/
def stoppedInLoop : List Event := [.receive 0 7 ⟨"tasks"⟩ {}, .consume 0, .wait 0, .shutdown 7]

def leaveLoop : List Event := [.poll 0, .giveUp 0, .cancel 0 false]

theorem stoppedInLoop_ends : ∃ s t, run step Rabbit.new stoppedInLoop = some s ∧ run step s leaveLoop = some t ∧
    s.ShutDown 7 t leaveLoop :=
  ⟨_, _, rfl, rfl, shutdown_ends_receives rfl rfl⟩

end Mqss.RabbitMq
