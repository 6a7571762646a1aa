import Mqss.RabbitMqCalls

/-!
The clock of the bounded receives. A call with a positive timeout reads the steady
clock once to compute its deadline and then once in every round of its loop; times
are 64-bit counts of nanoseconds, the timeout is a 64-bit count of milliseconds,
and the wait that is passed on is a 32-bit one. Without its readings, the clocked
transport is the transport.
-/

namespace Mqss.RabbitMq
open Mqss.Machine

/-- The readings of a bounded receive: the one that its deadline is computed from, and its last one. -/
structure Timer where
  start : Int64
  timeout : Int64
  last : Int64
  deriving DecidableEq

namespace Timer

/-- The timeout in nanoseconds. -/
def nanoseconds (timer : Timer) : Int64 := timer.timeout * 1000000

def deadline (timer : Timer) : Int64 := timer.start + timer.nanoseconds

/-- The time from the last reading to the deadline, in milliseconds. -/
def remaining (timer : Timer) : Int64 := (timer.deadline - timer.last) / 1000000

/-- The wait that is passed to `BasicConsumeMessage` after the last reading. -/
def wait_ms (timer : Timer) : Int32 := (min timer.remaining 200).toInt32

/-- The deadline in exact arithmetic. -/
def due (timer : Timer) : Int := timer.start.toInt + timer.timeout.toInt * 1000000

/-- Neither the conversion of the timeout nor the deadline overflows. -/
structure Exact (timer : Timer) : Prop where
  product : timer.nanoseconds.toInt = timer.timeout.toInt * 1000000
  sum : timer.deadline.toInt = timer.start.toInt + timer.nanoseconds.toInt

/-- The wait is computed without overflow, lies between 0 and 200, and is no longer than
    the exact remaining time. -/
structure WaitsWell (timer : Timer) : Prop where
  difference : (timer.deadline - timer.last).toInt = timer.deadline.toInt - timer.last.toInt
  narrowed : timer.wait_ms.toInt = (min timer.remaining 200).toInt
  nonnegative : 0 ≤ timer.wait_ms.toInt
  bounded : timer.wait_ms.toInt ≤ 200
  inTime : timer.wait_ms.toInt * 1000000 ≤ timer.due - timer.last.toInt

/-- A positive timeout is exact when the deadline fits into 64 bits. -/
theorem exact_iff {timer : Timer} (positive : 0 < timer.timeout.toInt) :
    timer.Exact ↔ timer.timeout.toInt * 1000000 < 2 ^ 63 ∧ timer.due < 2 ^ 63 := by
  have low := timer.start.le_toInt
  constructor
  · rintro ⟨product, sum⟩
    have first := timer.nanoseconds.toInt_lt
    have second := timer.deadline.toInt_lt
    unfold due
    omega
  · rintro ⟨first, second⟩
    unfold due at second
    have factor : Int64.toInt 1000000 = 1000000 := rfl
    have product : timer.nanoseconds.toInt = timer.timeout.toInt * 1000000 := by
      rw [nanoseconds, Int64.toInt_mul, factor]
      exact Int.bmod_eq_of_le (by omega) (by omega)
    refine ⟨product, ?_⟩
    rw [deadline, Int64.toInt_add, product]
    exact Int.bmod_eq_of_le (by omega) (by omega)

theorem Exact.due_eq {timer : Timer} (exact : timer.Exact) : timer.deadline.toInt = timer.due := by
  rw [exact.sum, exact.product, due]

/-- Between the start and the deadline the wait is computed well. -/
theorem Exact.waitsWell {timer : Timer} (exact : timer.Exact) (later : timer.start ≤ timer.last)
    (before : timer.last < timer.deadline) : timer.WaitsWell := by
  rw [Int64.le_iff_toInt_le] at later
  rw [Int64.lt_iff_toInt_lt] at before
  have span := timer.nanoseconds.toInt_lt
  have sum := exact.sum
  have difference : (timer.deadline - timer.last).toInt = timer.deadline.toInt - timer.last.toInt := by
    rw [Int64.toInt_sub]
    exact Int.bmod_eq_of_le (by omega) (by omega)
  have remains : timer.remaining.toInt = (timer.deadline.toInt - timer.last.toInt) / 1000000 := by
    rw [remaining, Int64.toInt_div_of_ne_right _ _ (by decide), difference]
    exact Int.tdiv_eq_ediv_of_nonneg (by omega)
  have clamped : (min timer.remaining 200).toInt = min timer.remaining.toInt 200 := by
    have cap : Int64.toInt 200 = 200 := rfl
    show (if timer.remaining ≤ 200 then timer.remaining else 200).toInt = _
    by_cases small : timer.remaining ≤ 200
    · rw [if_pos small]
      rw [Int64.le_iff_toInt_le, cap] at small
      omega
    · rw [if_neg small, cap]
      rw [Int64.le_iff_toInt_le, cap] at small
      omega
  have narrowed : timer.wait_ms.toInt = (min timer.remaining 200).toInt := by
    rw [wait_ms, Int64.toInt_toInt32, clamped]
    exact Int.bmod_eq_of_le (by omega) (by omega)
  have due := exact.due_eq
  exact ⟨difference, narrowed, by omega, by omega, by omega⟩

end Timer

/-! ### The stages of a wait loop -/

/-- Where a bounded receive stands with its clock. -/
inductive Stage
  | looking | waiting | expired
  deriving DecidableEq

/-- The phases of the wait loop, and those of a call that returns `Timeout`. -/
def Phase.stage : Phase → Option Stage
  | .polling => some .looking
  | .waiting => some .waiting
  | .leaving (.error status) | .returned (.error status) => if status.code = .Timeout then some .expired else none
  | _ => none

/-- What a stage says about the last reading. -/
def Stage.Fits (timer : Timer) : Stage → Prop
  | .looking => True
  | .waiting => timer.last < timer.deadline
  | .expired => timer.deadline ≤ timer.last

theorem leaving_stage (result : Except Status Delivery) : (Phase.leaving result).stage = (Phase.returned result).stage := by
  cases result <;> rfl

theorem finish_found (s : Rabbit) (c : CallId) (call : Call) (result : Except Status Delivery) :
    ∃ now, (s.finish c call result).calls c = some now ∧ now.phase = .returned result ∧ now.args = call.args := by
  unfold Rabbit.finish
  split
  · exact ⟨_, Function.update_self .., rfl, rfl⟩
  · exact ⟨_, Function.update_self .., rfl, rfl⟩

/-- A call that polls once has no timeout but zero. -/
theorem fetch_polls {s t : Rabbit} {c : CallId} (stepped : step s (.fetch c) = some t) :
    ∃ call, s.calls c = some call ∧ call.args.timeout = some 0 := by
  obtain ⟨call, found, stepped⟩ := call_of_step stepped
  refine ⟨call, found, ?_⟩
  split at stepped
  · split_ifs at stepped with zero
    exact zero
  · cases stepped

/-- A call that begins to wait has no zero timeout. -/
theorem consume_begins {s t : Rabbit} {c : CallId} (stepped : step s (.consume c) = some t) :
    ∃ call, s.calls c = some call ∧ call.args.timeout ≠ some 0 ∧
      ∃ now, t.calls c = some now ∧ now.args = call.args ∧ now.phase = .polling := by
  obtain ⟨call, found, stepped⟩ := call_of_step stepped
  refine ⟨call, found, ?_⟩
  split at stepped
  · split_ifs at stepped with zero
    obtain rfl := Option.some.inj stepped
    exact ⟨zero, _, Function.update_self .., rfl, rfl⟩
  · cases stepped

/-- A call that waits was looking. -/
theorem wait_enters {s t : Rabbit} {c : CallId} (stepped : step s (.wait c) = some t) :
    ∃ call, s.calls c = some call ∧ call.phase = .polling ∧
      ∃ now, t.calls c = some now ∧ now.args = call.args ∧ now.phase = .waiting := by
  cases step_change stepped with
  | waited found phase => exact ⟨_, found, phase, _, Function.update_self .., rfl, rfl⟩

/-- A call that gives up was looking; it times out unless its transport was stopped. -/
theorem giveUp_leaves {s t : Rabbit} {c : CallId} (stepped : step s (.giveUp c) = some t) :
    ∃ call, s.calls c = some call ∧ call.phase = .polling ∧
      ∃ now, t.calls c = some now ∧ now.args = call.args ∧
        now.phase.stage = if s.stopped call.transport then none else some .expired := by
  obtain ⟨call, found, stepped⟩ := call_of_step stepped
  refine ⟨call, found, ?_⟩
  split at stepped
  · rename_i phase
    obtain ⟨status, gives, rfl⟩ := Option.map_eq_some_iff.mp stepped
    refine ⟨phase, _, Function.update_self .., rfl, ?_⟩
    unfold Call.giveUp at gives
    split_ifs at gives with stopped timed
    · obtain rfl := Option.some.inj gives
      rw [if_pos stopped]
      rfl
    · obtain rfl := Option.some.inj gives
      rw [if_neg stopped]
      rfl
  · cases stepped

/-- A new call is in no stage. -/
theorem receive_stage {s t : Rabbit} {c : CallId} {transport : TransportId} {src : Address} {args : ReceiveArgs}
    {now : Call} (stepped : step s (.receive c transport src args) = some t) (found : t.calls c = some now) :
    now.phase.stage = none := by
  simp only [step] at stepped
  split at stepped
  · obtain rfl := Option.some.inj stepped
    have refused : ∀ status : Status, status.code ≠ .Timeout →
        (s.finish c { transport := transport, src := src, args := args } (.error status)).calls c = some now →
        now.phase.stage = none := by
      intro status other found
      obtain ⟨call, known, phase, _⟩ := finish_found s c { transport := transport, src := src, args := args }
        (.error status)
      obtain rfl := Option.some.inj (known.symm.trans found)
      rw [phase]
      exact if_neg other
    unfold Rabbit.receive at found
    split_ifs at found
    · exact refused _ (by decide) found
    · exact refused _ (by decide) found
    · have opened := (Function.update_self c _ s.calls).symm.trans found
      obtain rfl := Option.some.inj opened
      rfl
  · cases stepped

/-- A step that reads no clock leads into no stage, but back from the wait to the loop. -/
theorem step_stage {s t : Rabbit} {e : Event} (stepped : step s e = some t)
    (other : ∀ c, e ≠ .consume c ∧ e ≠ .wait c ∧ e ≠ .giveUp c) {c : CallId} {now : Call}
    (found : t.calls c = some now) (bounded : now.args.timeout ≠ some 0) {stage : Stage}
    (reached : now.phase.stage = some stage) : ∃ call, s.calls c = some call ∧ call.args = now.args ∧
      (call.phase.stage = some stage ∨ stage = .looking ∧ call.phase.stage = some .waiting) := by
  by_cases about : e.call = some c
  · cases step_change stepped with
    | refused | published | stopped => cases about
    | unacked | unrejected => exact ⟨now, found, rfl, .inl reached⟩
    | rejected | opened =>
      obtain rfl := Option.some.inj about
      rw [receive_stage stepped found] at reached
      cases reached
    | fetchedNone was | fetched was =>
      obtain rfl := Option.some.inj about
      obtain ⟨call, known, zero⟩ := fetch_polls stepped
      rcases step_args stepped found with ⟨before, same, args⟩ | ⟨_, _, receives⟩
      · obtain rfl := Option.some.inj (known.symm.trans same)
        exact absurd (args ▸ zero) bounded
      · cases receives
    | consumed => exact absurd rfl (other _).1
    | waited => exact absurd rfl (other _).2.1
    | gaveUp => exact absurd rfl (other _).2.2
    | polled was waiting =>
      obtain rfl := Option.some.inj about
      obtain rfl := Option.some.inj ((Function.update_self _ _ s.calls).symm.trans found)
      unfold Call.poll at reached ⊢
      split at reached
      · obtain rfl := Option.some.inj reached
        exact ⟨_, was, rfl, .inr ⟨rfl, by rw [waiting]; rfl⟩⟩
      · cases reached
    | cancelled was leaving =>
      obtain rfl := Option.some.inj about
      obtain ⟨last, known, phase, args⟩ := finish_found s _ _ _
      obtain rfl := Option.some.inj (known.symm.trans found)
      refine ⟨_, was, args.symm, .inl ?_⟩
      rw [leaving, leaving_stage, ← phase, reached]
    | failed was =>
      obtain rfl := Option.some.inj about
      obtain ⟨last, known, phase, _⟩ := finish_found s _ _ _
      obtain rfl := Option.some.inj (known.symm.trans found)
      rw [phase] at reached
      cases reached
    | pushed was | copied was | droppedLast was | dropped was | acked was | rejectedBack was
    | rejectedForGood was =>
      obtain rfl := Option.some.inj about
      obtain rfl := Option.some.inj ((Function.update_self _ _ s.calls).symm.trans found)
      exact ⟨_, was, rfl, .inl reached⟩
  · rw [step_frame stepped about] at found
    exact ⟨now, found, rfl, .inl reached⟩

/-! ### The clocked transport -/

/-- The transport with the timers of its bounded receives. -/
structure Clocked where
  rabbit : Rabbit
  timers : CallId → Option Timer

namespace Clocked

def new : Clocked := ⟨.new, fun _ => none⟩

/-- The wait that a call in `BasicConsumeMessage` has passed on. -/
def wait_ms (s : Clocked) (c : CallId) : Int32 :=
  match s.timers c with
  | none => 200
  | some timer => timer.wait_ms

/-- The timer of a call that begins to wait; without a timeout it has none. -/
def started (s : Clocked) (c : CallId) (now : Int64) : Option Timer :=
  (s.rabbit.calls c).bind fun call => call.args.timeout.map fun timeout => ⟨now, Int64.ofInt timeout, now⟩

/-- The stop flag that a call looks at. -/
def stopped (s : Clocked) (c : CallId) : Bool :=
  match s.rabbit.calls c with
  | none => false
  | some call => s.rabbit.stopped call.transport

/-- A bounded receive reads the clock, which never goes back, and finds its deadline
    passed or not. -/
def look (s : Clocked) (c : CallId) (now : Int64) (passed : Bool) : Option (CallId → Option Timer) :=
  match s.timers c with
  | none => if passed then none else some s.timers
  | some timer =>
    if timer.last ≤ now ∧ decide (timer.deadline ≤ now) = passed then
      some (Function.update s.timers c (some { timer with last := now }))
    else none

/-- A step of the transport, with the reading of the clock where it takes one: at the start
    of a wait loop, and in a round that finds the transport running. -/
def step (s : Clocked) : Event × Int64 → Option Clocked
  | (.consume c, now) =>
    (RabbitMq.step s.rabbit (.consume c)).map fun rabbit =>
      ⟨rabbit, Function.update s.timers c (s.started c now)⟩
  | (.wait c, now) =>
    (RabbitMq.step s.rabbit (.wait c)).bind fun rabbit => (s.look c now false).map fun timers => ⟨rabbit, timers⟩
  | (.giveUp c, now) =>
    (RabbitMq.step s.rabbit (.giveUp c)).bind fun rabbit =>
      if s.stopped c then some ⟨rabbit, s.timers⟩
      else (s.look c now true).map fun timers => ⟨rabbit, timers⟩
  | (e, _) => (RabbitMq.step s.rabbit e).map fun rabbit => ⟨rabbit, s.timers⟩

/-- Everything a step can do to the timers. -/
inductive Tick (s : Clocked) : Event × Int64 → Clocked → Prop
  | started {c now rabbit} (stepped : RabbitMq.step s.rabbit (.consume c) = some rabbit) :
      Tick s (.consume c, now) ⟨rabbit, Function.update s.timers c (s.started c now)⟩
  | unbounded {c now rabbit} (none : s.timers c = none) (stepped : RabbitMq.step s.rabbit (.wait c) = some rabbit) :
      Tick s (.wait c, now) ⟨rabbit, s.timers⟩
  | early {c now rabbit timer} (found : s.timers c = some timer) (later : timer.last ≤ now)
      (before : now < timer.deadline) (stepped : RabbitMq.step s.rabbit (.wait c) = some rabbit) :
      Tick s (.wait c, now) ⟨rabbit, Function.update s.timers c (some { timer with last := now })⟩
  | late {c now rabbit timer} (found : s.timers c = some timer) (later : timer.last ≤ now)
      (passed : timer.deadline ≤ now) (stepped : RabbitMq.step s.rabbit (.giveUp c) = some rabbit) :
      Tick s (.giveUp c, now) ⟨rabbit, Function.update s.timers c (some { timer with last := now })⟩
  | stopped {c now rabbit} (flag : s.stopped c = true) (stepped : RabbitMq.step s.rabbit (.giveUp c) = some rabbit) :
      Tick s (.giveUp c, now) ⟨rabbit, s.timers⟩
  | unclocked {e now rabbit} (other : ∀ c, e ≠ .consume c ∧ e ≠ .wait c ∧ e ≠ .giveUp c)
      (stepped : RabbitMq.step s.rabbit e = some rabbit) : Tick s (e, now) ⟨rabbit, s.timers⟩

theorem look_eq_some {s : Clocked} {c : CallId} {now : Int64} {passed : Bool} {timers : CallId → Option Timer}
    (looked : s.look c now passed = some timers) :
    s.timers c = none ∧ passed = false ∧ timers = s.timers ∨
      ∃ timer, s.timers c = some timer ∧ timer.last ≤ now ∧ decide (timer.deadline ≤ now) = passed ∧
        timers = Function.update s.timers c (some { timer with last := now }) := by
  unfold look at looked
  split at looked
  · rename_i none
    split_ifs at looked with late
    exact .inl ⟨none, by simpa using late, (Option.some.inj looked).symm⟩
  · rename_i timer found
    split_ifs at looked with read
    exact .inr ⟨timer, found, read.1, read.2, (Option.some.inj looked).symm⟩

theorem step_tick {s t : Clocked} {e : Event × Int64} (stepped : step s e = some t) : Tick s e t := by
  obtain ⟨e, now⟩ := e
  cases e with
  | consume c =>
    obtain ⟨rabbit, moved, rfl⟩ := Option.map_eq_some_iff.mp stepped
    exact .started moved
  | wait c =>
    obtain ⟨rabbit, moved, rest⟩ := Option.bind_eq_some_iff.mp stepped
    obtain ⟨timers, looked, rfl⟩ := Option.map_eq_some_iff.mp rest
    rcases look_eq_some looked with ⟨none, _, rfl⟩ | ⟨timer, found, later, before, rfl⟩
    · exact .unbounded none moved
    · exact .early found later (Int64.not_le.mp (of_decide_eq_false before)) moved
  | giveUp c =>
    obtain ⟨rabbit, moved, rest⟩ := Option.bind_eq_some_iff.mp stepped
    split_ifs at rest with flag
    · obtain rfl := Option.some.inj rest
      exact .stopped flag moved
    · obtain ⟨timers, looked, rfl⟩ := Option.map_eq_some_iff.mp rest
      rcases look_eq_some looked with ⟨_, impossible, _⟩ | ⟨timer, found, later, passed, rfl⟩
      · cases impossible
      · exact .late found later (of_decide_eq_true passed) moved
  | _ =>
    simp only [step, Option.map_eq_some_iff] at stepped
    obtain ⟨rabbit, moved, rfl⟩ := stepped
    exact .unclocked (by simp) moved

/-- Without its readings, a step of the clocked transport is one of the transport. -/
theorem step_unclocked {s t : Clocked} {e : Event × Int64} (stepped : step s e = some t) :
    RabbitMq.step s.rabbit e.1 = some t.rabbit := by
  cases step_tick stepped with
  | started moved => exact moved
  | unbounded _ moved => exact moved
  | early _ _ _ moved => exact moved
  | late _ _ _ moved => exact moved
  | stopped _ moved => exact moved
  | unclocked _ moved => exact moved

/-- The clocked transport refines the transport: what holds of every run of the transport
    holds of every clocked one. -/
theorem run_unclocked {s t : Clocked} {es : List (Event × Int64)} (ran : run step s es = some t) :
    run RabbitMq.step s.rabbit (es.map Prod.fst) = some t.rabbit := by
  induction es generalizing s with
  | nil =>
    obtain rfl := Option.some.inj ran
    rfl
  | cons e es ih =>
    obtain ⟨next, stepped, rest⟩ := run_cons.mp ran
    exact run_cons.mpr ⟨next.rabbit, step_unclocked stepped, ih rest⟩

/-! ### What the clock guarantees -/

/-- The timer of a bounded receive: it holds the timeout of the call, and its stage fits. -/
structure Timed (timeout : Int) (stage : Stage) (timer : Timer) : Prop where
  timeout : timer.timeout.toInt = timeout
  later : timer.start ≤ timer.last
  fits : stage.Fits timer

/-- Bounded receives honour their deadlines: no deadline overflows, a call that times out
    has read the clock at its exact deadline or later, and every wait is computed well. -/
structure Honoured (s : Clocked) : Prop where
  exact : ∀ c timer, s.timers c = some timer → timer.Exact
  timedOut : ∀ c call timeout, s.rabbit.calls c = some call → call.args.timeout = some timeout → 0 < timeout →
    call.phase.stage = some .expired →
    ∃ timer, s.timers c = some timer ∧ timer.timeout.toInt = timeout ∧ timer.due ≤ timer.last.toInt
  waits : ∀ c call timeout, s.rabbit.calls c = some call → call.args.timeout = some timeout → 0 < timeout →
    call.phase = .waiting →
    ∃ timer, s.timers c = some timer ∧ timer.timeout.toInt = timeout ∧ s.wait_ms c = timer.wait_ms ∧ timer.WaitsWell

/-- A timeout that is not negative and fits into 64 bits. -/
def Representable : Event × Int64 → Prop
  | (.receive _ _ _ args, _) => ∀ timeout, args.timeout = some timeout → 0 ≤ timeout ∧ timeout < 2 ^ 63
  | _ => True

/-- When a call begins to wait, its timeout in nanoseconds and its deadline fit into 64 bits. -/
def InRange (s : Clocked) : Event × Int64 → Prop
  | (.consume c, now) => ∀ call timeout, s.rabbit.calls c = some call → call.args.timeout = some timeout →
    timeout * 1000000 < 2 ^ 63 ∧ now.toInt + timeout * 1000000 < 2 ^ 63
  | _ => True

/-- What every step keeps. -/
structure Kept (s : Clocked) : Prop where
  representable : ∀ c call timeout, s.rabbit.calls c = some call → call.args.timeout = some timeout →
    0 ≤ timeout ∧ timeout < 2 ^ 63
  exact : ∀ c timer, s.timers c = some timer → timer.Exact
  timed : ∀ c call timeout stage, s.rabbit.calls c = some call → call.args.timeout = some timeout → 0 < timeout →
    call.phase.stage = some stage → ∃ timer, s.timers c = some timer ∧ Timed timeout stage timer

theorem new_kept : new.Kept := by
  refine ⟨?_, ?_, ?_⟩
  · intro c call timeout found
    cases found
  · intro c timer found
    cases found
  · intro c call timeout stage found
    cases found

theorem Kept.honoured {s : Clocked} (kept : s.Kept) : s.Honoured := by
  refine ⟨kept.exact, ?_, ?_⟩
  · intro c call timeout known bounded positive expired
    obtain ⟨timer, found, timed⟩ := kept.timed c call timeout .expired known bounded positive expired
    have passed : timer.deadline ≤ timer.last := timed.fits
    rw [Int64.le_iff_toInt_le, (kept.exact c timer found).due_eq] at passed
    exact ⟨timer, found, timed.timeout, passed⟩
  · intro c call timeout known bounded positive waiting
    have stage : call.phase.stage = some .waiting := by rw [waiting]; rfl
    obtain ⟨timer, found, timed⟩ := kept.timed c call timeout .waiting known bounded positive stage
    have passes : s.wait_ms c = timer.wait_ms := by simp [wait_ms, found]
    exact ⟨timer, found, timed.timeout, passes, (kept.exact c timer found).waitsWell timed.later timed.fits⟩

/-- A bounded receive in its loop has a timer. -/
theorem Kept.looking {s : Clocked} (kept : s.Kept) {c : CallId} {call : Call} {timeout : Int}
    (known : s.rabbit.calls c = some call) (bounded : call.args.timeout = some timeout) (positive : 0 < timeout)
    (polling : call.phase = .polling) : ∃ timer, s.timers c = some timer ∧ Timed timeout .looking timer := by
  have stage : call.phase.stage = some .looking := by rw [polling]; rfl
  exact kept.timed c call timeout .looking known bounded positive stage

/-- A timer after another reading. -/
theorem Timed.read {timeout : Int} {stage next : Stage} {timer : Timer} (timed : Timed timeout stage timer) {now : Int64}
    (later : timer.last ≤ now) (fits : next.Fits { timer with last := now }) :
    Timed timeout next { timer with last := now } where
  timeout := timed.timeout
  later := Int64.le_trans timed.later later
  fits := fits

/-- The timer that a call with a positive timeout starts with. -/
theorem started_eq {s : Clocked} {c : CallId} {call : Call} {timeout : Int} (found : s.rabbit.calls c = some call)
    (bounded : call.args.timeout = some timeout) (now : Int64) :
    s.started c now = some ⟨now, Int64.ofInt timeout, now⟩ := by
  simp [started, found, bounded]

theorem step_representable {s t : Clocked} {e : Event × Int64} (kept : s.Kept) (representable : Representable e)
    (stepped : step s e = some t) : ∀ c call, t.rabbit.calls c = some call →
      ∀ timeout, call.args.timeout = some timeout → 0 ≤ timeout ∧ timeout < 2 ^ 63 := by
  obtain ⟨e, now⟩ := e
  let Fits (args : ReceiveArgs) : Prop := ∀ timeout, args.timeout = some timeout → 0 ≤ timeout ∧ timeout < 2 ^ 63
  have before : ∀ c call, s.rabbit.calls c = some call → Fits call.args :=
    fun c call was timeout bounded => kept.representable c call timeout was bounded
  refine @step_arguments Fits _ _ e before ?_ (step_unclocked stepped)
  rintro c transport src args rfl
  exact representable

/-- The deadline of a call that begins to wait is exact when its timeout is in range. -/
theorem started_exact_iff {s : Clocked} {rabbit : Rabbit} {c : CallId} {call : Call} {timeout : Int} (kept : s.Kept)
    (moved : RabbitMq.step s.rabbit (.consume c) = some rabbit) (was : s.rabbit.calls c = some call)
    (bounded : call.args.timeout = some timeout) (now : Int64) : (Timer.mk now (Int64.ofInt timeout) now).Exact ↔
      timeout * 1000000 < 2 ^ 63 ∧ now.toInt + timeout * 1000000 < 2 ^ 63 := by
  obtain ⟨before, known, nonzero, _⟩ := consume_begins moved
  obtain rfl := Option.some.inj (known.symm.trans was)
  obtain ⟨low, high⟩ := kept.representable c before timeout was bounded
  have holds : (Int64.ofInt timeout).toInt = timeout := Int64.toInt_ofInt_of_le (by omega) high
  have positive : 0 < timeout := by
    have zero : timeout ≠ 0 := fun equal => nonzero (by rw [bounded, equal])
    omega
  rw [Timer.exact_iff (by rw [holds]; exact positive), Timer.due, holds]

theorem step_exact {s t : Clocked} {e : Event × Int64} (kept : s.Kept) (inRange : s.InRange e)
    (stepped : step s e = some t) {c : CallId} {timer : Timer} (found : t.timers c = some timer) : timer.Exact := by
  have read : ∀ {c' : CallId} {old : Timer} {now : Int64}, s.timers c' = some old →
      Function.update s.timers c' (some { old with last := now }) c = some timer → timer.Exact := by
    intro c' old now was found
    have exact := kept.exact c' old was
    by_cases same : c = c'
    · subst same
      rw [Function.update_self] at found
      obtain rfl := Option.some.inj found
      exact ⟨exact.product, exact.sum⟩
    · rw [Function.update_of_ne same] at found
      exact kept.exact c timer found
  cases step_tick stepped with
  | @started c' now rabbit moved =>
    obtain ⟨call, was, _⟩ := consume_begins moved
    by_cases same : c = c'
    · subst same
      have begun : s.started c now = some timer := by simpa using found
      cases bounded : call.args.timeout with
      | none => simp [started, was, bounded] at begun
      | some timeout =>
        rw [started_eq was bounded] at begun
        obtain rfl := Option.some.inj begun
        exact (started_exact_iff kept moved was bounded now).mpr (inRange call timeout was bounded)
    · exact kept.exact c timer (by simpa [same] using found)
  | unbounded => exact kept.exact c timer found
  | early was => exact read was found
  | late was => exact read was found
  | stopped => exact kept.exact c timer found
  | unclocked => exact kept.exact c timer found

/-- A step reads the clock for the call that its event is about. -/
theorem timers_frame {s t : Clocked} {e : Event × Int64} (stepped : step s e = some t) {c : CallId}
    (other : e.1.call ≠ some c) : t.timers c = s.timers c := by
  have apart : ∀ c', e.1.call = some c' → c ≠ c' := by
    rintro c' about rfl
    exact other about
  cases step_tick stepped with
  | started => exact Function.update_of_ne (apart _ rfl) _ _
  | early => exact Function.update_of_ne (apart _ rfl) _ _
  | late => exact Function.update_of_ne (apart _ rfl) _ _
  | unbounded | stopped | unclocked => rfl

theorem step_timed {s t : Clocked} {e : Event × Int64} (kept : s.Kept) (stepped : step s e = some t) {c : CallId}
    {call : Call} {timeout : Int} {stage : Stage} (found : t.rabbit.calls c = some call)
    (bounded : call.args.timeout = some timeout) (positive : 0 < timeout) (reached : call.phase.stage = some stage) :
    ∃ timer, t.timers c = some timer ∧ Timed timeout stage timer := by
  by_cases about : e.1.call = some c
  · cases step_tick stepped with
    | @started c' now rabbit moved =>
      obtain rfl := Option.some.inj about
      obtain ⟨before, was, nonzero, after, known, args, phase⟩ := consume_begins moved
      obtain rfl := Option.some.inj (known.symm.trans found)
      rw [args] at bounded
      have looking : stage = .looking := by
        rw [phase] at reached
        exact (Option.some.inj reached).symm
      have holds := Int64.toInt_ofInt_of_le (by omega) (kept.representable c' before timeout was bounded).2
      refine ⟨⟨now, Int64.ofInt timeout, now⟩, ?_, holds, Int64.le_refl now, ?_⟩
      · simpa using started_eq was bounded now
      · rw [looking]
        trivial
    | @unbounded c' now rabbit none moved =>
      obtain rfl := Option.some.inj about
      obtain ⟨before, was, polling, after, known, args, _⟩ := wait_enters moved
      obtain rfl := Option.some.inj (known.symm.trans found)
      obtain ⟨timer, running, _⟩ := kept.looking was (args ▸ bounded) positive polling
      exact absurd (none.symm.trans running) (by simp)
    | @early c' now rabbit timer running later before moved =>
      obtain rfl := Option.some.inj about
      obtain ⟨old, was, polling, after, known, args, phase⟩ := wait_enters moved
      obtain rfl := Option.some.inj (known.symm.trans found)
      obtain ⟨same, still, timed⟩ := kept.looking was (args ▸ bounded) positive polling
      obtain rfl := Option.some.inj (running.symm.trans still)
      rw [phase] at reached
      obtain rfl := Option.some.inj reached
      exact ⟨_, Function.update_self .., timed.read later before⟩
    | @late c' now rabbit timer running later passed moved =>
      obtain rfl := Option.some.inj about
      obtain ⟨old, was, polling, after, known, args, ends⟩ := giveUp_leaves moved
      obtain rfl := Option.some.inj (known.symm.trans found)
      obtain ⟨same, still, timed⟩ := kept.looking was (args ▸ bounded) positive polling
      obtain rfl := Option.some.inj (running.symm.trans still)
      rw [ends] at reached
      split_ifs at reached
      obtain rfl := Option.some.inj reached
      exact ⟨_, Function.update_self .., timed.read later passed⟩
    | @stopped c' now rabbit flag moved =>
      obtain rfl := Option.some.inj about
      obtain ⟨old, was, _, after, known, _, ends⟩ := giveUp_leaves moved
      obtain rfl := Option.some.inj (known.symm.trans found)
      have running : s.rabbit.stopped old.transport = true := by simpa [stopped, was] using flag
      rw [ends, if_pos running] at reached
      cases reached
    | unclocked other moved =>
      have nonzero : call.args.timeout ≠ some 0 := by
        rw [bounded]
        intro zero
        have equal := Option.some.inj zero
        omega
      obtain ⟨before, was, args, stages⟩ := step_stage moved other found nonzero reached
      rw [← args] at bounded
      rcases stages with same | ⟨rfl, waiting⟩
      · exact kept.timed c before timeout stage was bounded positive same
      · obtain ⟨timer, running, timed⟩ := kept.timed c before timeout .waiting was bounded positive waiting
        exact ⟨timer, running, timed.timeout, timed.later, trivial⟩
  · rw [step_frame (step_unclocked stepped) about] at found
    rw [timers_frame stepped about]
    exact kept.timed c call timeout stage found bounded positive reached

theorem step_kept {s t : Clocked} {e : Event × Int64} (kept : s.Kept) (representable : Representable e)
    (inRange : s.InRange e) (stepped : step s e = some t) : t.Kept where
  representable c call timeout found bounded := step_representable kept representable stepped c call found timeout bounded
  exact _ _ found := step_exact kept inRange stepped found
  timed _ _ _ _ found bounded positive reached := step_timed kept stepped found bounded positive reached

/-- A deadline that does not overflow was in range. -/
theorem honoured_inRange {s t : Clocked} {e : Event × Int64} (kept : s.Kept) (stepped : step s e = some t)
    (honoured : t.Honoured) : s.InRange e := by
  obtain ⟨e, now⟩ := e
  cases e with
  | consume c =>
    intro call timeout was bounded
    cases step_tick stepped with
    | started moved =>
      have exact := honoured.exact c ⟨now, Int64.ofInt timeout, now⟩ (by simpa using started_eq was bounded now)
      exact (started_exact_iff kept moved was bounded now).mp exact
    | unclocked other => exact absurd rfl (other c).1
  | _ => trivial

/-- In every run, the bounded receives honour their deadlines exactly when every timeout,
    in nanoseconds and added to the clock, fits into 64 bits. -/
theorem bounded_receives_honour_deadlines_iff {es : List (Event × Int64)} {t : Clocked}
    (representable : ∀ e ∈ es, Representable e) (ran : run step new es = some t) :
    Throughout step Honoured new es ↔ Along step InRange new es :=
  throughout_iff_along (fun _ kept => kept.honoured)
    (fun _ _ _ kept allowed inRange stepped => step_kept kept allowed inRange stepped)
    (fun _ _ _ kept _ stepped honoured => honoured_inRange kept stepped honoured) new_kept representable ran

/-- A receive with a timeout of 250 milliseconds waits once and times out in time. -/
def timedOutReceive : List (Event × Int64) :=
  [(.receive 0 0 ⟨"tasks"⟩ { timeout := some 250 }, 0), (.consume 0, 1000), (.wait 0, 1500), (.poll 0, 0),
    (.giveUp 0, 250001000), (.cancel 0 false, 0)]

theorem timedOutReceive_honoured : ∃ t, run step new timedOutReceive = some t ∧
    Throughout step Honoured new timedOutReceive := by
  refine ⟨_, rfl, (bounded_receives_honour_deadlines_iff ?_ rfl).mpr ?_⟩
  · simp [timedOutReceive, Representable]
  · refine (along_cons rfl).mpr ⟨trivial, (along_cons rfl).mpr ⟨?_, (along_cons rfl).mpr ⟨trivial, ?_⟩⟩⟩
    · intro call timeout was bounded
      obtain rfl := Option.some.inj was
      obtain rfl := Option.some.inj bounded
      decide
    · exact (along_cons rfl).mpr ⟨trivial, (along_cons rfl).mpr ⟨trivial, (along_cons rfl).mpr ⟨trivial, trivial⟩⟩⟩

/-- A receive with the largest timeout. -/
def largestTimeout : List (Event × Int64) :=
  [(.receive 0 0 ⟨"tasks"⟩ { timeout := some (2 ^ 63 - 1) }, 0), (.consume 0, 0), (.giveUp 0, 0), (.cancel 0 false, 0)]

/-- Its deadline lies in the past, and it times out at its first look at the clock. -/
theorem largestTimeout_expires_at_once : ∃ t call timer, run step new largestTimeout = some t ∧
    t.rabbit.calls 0 = some call ∧ call.phase = .returned (.error (.timeout "receive timed out")) ∧
    t.timers 0 = some timer ∧ timer.last.toInt < timer.due ∧ ¬ t.Honoured := by
  refine ⟨_, _, _, rfl, rfl, rfl, rfl, by decide, ?_⟩
  intro honoured
  obtain ⟨timer, found, _, passed⟩ := honoured.timedOut 0 _ (2 ^ 63 - 1) rfl rfl (by decide) rfl
  obtain rfl := Option.some.inj found
  exact absurd passed (by decide)

end Clocked
end Mqss.RabbitMq
