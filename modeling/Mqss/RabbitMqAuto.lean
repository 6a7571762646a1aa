import Mqss.RabbitMqCustody

/-!
Receives in automatic mode. Their consumers do not acknowledge, so no prefetch
limit keeps the broker from pushing a second delivery, or one that arrives after
the loop has given up. Such deliveries are discarded with the channel. The
receives keep every message exactly in the runs where the broker never does so.
-/

namespace Mqss.RabbitMq
open Mqss.Machine

/-- The events of runs whose receives use automatic mode and end without an exception. -/
def Event.automatic : Event → Bool
  | .receive _ _ _ args => args.ack_mode = .Auto
  | .fail _ _ => false
  | _ => true

/-- Where an accepted message can be: in its queue, with a receive in progress, or returned. -/
inductive Whereabouts
  | queued (name : String)
  | receiving (call : CallId)
  | returnedBy (call : CallId)

def Rabbit.At (s : Rabbit) (delivery : Delivery) : Whereabouts → Prop
  | .queued name => delivery ∈ s.ready name
  | .receiving c => ∃ call, s.calls c = some call ∧ call.phase.finished = false ∧
      delivery ∈ call.channel.buffered ++ call.phase.inHand
  | .returnedBy c => ∃ call, s.calls c = some call ∧ call.phase = .returned (.ok delivery)

/-- Each receive takes at most one message, none that it does not return, and every
    accepted message is in one place. -/
structure Rabbit.KeepsMessages (s : Rabbit) : Prop where
  atMostOne : ∀ c call, s.calls c = some call → call.handed.length ≤ 1
  nothing : ∀ c call status, s.calls c = some call → call.phase = .returned (.error status) → call.handed = []
  kept : ∀ delivery ∈ s.accepted, ∃! place, s.At delivery place
  routed : ∀ name, ∀ delivery ∈ s.ready name, delivery.queue = name

/-- The broker pushes nothing more to a receive that was handed a message, and a receive
    cancels its consumer without a message only when it was handed none. -/
def PushesOnce (s : Rabbit) : Event → Prop
  | .push c => ∀ call, s.calls c = some call → call.handed = []
  | .cancel c _ => ∀ call status, s.calls c = some call → call.phase = .leaving (.error status) → call.handed = []
  | _ => True

def Rabbit.Automatic (s : Rabbit) : Prop := ∀ c call, s.calls c = some call → call.args.ack_mode = .Auto

theorem step_automatic {s t : Rabbit} {e : Event} (automatic : s.Automatic) (allowed : e.automatic = true)
    (stepped : step s e = some t) : t.Automatic := by
  refine @step_arguments (fun args => args.ack_mode = .Auto) _ _ e automatic ?_ stepped
  rintro c transport src args rfl
  simpa [Event.automatic] using allowed

theorem run_automatic {t : Rabbit} {es : List Event} (events : ∀ e ∈ es, e.automatic = true)
    (ran : run step Rabbit.new es = some t) : t.Automatic := by
  refine @run_arguments (fun args => args.ack_mode = .Auto) _ es ?_ ran
  intro c transport src args member
  simpa [Event.automatic] using events _ member

/-- What every call keeps as long as the broker pushes once. -/
structure Call.Single (call : Call) : Prop where
  atMostOne : call.handed.length ≤ 1
  nothing : ∀ status, call.phase = .returned (.error status) → call.handed = []

def Rabbit.Singles (s : Rabbit) : Prop := ∀ c call, s.calls c = some call → call.Single

theorem Rabbit.Singles.set {s : Rabbit} (singles : s.Singles) (c : CallId) {call : Call} (now : call.Single) :
    (s.set c call).Singles := by
  intro other known found
  by_cases same : other = c
  · subst same
    obtain rfl : call = known := by simpa using found
    exact now
  · exact singles other known (by simpa [same] using found)

theorem Rabbit.Singles.setReady {s : Rabbit} (singles : s.Singles) (queue : String) (deliveries : List Delivery) :
    (s.setReady queue deliveries).Singles := singles

theorem Rabbit.Singles.finish {s : Rabbit} (singles : s.Singles) (c : CallId) {call : Call}
    {result : Except Status Delivery} (leaves : call.Leaves result) (atMostOne : call.handed.length ≤ 1)
    (nothing : ∀ status, result = .error status → call.handed = []) :
    (s.finish c call result).Singles := by
  obtain ⟨now, back, _, phase, _, handed, _, finished, _⟩ := finish_spec leaves s c
  rw [finished]
  refine (singles.setReady _ _).set c ⟨handed ▸ atMostOne, fun status failed => ?_⟩
  rw [handed]
  rw [phase] at failed
  exact nothing status (Phase.returned.inj failed)

theorem Call.Single.running {call : Call} (atMostOne : call.handed.length ≤ 1) (goesOn : call.phase.finished = false) :
    call.Single := by
  refine ⟨atMostOne, ?_⟩
  intro status phase
  rw [phase] at goesOn
  cases goesOn

/-- A message in automatic mode is never shared. -/
theorem automatic_unshared {s : Rabbit} (ok : s.Ok) (automatic : s.Automatic) {c : CallId} {call : Call}
    (found : s.calls c = some call) : call.copies = 0 :=
  ((ok.calls c call found).auto (automatic c call found)).2

theorem step_singles {s t : Rabbit} {e : Event} (ok : s.Ok) (automatic : s.Automatic) (singles : s.Singles)
    (allowed : e.automatic = true) (once : PushesOnce s e) (stepped : step s e = some t) : t.Singles := by
  cases step_change stepped with
  | refused | published | stopped => exact singles
  | rejected status new =>
    exact singles.finish _ (leaves_error (start_ok _ _ _) rfl status) (Nat.zero_le _) fun _ _ => rfl
  | opened new =>
    exact singles.set _ (.running (Nat.zero_le _) rfl)
  | fetchedNone found phase queue =>
    have callOk := ok.calls _ _ found
    have fits := callOk.fits
    rw [phase] at fits
    have single := singles _ _ found
    exact singles.finish _ (leaves_error callOk fits.2.2.2 _) single.atMostOne fun _ _ => fits.2.1
  | fetched found phase queue =>
    have callOk := ok.calls _ _ found
    have fits := callOk.fits
    rw [phase] at fits
    refine (singles.setReady _ _).finish _ (fetched_leaves callOk phase (ok.front queue).1) ?_ (by simp)
    simp [Call.hand, fits.2.1]
  | consumed found phase | waited found phase | gaveUp _ found phase =>
    have single := singles _ _ found
    exact singles.set _ (.running single.atMostOne rfl)
  | @pushed c call delivery rest found pushable queue =>
    have single := singles _ _ found
    have nothing : call.handed = [] := once call found
    have running : ∀ status, call.phase ≠ .returned (.error status) := by
      intro status phase
      have fits := (ok.calls _ _ found).fits
      rw [phase] at fits
      simp [Call.pushable, fits.1] at pushable
    refine (singles.setReady _ _).set _ ⟨?_, fun status phase => absurd phase (running status)⟩
    simp [Call.hand, Call.buffer, nothing]
  | @polled c call found phase =>
    have single := singles _ _ found
    apply singles.set _
    unfold Call.poll
    split
    · exact .running single.atMostOne rfl
    · exact .running single.atMostOne rfl
  | cancelled found phase =>
    have single := singles _ _ found
    refine singles.finish _ (cancelled_leaves (ok.calls _ _ found) phase _) single.atMostOne ?_
    rintro status rfl
    have nothing := once _ status found phase
    exact nothing
  | failed found phase => exact absurd allowed (by simp [Event.automatic])
  | copied found shared | acked found shared | rejectedBack found shared | rejectedForGood found shared =>
    exact absurd (automatic_unshared ok automatic found) shared
  | droppedLast found shared | dropped found shared =>
    have unshared := automatic_unshared ok automatic found
    omega
  | unacked | unrejected => exact singles

/-- A receive that was handed one message discards none. -/
theorem leaving_forgets {call : Call} {result : Except Status Delivery} (ok : call.Ok)
    (automatic : call.args.ack_mode = .Auto) (single : call.Single)
    (phase : call.phase = .leaving result) (nothing : ∀ status, result = .error status → call.handed = []) :
    call.forgets = [] := by
  have order := ok.order (by simp [phase, Phase.finished])
  have short := single.atMostOne
  simp only [Call.forgets, automatic]
  rw [phase] at order
  cases result with
  | error status =>
    rw [nothing status rfl] at order
    simpa [Phase.inHand] using order.symm
  | ok delivery =>
    rw [order] at short
    simpa [Phase.inHand] using short

theorem lost_nothing {s t : Rabbit} {e : Event} (ok : s.Ok) (automatic : s.Automatic) (singles : s.Singles)
    (allowed : e.automatic = true) (once : PushesOnce s e) (stepped : step s e = some t) : lostBy s e = [] := by
  cases step_change stepped with
  | cancelled found phase =>
    simp only [lostBy, found]
    apply leaving_forgets (ok.calls _ _ found) (automatic _ _ found) (singles _ _ found) phase
    rintro status rfl
    exact once _ status found phase
  | failed found phase => exact absurd allowed (by simp [Event.automatic])
  | unacked found ignored => exact (ignored_loses_nothing found ignored false).1
  | unrejected found ignored => exact (ignored_loses_nothing found ignored _).2
  | acked found shared => exact absurd (automatic_unshared ok automatic found) shared
  | rejectedBack found shared => rfl
  | rejectedForGood found shared => exact absurd (automatic_unshared ok automatic found) shared
  | _ => rfl

/-- The invariant of the runs in which the broker pushes once. -/
structure Rabbit.Kept (s : Rabbit) : Prop where
  ok : s.Ok
  census : s.Census []
  automatic : s.Automatic
  singles : s.Singles

theorem new_kept : Rabbit.new.Kept := by
  obtain ⟨ok, census⟩ := run_census (run_nil Rabbit.new)
  refine ⟨ok, census, run_automatic (by simp) (run_nil _), ?_⟩
  intro c call found
  have none : Rabbit.new.calls c = none := rfl
  rw [none] at found
  cases found

theorem step_kept {s t : Rabbit} {e : Event} (kept : s.Kept) (allowed : e.automatic = true) (once : PushesOnce s e)
    (stepped : step s e = some t) : t.Kept := by
  refine ⟨step_ok kept.ok stepped, ?_, step_automatic kept.automatic allowed stepped,
    step_singles kept.ok kept.automatic kept.singles allowed once stepped⟩
  have census := step_census kept.ok kept.census stepped
  rwa [lost_nothing kept.ok kept.automatic kept.singles allowed once stepped] at census

/-- The place of the census that a whereabouts belongs to. -/
def Whereabouts.place : Whereabouts → Place
  | .queued name => .queue name
  | .receiving c => .call c
  | .returnedBy c => .call c

theorem at_holds {s : Rabbit} (automatic : s.Automatic) {delivery : Delivery} {spot : Whereabouts}
    (here : s.At delivery spot) : delivery ∈ s.holds spot.place := by
  cases spot with
  | queued name => exact here
  | receiving c =>
    obtain ⟨call, found, _, member⟩ := here
    rw [Whereabouts.place, holds_call found, holding_auto call (automatic c call found)]
    exact member
  | returnedBy c =>
    obtain ⟨call, found, phase⟩ := here
    rw [Whereabouts.place, holds_call found, holding_auto call (automatic c call found), phase]
    simp [Phase.inHand]

theorem holds_at {s : Rabbit} (ok : s.Ok) (automatic : s.Automatic) {delivery : Delivery} {place : Place}
    (here : delivery ∈ s.holds place) : ∃ spot, s.At delivery spot := by
  cases place with
  | queue name => exact ⟨.queued name, here⟩
  | call c =>
    cases found : s.calls c with
    | none => simp [Rabbit.holds, found] at here
    | some call =>
      have callOk := ok.calls c call found
      rw [holds_call found, holding_auto call (automatic c call found)] at here
      cases finished : call.phase.finished with
      | false => exact ⟨.receiving c, call, found, finished, here⟩
      | true =>
        have fits := callOk.fits
        rcases phase : call.phase with _ | _ | _ | _ | (status | taken) <;> rw [phase] at fits
        case returned.error => simp [phase, fits.1, Phase.inHand] at here
        case returned.ok =>
          have closed := fits.1 (automatic_unshared ok automatic found)
          obtain rfl : delivery = taken := by simpa [phase, closed, Phase.inHand] using here
          exact ⟨.returnedBy c, call, found, phase⟩
        all_goals simp [phase, Phase.finished] at finished

/-- A call that is in progress has not returned. -/
theorem at_place_injective {s : Rabbit} {delivery : Delivery} {spot other : Whereabouts}
    (here : s.At delivery spot) (there : s.At delivery other) (same : spot.place = other.place) : spot = other := by
  cases spot <;> cases other <;> simp only [Whereabouts.place, Place.queue.injEq, Place.call.injEq, reduceCtorEq] at same
  case queued.queued => rw [same]
  case receiving.receiving => rw [same]
  case returnedBy.returnedBy => rw [same]
  case receiving.returnedBy =>
    subst same
    obtain ⟨call, found, running, _⟩ := here
    obtain ⟨returned, foundToo, phase⟩ := there
    obtain rfl : call = returned := Option.some.inj (found.symm.trans foundToo)
    simp [phase, Phase.finished] at running
  case returnedBy.receiving =>
    subst same
    obtain ⟨returned, foundToo, phase⟩ := here
    obtain ⟨call, found, running, _⟩ := there
    obtain rfl : call = returned := Option.some.inj (found.symm.trans foundToo)
    simp [phase, Phase.finished] at running

theorem kept_keepsMessages {s : Rabbit} (kept : s.Kept) : s.KeepsMessages where
  atMostOne c call found := (kept.singles c call found).atMostOne
  nothing c call status found := (kept.singles c call found).nothing status
  kept delivery member := by
    obtain ⟨place, held⟩ := (Custody.Census.somewhere kept.census delivery).mpr ⟨member, List.not_mem_nil⟩
    obtain ⟨spot, here⟩ := holds_at kept.ok kept.automatic held
    refine ⟨spot, here, ?_⟩
    intro other there
    have same := Custody.Census.unique kept.census (at_holds kept.automatic there) (at_holds kept.automatic here)
    exact at_place_injective there here same
  routed := kept.ok.routed

/-- A step after which every message is kept was a step of a broker that pushes once. -/
theorem keepsMessages_detects {s t : Rabbit} {e : Event} (stepped : step s e = some t)
    (after : t.KeepsMessages) : PushesOnce s e := by
  cases step_change stepped with
  | @pushed c call delivery rest found pushable queue =>
    intro known same
    obtain rfl : call = known := Option.some.inj (found.symm.trans same)
    have short := after.atMostOne c ((call.hand delivery).buffer delivery) (by simp)
    simpa [Call.hand, Call.buffer] using short
  | @cancelled c call result thrown found phase =>
    intro known status same leaving
    obtain rfl : call = known := Option.some.inj (found.symm.trans same)
    obtain rfl : result = .error status := Phase.leaving.inj (phase.symm.trans leaving)
    have nothing := after.nothing c _ status (by rw [finish_error]; simp; rfl) rfl
    exact nothing
  | _ => trivial

/-- In automatic mode the receives of a run keep every message in all its states if and
    only if the broker pushes once throughout it. -/
theorem automatic_receives_keep_messages_iff {es : List Event} (events : ∀ e ∈ es, e.automatic = true)
    (ran : (run step Rabbit.new es).isSome) :
    Throughout step Rabbit.KeepsMessages Rabbit.new es ↔ Along step PushesOnce Rabbit.new es := by
  obtain ⟨t, final⟩ := Option.isSome_iff_exists.mp ran
  have keeps : ∀ s e next, s.Kept → e.automatic = true → PushesOnce s e → step s e = some next → next.Kept :=
    fun s e next kept allowed once stepped => step_kept kept allowed once stepped
  have detects : ∀ s e next, s.Kept → e.automatic = true → step s e = some next → next.KeepsMessages → PushesOnce s e :=
    fun _ _ _ _ _ stepped after => keepsMessages_detects stepped after
  exact throughout_iff_along (fun _ => kept_keepsMessages) keeps detects new_kept events final

/-- One of two messages is polled, and another receive waits for the other one. -/
def polledThenWaiting : List Event :=
  [.send 0 ⟨"tasks"⟩ { payload := "first" } {} none, .send 0 ⟨"tasks"⟩ { payload := "second" } {} none,
    .receive 0 1 ⟨"tasks"⟩ { timeout := some 0, ack_mode := .Auto }, .fetch 0,
    .receive 1 2 ⟨"tasks"⟩ { ack_mode := .Auto }, .consume 1, .wait 1]

def pushedOnce : List Event := [.push 1, .poll 1, .cancel 1 false]

theorem pushedOnce_keeps_messages :
    Along step PushesOnce Rabbit.new (polledThenWaiting ++ pushedOnce) ∧
      Throughout step Rabbit.KeepsMessages Rabbit.new (polledThenWaiting ++ pushedOnce) := by
  have quiet : ∀ e ∈ polledThenWaiting, ∀ s, PushesOnce s e := by simp [polledThenWaiting, PushesOnce]
  have once : Along step PushesOnce Rabbit.new (polledThenWaiting ++ pushedOnce) := by
    refine (along_append rfl).mpr ⟨along_mono (fun s _ quiet => quiet s) (along_of_events quiet _), ?_⟩
    refine (along_cons rfl).mpr ⟨?_, (along_cons rfl).mpr ⟨trivial, (along_cons rfl).mpr ⟨?_, trivial⟩⟩⟩
    · intro call found
      obtain rfl := Option.some.inj found
      rfl
    · intro call status found leaving
      obtain rfl := Option.some.inj found
      cases leaving
  exact ⟨once, (automatic_receives_keep_messages_iff (by decide) (by decide)).mpr once⟩

/-- The broker pushes both messages of a backlog to a receive that waits for one. -/
def backlogPushed : List Event :=
  [.send 0 ⟨"tasks"⟩ { payload := "first" } {} none, .send 0 ⟨"tasks"⟩ { payload := "second" } {} none,
    .receive 0 1 ⟨"tasks"⟩ { ack_mode := .Auto }, .consume 0, .push 0, .push 0, .wait 0, .poll 0, .cancel 0 false]

theorem backlogPushed_loses_second : ∃ t, run step Rabbit.new backlogPushed = some t ∧
    (∀ e ∈ backlogPushed, e.automatic = true) ∧
    ∃ delivery ∈ t.accepted, delivery.message.body = "second" ∧ ∀ spot, ¬ t.At delivery spot := by
  have events : ∀ e ∈ backlogPushed, e.automatic = true := by decide
  have enabled : (run step Rabbit.new backlogPushed).isSome = true := by decide
  have ran := Option.eq_some_of_isSome enabled
  refine ⟨_, ran, events, ⟨1, "tasks", { body := "second" }⟩, ?_, rfl, ?_⟩
  · have accepted : ((run step Rabbit.new backlogPushed).map Rabbit.accepted) =
        some [⟨0, "tasks", { body := "first" }⟩, ⟨1, "tasks", { body := "second" }⟩] := by decide
    rw [ran, Option.map_some, Option.some.injEq] at accepted
    simp [accepted]
  intro spot here
  have held := at_holds (run_automatic events ran) here
  have known := (Custody.Census.somewhere (run_census ran).2 _).mp ⟨_, held⟩
  exact known.2 (by decide)

end Mqss.RabbitMq
