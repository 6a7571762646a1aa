import Mqss.RabbitMqCustody
import Mqss.Redelivery

/-!
The order of deliveries. A queue is first-in first-out, but what a receive gives
back stands at its front again. Nothing is overtaken that way: whatever is polled,
pushed, rejected, failed or dropped, the messages of a queue are handed over for the
first time in the order in which the broker accepted them.
-/

namespace Mqss.RabbitMq
open Mqss.Machine Mqss.Redelivery

/-- The deliveries of one queue. -/
def onQueue (name : String) (deliveries : List Delivery) : List Delivery :=
  deliveries.filter fun delivery => delivery.queue = name

theorem mem_onQueue {name : String} {deliveries : List Delivery} {delivery : Delivery} :
    delivery ∈ onQueue name deliveries ↔ delivery ∈ deliveries ∧ delivery.queue = name := by
  simp [onQueue]

theorem onQueue_append (name : String) (before after : List Delivery) :
    onQueue name (before ++ after) = onQueue name before ++ onQueue name after :=
  List.filter_append before after

theorem onQueue_self {name : String} {delivery : Delivery} (route : delivery.queue = name) :
    onQueue name [delivery] = [delivery] := by
  simp [onQueue, route]

theorem onQueue_other {name : String} {delivery : Delivery} (elsewhere : delivery.queue ≠ name) :
    onQueue name [delivery] = [] := by
  simp [onQueue, elsewhere]

/-- What a step does to one queue, with the deliveries that it hands to a receive. -/
inductive QueueChange (s : Rabbit) (name : String) (t : Rabbit) (given : List Delivery) : Prop
  | kept (accepted : onQueue name t.accepted = onQueue name s.accepted) (nothing : onQueue name given = [])
      (ready : t.ready name = s.ready name)
  | put (delivery : Delivery) (accepted : onQueue name t.accepted = onQueue name s.accepted ++ [delivery])
      (nothing : onQueue name given = []) (ready : t.ready name = s.ready name ++ [delivery])
  | got (delivery : Delivery) (accepted : onQueue name t.accepted = onQueue name s.accepted)
      (front : onQueue name given = [delivery]) (ready : s.ready name = delivery :: t.ready name)
  | returned (c : CallId) (call : Call) (back : List Delivery) (found : s.calls c = some call)
      (manual : call.args.ack_mode = .Manual) (held : ∀ d ∈ back, d ∈ call.holding ∧ d.queue = name)
      (accepted : onQueue name t.accepted = onQueue name s.accepted) (nothing : onQueue name given = [])
      (ready : t.ready name = back ++ s.ready name)

/-- A call gives deliveries back to its queue. -/
theorem giveBack_change {s t : Rabbit} {c : CallId} {call : Call} {back : List Delivery} {queue : String}
    (found : s.calls c = some call) (manual : call.args.ack_mode = .Manual)
    (held : ∀ d ∈ back, d ∈ call.holding ∧ d.queue = queue) {name : String}
    (after : t.accepted = s.accepted ∧ t.ready = Function.update s.ready queue (back ++ s.ready queue)) :
    QueueChange s name t [] := by
  obtain ⟨accepted, ready⟩ := after
  by_cases same : name = queue
  · subst same
    exact .returned c call back found manual held (by rw [accepted]) rfl (by rw [ready, Function.update_self])
  · exact .kept (by rw [accepted]) rfl (by rw [ready, Function.update_of_ne same])

/-- The front of a queue is handed over. -/
theorem hand_change {s t : Rabbit} {queue : String} {delivery : Delivery} {rest : List Delivery}
    (front : s.ready queue = delivery :: rest) (route : delivery.queue = queue) {name : String}
    (after : t.accepted = s.accepted ∧ t.ready = Function.update s.ready queue rest) :
    QueueChange s name t [delivery] := by
  obtain ⟨accepted, ready⟩ := after
  by_cases same : name = queue
  · subst same
    exact .got delivery (by rw [accepted]) (onQueue_self route) (by rw [front, ready, Function.update_self])
  · have elsewhere : delivery.queue ≠ name := fun here => same (here.symm.trans route)
    exact .kept (by rw [accepted]) (onQueue_other elsewhere) (by rw [ready, Function.update_of_ne same])

/-- What is outstanding on the channel of a call that acknowledges is held for its queue. -/
theorem unacked_held {call : Call} (ok : call.Ok) (manual : call.args.ack_mode = .Manual) :
    ∀ d ∈ call.channel.unacked, d ∈ call.holding ∧ d.queue = call.src.name := by
  intro d member
  rw [holding_manual call manual]
  exact ⟨member, ok.routed d (ok.handedOver d (.inr (.inl member)))⟩

/-- A call that returns gives back what is outstanding on its channel, if anything. -/
theorem finish_change {s : Rabbit} {c : CallId} {call : Call} {result : Except Status Delivery}
    (found : s.calls c = some call) (ok : call.Ok)
    {now : Call} (leaves : now.Leaves result) {name : String}
    (same : now.args = call.args ∧ now.src = call.src ∧ now.channel.unacked = call.channel.unacked) : QueueChange s name (s.finish c now result) [] := by
  obtain ⟨args, src, unacked⟩ := same
  cases mode : call.args.ack_mode with
  | Auto =>
    rw [← args] at mode
    rw [finish_auto mode (leaves.auto mode)]
    exact .kept rfl rfl rfl
  | Manual =>
    cases result with
    | error status =>
      rw [finish_error, src, unacked]
      exact giveBack_change found mode (unacked_held ok mode) ⟨rfl, rfl⟩
    | ok delivery =>
      rw [← args] at mode
      rw [finish_manual mode]
      exact .kept rfl rfl rfl

theorem fetched_change {s : Rabbit} {c : CallId} {call : Call} {delivery : Delivery} {rest : List Delivery}
    (ok : call.Ok) (phase : call.phase = .connected) (front : s.ready call.src.name = delivery :: rest)
    (route : delivery.queue = call.src.name) {name : String} :
    QueueChange s name ((s.setReady call.src.name rest).finish c (call.hand delivery) (.ok delivery)) [delivery] := by
  cases mode : (call.hand delivery).args.ack_mode with
  | Auto =>
    rw [finish_auto mode ((fetched_leaves ok phase route).auto mode)]
    exact hand_change front route ⟨rfl, rfl⟩
  | Manual =>
    rw [finish_manual mode]
    exact hand_change front route ⟨rfl, rfl⟩

/-- Everything that a step can do to a queue. -/
theorem step_queue {s t : Rabbit} {e : Event} (ok : s.Ok) (stepped : step s e = some t) (name : String) :
    QueueChange s name t (handed s e) := by
  cases step_change stepped with
  | refused | stopped | unacked | unrejected | opened => exact .kept rfl rfl rfl
  | @published transport dest envelope args named running =>
    by_cases same : dest.name = name
    · subst same
      refine .put _ ?_ rfl (by simp [Rabbit.publish]; rfl)
      exact (onQueue_append _ _ _).trans (congrArg _ (onQueue_self rfl))
    · refine .kept ?_ rfl (by simp [Rabbit.publish, Ne.symm same])
      exact (onQueue_append _ _ _).trans (by rw [onQueue_other same, List.append_nil])
  | rejected status new =>
    rw [finish_error]
    refine .kept rfl rfl ?_
    simp
  | @fetchedNone c call found phase queue =>
    have callOk := ok.calls c call found
    have fits := callOk.fits
    rw [phase] at fits
    have nothing : handed s (.fetch c) = [] := by simp [handed, found, queue]
    rw [nothing]
    exact finish_change found callOk (leaves_error callOk fits.2.2.2 _) ⟨rfl, rfl, rfl⟩
  | @fetched c call delivery rest found phase queue =>
    have front : handed s (.fetch c) = [delivery] := by simp [handed, found, queue]
    rw [front]
    exact fetched_change (ok.calls c call found) phase queue (ok.front queue).1
  | consumed | waited | polled | gaveUp | copied | dropped | acked | rejectedForGood => exact .kept rfl rfl rfl
  | @pushed c call delivery rest found pushable queue =>
    have front : handed s (.push c) = [delivery] := by simp [handed, found, queue]
    rw [front]
    exact hand_change queue (ok.front queue).1 ⟨rfl, rfl⟩
  | @cancelled c call result thrown found phase =>
    have callOk := ok.calls c call found
    exact finish_change found callOk (cancelled_leaves callOk phase thrown) ⟨rfl, rfl, rfl⟩
  | @failed c call what found phase =>
    have callOk := ok.calls c call found
    exact finish_change found callOk (leaves_error callOk (running_fresh callOk phase) _) ⟨rfl, rfl, rfl⟩
  | @droppedLast c call found last =>
    have callOk := ok.calls c call found
    have manual := (shared_message callOk (by omega)).1
    exact giveBack_change found manual (unacked_held callOk manual) ⟨rfl, rfl⟩
  | @rejectedBack c call delivery found shared phase unsettled =>
    have callOk := ok.calls c call found
    have manual := (shared_message callOk shared).1
    have held : ∀ d ∈ [delivery], d ∈ call.holding ∧ d.queue = delivery.queue := by
      intro d member
      rw [(settled_holding callOk shared phase unsettled).1]
      exact ⟨member, by rw [List.mem_singleton.mp member]⟩
    exact giveBack_change found manual held ⟨rfl, rfl⟩

/-- Messages are accepted once. -/
theorem step_distinct {s t : Rabbit} {e : Event} (ok : s.Ok) (distinct : s.accepted.Nodup)
    (stepped : step s e = some t) : t.accepted.Nodup := by
  cases step_change stepped with
  | published named running =>
    apply List.nodup_append.mpr
    refine ⟨distinct, List.nodup_singleton _, ?_⟩
    rintro d member _ new rfl
    obtain rfl := List.mem_singleton.mp new
    exact absurd (ok.tags _ member) (lt_irrefl _)
  | rejected | fetchedNone | fetched | cancelled | failed => rwa [finish_accepted]
  | _ => exact distinct

/-- What is known of a run so far: the broker and its calls are consistent, every message
    is in one place, and the deliveries of every queue were handed over in order. -/
structure Rabbit.Ordered (s : Rabbit) (seen : List Delivery) : Prop where
  ok : s.Ok
  census : ∃ lost, s.Census lost
  distinct : s.accepted.Nodup
  order : ∀ name, ∃ back, InOrder (onQueue name s.accepted) (onQueue name seen) back (s.ready name)

/-- What a call holds was handed over. -/
theorem held_handed {s : Rabbit} {seen : List Delivery} (ordered : s.Ordered seen) {c : CallId} {call : Call}
    (found : s.calls c = some call) {delivery : Delivery} (held : delivery ∈ call.holding) :
    delivery ∈ onQueue delivery.queue seen := by
  obtain ⟨lost, census⟩ := ordered.census
  obtain ⟨back, order⟩ := ordered.order delivery.queue
  have here : delivery ∈ s.holds (.call c) := by rwa [holds_call found]
  have accepted := ((Custody.Census.somewhere census delivery).mp ⟨_, here⟩).1
  rcases order.got_or_boxed (mem_onQueue.mpr ⟨accepted, rfl⟩) with got | queued
  · exact got
  · -- A message is not with a call and in its queue at once.
    have there : delivery ∈ s.holds (.queue delivery.queue) := queued
    cases Custody.Census.unique census here there

theorem step_ordered {s t : Rabbit} {e : Event} {seen : List Delivery} (ordered : s.Ordered seen)
    (stepped : step s e = some t) : t.Ordered (seen ++ handed s e) := by
  obtain ⟨lost, census⟩ := ordered.census
  refine ⟨step_ok ordered.ok stepped, ⟨_, step_census ordered.ok census stepped⟩,
    step_distinct ordered.ok ordered.distinct stepped, fun name => ?_⟩
  obtain ⟨back, order⟩ := ordered.order name
  rw [onQueue_append]
  cases step_queue ordered.ok stepped name with
  | kept accepted nothing ready =>
    rw [accepted, nothing, ready, List.append_nil]
    exact ⟨back, order⟩
  | put delivery accepted nothing ready =>
    rw [accepted, nothing, ready, List.append_nil]
    exact ⟨back, put_inOrder order delivery⟩
  | got delivery accepted front ready =>
    rw [ready] at order
    rw [accepted, front]
    exact get_inOrder order (ordered.distinct.filter _)
  | returned c call more found manual held accepted nothing ready =>
    rw [accepted, nothing, ready, List.append_nil]
    refine ⟨more ++ back, giveBack_inOrder order fun d member => ?_⟩
    obtain ⟨holds, rfl⟩ := held d member
    exact held_handed ordered found holds

theorem new_ordered : Rabbit.new.Ordered [] :=
  ⟨new_ok, ⟨_, (@run_census Rabbit.new [] rfl).2⟩, List.nodup_nil, fun _ => ⟨[], new_inOrder⟩⟩

/-- Whatever receives do with what they are handed, the deliveries of a queue are handed
    over for the first time in the order in which they were accepted, and those that
    were given back wait in front of those that were never handed over. -/
theorem deliveries_in_order {es : List Event} {t : Rabbit} (ran : run step Rabbit.new es = some t) (name : String) :
    let accepted := onQueue name t.accepted
    let got := onQueue name (history step handed Rabbit.new es)
    got.eraseDups <+: accepted ∧
      ∃ back, (∀ delivery ∈ back, delivery ∈ got) ∧ t.ready name = back ++ accepted.drop got.eraseDups.length := by
  have keeps : ∀ seen s e next, Rabbit.Ordered s seen → True → step s e = some next →
      next.Ordered (seen ++ handed s e) := fun _ _ _ _ ordered _ stepped => step_ordered ordered stepped
  have ordered := history_invariant keeps new_ordered (along_of_forall (fun _ _ => trivial) _ _) ran
  obtain ⟨back, order⟩ := ordered.order name
  exact ⟨order.first, back, order.again, order.contents⟩

/-- The first of two messages is rejected back to its queue after the second was handed
    over, and is polled again. -/
def polledAgain : List Event :=
  [.send 0 ⟨"tasks"⟩ { payload := "first" } {} none, .send 0 ⟨"tasks"⟩ { payload := "second" } {} none,
    .receive 0 1 ⟨"tasks"⟩ { timeout := some 0 }, .fetch 0, .receive 1 1 ⟨"tasks"⟩ { timeout := some 0 }, .fetch 1,
    .nack 0 true none, .receive 2 1 ⟨"tasks"⟩ { timeout := some 0 }, .fetch 2]

theorem polledAgain_in_order : ∃ t, run step Rabbit.new polledAgain = some t ∧
    (history step handed Rabbit.new polledAgain).map Delivery.tag = [0, 1, 0] ∧
    (onQueue "tasks" (history step handed Rabbit.new polledAgain)).eraseDups <+: onQueue "tasks" t.accepted := by
  have enabled : (run step Rabbit.new polledAgain).isSome = true := by decide
  have ran := Option.eq_some_of_isSome enabled
  exact ⟨_, ran, by decide, (deliveries_in_order ran "tasks").1⟩

/-! ### Automatic mode -/

/-- So far every message of a queue was handed over in order, or it is still there. -/
structure Rabbit.Straight (s : Rabbit) (seen : List Delivery) : Prop where
  ok : s.Ok
  automatic : ∀ c call, s.calls c = some call → call.args.ack_mode = .Auto
  distinct : s.accepted.Nodup
  balance : ∀ name, onQueue name s.accepted = onQueue name seen ++ s.ready name

/-- The events of runs whose receives use automatic mode. -/
def Event.receivesAuto : Event → Bool
  | .receive _ _ _ args => args.ack_mode = .Auto
  | _ => true

theorem step_straight {s t : Rabbit} {e : Event} {seen : List Delivery} (straight : s.Straight seen)
    (allowed : e.receivesAuto = true) (stepped : step s e = some t) : t.Straight (seen ++ handed s e) := by
  have auto : ∀ c call, t.calls c = some call → call.args.ack_mode = .Auto := by
    refine @step_arguments (fun args => args.ack_mode = .Auto) _ _ e straight.automatic ?_ stepped
    rintro c transport src args rfl
    simpa [Event.receivesAuto] using allowed
  refine ⟨step_ok straight.ok stepped, auto, step_distinct straight.ok straight.distinct stepped, fun name => ?_⟩
  have balance := straight.balance name
  rw [onQueue_append]
  cases step_queue straight.ok stepped name with
  | kept accepted nothing ready => rw [accepted, nothing, ready, List.append_nil, balance]
  | put delivery accepted nothing ready => rw [accepted, nothing, ready, List.append_nil, balance, List.append_assoc]
  | got delivery accepted front ready => rw [accepted, front, balance, ready, List.append_assoc, List.singleton_append]
  | returned c call more found manual held accepted nothing ready =>
    rw [straight.automatic c call found] at manual
    cases manual

/-- Where every receive uses automatic mode, the messages of a queue are handed over at
    most once each and in the order in which they were accepted, and the queue holds the others. -/
theorem automatic_deliveries_once {es : List Event} {t : Rabbit} (events : ∀ e ∈ es, e.receivesAuto = true)
    (ran : run step Rabbit.new es = some t) (name : String) :
    (onQueue name (history step handed Rabbit.new es)).Nodup ∧
      onQueue name t.accepted = onQueue name (history step handed Rabbit.new es) ++ t.ready name := by
  have start : Rabbit.new.Straight [] := ⟨new_ok, nofun, List.nodup_nil, fun _ => rfl⟩
  have keeps : ∀ seen s e next, Rabbit.Straight s seen → e.receivesAuto = true → step s e = some next →
      next.Straight (seen ++ handed s e) := fun _ _ _ _ straight allowed stepped => step_straight straight allowed stepped
  have straight := history_invariant keeps start (along_of_events events _) ran
  have balance := straight.balance name
  have distinct : (onQueue name t.accepted).Nodup := straight.distinct.filter _
  rw [balance] at distinct
  exact ⟨(List.nodup_append.mp distinct).1, balance⟩

/-- A poll takes the first message and leaves the second. -/
def polledFirst : List Event :=
  [.send 0 ⟨"tasks"⟩ { payload := "first" } {} none, .send 0 ⟨"tasks"⟩ { payload := "second" } {} none,
    .receive 0 1 ⟨"tasks"⟩ { timeout := some 0, ack_mode := .Auto }, .fetch 0]

theorem polledFirst_once : ∃ t, run step Rabbit.new polledFirst = some t ∧
    onQueue "tasks" t.accepted = ⟨0, "tasks", { body := "first" }⟩ :: t.ready "tasks" := by
  have enabled : (run step Rabbit.new polledFirst).isSome = true := by decide
  have ran := Option.eq_some_of_isSome enabled
  have got : onQueue "tasks" (history step handed Rabbit.new polledFirst) = [⟨0, "tasks", { body := "first" }⟩] := by
    decide
  have balance := (automatic_deliveries_once (by decide) ran "tasks").2
  rw [got] at balance
  exact ⟨_, ran, balance⟩

end Mqss.RabbitMq
