import Mqss.RabbitMqOrder

/-!
One receiver at a time. A process that receives in a loop, in automatic mode, has one
call in progress on its queue. If nobody else receives there, it gets the messages in the
order in which they were accepted and none of them twice; it may miss some, those that
the broker pushed to a call besides the one it returned.
-/

namespace Mqss.RabbitMq
open Mqss.Machine Mqss.Redelivery

/-- What a call in progress on a queue was handed. -/
def Call.lane (name : String) (call : Call) : Option (List Delivery) :=
  if call.src.name = name ∧ call.phase.finished = false then some call.handed else none

def Rabbit.lane (name : String) (s : Rabbit) (c : CallId) : Option (List Delivery) :=
  (s.calls c).bind (Call.lane name)

/-- The delivery that a step makes a receive return. -/
def returns (s : Rabbit) : Event → List Delivery
  | .fetch c =>
    match s.calls c with
    | none => []
    | some call => (s.ready call.src.name).head?.toList
  | .cancel c _ =>
    match s.calls c with
    | none => []
    | some call => call.phase.inHand
  | _ => []

theorem lane_set (name : String) (s : Rabbit) (c : CallId) (call : Call) :
    (s.set c call).lane name = Function.update (s.lane name) c (call.lane name) := by
  funext other
  by_cases same : other = c
  · subst same
    simp [Rabbit.lane]
  · simp [Rabbit.lane, same]

theorem lane_found {name : String} {s : Rabbit} {c : CallId} {call : Call} (found : s.calls c = some call) :
    s.lane name c = call.lane name := by
  simp [Rabbit.lane, found]

theorem lane_finished {name : String} {call : Call} (finished : call.phase.finished = true) : call.lane name = none := by
  simp [Call.lane, finished]

theorem lane_running {name : String} {call : Call} (here : call.src.name = name) (running : call.phase.finished = false) :
    call.lane name = some call.handed := by
  simp [Call.lane, here, running]

theorem lane_elsewhere {name : String} {call : Call} (elsewhere : call.src.name ≠ name) : call.lane name = none := by
  simp [Call.lane, elsewhere]

/-- A call that ends leaves its queue. -/
theorem lane_finish {name : String} {s : Rabbit} {c : CallId} {call : Call} {result : Except Status Delivery}
    (leaves : call.Leaves result) : (s.finish c call result).lane name = Function.update (s.lane name) c none := by
  obtain ⟨now, back, _, phase, _, _, _, finished, _⟩ := finish_spec leaves s c
  have past : now.lane name = none := lane_finished (by rw [phase]; rfl)
  rw [finished, lane_set, past]
  rfl

/-- What a step does to the calls in progress on a queue. -/
inductive LaneChange (s : Rabbit) (name : String) (e : Event) (t : Rabbit) : Prop
  | kept (lane : t.lane name = s.lane name) (accepted : onQueue name t.accepted = onQueue name s.accepted)
      (ready : t.ready name = s.ready name) (nothing : onQueue name (returns s e) = [])
  | put (delivery : Delivery) (lane : t.lane name = s.lane name)
      (accepted : onQueue name t.accepted = onQueue name s.accepted ++ [delivery])
      (ready : t.ready name = s.ready name ++ [delivery]) (nothing : onQueue name (returns s e) = [])
  | opened (c : CallId) (transport : TransportId) (src : Address) (args : ReceiveArgs)
      (receives : e = .receive c transport src args) (here : src.name = name)
      (lane : t.lane name = Function.update (s.lane name) c (some []))
      (accepted : onQueue name t.accepted = onQueue name s.accepted) (ready : t.ready name = s.ready name)
      (nothing : onQueue name (returns s e) = [])
  | handed (c : CallId) (got : List Delivery) (delivery : Delivery) (running : s.lane name c = some got)
      (lane : t.lane name = Function.update (s.lane name) c (some (got ++ [delivery])))
      (accepted : onQueue name t.accepted = onQueue name s.accepted) (ready : s.ready name = delivery :: t.ready name)
      (nothing : onQueue name (returns s e) = [])
  | ended (c : CallId) (got : List Delivery) (running : s.lane name c = some got)
      (lane : t.lane name = Function.update (s.lane name) c none)
      (accepted : onQueue name t.accepted = onQueue name s.accepted) (ready : t.ready name = s.ready name)
      (returned : (onQueue name (returns s e)).Sublist got)
  | fetched (c : CallId) (delivery : Delivery) (running : s.lane name c = some [])
      (lane : t.lane name = Function.update (s.lane name) c none)
      (accepted : onQueue name t.accepted = onQueue name s.accepted) (ready : s.ready name = delivery :: t.ready name)
      (returned : onQueue name (returns s e) = [delivery])

theorem onQueue_sublist (name : String) (deliveries : List Delivery) : (onQueue name deliveries).Sublist deliveries :=
  List.filter_sublist

/-! ### Steps of calls on other queues -/

/-- What a step about a call leaves as it was: the messages accepted, the other queues, and
    the name of the call's own one. -/
structure Beside (s : Rabbit) (c : CallId) (call : Call) (t : Rabbit) : Prop where
  accepted : t.accepted = s.accepted
  ready : ∀ name, name ≠ call.src.name → t.ready name = s.ready name
  here : ∃ now, t.calls c = some now ∧ now.src = call.src

theorem beside_set {s : Rabbit} {c : CallId} {call now : Call} (same : now.src = call.src) :
    Beside s c call (s.set c now) :=
  ⟨rfl, fun _ _ => rfl, now, Function.update_self _ _ _, same⟩

theorem Beside.setReady {s t : Rabbit} {c : CallId} {call : Call} {queue : String} {deliveries : List Delivery}
    (beside : Beside (s.setReady queue deliveries) c call t) (own : queue = call.src.name) : Beside s c call t := by
  refine ⟨beside.accepted, fun name apart => ?_, beside.here⟩
  rw [beside.ready name apart]
  exact Function.update_of_ne (own ▸ apart) _ _

theorem beside_finish {s : Rabbit} {c : CallId} {call now : Call} {result : Except Status Delivery}
    (same : now.src = call.src) : Beside s c call (s.finish c now result) := by
  unfold Rabbit.finish
  split
  · exact beside_set same
  · exact .setReady (beside_set same) (by rw [same])

theorem step_beside {s t : Rabbit} {e : Event} (ok : s.Ok) (stepped : step s e = some t) {c : CallId} {call : Call}
    (about : e.call = some c) (found : s.calls c = some call) : Beside s c call t := by
  have own : ∀ {d : CallId} {other : Call}, some d = some c → s.calls d = some other → d = c ∧ other = call := by
    intro d other same known
    obtain rfl := Option.some.inj same
    exact ⟨rfl, Option.some.inj (known.symm.trans found)⟩
  cases step_change stepped with
  | refused | published | stopped => cases about
  | rejected status new | opened new =>
    obtain rfl := Option.some.inj about
    rw [new] at found
    cases found
  | fetchedNone known | cancelled known | failed known =>
    obtain ⟨rfl, rfl⟩ := own about known
    exact beside_finish rfl
  | fetched known =>
    obtain ⟨rfl, rfl⟩ := own about known
    exact .setReady (beside_finish rfl) rfl
  | pushed known =>
    obtain ⟨rfl, rfl⟩ := own about known
    exact .setReady (beside_set rfl) rfl
  | consumed known | waited known | gaveUp _ known | copied known | dropped known | acked known
  | rejectedForGood known =>
    obtain ⟨rfl, rfl⟩ := own about known
    exact beside_set rfl
  | polled known =>
    obtain ⟨rfl, rfl⟩ := own about known
    exact beside_set (by unfold Call.poll; split <;> rfl)
  | droppedLast known =>
    obtain ⟨rfl, rfl⟩ := own about known
    exact .setReady (beside_set rfl) rfl
  | unacked known | unrejected known =>
    obtain ⟨rfl, rfl⟩ := own about known
    exact ⟨rfl, fun _ _ => rfl, _, found, rfl⟩
  | @rejectedBack d other delivery known shared phase unsettled =>
    obtain ⟨rfl, rfl⟩ := own about known
    have callOk := ok.calls _ _ known
    have route : delivery.queue = other.src.name :=
      callOk.routed delivery (callOk.handedOver delivery (.inr (.inr (by simp [phase, Phase.inHand]))))
    refine ⟨rfl, fun name apart => ?_, _, Function.update_self _ _ _, rfl⟩
    exact Function.update_of_ne (by rw [route]; exact apart) _ _

theorem returns_routed {s : Rabbit} {e : Event} (ok : s.Ok) {c : CallId} {call : Call} (about : e.call = some c)
    (found : s.calls c = some call) : ∀ d ∈ returns s e, d.queue = call.src.name := by
  intro d member
  cases e with
  | fetch d' =>
    obtain rfl := Option.some.inj about
    simp only [returns, found, Option.mem_toList] at member
    exact ok.routed _ d (List.mem_of_mem_head? member)
  | cancel d' thrown =>
    obtain rfl := Option.some.inj about
    simp only [returns, found] at member
    have callOk := ok.calls _ _ found
    exact callOk.routed d (callOk.handedOver d (.inr (.inr member)))
  | _ => cases member

/-- A step about a call on another queue. -/
theorem step_elsewhere {s t : Rabbit} {e : Event} (ok : s.Ok) (stepped : step s e = some t) {c : CallId} {call : Call}
    (about : e.call = some c) (found : s.calls c = some call) {name : String} (elsewhere : call.src.name ≠ name) :
    LaneChange s name e t := by
  obtain ⟨accepted, ready, now, there, same⟩ := step_beside ok stepped about found
  refine .kept ?_ (by rw [accepted]) (ready name elsewhere.symm) ?_
  · funext other
    by_cases own : other = c
    · subst own
      rw [lane_found there, lane_found found, lane_elsewhere elsewhere, lane_elsewhere (by rw [same]; exact elsewhere)]
    · have frame := step_frame stepped (fun called => own (Option.some.inj (called.symm.trans about)))
      rw [Rabbit.lane, Rabbit.lane, frame]
  · rw [onQueue, List.filter_eq_nil_iff]
    intro d member
    simp [returns_routed ok about found d member, elsewhere]

/-! ### Steps of calls on the queue -/

/-- A call goes on without being handed anything. -/
theorem lane_goes_on {s : Rabbit} {c : CallId} {call now : Call} {name : String} {e : Event} {t : Rabbit}
    (found : s.calls c = some call) (same : now.lane name = call.lane name) (after : t = s.set c now)
    (nothing : returns s e = []) : LaneChange s name e t := by
  subst after
  refine .kept ?_ rfl rfl (by rw [nothing]; rfl)
  rw [lane_set, same, ← lane_found found, Function.update_eq_self]

/-- A call in automatic mode ends, with one of the deliveries it was handed or with none. -/
theorem lane_ends {s : Rabbit} {c : CallId} {call now : Call} {name : String} {e : Event}
    {result : Except Status Delivery} (found : s.calls c = some call) (here : call.src.name = name)
    (automatic : call.args.ack_mode = .Auto) (same : now.args = call.args) (leaves : now.Leaves result)
    (running : call.phase.finished = false) (returned : (returns s e).Sublist call.handed) :
    LaneChange s name e (s.finish c now result) := by
  have mode : now.args.ack_mode = .Auto := by rw [same, automatic]
  have state := finish_auto mode (leaves.auto mode) s c result
  refine .ended c call.handed ?_ (lane_finish leaves) (by rw [state]; rfl) (by rw [state]; rfl) ?_
  · rw [lane_found found, lane_running here running]
  · exact (onQueue_sublist name _).trans returned

/-- A finished call in automatic mode is pushed nothing. -/
theorem pushable_running {call : Call} (ok : call.Ok) (automatic : call.args.ack_mode = .Auto)
    (pushable : call.pushable = true) : call.phase.finished = false := by
  have fits := ok.fits
  have unshared := (ok.auto automatic).2
  cases phase : call.phase with
  | returned result =>
    rw [phase] at fits
    have closed : call.channel = {} := by
      cases result with
      | error status => exact fits.1
      | ok delivery => exact fits.1 unshared
    simp [Call.pushable, closed] at pushable
  | _ => rfl

/-- The calls on a queue use automatic mode. -/
def Rabbit.AutomaticOn (name : String) (s : Rabbit) : Prop :=
  ∀ c call, s.calls c = some call → call.src.name = name → call.args.ack_mode = .Auto

/-- The events of runs whose receives on a queue use automatic mode. -/
def Event.receivesAutoOn (name : String) : Event → Bool
  | .receive _ _ src args => decide (src.name = name → args.ack_mode = .Auto)
  | _ => true

/-- Only a new receive is about a call that does not exist yet. -/
theorem receives_of_unknown {s t : Rabbit} {e : Event} {c : CallId} (about : e.call = some c)
    (unknown : s.calls c = none) (stepped : step s e = some t) :
    ∃ transport src args, e = .receive c transport src args := by
  cases e with
  | send | shutdown => cases about
  | receive d transport src args =>
    obtain rfl := Option.some.inj about
    exact ⟨transport, src, args, rfl⟩
  | _ =>
    obtain rfl := Option.some.inj about
    simp [step, unknown] at stepped

theorem step_automaticOn {s t : Rabbit} {e : Event} {name : String} (ok : s.Ok) (automatic : s.AutomaticOn name)
    (allowed : e.receivesAutoOn name = true) (stepped : step s e = some t) : t.AutomaticOn name := by
  intro c call found here
  by_cases about : e.call = some c
  · cases before : s.calls c with
    | some old =>
      obtain ⟨_, _, now, there, same⟩ := step_beside ok stepped about before
      obtain rfl := Option.some.inj (there.symm.trans found)
      rcases step_args stepped found with ⟨known, was, args⟩ | ⟨transport, src, rfl⟩
      · obtain rfl := Option.some.inj (before.symm.trans was)
        rw [args]
        exact automatic c old before (by rw [← same]; exact here)
      · simp [step, before] at stepped
    | none =>
      obtain ⟨transport, src, args, rfl⟩ := receives_of_unknown about before stepped
      cases step_change stepped with
      | rejected status new =>
        rw [finish_error] at found
        rcases calls_set found with ⟨_, rfl⟩ | old
        · exact of_decide_eq_true allowed here
        · cases new.symm.trans old
      | opened new =>
        rcases calls_set found with ⟨_, rfl⟩ | old
        · exact of_decide_eq_true allowed here
        · cases new.symm.trans old
  · exact automatic c call ((step_frame stepped about).symm.trans found) here

theorem step_lane {s t : Rabbit} {e : Event} {name : String} (ok : s.Ok) (automatic : s.AutomaticOn name)
    (stepped : step s e = some t) : LaneChange s name e t := by
  by_cases elsewhere : ∃ c call, e.call = some c ∧ s.calls c = some call ∧ call.src.name ≠ name
  · obtain ⟨c, call, about, found, apart⟩ := elsewhere
    exact step_elsewhere ok stepped about found apart
  have onIt : ∀ {c call}, e.call = some c → s.calls c = some call → call.src.name = name := by
    intro c call about found
    by_contra apart
    exact elsewhere ⟨c, call, about, found, apart⟩
  have unshared : ∀ {c call}, e.call = some c → s.calls c = some call → call.copies = 0 := fun {c call} about found =>
    ((ok.calls c call found).auto (automatic c call found (onIt about found))).2
  cases step_change stepped with
  | refused | stopped | unacked | unrejected => exact .kept rfl rfl rfl rfl
  | @published transport dest envelope args named running =>
    by_cases same : dest.name = name
    · subst same
      refine .put _ rfl ?_ (by simp [Rabbit.publish]; rfl) rfl
      exact (onQueue_append _ _ _).trans (congrArg _ (onQueue_self rfl))
    · refine .kept rfl ?_ (by simp [Rabbit.publish, Ne.symm same]) rfl
      exact (onQueue_append _ _ _).trans (by rw [onQueue_other same, List.append_nil])
  | @rejected c transport src args status new =>
    have before : s.lane name c = none := by simp [Rabbit.lane, new]
    have past : ∀ call : Call, (call.closed (.error status)).lane name = none := fun _ => lane_finished rfl
    rw [finish_error]
    refine .kept ?_ rfl (by simp) rfl
    rw [lane_set, past, ← before]
    exact Function.update_eq_self _ _
  | @opened c transport src args new =>
    have before : s.lane name c = none := by simp [Rabbit.lane, new]
    by_cases here : src.name = name
    · refine .opened c transport src args rfl here ?_ rfl rfl rfl
      rw [lane_set, lane_running here rfl]
    · refine .kept ?_ rfl rfl rfl
      rw [lane_set, lane_elsewhere here, ← before, Function.update_eq_self]
  | @fetchedNone c call found phase queue =>
    have callOk := ok.calls c call found
    have fits := callOk.fits
    rw [phase] at fits
    have here := onIt rfl found
    have nothing : returns s (.fetch c) = [] := by simp [returns, found, queue]
    exact lane_ends found here (automatic c call found here) rfl (leaves_error callOk fits.2.2.2 _) (by rw [phase]; rfl)
      (by rw [nothing]; exact List.nil_sublist _)
  | @fetched c call delivery rest found phase queue =>
    have callOk := ok.calls c call found
    have fits := callOk.fits
    rw [phase] at fits
    have here := onIt rfl found
    have route := (ok.front queue).1
    have leaves := fetched_leaves callOk phase route
    have front : returns s (.fetch c) = [delivery] := by simp [returns, found, queue]
    have mode : (call.hand delivery).args.ack_mode = .Auto := automatic c call found here
    have state := finish_auto mode (leaves.auto mode) (s.setReady call.src.name rest) c (.ok delivery)
    refine .fetched c delivery ?_ (lane_finish leaves) (by rw [state]; rfl) ?_ ?_
    · rw [lane_found found, lane_running here (by rw [phase]; rfl), fits.2.1]
    · rw [state, ← here, queue]
      simp
    · rw [front, onQueue_self (route.trans here)]
  | consumed found phase | waited found phase | gaveUp _ found phase =>
    exact lane_goes_on found (by simp [Call.lane, phase, Phase.finished]) rfl rfl
  | @polled c call found phase =>
    refine lane_goes_on found ?_ rfl rfl
    unfold Call.poll
    split <;> simp [Call.lane, phase, Phase.finished]
  | @pushed c call delivery rest found pushable queue =>
    have here := onIt rfl found
    have running := pushable_running (ok.calls c call found) (automatic c call found here) pushable
    refine .handed c call.handed delivery ?_ ?_ rfl ?_ rfl
    · rw [lane_found found, lane_running here running]
    · have after : ((call.hand delivery).buffer delivery).lane name = some (call.handed ++ [delivery]) :=
        lane_running here running
      rw [lane_set, after]
      rfl
    · rw [← here, queue]
      simp
  | @cancelled c call result thrown found phase =>
    have callOk := ok.calls c call found
    have here := onIt rfl found
    have returned : (returns s (.cancel c thrown)).Sublist call.handed := by
      rw [callOk.order (by rw [phase]; rfl)]
      simp only [returns, found]
      exact List.sublist_append_left _ _
    exact lane_ends found here (automatic c call found here) rfl (cancelled_leaves callOk phase thrown)
      (by rw [phase]; rfl) returned
  | @failed c call what found phase =>
    have callOk := ok.calls c call found
    have here := onIt rfl found
    have running : call.phase.finished = false := by rcases phase with phase | phase <;> rw [phase] <;> rfl
    exact lane_ends found here (automatic c call found here) rfl (leaves_error callOk (running_fresh callOk phase) _)
      running (List.nil_sublist _)
  | copied found shared | acked found shared | rejectedBack found shared | rejectedForGood found shared =>
    exact absurd (unshared rfl found) shared
  | droppedLast found last | dropped found last =>
    have none := unshared rfl found
    omega

/-! ### The receiver's messages -/

/-- At most one call is in progress on a queue; `active` is what it was handed. -/
def Sole (lane : CallId → Option (List Delivery)) (active : List Delivery) : Prop :=
  (∃ c, lane c = some active ∧ ∀ other, other ≠ c → lane other = none) ∨ active = [] ∧ ∀ c, lane c = none

/-- No call on the queue is made while another one is in progress. -/
def OneAtATime (name : String) (s : Rabbit) (e : Event) : Prop :=
  ∀ c transport src args, e = .receive c transport src args → src.name = name → ∀ other, s.lane name other = none

/-- The call in progress is the only one there is. -/
theorem Sole.running {lane : CallId → Option (List Delivery)} {active got : List Delivery} (sole : Sole lane active)
    {c : CallId} (running : lane c = some got) : active = got ∧ ∀ other, other ≠ c → lane other = none := by
  rcases sole with ⟨only, here, others⟩ | ⟨_, idle⟩
  · by_cases same : c = only
    · subst same
      exact ⟨Option.some.inj (here.symm.trans running), others⟩
    · rw [others c same] at running
      cases running
  · rw [idle c] at running
    cases running

theorem sole_update {lane : CallId → Option (List Delivery)} {c : CallId} (others : ∀ other, other ≠ c → lane other = none)
    (got : List Delivery) : Sole (Function.update lane c (some got)) got := by
  refine .inl ⟨c, Function.update_self _ _ _, fun other apart => ?_⟩
  rw [Function.update_of_ne apart, others other apart]

theorem sole_idle {lane : CallId → Option (List Delivery)} {c : CallId} (others : ∀ other, other ≠ c → lane other = none) :
    Sole (Function.update lane c none) [] := by
  refine .inr ⟨rfl, fun other => ?_⟩
  by_cases same : other = c
  · subst same
    exact Function.update_self _ _ _
  · rw [Function.update_of_ne same, others other same]

/-- The accepted messages of the queue are those of the calls that have returned, those of
    the call in progress and those in the queue; the receiver got some of the first, in order. -/
structure Rabbit.Sequential (name : String) (s : Rabbit) (got : List Delivery) : Prop where
  ok : s.Ok
  automatic : s.AutomaticOn name
  distinct : s.accepted.Nodup
  split : ∃ past active, Sole (s.lane name) active ∧ onQueue name s.accepted = past ++ active ++ s.ready name ∧
    (onQueue name got).Sublist past

theorem step_sequential {name : String} {s t : Rabbit} {e : Event} {got : List Delivery}
    (sequential : s.Sequential name got) (allowed : e.receivesAutoOn name = true ∧ OneAtATime name s e)
    (stepped : step s e = some t) : t.Sequential name (got ++ returns s e) := by
  obtain ⟨ok, automatic, distinct, past, active, sole, split, inOrder⟩ := sequential
  refine ⟨step_ok ok stepped, step_automaticOn ok automatic allowed.1 stepped, step_distinct ok distinct stepped, ?_⟩
  rw [onQueue_append]
  cases step_lane ok automatic stepped with
  | kept lane accepted ready nothing =>
    rw [lane, accepted, ready, nothing, List.append_nil]
    exact ⟨past, active, sole, split, inOrder⟩
  | put delivery lane accepted ready nothing =>
    rw [lane, accepted, ready, nothing, List.append_nil, split]
    exact ⟨past, active, sole, by rw [List.append_assoc], inOrder⟩
  | opened c transport src args receives here lane accepted ready nothing =>
    have idle := allowed.2 c transport src args receives here
    have none : active = [] := by
      rcases sole with ⟨only, running, _⟩ | ⟨none, _⟩
      · rw [idle only] at running
        cases running
      · exact none
    rw [lane, accepted, ready, nothing, List.append_nil, split, none]
    exact ⟨past, [], sole_update (fun other _ => idle other) [], rfl, inOrder⟩
  | handed c before delivery running lane accepted ready nothing =>
    obtain ⟨rfl, others⟩ := sole.running running
    rw [lane, accepted, nothing, List.append_nil, split, ready]
    exact ⟨past, active ++ [delivery], sole_update others _, by simp, inOrder⟩
  | ended c before running lane accepted ready returned =>
    obtain ⟨rfl, others⟩ := sole.running running
    rw [lane, accepted, ready, split]
    exact ⟨past ++ active, [], sole_idle others, by simp, inOrder.append returned⟩
  | fetched c delivery running lane accepted ready returned =>
    obtain ⟨rfl, others⟩ := sole.running running
    rw [lane, accepted, split, ready, returned]
    exact ⟨past ++ [delivery], [], sole_idle others, by simp, inOrder.append (List.Sublist.refl _)⟩

/-- If the receives on a queue use automatic mode and are made one after the other, they get
    the messages of the queue in the order in which they were accepted, and none of them
    twice, whatever is done on other queues. -/
theorem receiver_gets_in_order {es : List Event} {t : Rabbit} {name : String}
    (events : ∀ e ∈ es, e.receivesAutoOn name = true) (sequential : Along step (OneAtATime name) Rabbit.new es)
    (ran : run step Rabbit.new es = some t) :
    (onQueue name (history step returns Rabbit.new es)).Sublist (onQueue name t.accepted) ∧
      (onQueue name (history step returns Rabbit.new es)).Nodup := by
  have automatic : Rabbit.new.AutomaticOn name := by
    intro c call found
    cases found
  have start : Rabbit.new.Sequential name [] :=
    ⟨new_ok, automatic, List.nodup_nil, [], [], .inr ⟨rfl, fun _ => rfl⟩, rfl, List.nil_sublist _⟩
  have keeps : ∀ got s e next, Rabbit.Sequential name s got → e.receivesAutoOn name = true ∧ OneAtATime name s e →
      step s e = some next → next.Sequential name (got ++ returns s e) :=
    fun _ _ _ _ before allowed stepped => step_sequential before allowed stepped
  have met := along_and.mpr ⟨along_of_events events Rabbit.new, sequential⟩
  obtain ⟨_, _, distinct, past, active, _, split, inOrder⟩ := history_invariant keeps start met ran
  have among : (onQueue name (history step returns Rabbit.new es)).Sublist (onQueue name t.accepted) := by
    rw [split, List.append_assoc]
    exact inOrder.trans (List.sublist_append_left _ _)
  exact ⟨among, (distinct.filter _).sublist among⟩

/-- What happens between two calls concerns no other call. -/
theorem run_frame {s t : Rabbit} {es : List Event} {c : CallId} (others : ∀ e ∈ es, e.call ≠ some c)
    (ran : run step s es = some t) : t.calls c = s.calls c := by
  have keeps : ∀ s' e next, Rabbit.calls s' c = s.calls c → e.call ≠ some c → step s' e = some next →
      next.calls c = s.calls c := fun _ _ _ same apart stepped => (step_frame stepped apart).trans same
  exact invariant_along keeps rfl (along_of_events others s) ran

/-- A new receive on a queue. -/
def Event.receivesOn (name : String) : Event → Bool
  | .receive _ _ src _ => src.name = name
  | _ => false

theorem along_quiet {name : String} {es : List Event} (quiet : ∀ e ∈ es, e.receivesOn name = false) (s : Rabbit) :
    Along step (OneAtATime name) s es := by
  refine along_mono (fun s e silent => ?_) (along_of_events quiet s)
  rintro c transport src args rfl here
  simp [Event.receivesOn, here] at silent

/-- A call that is made on an idle queue and goes on alone. -/
theorem along_alone {name : String} {s : Rabbit} (idle : ∀ other, s.lane name other = none) (e : Event)
    {es : List Event} (quiet : ∀ f ∈ es, f.receivesOn name = false) : Along step (OneAtATime name) s (e :: es) :=
  ⟨fun _ _ _ _ _ _ => idle, fun next _ => along_quiet quiet next⟩

def threeTasks : List Event :=
  [.send 0 ⟨"tasks"⟩ { payload := "first" } {} none, .send 0 ⟨"tasks"⟩ { payload := "second" } {} none,
    .send 0 ⟨"tasks"⟩ { payload := "third" } {} none]

/-- The broker pushes two of them to the first call, which returns one. Another process
    waits on another queue in manual mode. -/
def missesSecond : List Event :=
  [.receive 0 1 ⟨"tasks"⟩ { ack_mode := .Auto }, .receive 2 3 ⟨"results"⟩ {}, .consume 2, .consume 0, .push 0, .push 0,
    .wait 0, .poll 0, .cancel 0 false]

/-- The second call gets the third message. -/
def getsThird : List Event := [.receive 1 1 ⟨"tasks"⟩ { timeout := some 0, ack_mode := .Auto }, .fetch 1]

theorem missesSecond_in_order : ∃ t, run step Rabbit.new (threeTasks ++ missesSecond ++ getsThird) = some t ∧
    (history step returns Rabbit.new (threeTasks ++ missesSecond ++ getsThird)).map Delivery.tag = [0, 2] ∧
    (onQueue "tasks" (history step returns Rabbit.new (threeTasks ++ missesSecond ++ getsThird))).Sublist
      (onQueue "tasks" t.accepted) := by
  have enabled : (run step Rabbit.new (threeTasks ++ missesSecond ++ getsThird)).isSome = true := by decide
  have ran := Option.eq_some_of_isSome enabled
  refine ⟨_, ran, by decide, (receiver_gets_in_order (by decide) ?_ ran).1⟩
  obtain ⟨middle, first, _⟩ := run_append.mp ran
  obtain ⟨queued, sent, _⟩ := run_append.mp first
  refine (along_append first).mpr ⟨(along_append sent).mpr ⟨along_quiet (by decide) _, ?_⟩, ?_⟩
  · refine along_alone (fun other => ?_) _ (by decide)
    have none : queued.calls other = none := run_frame (by simp [threeTasks, Event.call]) sent
    simp [Rabbit.lane, none]
  · refine along_alone (fun other => ?_) _ (by decide)
    by_cases called : other = 0 ∨ other = 2
    · have idle : (run step Rabbit.new (threeTasks ++ missesSecond)).map
          (fun s => (s.lane "tasks" 0, s.lane "tasks" 2)) = some (none, none) := by decide
      rw [first, Option.map_some, Option.some.injEq, Prod.mk.injEq] at idle
      rcases called with rfl | rfl
      · exact idle.1
      · exact idle.2
    · have apart : ∀ e ∈ threeTasks ++ missesSecond, e.call ≠ some other := by
        simp only [not_or] at called
        simp [threeTasks, missesSecond, Event.call, Ne.symm called.1, Ne.symm called.2]
      have none : middle.calls other = none := run_frame apart first
      simp [Rabbit.lane, none]

end Mqss.RabbitMq
