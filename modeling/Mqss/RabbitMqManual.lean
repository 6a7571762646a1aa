import Mqss.RabbitMqCustody

/-!
Receives in manual mode. A delivery is outstanding on the channel of one call until
the message is settled, or until its channel goes away and gives it back. Moving a
`Message` object passes its share of the acknowledgement state on, so only copies and
drops count.
-/

namespace Mqss.RabbitMq
open Mqss.Machine

/-- The events of runs whose messages are settled by hand. -/
def Event.manual : Event → Bool
  | .receive _ _ _ args => args.ack_mode = .Manual
  | _ => true

/-- The call whose message an event tries to settle. -/
def Event.settles : Event → Option CallId
  | .ack c _ | .nack c _ _ => some c
  | _ => none

/-- What the handler of a message tells its caller, and whether the broker was reached. -/
def Rabbit.answer (s : Rabbit) : Event → Option (Status × Bool)
  | .ack c fault => (s.calls c).map (fun call => ackStatus call.completed fault "ack")
  | .nack c _ fault => (s.calls c).map (fun call => ackStatus call.completed fault "nack")
  | _ => none

/-- The call whose message an event settles successfully. -/
def succeeds (s : Rabbit) (e : Event) : List CallId :=
  if s.answer e = some (.success, true) then e.settles.toList else []

/-- The messages that a step settles for good. -/
def settledBy (s : Rabbit) : Event → List Delivery
  | .ack c none | .nack c false none =>
    match s.calls c with
    | none => []
    | some call => if call.completed then [] else call.phase.inHand
  | _ => []

/-- Where an accepted message can be: ready in a queue, outstanding on the channel of a
    receive in progress or of a received message, or settled. -/
inductive Standing
  | ready (queue : String)
  | receiving (call : CallId)
  | received (call : CallId)
  | settled
  deriving DecidableEq

def Rabbit.Stands (s : Rabbit) (settled : List Delivery) (delivery : Delivery) : Standing → Prop
  | .ready queue => delivery ∈ s.ready queue
  | .receiving c => ∃ call, s.calls c = some call ∧ call.phase.finished = false ∧ delivery ∈ call.channel.unacked
  | .received c => ∃ call, s.calls c = some call ∧ call.copies ≠ 0 ∧ delivery ∈ call.channel.unacked
  | .settled => delivery ∈ settled

/-- A call whose message is the delivery. -/
def Rabbit.Received (s : Rabbit) (c : CallId) (delivery : Delivery) : Prop :=
  ∃ call, s.calls c = some call ∧ call.phase = .returned (.ok delivery)

/-- The ways in which a message changes hands. -/
inductive Moves (s : Rabbit) (delivery : Delivery) : Event → Standing → Standing → Prop
  | fetched {c} (front : delivery ∈ handed s (.fetch c)) :
      Moves s delivery (.fetch c) (.ready delivery.queue) (.received c)
  | pushed {c call} (found : s.calls c = some call) (running : call.phase.finished = false)
      (front : delivery ∈ handed s (.push c)) : Moves s delivery (.push c) (.ready delivery.queue) (.receiving c)
  /-- The consumer of a received message is still registered when `BasicCancel` threw. -/
  | pushedLate {c call} (found : s.calls c = some call) (ended : call.phase.finished = true)
      (front : delivery ∈ handed s (.push c)) : Moves s delivery (.push c) (.ready delivery.queue) (.received c)
  | returned {c call thrown} (found : s.calls c = some call) (took : call.phase = .leaving (.ok delivery)) :
      Moves s delivery (.cancel c thrown) (.receiving c) (.received c)
  | leftBehind {c call thrown status} (found : s.calls c = some call) (without : call.phase = .leaving (.error status)) :
      Moves s delivery (.cancel c thrown) (.receiving c) (.ready delivery.queue)
  | failed {c what} : Moves s delivery (.fail c what) (.receiving c) (.ready delivery.queue)
  | dropped {c call} (found : s.calls c = some call) (last : call.copies = 1) :
      Moves s delivery (.drop c) (.received c) (.ready delivery.queue)
  | acked {c fault} (message : s.Received c delivery) (success : s.answer (.ack c fault) = some (.success, true)) :
      Moves s delivery (.ack c fault) (.received c) .settled
  | rejected {c fault} (message : s.Received c delivery)
      (success : s.answer (.nack c false fault) = some (.success, true)) :
      Moves s delivery (.nack c false fault) (.received c) .settled
  | requeued {c fault} (message : s.Received c delivery)
      (success : s.answer (.nack c true fault) = some (.success, true)) :
      Moves s delivery (.nack c true fault) (.received c) (.ready delivery.queue)

theorem Moves.unique {s : Rabbit} {delivery : Delivery} {e : Event} {spot first second : Standing}
    (one : Moves s delivery e spot first) (other : Moves s delivery e spot second) : first = second := by
  have same : ∀ {c call known}, s.calls c = some call → s.calls c = some known → call = known :=
    fun found again => Option.some.inj (found.symm.trans again)
  cases one with
  | pushed found running =>
    cases other with
    | pushed => rfl
    | pushedLate again ended =>
      obtain rfl := same found again
      simp [running] at ended
  | pushedLate found ended =>
    cases other with
    | pushedLate => rfl
    | pushed again running =>
      obtain rfl := same found again
      simp [running] at ended
  | returned found took =>
    cases other with
    | returned => rfl
    | leftBehind again without =>
      obtain rfl := same found again
      simp [took] at without
  | leftBehind found without =>
    cases other with
    | leftBehind => rfl
    | returned again took =>
      obtain rfl := same found again
      simp [took] at without
  | _ => cases other; rfl

def Rabbit.Manual (s : Rabbit) : Prop := ∀ c call, s.calls c = some call → call.args.ack_mode = .Manual

theorem step_manual {s t : Rabbit} {e : Event} (manual : s.Manual) (allowed : e.manual = true)
    (stepped : step s e = some t) : t.Manual := by
  refine @step_arguments (fun args => args.ack_mode = .Manual) _ _ e manual ?_ stepped
  rintro c transport src args rfl
  simpa [Event.manual] using allowed

theorem run_manual {t : Rabbit} {es : List Event} (events : ∀ e ∈ es, e.manual = true)
    (ran : run step Rabbit.new es = some t) : t.Manual := by
  refine @run_arguments (fun args => args.ack_mode = .Manual) _ es ?_ ran
  intro c transport src args member
  simpa [Event.manual] using events _ member

/-- In manual mode only a settlement takes a message out of custody. -/
theorem lostBy_manual {s : Rabbit} (manual : s.Manual) (e : Event) : lostBy s e = settledBy s e := by
  have forgets : ∀ {c call}, s.calls c = some call → call.forgets = [] := by
    intro c call found
    simp [Call.forgets, manual c call found]
  cases e with
  | cancel c thrown | fail c what =>
    simp only [lostBy, settledBy]
    split
    · rfl
    · rename_i call found
      exact forgets found
  | ack c fault => cases fault <;> rfl
  | nack c requeue fault => cases requeue <;> cases fault <;> rfl
  | _ => rfl

/-! ### The places of a message -/

/-- A running receive shares no message yet. -/
theorem running_unshared {call : Call} (ok : call.Ok) (running : call.phase.finished = false) : call.copies = 0 := by
  by_contra shared
  obtain ⟨_, delivery, phase⟩ := shared_message ok shared
  simp [phase, Phase.finished] at running

/-- The channel of a receive that is over is kept open by its message alone. -/
theorem finished_shared {call : Call} (ok : call.Ok) (ended : call.phase.finished = true)
    (opened : call.channel ≠ {}) : call.copies ≠ 0 := by
  have fits := ok.fits
  rcases phase : call.phase with _ | _ | _ | _ | (status | delivery) <;> rw [phase] at fits
  case returned.error => exact absurd fits.1 opened
  case returned.ok => exact fun none => opened (fits.1 none)
  all_goals simp [phase, Phase.finished] at ended

def Call.standing (c : CallId) (call : Call) : Standing :=
  if call.phase.finished then .received c else .receiving c

theorem outstanding_stands {s : Rabbit} {c : CallId} {call : Call} {delivery : Delivery} (settled : List Delivery)
    (ok : call.Ok) (found : s.calls c = some call) (outstanding : delivery ∈ call.channel.unacked) :
    s.Stands settled delivery (call.standing c) := by
  unfold Call.standing
  split
  · rename_i ended
    refine ⟨call, found, finished_shared ok ended ?_, outstanding⟩
    intro closed
    simp [closed] at outstanding
  · rename_i running
    exact ⟨call, found, by simpa using running, outstanding⟩

/-- What stands with a call is outstanding on its channel. -/
theorem stands_outstanding {s : Rabbit} {settled : List Delivery} {delivery : Delivery} {spot : Standing} (ok : s.Ok)
    (stands : s.Stands settled delivery spot) {c : CallId} (here : spot = .receiving c ∨ spot = .received c) :
    ∃ call, s.calls c = some call ∧ delivery ∈ call.channel.unacked ∧ spot = call.standing c := by
  rcases here with rfl | rfl
  · obtain ⟨call, found, running, outstanding⟩ := stands
    exact ⟨call, found, outstanding, by simp [Call.standing, running]⟩
  · obtain ⟨call, found, shared, outstanding⟩ := stands
    have ended : call.phase.finished = true := by
      by_contra running
      exact shared (running_unshared (ok.calls c call found) (by simpa using running))
    exact ⟨call, found, outstanding, by simp [Call.standing, ended]⟩

theorem stands_place {s : Rabbit} {settled : List Delivery} {delivery : Delivery} {spot : Standing} (ok : s.Ok)
    (manual : s.Manual) (stands : s.Stands settled delivery spot) :
    delivery ∈ settled ∧ spot = .settled ∨
      (∃ name, delivery ∈ s.holds (.queue name) ∧ spot = .ready name) ∨
      ∃ c call, s.calls c = some call ∧ delivery ∈ s.holds (.call c) ∧ spot = call.standing c := by
  cases spot with
  | settled => exact .inl ⟨stands, rfl⟩
  | ready name => exact .inr (.inl ⟨name, stands, rfl⟩)
  | receiving c =>
    obtain ⟨call, found, outstanding, same⟩ := stands_outstanding ok stands (.inl rfl)
    refine .inr (.inr ⟨c, call, found, ?_, same⟩)
    rwa [holds_call found, holding_manual call (manual c call found)]
  | received c =>
    obtain ⟨call, found, outstanding, same⟩ := stands_outstanding ok stands (.inr rfl)
    refine .inr (.inr ⟨c, call, found, ?_, same⟩)
    rwa [holds_call found, holding_manual call (manual c call found)]

/-- Every accepted message stands somewhere. -/
theorem stands_somewhere {s : Rabbit} {settled : List Delivery} (ok : s.Ok) (manual : s.Manual)
    (census : s.Census settled) {delivery : Delivery} (accepted : delivery ∈ s.accepted) :
    ∃ spot, s.Stands settled delivery spot := by
  by_cases done : delivery ∈ settled
  · exact ⟨.settled, done⟩
  · obtain ⟨place, held⟩ := (Custody.Census.somewhere census delivery).mpr ⟨accepted, done⟩
    cases place with
    | queue name => exact ⟨.ready name, held⟩
    | call c =>
      cases found : s.calls c with
      | none => simp [Rabbit.holds, found] at held
      | some call =>
        rw [holds_call found, holding_manual call (manual c call found)] at held
        exact ⟨_, outstanding_stands settled (ok.calls c call found) found held⟩

/-- No message stands in two places. -/
theorem stands_unique {s : Rabbit} {settled : List Delivery} (ok : s.Ok) (manual : s.Manual)
    (census : s.Census settled) {delivery : Delivery} {spot other : Standing}
    (here : s.Stands settled delivery spot) (there : s.Stands settled delivery other) : spot = other := by
  have kept : ∀ {place}, delivery ∈ s.holds place → delivery ∉ settled := fun held =>
    ((Custody.Census.somewhere census delivery).mp ⟨_, held⟩).2
  have once : ∀ {first second}, delivery ∈ s.holds first → delivery ∈ s.holds second → first = second := fun one two =>
    Custody.Census.unique census one two
  rcases stands_place ok manual here with ⟨done, rfl⟩ | ⟨name, held, rfl⟩ | ⟨c, call, found, held, rfl⟩ <;>
    rcases stands_place ok manual there with ⟨gone, rfl⟩ | ⟨queue, put, rfl⟩ | ⟨d, known, again, put, rfl⟩
  · rfl
  · exact absurd done (kept put)
  · exact absurd done (kept put)
  · exact absurd gone (kept held)
  · rw [Place.queue.inj (once held put)]
  · cases once held put
  · exact absurd gone (kept held)
  · cases once held put
  · obtain rfl := Place.call.inj (once held put)
    rw [Option.some.inj (found.symm.trans again)]

/-! ### Where a step takes a message -/

theorem ready_given_back {s : Rabbit} {delivery : Delivery} {name : String} (ready : delivery ∈ s.ready name)
    (queue : String) (given : List Delivery) : delivery ∈ (s.setReady queue (given ++ s.ready queue)).ready name := by
  rw [setReady_ready]
  by_cases same : name = queue
  · subst same
    simp [ready]
  · simpa [same] using ready

theorem ready_at_end {s : Rabbit} {delivery : Delivery} {name : String} (ready : delivery ∈ s.ready name)
    (queue : String) (new : List Delivery) : delivery ∈ (s.setReady queue (s.ready queue ++ new)).ready name := by
  rw [setReady_ready]
  by_cases same : name = queue
  · subst same
    simp [ready]
  · simpa [same] using ready

theorem ready_finish {s : Rabbit} {delivery : Delivery} {name : String} (ready : delivery ∈ s.ready name) (c : CallId)
    (call : Call) (result : Except Status Delivery) : delivery ∈ (s.finish c call result).ready name := by
  unfold Rabbit.finish
  split
  · exact ready
  · exact ready_given_back ready _ _

theorem ready_behind {s : Rabbit} {queue : String} {front : Delivery} {rest : List Delivery}
    (order : s.ready queue = front :: rest) {delivery : Delivery} {name : String} (ready : delivery ∈ s.ready name)
    (behind : delivery ≠ front) : delivery ∈ (s.setReady queue rest).ready name := by
  rw [setReady_ready]
  by_cases same : name = queue
  · subst same
    rw [order] at ready
    simpa [behind] using ready
  · simpa [same] using ready

/-- A message that is not handed over stays ready. -/
theorem ready_stays {s t : Rabbit} {e : Event} {delivery : Delivery} {name : String}
    (ready : delivery ∈ s.ready name) (left : delivery ∉ handed s e) (stepped : step s e = some t) :
    delivery ∈ t.ready name := by
  cases step_change stepped with
  | published named running =>
    show delivery ∈ (s.setReady _ _).ready name
    exact ready_at_end ready _ _
  | rejected | fetchedNone | cancelled | failed => exact ready_finish ready _ _ _
  | @fetched c call front rest found phase queue =>
    have behind : delivery ≠ front := by simpa [handed, found, queue] using left
    exact ready_finish (ready_behind queue ready behind) _ _ _
  | @pushed c call front rest found pushable queue =>
    have behind : delivery ≠ front := by simpa [handed, found, queue] using left
    exact ready_behind queue ready behind
  | droppedLast => exact ready_given_back ready _ _
  | @rejectedBack c call front => exact ready_given_back ready front.queue [front]
  | _ => exact ready

theorem set_self (s : Rabbit) (c : CallId) (call : Call) : (s.set c call).calls c = some call := by simp

/-- A message is accepted at the end of its queue. -/
theorem accepted_ready {s t : Rabbit} {e : Event} {delivery : Delivery} (stepped : step s e = some t)
    (accepted : delivery ∈ t.accepted) (new : delivery ∉ s.accepted) : delivery ∈ t.ready delivery.queue := by
  cases step_change stepped with
  | published named running =>
    rcases List.mem_append.mp accepted with old | last
    · exact absurd old new
    · obtain rfl := List.mem_singleton.mp last
      simp [Rabbit.publish]
  | rejected | fetchedNone | cancelled | failed => exact absurd (by simpa using accepted) new
  | fetched => exact absurd (by simpa using accepted) new
  | _ => exact absurd accepted new

/-- What is outstanding on the channel of an unsettled message is that message. -/
theorem unsettled_outstanding {call : Call} (ok : call.Ok) (shared : call.copies ≠ 0) {message : Delivery}
    (phase : call.phase = .returned (.ok message)) (unsettled : call.completed = false) {delivery : Delivery}
    (outstanding : delivery ∈ call.channel.unacked) : message = delivery := by
  have fits := ok.fits
  rw [phase] at fits
  have own := (fits.2 unsettled shared).1
  rw [only_unacked ok outstanding] at own
  exact List.mem_singleton.mp own

/-- The first settlement that the broker carries out succeeds. -/
theorem answer_success {s : Rabbit} {c : CallId} {call : Call} (found : s.calls c = some call)
    (unsettled : call.completed = false) (requeue : Bool) :
    s.answer (.ack c none) = some (.success, true) ∧ s.answer (.nack c requeue none) = some (.success, true) := by
  simp [Rabbit.answer, found, unsettled, ackStatus]

theorem success_unsettled {call : Call} {fault : Option String} {name : String}
    (success : ackStatus call.completed fault name = (.success, true)) : call.completed = false ∧ fault = none :=
  (ackStatus_reached _ _ name).mp (by rw [success])

/-- What is outstanding stays with its call unless it changes hands. -/
theorem outstanding_stays {s t : Rabbit} {e : Event} {c : CallId} {call : Call} {delivery : Delivery} (ok : s.Ok)
    (manual : s.Manual) (found : s.calls c = some call) (outstanding : delivery ∈ call.channel.unacked)
    (still : ∀ spot, ¬ Moves s delivery e (call.standing c) spot) (stepped : step s e = some t) :
    ∃ now, t.calls c = some now ∧ delivery ∈ now.channel.unacked ∧ now.phase.finished = call.phase.finished := by
  by_cases about : e.call = some c
  · have callOk := ok.calls c call found
    have fits := callOk.fits
    have only := only_unacked callOk outstanding
    have mine : ∀ {d known}, some d = some c → s.calls d = some known → c = d ∧ call = known := by
      rintro d known same was
      obtain rfl := Option.some.inj same
      exact ⟨rfl, Option.some.inj (found.symm.trans was)⟩
    have receiving : call.phase.finished = false → call.standing c = .receiving c := fun running => by
      simp [Call.standing, running]
    have received : call.copies ≠ 0 → call.standing c = .received c := fun shared => by
      obtain ⟨_, message, phase⟩ := shared_message callOk shared
      simp [Call.standing, phase, Phase.finished]
    cases step_change stepped with
    | refused | published | stopped => cases about
    | unacked | unrejected => exact ⟨call, found, outstanding, rfl⟩
    | rejected status new | opened new =>
      obtain rfl := Option.some.inj about
      simp [new] at found
    | fetchedNone was phase | fetched was phase | consumed was phase =>
      obtain ⟨rfl, rfl⟩ := mine about was
      rw [phase] at fits
      simp [fits.1] at outstanding
    | pushed was pushable =>
      obtain ⟨rfl, rfl⟩ := mine about was
      simp [pushable_manual pushable (manual _ _ found)] at outstanding
    | waited was phase | gaveUp _ was phase =>
      obtain ⟨rfl, rfl⟩ := mine about was
      exact ⟨_, set_self _ _ _, outstanding, by simp [phase, Phase.finished]⟩
    | polled was phase =>
      obtain ⟨rfl, rfl⟩ := mine about was
      refine ⟨_, set_self _ _ _, ?_⟩
      unfold Call.poll
      split
      · exact ⟨outstanding, by simp [phase, Phase.finished]⟩
      · exact ⟨outstanding, by simp [phase, Phase.finished]⟩
    | @cancelled _ _ result thrown was phase =>
      obtain ⟨rfl, rfl⟩ := mine about was
      rw [receiving (by simp [phase, Phase.finished])] at still
      cases result with
      | error status => exact absurd (.leftBehind found phase) (still _)
      | ok taken =>
        rw [phase] at fits
        have here := fits.2.2 (manual _ _ found)
        rw [only, List.mem_singleton] at here
        subst here
        exact absurd (.returned found phase) (still _)
    | failed was phase =>
      obtain ⟨rfl, rfl⟩ := mine about was
      rw [receiving (by rcases phase with phase | phase <;> simp [phase, Phase.finished])] at still
      exact absurd .failed (still _)
    | copied was shared | dropped was shared =>
      obtain ⟨rfl, rfl⟩ := mine about was
      exact ⟨_, set_self _ _ _, outstanding, rfl⟩
    | droppedLast was last =>
      obtain ⟨rfl, rfl⟩ := mine about was
      rw [received (by omega)] at still
      exact absurd (.dropped found last) (still _)
    | acked was shared phase unsettled =>
      obtain ⟨rfl, rfl⟩ := mine about was
      obtain rfl := unsettled_outstanding callOk shared phase unsettled outstanding
      rw [received shared] at still
      exact absurd (.acked ⟨call, found, phase⟩ (answer_success found unsettled true).1) (still _)
    | rejectedBack was shared phase unsettled =>
      obtain ⟨rfl, rfl⟩ := mine about was
      obtain rfl := unsettled_outstanding callOk shared phase unsettled outstanding
      rw [received shared] at still
      exact absurd (.requeued ⟨call, found, phase⟩ (answer_success found unsettled true).2) (still _)
    | rejectedForGood was shared phase unsettled =>
      obtain ⟨rfl, rfl⟩ := mine about was
      obtain rfl := unsettled_outstanding callOk shared phase unsettled outstanding
      rw [received shared] at still
      exact absurd (.rejected ⟨call, found, phase⟩ (answer_success found unsettled false).2) (still _)
  · exact ⟨call, by rw [step_frame stepped about, found], outstanding, rfl⟩

/-- A message that does not change hands stays where it is. -/
theorem stands_still {s t : Rabbit} {e : Event} {settled : List Delivery} {delivery : Delivery} {spot : Standing}
    (ok : s.Ok) (manual : s.Manual) (stands : s.Stands settled delivery spot)
    (still : ∀ other, ¬ Moves s delivery e spot other) (stepped : step s e = some t) :
    t.Stands (settled ++ settledBy s e) delivery spot := by
  have outstanding : ∀ {c}, spot = .receiving c ∨ spot = .received c →
      t.Stands (settled ++ settledBy s e) delivery spot := by
    intro c here
    obtain ⟨call, found, outstanding, rfl⟩ := stands_outstanding ok stands here
    obtain ⟨now, known, kept, phase⟩ := outstanding_stays ok manual found outstanding still stepped
    have same : call.standing c = now.standing c := by simp [Call.standing, phase]
    rw [same]
    exact outstanding_stands _ ((step_ok ok stepped).calls c now known) known kept
  cases spot with
  | settled => exact List.mem_append_left _ stands
  | receiving c => exact outstanding (.inl rfl)
  | received c => exact outstanding (.inr rfl)
  | ready name =>
    refine ready_stays stands ?_ stepped
    intro front
    have routed : delivery.queue = name := ok.routed name delivery stands
    rw [← routed] at still
    cases e with
    | fetch c => exact still _ (.fetched front)
    | push c =>
      cases found : s.calls c with
      | none => simp [handed, found] at front
      | some call =>
        cases phase : call.phase.finished with
        | false => exact still _ (.pushed found phase front)
        | true => exact still _ (.pushedLate found phase front)
    | _ => cases front

/-- A push puts the front of the queue on the channel of its call. -/
theorem pushed_outstanding {s t : Rabbit} {c : CallId} {call : Call} {delivery : Delivery} (manual : s.Manual)
    (found : s.calls c = some call) (front : delivery ∈ handed s (.push c)) (stepped : step s (.push c) = some t) :
    ∃ now, t.calls c = some now ∧ delivery ∈ now.channel.unacked ∧ now.phase.finished = call.phase.finished := by
  cases step_change stepped with
  | @pushed _ known first rest was pushable queue =>
    obtain rfl : call = known := Option.some.inj (found.symm.trans was)
    obtain rfl : delivery = first := by simpa [handed, found, queue] using front
    refine ⟨_, set_self _ _ _, ?_, rfl⟩
    show delivery ∈ (call.hand delivery).channel.unacked
    simp [hand_unacked_manual (manual c call found)]

/-- A receive that returns a message keeps it outstanding. -/
theorem finished_received {call : Call} (manual : call.args.ack_mode = .Manual) {delivery : Delivery}
    (outstanding : delivery ∈ call.channel.unacked) (s : Rabbit) (c : CallId) (settled : List Delivery) :
    (s.finish c call (.ok delivery)).Stands settled delivery (.received c) := by
  rw [finish_manual manual]
  exact ⟨_, set_self _ _ _, Nat.one_ne_zero, outstanding⟩

/-- A receive that ends without a message gives back what was outstanding on its channel. -/
theorem finished_ready {s : Rabbit} {c : CallId} {call : Call} {delivery : Delivery} (ok : call.Ok)
    (outstanding : delivery ∈ call.channel.unacked) (consuming : Bool) (status : Status) :
    delivery ∈ (s.finish c { call with channel := { call.channel with consuming := consuming } }
      (.error status)).ready delivery.queue := by
  rw [finish_error, ok.routed delivery (ok.handedOver delivery (.inr (.inl outstanding)))]
  simp [outstanding]

/-- A message that changes hands stands where it goes. -/
theorem stands_moved {s t : Rabbit} {e : Event} {settled : List Delivery} {delivery : Delivery}
    {spot other : Standing} (ok : s.Ok) (manual : s.Manual) (stands : s.Stands settled delivery spot)
    (moves : Moves s delivery e spot other) (stepped : step s e = some t) :
    t.Stands (settled ++ settledBy s e) delivery other := by
  have same : ∀ {c call known}, s.calls c = some call → s.calls c = some known → call = known :=
    fun found again => Option.some.inj (found.symm.trans again)
  cases moves with
  | @fetched c front =>
    cases step_change stepped with
    | fetchedNone found phase queue => simp [handed, found, queue] at front
    | @fetched _ call first rest found phase queue =>
      obtain rfl : delivery = first := by simpa [handed, found, queue] using front
      have mode : (call.hand delivery).args.ack_mode = .Manual := manual c call found
      refine finished_received mode ?_ _ _ _
      simp [hand_unacked_manual (manual c call found)]
  | @pushed c call found running front =>
    obtain ⟨now, known, outstanding, phase⟩ := pushed_outstanding manual found front stepped
    exact ⟨now, known, phase.trans running, outstanding⟩
  | @pushedLate c call found ended front =>
    obtain ⟨now, known, outstanding, phase⟩ := pushed_outstanding manual found front stepped
    have stands := outstanding_stands (settled ++ settledBy s (.push c)) ((step_ok ok stepped).calls c now known) known
      outstanding
    simpa [Call.standing, phase, ended] using stands
  | returned found took =>
    obtain ⟨call, was, running, outstanding⟩ := stands
    obtain rfl := same found was
    cases step_change stepped with
    | cancelled again leaving =>
      obtain rfl := same found again
      obtain rfl := Phase.leaving.inj (took.symm.trans leaving)
      refine finished_received ?_ ?_ _ _ _
      · have mode := manual _ _ found
        exact mode
      · exact outstanding
  | leftBehind found without =>
    obtain ⟨call, was, running, outstanding⟩ := stands
    obtain rfl := same found was
    cases step_change stepped with
    | cancelled again leaving =>
      obtain rfl := same found again
      obtain rfl := Phase.leaving.inj (without.symm.trans leaving)
      exact finished_ready (ok.calls _ _ found) outstanding _ _
  | failed =>
    obtain ⟨call, was, running, outstanding⟩ := stands
    cases step_change stepped with
    | failed again phase =>
      obtain rfl := same was again
      exact finished_ready (ok.calls _ _ was) outstanding call.channel.consuming _
  | dropped found last =>
    obtain ⟨call, was, shared, outstanding⟩ := stands
    obtain rfl := same found was
    cases step_change stepped with
    | droppedLast again =>
      obtain rfl := same found again
      have callOk := ok.calls _ _ found
      have routed := callOk.routed delivery (callOk.handedOver delivery (.inr (.inl outstanding)))
      show delivery ∈ (s.setReady _ _).ready delivery.queue
      simp [routed, outstanding]
    | dropped again more =>
      obtain rfl := same found again
      omega
  | acked message success =>
    obtain ⟨call, found, phase⟩ := message
    simp only [Rabbit.answer, found, Option.map_some, Option.some.injEq] at success
    obtain ⟨unsettled, rfl⟩ := success_unsettled success
    exact List.mem_append_right _ (by simp [settledBy, found, unsettled, phase, Phase.inHand])
  | rejected message success =>
    obtain ⟨call, found, phase⟩ := message
    simp only [Rabbit.answer, found, Option.map_some, Option.some.injEq] at success
    obtain ⟨unsettled, rfl⟩ := success_unsettled success
    exact List.mem_append_right _ (by simp [settledBy, found, unsettled, phase, Phase.inHand])
  | requeued message success =>
    obtain ⟨call, found, phase⟩ := message
    simp only [Rabbit.answer, found, Option.map_some, Option.some.injEq] at success
    obtain ⟨unsettled, rfl⟩ := success_unsettled success
    cases step_change stepped with
    | unrejected again ignored =>
      obtain rfl := same found again
      simp [unsettled] at ignored
    | rejectedBack again shared took =>
      obtain rfl := same found again
      obtain rfl : delivery = _ := Except.ok.inj (Phase.returned.inj (phase.symm.trans took))
      show delivery ∈ (Rabbit.setReady _ _ _).ready delivery.queue
      simp

/-! ### Settlements -/

/-- Whether the message of a call was settled. -/
def Rabbit.completed (s : Rabbit) (c : CallId) : Bool :=
  match s.calls c with
  | none => false
  | some call => call.completed

theorem completed_set {s : Rabbit} {c : CallId} {call : Call} (same : call.completed = s.completed c) :
    (s.set c call).completed = s.completed := by
  funext other
  by_cases here : other = c
  · subst here
    rw [← same]
    simp [Rabbit.completed]
  · simp [Rabbit.completed, here]

theorem completed_finish {s : Rabbit} {c : CallId} {call : Call} (same : call.completed = s.completed c)
    (result : Except Status Delivery) : (s.finish c call result).completed = s.completed := by
  unfold Rabbit.finish
  split
  · exact completed_set same
  · exact @completed_set (s.setReady _ _) c _ same

theorem completed_settle (s : Rabbit) (c : CallId) (call : Call) (delivery : Delivery) :
    (s.set c (call.settle delivery)).completed = Function.update s.completed c true := by
  funext other
  by_cases here : other = c
  · subst here
    simp [Rabbit.completed, Call.settle]
  · simp [Rabbit.completed, here]

theorem succeeds_nothing {s : Rabbit} {e : Event} (other : e.settles = none) : succeeds s e = [] := by
  simp [succeeds, other]

theorem completed_found {s : Rabbit} {c : CallId} {call : Call} (found : s.calls c = some call) :
    call.completed = s.completed c := by
  simp [Rabbit.completed, found]

theorem mem_succeeds {s : Rabbit} {c : CallId} {call : Call} (found : s.calls c = some call) (fault : Option String)
    (requeue : Bool) (other : CallId) :
    (other ∈ succeeds s (.ack c fault) ↔ other = c ∧ call.completed = false ∧ fault = none) ∧
      (other ∈ succeeds s (.nack c requeue fault) ↔ other = c ∧ call.completed = false ∧ fault = none) := by
  cases settled : call.completed <;> cases fault <;>
    simp [succeeds, Rabbit.answer, found, settled, ackStatus, Event.settles]

/-- A message is settled by the step that succeeds on it, and stays settled. -/
theorem step_completed {s t : Rabbit} {e : Event} (stepped : step s e = some t) (c : CallId) :
    t.completed c = true ↔ s.completed c = true ∨ c ∈ succeeds s e := by
  have unchanged : t.completed = s.completed → e.settles = none →
      (t.completed c = true ↔ s.completed c = true ∨ c ∈ succeeds s e) := by
    intro same other
    rw [same, succeeds_nothing other]
    simp
  have settles : ∀ {d call}, s.calls d = some call → call.completed = false →
      (c ∈ succeeds s e ↔ c = d) → t.completed = Function.update s.completed d true →
      (t.completed c = true ↔ s.completed c = true ∨ c ∈ succeeds s e) := by
    intro d call found unsettled success same
    rw [same, success]
    by_cases here : c = d
    · simp [here]
    · simp [here]
  cases step_change stepped with
  | refused | published | stopped => exact unchanged rfl rfl
  | rejected status new => exact unchanged (completed_finish (by simp [Rabbit.completed, new]) _) rfl
  | opened new => exact unchanged (completed_set (by simp [Rabbit.completed, new])) rfl
  | fetchedNone found | cancelled found | failed found =>
    have kept := completed_found found
    refine unchanged (completed_finish ?_ _) rfl
    exact kept
  | @fetched _ call _ rest found =>
    have kept := completed_found found
    refine unchanged (@completed_finish (s.setReady call.src.name rest) _ _ ?_ _) rfl
    exact kept
  | @pushed _ call _ rest found =>
    have kept := completed_found found
    refine unchanged (@completed_set (s.setReady call.src.name rest) _ _ ?_) rfl
    exact kept
  | consumed found | waited found | gaveUp _ found | copied found | dropped found =>
    have kept := completed_found found
    refine unchanged (completed_set ?_) rfl
    exact kept
  | polled found =>
    refine unchanged (completed_set ?_) rfl
    have kept := completed_found found
    unfold Call.poll
    split <;> exact kept
  | @droppedLast _ call found =>
    have kept := completed_found found
    refine unchanged (@completed_set (s.setReady call.src.name _) _ _ ?_) rfl
    exact kept
  | @unacked _ call fault found ignored =>
    have refused : ¬ (call.completed = false ∧ fault = none) := by simpa [or_iff_not_imp_left] using ignored
    simp [(mem_succeeds found fault true c).1, refused]
  | @unrejected _ call requeue fault found ignored =>
    have refused : ¬ (call.completed = false ∧ fault = none) := by simpa [or_iff_not_imp_left] using ignored
    simp [(mem_succeeds found fault requeue c).2, refused]
  | acked found shared phase unsettled =>
    exact settles found unsettled (by simp [(mem_succeeds found none true c).1, unsettled]) (completed_settle _ _ _ _)
  | rejectedBack found shared phase unsettled =>
    exact settles found unsettled (by simp [(mem_succeeds found none true c).2, unsettled]) (completed_settle _ _ _ _)
  | rejectedForGood found shared phase unsettled =>
    exact settles found unsettled (by simp [(mem_succeeds found none false c).2, unsettled]) (completed_settle _ _ _ _)

/-- What is settled was outstanding with its own message. -/
theorem settledBy_cases {s t : Rabbit} {e : Event} (ok : s.Ok) (stepped : step s e = some t) :
    settledBy s e = [] ∨ ∃ c delivery, settledBy s e = [delivery] ∧ delivery ∈ s.holds (.call c) := by
  cases step_change stepped with
  | @unacked c call fault found ignored =>
    cases fault with
    | some what => exact .inl rfl
    | none => exact .inl (by simp [settledBy, found, show call.completed = true by simpa using ignored])
  | @unrejected c call requeue fault found ignored =>
    cases fault with
    | some what => exact .inl (by cases requeue <;> rfl)
    | none =>
      have settled : call.completed = true := by simpa using ignored
      exact .inl (by cases requeue <;> simp [settledBy, found, settled])
  | @acked c call delivery found shared phase unsettled | @rejectedForGood c call delivery found shared phase unsettled =>
    refine .inr ⟨c, delivery, by simp [settledBy, found, unsettled, phase, Phase.inHand], ?_⟩
    rw [holds_call found, (settled_holding (ok.calls c call found) shared phase unsettled).1]
    exact List.mem_singleton_self delivery
  | _ => exact .inl rfl

/-- What every run in manual mode keeps of the messages it settled. -/
structure Rabbit.Keeps (s : Rabbit) (settled : List Delivery) : Prop where
  ok : s.Ok
  manual : s.Manual
  census : s.Census settled
  once : settled.Nodup

theorem step_keeps {s t : Rabbit} {e : Event} {settled : List Delivery} (keeps : s.Keeps settled)
    (allowed : e.manual = true) (stepped : step s e = some t) : t.Keeps (settled ++ settledBy s e) := by
  refine ⟨step_ok keeps.ok stepped, step_manual keeps.manual allowed stepped, ?_, ?_⟩
  · have census := step_census keeps.ok keeps.census stepped
    rwa [lostBy_manual keeps.manual] at census
  · rcases settledBy_cases keeps.ok stepped with none | ⟨c, delivery, one, held⟩
    · simpa [none] using keeps.once
    · have fresh := ((Custody.Census.somewhere keeps.census delivery).mp ⟨_, held⟩).2
      rw [one, ← List.concat_eq_append, List.nodup_concat]
      exact ⟨fresh, keeps.once⟩

theorem run_keeps {t : Rabbit} {es : List Event} (events : ∀ e ∈ es, e.manual = true)
    (ran : run step Rabbit.new es = some t) : t.Keeps (history step settledBy Rabbit.new es) := by
  have start : Rabbit.new.Keeps [] := by
    obtain ⟨ok, census⟩ := run_census (run_nil Rabbit.new)
    exact ⟨ok, run_manual (by simp) (run_nil _), census, List.nodup_nil⟩
  have keeps : ∀ (settled : List Delivery) s e next, s.Keeps settled → e.manual = true → step s e = some next →
      next.Keeps (settled ++ settledBy s e) := fun _ _ _ _ kept allowed stepped => step_keeps kept allowed stepped
  exact history_invariant keeps start (along_of_events events _) ran

/-- A settlement succeeds on a message that is not settled. -/
theorem succeeds_unsettled {s : Rabbit} {e : Event} {c : CallId} (success : c ∈ succeeds s e) :
    succeeds s e = [c] ∧ s.completed c = false := by
  have unsettled : ∀ {d fault name}, (s.calls d).map (fun call => ackStatus call.completed fault name) =
      some (.success, true) → s.completed d = false := by
    intro d fault name answered
    obtain ⟨call, found, reached⟩ := Option.map_eq_some_iff.mp answered
    rw [← completed_found found]
    exact (success_unsettled reached).1
  unfold succeeds at success ⊢
  split at success
  · rename_i answered
    rw [if_pos answered]
    cases e with
    | ack d fault | nack d requeue fault =>
      obtain rfl : c = d := by simpa [Event.settles] using success
      exact ⟨rfl, unsettled answered⟩
    | _ => cases success
  · cases success

/-- The calls whose messages were settled are those on which a settlement succeeded, each once. -/
theorem run_completed {t : Rabbit} {es : List Event} (ran : run step Rabbit.new es = some t) :
    (history step succeeds Rabbit.new es).Nodup ∧
      ∀ c, t.completed c = true ↔ c ∈ history step succeeds Rabbit.new es := by
  have start : ([] : List CallId).Nodup ∧ ∀ c, Rabbit.new.completed c = true ↔ c ∈ ([] : List CallId) := by
    refine ⟨List.nodup_nil, ?_⟩
    intro c
    simp [Rabbit.completed, Rabbit.new]
  have keeps : ∀ (seen : List CallId) s e next,
      (seen.Nodup ∧ ∀ c, s.completed c = true ↔ c ∈ seen) → True → step s e = some next →
      (seen ++ succeeds s e).Nodup ∧ ∀ c, next.completed c = true ↔ c ∈ seen ++ succeeds s e := by
    intro seen s e next known _ stepped
    obtain ⟨distinct, settled⟩ := known
    constructor
    · cases success : succeeds s e with
      | nil => simpa using distinct
      | cons c rest =>
        obtain ⟨one, unsettled⟩ := @succeeds_unsettled s e c (by simp [success])
        have fresh : c ∉ seen := by simp [← settled c, unsettled]
        rw [← success, one, ← List.concat_eq_append, List.nodup_concat]
        exact ⟨fresh, distinct⟩
    · intro c
      rw [step_completed stepped, settled c, List.mem_append]
  exact history_invariant keeps start (along_of_forall (fun _ _ => trivial) _ _) ran

/-- The fault of a settlement, and the same settlement without one. -/
def Event.fault : Event → Option String
  | .ack _ fault | .nack _ _ fault => fault
  | _ => none

def Event.retried : Event → Event
  | .ack c _ => .ack c none
  | .nack c requeue _ => .nack c requeue none
  | e => e

/-- What manual mode promises of a state whose run settled some messages, by the successful
    settlements of some calls. -/
structure Rabbit.SettledOnce (s : Rabbit) (settled : List Delivery) (succeeded : List CallId) : Prop where
  place : ∀ delivery ∈ s.accepted, ∃! spot, s.Stands settled delivery spot
  routed : ∀ name, ∀ delivery ∈ s.ready name, delivery.queue = name
  once : settled.Nodup ∧ succeeded.Nodup
  starts : ∀ e t, step s e = some t → ∀ delivery ∈ t.accepted, delivery ∉ s.accepted →
    t.Stands (settled ++ settledBy s e) delivery (.ready delivery.queue)
  moves : ∀ e t, e.manual = true → step s e = some t → ∀ delivery spot other, s.Stands settled delivery spot →
    (t.Stands (settled ++ settledBy s e) delivery other ↔
      Moves s delivery e spot other ∨ other = spot ∧ ∀ next, ¬ Moves s delivery e spot next)
  refused : ∀ c ∈ succeeded, ∀ e t, e.settles = some c → step s e = some t →
    t = s ∧ s.answer e = some (.internal "message already acked/nacked", false)
  answered : ∀ c ∉ succeeded, ∀ e t, e.settles = some c → step s e = some t → e.fault = none →
    s.answer e = some (.success, true)
  retryable : ∀ c ∉ succeeded, ∀ e t what, e.settles = some c → step s e = some t → e.fault = some what →
    t = s ∧ (∃ name, s.answer e = some (.internal (name ++ " failed: " ++ what), false)) ∧
      (step s e.retried).isSome ∧ s.answer e.retried = some (.success, true)

/-- What a settlement finds. -/
theorem settles_found {s t : Rabbit} {e : Event} {c : CallId} (settles : e.settles = some c)
    (stepped : step s e = some t) : ∃ call delivery, s.calls c = some call ∧ call.copies ≠ 0 ∧
      call.phase = .returned (.ok delivery) := by
  cases e with
  | ack d fault | nack d requeue fault =>
    obtain rfl : d = c := Option.some.inj settles
    obtain ⟨call, found, stepped⟩ := call_of_step stepped
    split at stepped
    · rename_i n delivery copies phase
      exact ⟨call, delivery, found, by omega, phase⟩
    · cases stepped
  | _ => cases settles

/-- A message that some object shares can be settled, or its settlement refused. -/
theorem settlement_enabled {s : Rabbit} {c : CallId} {call : Call} {delivery : Delivery}
    (found : s.calls c = some call) (shared : call.copies ≠ 0) (phase : call.phase = .returned (.ok delivery))
    (requeue : Bool) (fault : Option String) :
    (step s (.ack c fault)).isSome ∧ (step s (.nack c requeue fault)).isSome := by
  obtain ⟨n, copies⟩ := Nat.exists_eq_succ_of_ne_zero shared
  simp only [step, found, copies, phase]
  split_ifs <;> exact ⟨rfl, rfl⟩

/-- A settlement that is refused or fails changes nothing. -/
theorem settlement_ignored {s t : Rabbit} {e : Event} {c : CallId} (settles : e.settles = some c)
    (ignored : s.completed c = true ∨ e.fault ≠ none) (stepped : step s e = some t) : t = s := by
  have unsettled : ∀ {d call}, s.calls d = some call → call.completed = false → ¬ s.completed d = true :=
    fun found open_ => by simp [← completed_found found, open_]
  cases step_change stepped with
  | unacked | unrejected => rfl
  | acked found _ _ open_ | rejectedBack found _ _ open_ | rejectedForGood found _ _ open_ =>
    obtain rfl := Option.some.inj settles
    rcases ignored with settled | fault
    · exact absurd settled (unsettled found open_)
    · exact absurd rfl fault
  | _ => cases settles

theorem answer_of_settled {s : Rabbit} {e : Event} {c : CallId} {call : Call} (settles : e.settles = some c)
    (found : s.calls c = some call) (settled : call.completed = true) :
    s.answer e = some (.internal "message already acked/nacked", false) := by
  cases e with
  | ack d fault | nack d requeue fault =>
    obtain rfl : d = c := Option.some.inj settles
    simp [Rabbit.answer, found, settled, ackStatus]
  | _ => cases settles

theorem answer_of_unsettled {s : Rabbit} {e : Event} {c : CallId} {call : Call} (settles : e.settles = some c)
    (found : s.calls c = some call) (unsettled : call.completed = false) :
    s.answer e.retried = some (.success, true) ∧
      ∀ what, e.fault = some what → ∃ name, s.answer e = some (.internal (name ++ " failed: " ++ what), false) := by
  cases e with
  | ack d fault =>
    obtain rfl : d = c := Option.some.inj settles
    refine ⟨(answer_success found unsettled true).1, fun what failed => ⟨"ack", ?_⟩⟩
    obtain rfl : fault = some what := failed
    simp [Rabbit.answer, found, unsettled, ackStatus]
  | nack d requeue fault =>
    obtain rfl : d = c := Option.some.inj settles
    refine ⟨(answer_success found unsettled requeue).2, fun what failed => ⟨"nack", ?_⟩⟩
    obtain rfl : fault = some what := failed
    simp [Rabbit.answer, found, unsettled, ackStatus]
  | _ => cases settles

theorem retried_self {e : Event} (unharmed : e.fault = none) : e.retried = e := by
  cases e with
  | ack c fault | nack c requeue fault =>
    obtain rfl : fault = none := unharmed
    rfl
  | _ => rfl

/-- In manual mode every accepted message is ready, outstanding with one receive or one
    received message, or settled by one successful call; what is not settled comes back, and
    after a success every call is refused while one that throws can be made again. -/
theorem manual_deliveries_settled_once {es : List Event} {t : Rabbit} (events : ∀ e ∈ es, e.manual = true)
    (ran : run step Rabbit.new es = some t) :
    t.SettledOnce (history step settledBy Rabbit.new es) (history step succeeds Rabbit.new es) := by
  have keeps := run_keeps events ran
  obtain ⟨distinct, completed⟩ := run_completed ran
  refine ⟨?_, keeps.ok.routed, ⟨keeps.once, distinct⟩, ?_, ?_, ?_, ?_, ?_⟩
  · intro delivery accepted
    obtain ⟨spot, stands⟩ := stands_somewhere keeps.ok keeps.manual keeps.census accepted
    exact ⟨spot, stands, fun other too => stands_unique keeps.ok keeps.manual keeps.census too stands⟩
  · intro e next stepped delivery accepted new
    exact accepted_ready stepped accepted new
  · intro e next allowed stepped delivery spot other stands
    have after := step_keeps keeps allowed stepped
    constructor
    · intro now
      by_cases moving : ∃ target, Moves t delivery e spot target
      · obtain ⟨target, moves⟩ := moving
        have there := stands_moved keeps.ok keeps.manual stands moves stepped
        obtain rfl := stands_unique after.ok after.manual after.census now there
        exact .inl moves
      · have still : ∀ target, ¬ Moves t delivery e spot target := fun target moves => moving ⟨target, moves⟩
        have there := stands_still keeps.ok keeps.manual stands still stepped
        exact .inr ⟨stands_unique after.ok after.manual after.census now there, still⟩
    · rintro (moves | ⟨rfl, still⟩)
      · exact stands_moved keeps.ok keeps.manual stands moves stepped
      · exact stands_still keeps.ok keeps.manual stands still stepped
  · intro c succeeded e next settles stepped
    have settled := (completed c).mpr succeeded
    obtain ⟨call, delivery, found, _⟩ := settles_found settles stepped
    rw [← completed_found found] at settled
    exact ⟨settlement_ignored settles (.inl ((completed c).mpr succeeded)) stepped,
      answer_of_settled settles found settled⟩
  · intro c fresh e next settles stepped unharmed
    have unsettled : ¬ t.completed c = true := fun settled => fresh ((completed c).mp settled)
    obtain ⟨call, delivery, found, _⟩ := settles_found settles stepped
    rw [← completed_found found, Bool.not_eq_true] at unsettled
    rw [← retried_self unharmed]
    exact (answer_of_unsettled settles found unsettled).1
  · intro c fresh e next what settles stepped failed
    have unsettled : ¬ t.completed c = true := fun settled => fresh ((completed c).mp settled)
    obtain ⟨call, delivery, found, shared, phase⟩ := settles_found settles stepped
    rw [← completed_found found, Bool.not_eq_true] at unsettled
    obtain ⟨again, error⟩ := answer_of_unsettled settles found unsettled
    refine ⟨settlement_ignored settles (.inr (by simp [failed])) stepped, error what failed, ?_, again⟩
    cases e with
    | ack d fault =>
      obtain rfl : d = c := Option.some.inj settles
      exact (settlement_enabled found shared phase true none).1
    | nack d requeue fault =>
      obtain rfl : d = c := Option.some.inj settles
      exact (settlement_enabled found shared phase requeue none).2
    | _ => cases settles

/-- A message is polled, its acknowledgement fails once, and it is settled through a copy. -/
def settledThroughCopy : List Event :=
  [.send 0 ⟨"tasks"⟩ { payload := "task" } {} none, .receive 0 1 ⟨"tasks"⟩ { timeout := some 0 }, .fetch 0, .copy 0,
    .ack 0 (some "connection lost"), .drop 0, .ack 0 none]

theorem settledThroughCopy_settled : ∃ t, run step Rabbit.new settledThroughCopy = some t ∧
    t.SettledOnce [⟨0, "tasks", { body := "task" }⟩] [0] := by
  have enabled : (run step Rabbit.new settledThroughCopy).isSome = true := by decide
  have ran := Option.eq_some_of_isSome enabled
  have settled : history step settledBy Rabbit.new settledThroughCopy = [⟨0, "tasks", { body := "task" }⟩] := by decide
  have succeeded : history step succeeds Rabbit.new settledThroughCopy = [0] := by decide
  have once := manual_deliveries_settled_once (by decide) ran
  rw [settled, succeeded] at once
  exact ⟨_, ran, once⟩

end Mqss.RabbitMq
