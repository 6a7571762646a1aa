import Mqss.RabbitMqCalls
import Mqss.Custody

/-!
Where the accepted messages are. A queue holds its ready deliveries; a call holds
what is outstanding on its channel: the unacknowledged deliveries in manual mode,
and in automatic mode the buffered ones together with the one it has taken. Every
step moves messages between these places, so no message is ever in two of them.
-/

namespace Mqss.RabbitMq
open Mqss.Machine Mqss.Custody

inductive Place
  | queue (name : String)
  | call (id : CallId)
  deriving DecidableEq

/-- The messages at a place. -/
def Rabbit.holds (s : Rabbit) : Place → List Delivery
  | .queue name => s.ready name
  | .call c =>
    match s.calls c with
    | none => []
    | some call => call.holding

theorem holds_set (s : Rabbit) (c : CallId) (call : Call) :
    (s.set c call).holds = Function.update s.holds (.call c) call.holding := by
  funext place
  cases place with
  | queue name => simp [Rabbit.holds]
  | call other =>
    by_cases same : other = c
    · subst same; simp [Rabbit.holds]
    · simp [Rabbit.holds, same]

theorem holds_setReady (s : Rabbit) (queue : String) (deliveries : List Delivery) :
    (s.setReady queue deliveries).holds = Function.update s.holds (.queue queue) deliveries := by
  funext place
  cases place with
  | queue name =>
    by_cases same : name = queue
    · subst same; simp [Rabbit.holds]
    · simp [Rabbit.holds, same]
  | call other => simp [Rabbit.holds]

theorem holds_call {s : Rabbit} {c : CallId} {call : Call} (found : s.calls c = some call) :
    s.holds (.call c) = call.holding := by
  simp [Rabbit.holds, found]

/-- The accepted messages that a step takes out of custody: those that automatic mode
    forgets with its channel, and those that were acknowledged or rejected for good. -/
def lostBy (s : Rabbit) : Event → List Delivery
  | .cancel c _ | .fail c _ =>
    match s.calls c with
    | none => []
    | some call => call.forgets
  | .ack c none | .nack c false none =>
    match s.calls c with
    | none => []
    | some call => if call.completed then [] else call.phase.inHand
  | _ => []

/-- A settlement that is refused or fails loses nothing. -/
theorem ignored_loses_nothing {s : Rabbit} {c : CallId} {call : Call} {fault : Option String}
    (found : s.calls c = some call) (ignored : call.completed = true ∨ fault ≠ none) (requeue : Bool) :
    lostBy s (.ack c fault) = [] ∧ lostBy s (.nack c requeue fault) = [] := by
  cases fault with
  | some what => cases requeue <;> exact ⟨rfl, rfl⟩
  | none =>
    have settled : call.completed = true := by simpa using ignored
    cases requeue <;> simp [lostBy, found, settled]

def Rabbit.Census (s : Rabbit) (lost : List Delivery) : Prop := Custody.Census s.holds s.accepted lost

theorem finish_census {s : Rabbit} {c : CallId} {call : Call} {result : Except Status Delivery} {lost : List Delivery}
    (leaves : call.Leaves result) (census : s.Census lost)
    (holding : s.holds (.call c) = call.carrying result) : (s.finish c call result).Census (lost ++ call.forgets) := by
  obtain ⟨now, back, _, _, _, _, _, finished, carried⟩ := finish_spec leaves s c
  have out : (s.holds (.call c)).Perm (call.forgets ++ (back ++ now.holding)) := by rw [holding, carried]
  have forgotten := Custody.Census.discard census out
  have leave : (Function.update s.holds (.call c) (back ++ now.holding) (.call c)).Perm (back ++ now.holding) := by
    simp
  have into : (back ++ s.ready call.src.name).Perm
      (back ++ Function.update s.holds (.call c) (back ++ now.holding) (.queue call.src.name)) := by
    simp [Rabbit.holds]
  have givenBack := forgotten.transfer (by simp) leave into
  rw [finished]
  show Custody.Census _ s.accepted _
  rw [holds_set, holds_setReady, Function.update_comm (by simp)]
  simpa using givenBack

/-- A call that keeps what it holds. -/
theorem set_census {s : Rabbit} {c : CallId} {call : Call} {lost : List Delivery} (census : s.Census lost)
    (same : call.holding.Perm (s.holds (.call c))) : (s.set c call).Census lost := by
  show Custody.Census _ s.accepted _
  rw [holds_set]
  exact census.reorder same

/-- The front of a queue goes to a call. -/
theorem handed_census {s : Rabbit} {c : CallId} {call : Call} {queue : String} {delivery : Delivery}
    {rest lost : List Delivery} (census : s.Census lost) (ready : s.ready queue = delivery :: rest)
    (gets : call.holding.Perm (delivery :: s.holds (.call c))) :
    ((s.setReady queue rest).set c call).Census lost := by
  show Custody.Census _ s.accepted _
  rw [holds_set, holds_setReady]
  have leave : (s.holds (.queue queue)).Perm ([delivery] ++ rest) := by simp [Rabbit.holds, ready]
  exact Custody.Census.transfer census (by simp) leave gets

/-- The last object that shares an unsettled message gives it back to its queue. -/
theorem close_census {s : Rabbit} {c : CallId} {call : Call} {lost : List Delivery} (census : s.Census lost)
    (manual : call.args.ack_mode = .Manual) (holding : s.holds (.call c) = call.channel.unacked) :
    (s.close c call).Census lost := by
  have leave : (s.holds (.call c)).Perm (call.channel.unacked ++ []) := by simp [holding]
  have into : (call.channel.unacked ++ s.ready call.src.name).Perm
      (call.channel.unacked ++ s.holds (.queue call.src.name)) := by simp [Rabbit.holds]
  have givenBack := Custody.Census.transfer census (by simp) leave into
  show Custody.Census (Rabbit.holds ((s.setReady _ _).set c _)) s.accepted lost
  rw [holds_set, holds_setReady, Function.update_comm (by simp)]
  simpa [Call.holding, manual] using givenBack

theorem publish_census {s : Rabbit} {delivery : Delivery} {lost : List Delivery} (census : s.Census lost)
    (new : delivery ∉ s.accepted) : (s.publish delivery).Census lost := by
  show Custody.Census (Rabbit.holds (s.setReady _ _)) (s.accepted ++ [delivery]) lost
  rw [holds_setReady]
  apply Custody.Census.accept census new
  simp [Rabbit.holds, List.perm_append_singleton]

/-- A settled message is no longer with its call. -/
theorem settled_holding {call : Call} {delivery : Delivery} (ok : call.Ok) (shared : call.copies ≠ 0)
    (phase : call.phase = .returned (.ok delivery)) (unsettled : call.completed = false) :
    call.holding = [delivery] ∧ (call.settle delivery).holding = [] := by
  have manual := (shared_message ok shared).1
  have fits := ok.fits
  rw [phase] at fits
  have outstanding := (fits.2 unsettled shared).1
  have only := only_unacked ok outstanding
  simp [Call.holding, Call.settle, manual, only]

theorem holding_auto (call : Call) (automatic : call.args.ack_mode = .Auto) :
    call.holding = call.channel.buffered ++ call.phase.inHand := by
  simp [Call.holding, automatic]

theorem holding_manual (call : Call) (manual : call.args.ack_mode = .Manual) :
    call.holding = call.channel.unacked := by
  simp [Call.holding, manual]

/-- What a call that is about to return carries is what it holds. -/
theorem carrying_holding {call : Call} {result : Except Status Delivery}
    (taken : call.phase.inHand = (Phase.returned result).inHand) : call.carrying result = call.holding := by
  cases mode : call.args.ack_mode <;> simp [Call.holding, Call.carrying, mode, taken]

/-- The call after `BasicGet` gave it a delivery holds just that. -/
theorem fetched_census {s : Rabbit} {c : CallId} {call : Call} {delivery : Delivery} {rest lost : List Delivery}
    (ok : call.Ok) (census : s.Census lost) (found : s.calls c = some call) (phase : call.phase = .connected)
    (queue : s.ready call.src.name = delivery :: rest) (route : delivery.queue = call.src.name) :
    ((s.setReady call.src.name rest).finish c (call.hand delivery) (.ok delivery)).Census lost := by
  have fits := ok.fits
  rw [phase] at fits
  have nothing : s.holds (.call c) = [] := by
    cases mode : call.args.ack_mode <;> simp [holds_call found, Call.holding, mode, fits.1, phase, Phase.inHand]
  cases mode : (call.hand delivery).args.ack_mode with
  | Auto =>
    rw [finish_auto mode ((fetched_leaves ok phase route).auto mode)]
    apply handed_census census queue
    rw [nothing, holding_auto ((call.hand delivery).closed _) mode]
    exact List.Perm.refl [delivery]
  | Manual =>
    rw [finish_manual mode]
    apply handed_census census queue
    rw [nothing, holding_manual ((call.hand delivery).unsettled delivery) mode]
    have manual : call.args.ack_mode = .Manual := mode
    show (call.hand delivery).channel.unacked.Perm [delivery]
    rw [hand_unacked_manual manual, fits.1]
    exact List.Perm.refl [delivery]

/-- The call after a push holds the delivery in addition. -/
theorem pushed_holding (call : Call) (delivery : Delivery) :
    ((call.hand delivery).buffer delivery).holding.Perm (delivery :: call.holding) := by
  cases mode : call.args.ack_mode with
  | Auto =>
    rw [holding_auto call mode, holding_auto ((call.hand delivery).buffer delivery) mode]
    show ((call.channel.buffered ++ [delivery]) ++ call.phase.inHand).Perm _
    simp [List.append_assoc, List.perm_middle]
  | Manual =>
    rw [holding_manual call mode, holding_manual ((call.hand delivery).buffer delivery) mode]
    show (call.hand delivery).channel.unacked.Perm _
    simp [hand_unacked_manual mode, List.perm_append_singleton]

/-- Reading from the buffer does not change what a call holds. -/
theorem polled_holding {call : Call} (phase : call.phase = .waiting) : call.poll.holding.Perm call.holding := by
  unfold Call.poll
  split
  · simp [Call.holding, phase, Phase.inHand]
  · rename_i delivery rest buffered
    cases mode : call.args.ack_mode with
    | Auto => simp [Call.holding, mode, phase, Phase.inHand, buffered, List.perm_append_singleton]
    | Manual => simp [Call.holding, mode]

/-- A message that was acknowledged or rejected for good is gone. -/
theorem settled_census {s : Rabbit} {c : CallId} {call : Call} {delivery : Delivery} {lost : List Delivery}
    (ok : call.Ok) (census : s.Census lost) (found : s.calls c = some call) (shared : call.copies ≠ 0)
    (phase : call.phase = .returned (.ok delivery)) (unsettled : call.completed = false) :
    (s.set c (call.settle delivery)).Census (lost ++ [delivery]) := by
  obtain ⟨before, after⟩ := settled_holding ok shared phase unsettled
  show Custody.Census _ s.accepted _
  rw [holds_set, after]
  exact Custody.Census.discard census (by simp [holds_call found, before])

/-- Every step moves messages between the places, accepts one or loses some. -/
theorem step_census {s t : Rabbit} {e : Event} {lost : List Delivery} (ok : s.Ok) (census : s.Census lost)
    (stepped : step s e = some t) : t.Census (lost ++ lostBy s e) := by
  cases step_change stepped with
  | refused => simpa [lostBy] using census
  | published named running =>
    simp only [lostBy, List.append_nil]
    exact publish_census census fun member => absurd (ok.tags _ member) (lt_irrefl _)
  | stopped =>
    simp only [lostBy, List.append_nil]
    exact census
  | @rejected c transport src args status new =>
    have nothing : s.holds (.call c) = [] := by simp [Rabbit.holds, new]
    have carried : s.holds (.call c) = Call.carrying { transport := transport, src := src, args := args }
        (.error status) := by
      cases mode : args.ack_mode <;> simp [nothing, Call.carrying, mode, Phase.inHand]
    have finished := finish_census (leaves_error (start_ok transport src args) rfl status) census carried
    cases mode : args.ack_mode <;> simpa [lostBy, Call.forgets, mode] using finished
  | @opened c transport src args new =>
    have nothing : s.holds (.call c) = [] := by simp [Rabbit.holds, new]
    simp only [lostBy, List.append_nil]
    apply set_census census
    rw [nothing]
    cases mode : args.ack_mode <;> simp [Call.holding, mode, Phase.inHand]
  | @fetchedNone c call found phase queue =>
    have callOk := ok.calls _ _ found
    have fits := callOk.fits
    rw [phase] at fits
    have carried : s.holds (.call c) = call.carrying (.error (.timeout "no message received")) := by
      rw [holds_call found, carrying_holding (by simp [phase, Phase.inHand])]
    have finished := finish_census (leaves_error callOk fits.2.2.2 _) census carried
    cases mode : call.args.ack_mode <;> simpa [lostBy, Call.forgets, mode, fits.1] using finished
  | fetched found phase queue =>
    simp only [lostBy, List.append_nil]
    exact fetched_census (ok.calls _ _ found) census found phase queue (ok.front queue).1
  | consumed found phase | waited found phase | gaveUp _ found phase =>
    simp only [lostBy, List.append_nil]
    exact set_census census (by simp [holds_call found, Call.holding, phase, Phase.inHand])
  | pushed found pushable queue =>
    simp only [lostBy, List.append_nil]
    exact handed_census census queue (by rw [holds_call found]; exact pushed_holding _ _)
  | polled found phase =>
    simp only [lostBy, List.append_nil]
    exact set_census census (by rw [holds_call found]; exact polled_holding phase)
  | @cancelled c call result thrown found phase =>
    simp only [lostBy, found]
    apply finish_census (cancelled_leaves (ok.calls _ _ found) phase thrown) census
    rw [holds_call found, carrying_holding (by cases result <;> simp [phase, Phase.inHand])]
    rfl
  | @failed c call what found phase =>
    simp only [lostBy, found]
    apply finish_census (leaves_error (ok.calls _ _ found) (running_fresh (ok.calls _ _ found) phase) _) census
    rw [holds_call found, carrying_holding (by rcases phase with phase | phase <;> simp [phase, Phase.inHand])]
  | copied found _ | dropped found _ =>
    simp only [lostBy, List.append_nil]
    exact set_census census (by simp [holds_call found, Call.holding])
  | @droppedLast c call found last =>
    have manual := (shared_message (ok.calls _ _ found) (by omega)).1
    simp only [lostBy, List.append_nil]
    exact close_census census manual (by simp [holds_call found, Call.holding, manual])
  | unacked found ignored =>
    rw [(ignored_loses_nothing found ignored false).1, List.append_nil]
    exact census
  | unrejected found ignored =>
    rw [(ignored_loses_nothing found ignored _).2, List.append_nil]
    exact census
  | acked found shared phase unsettled | rejectedForGood found shared phase unsettled =>
    simp only [lostBy, found, unsettled, phase]
    exact settled_census (ok.calls _ _ found) census found shared phase unsettled
  | @rejectedBack c call delivery found shared phase unsettled =>
    obtain ⟨before, after⟩ := settled_holding (ok.calls _ _ found) shared phase unsettled
    simp only [lostBy, List.append_nil]
    show Custody.Census _ s.accepted _
    rw [holds_setReady, holds_set]
    have leave : (s.holds (.call c)).Perm ([delivery] ++ (call.settle delivery).holding) := by
      simp [holds_call found, before, after]
    apply Custody.Census.transfer census (by simp) leave
    simp [Rabbit.holds]

/-- Every run leaves each accepted message in one place, except those it lost. -/
theorem run_census {t : Rabbit} {es : List Event} (ran : run step Rabbit.new es = some t) :
    t.Ok ∧ t.Census (history step lostBy Rabbit.new es) := by
  have start : Rabbit.new.Ok ∧ Rabbit.new.Census [] := by
    have nowhere : Rabbit.new.holds = fun _ => [] := by
      funext place
      cases place <;> rfl
    refine ⟨new_ok, ?_⟩
    rw [Rabbit.Census, nowhere]
    exact Custody.Census.empty
  have keeps : ∀ (lost : List Delivery) s e next, s.Ok ∧ s.Census lost → True → step s e = some next →
      next.Ok ∧ next.Census (lost ++ lostBy s e) := fun lost s e next known _ stepped =>
    ⟨step_ok known.1 stepped, step_census known.1 known.2 stepped⟩
  exact history_invariant keeps start (along_of_forall (fun _ _ => trivial) _ _) ran

/-- The deliveries that a step hands to a receive. -/
def handed (s : Rabbit) : Event → List Delivery
  | .fetch c | .push c =>
    match s.calls c with
    | none => []
    | some call => (s.ready call.src.name).head?.toList
  | _ => []

/-- What is handed over comes from a queue. -/
theorem handed_queued {s : Rabbit} {e : Event} {delivery : Delivery} (member : delivery ∈ handed s e) :
    ∃ name, delivery ∈ s.holds (.queue name) := by
  unfold handed at member
  split at member
  case h_3 => cases member
  all_goals
    split at member
    · cases member
    · rename_i call found
      have front : (s.ready call.src.name).head? = some delivery := by simpa using member
      exact ⟨call.src.name, List.mem_of_mem_head? front⟩

/-- A call that returned in automatic mode is over. -/
theorem returned_automatic_stays {s t : Rabbit} {e : Event} (ok : s.Ok) {c : CallId} {call : Call}
    {result : Except Status Delivery} (found : s.calls c = some call) (automatic : call.args.ack_mode = .Auto)
    (phase : call.phase = .returned result) (stepped : step s e = some t) : t.calls c = some call := by
  by_cases about : e.call = some c
  · have callOk := ok.calls c call found
    have unshared := (callOk.auto automatic).2
    have closed : call.channel = {} := by
      have fits := callOk.fits
      rw [phase] at fits
      cases result with
      | error status => exact fits.1
      | ok delivery => exact fits.1 unshared
    have change := step_change stepped
    cases change with
    | refused | published | stopped => cases about
    | unacked | unrejected => exact found
    | rejected status new | opened new =>
      obtain rfl := Option.some.inj about
      simp [new] at found
    | fetchedNone was now | fetched was now | consumed was now | waited was now | polled was now | gaveUp _ was now
    | cancelled was now =>
      obtain rfl := Option.some.inj about
      obtain rfl := Option.some.inj (found.symm.trans was)
      simp [phase] at now
    | failed was now =>
      obtain rfl := Option.some.inj about
      obtain rfl := Option.some.inj (found.symm.trans was)
      simp [phase] at now
    | pushed was pushable =>
      obtain rfl := Option.some.inj about
      obtain rfl := Option.some.inj (found.symm.trans was)
      simp [Call.pushable, closed] at pushable
    | copied was shared | acked was shared | rejectedBack was shared | rejectedForGood was shared =>
      obtain rfl := Option.some.inj about
      obtain rfl := Option.some.inj (found.symm.trans was)
      exact absurd unshared shared
    | droppedLast was shared | dropped was shared =>
      obtain rfl := Option.some.inj about
      obtain rfl := Option.some.inj (found.symm.trans was)
      omega
  · rw [step_frame stepped about, found]

end Mqss.RabbitMq
