import Mqss.RabbitMqCustody

/-!
The typed messenger over the RabbitMQ transport. `receive` decodes what the
transport returned and gives only the value to its caller; the message itself,
and with it the last reference to an open channel, is dropped on its return.
-/

namespace Mqss
universe u

/-- How values of a type are converted to and from envelopes. -/
structure Codec (T : Type u) where
  encode : T → Except Status Envelope
  decode : Envelope → Except Status T

namespace Messenger
open Mqss.Machine Mqss.RabbitMq

section
variable {T : Type u} (codec : Codec T)

/-- `receiveExtended` after the transport returned: the value with its message, or an error. -/
def receiveExtended (received : Result Message) : Except Status (T × Message) :=
  match received with
  | .error status => .error status
  | .ok msg =>
    match codec.decode msg.envelope with
    | .error status => .error status
    | .ok decoded => .ok (decoded, msg)

/-- `receive` after the transport returned: the value alone. -/
def receive (received : Result Message) : Except Status T :=
  match receiveExtended codec received with
  | .error status => .error status
  | .ok pair => .ok pair.1
end

/-- A broker and the typed receives made over it; each may ask for a type of its own. -/
structure Clients (T : CallId → Type u) where
  rabbit : Rabbit
  typed : CallId → Bool
  returned : ∀ c, Option (Except Status (T c))

def Clients.new {T : CallId → Type u} : Clients T := ⟨.new, fun _ => false, fun _ => none⟩

inductive Event
  /-- Any step of the transport, receives that are not typed included. -/
  | transport (event : RabbitMq.Event)
  /-- A new call of `Messenger::receive`. -/
  | receive (call : CallId) (transport : TransportId) (src : Address) (args : ReceiveArgs)
  /-- `Messenger::receive` decodes, drops the message and returns. -/
  | finish (call : CallId)

variable {T : CallId → Type u}

/-- The message of a typed receive is nobody's to copy, drop or settle. -/
def Clients.permits (p : Clients T) : RabbitMq.Event → Bool
  | .copy c | .drop c | .ack c _ | .nack c _ _ => !p.typed c
  | _ => true

/-- What the destruction of the message that the transport returned does, if there is one:
    its handlers hold the last reference to an open channel. -/
def release : Result Message → List RabbitMq.Event
  | .ok ⟨_, some ref⟩ => [.drop ref]
  | _ => []

def step (codec : ∀ c, Codec (T c)) (p : Clients T) : Event → Option (Clients T)
  | .transport event =>
    if p.permits event then (RabbitMq.step p.rabbit event).map (fun s => { p with rabbit := s }) else none
  | .receive c transport src args =>
    (RabbitMq.step p.rabbit (.receive c transport src args)).map
      (fun s => { p with rabbit := s, typed := Function.update p.typed c true })
  | .finish c =>
    if p.typed c = true ∧ (p.returned c).isNone then
      match (p.rabbit.calls c).bind (Call.result c) with
      | none => none
      | some received =>
        (run RabbitMq.step p.rabbit (release received)).map
          (fun s => { p with rabbit := s, returned := Function.update p.returned c (some (receive (codec c) received)) })
    else none

/-- The deliveries that a step hands to a receive. -/
def handed (p : Clients T) : Event → List Delivery
  | .transport event => RabbitMq.handed p.rabbit event
  | _ => []

/-- The steps of the transport that a step takes. -/
def transportSteps (p : Clients T) : Event → List RabbitMq.Event
  | .transport event => [event]
  | .receive c transport src args => [.receive c transport src args]
  | .finish c =>
    match (p.rabbit.calls c).bind (Call.result c) with
    | none => []
    | some received => release received

variable {codec : ∀ c, Codec (T c)}

theorem step_transport {p q : Clients T} {e : Event} (stepped : step codec p e = some q) :
    run RabbitMq.step p.rabbit (transportSteps p e) = some q.rabbit := by
  cases e with
  | transport event =>
    simp only [step] at stepped
    split at stepped
    · obtain ⟨s, taken, rfl⟩ := Option.map_eq_some_iff.mp stepped
      simpa [transportSteps, run] using taken
    · cases stepped
  | receive c transport src args =>
    obtain ⟨s, taken, rfl⟩ := Option.map_eq_some_iff.mp stepped
    simpa [transportSteps, run] using taken
  | finish c =>
    simp only [step] at stepped
    split at stepped
    · split at stepped
      · cases stepped
      · rename_i received found
        obtain ⟨s, released, rfl⟩ := Option.map_eq_some_iff.mp stepped
        simpa only [transportSteps, found] using released
    · cases stepped

theorem run_transport {p q : Clients T} {es : List Event} (ran : run (step codec) p es = some q) :
    ∃ steps, run RabbitMq.step p.rabbit steps = some q.rabbit := by
  have refines : ∀ s e next, step codec s e = some next →
      run RabbitMq.step s.rabbit ((transportSteps s e).flatMap (fun event => [event])) = some next.rabbit := by
    intro s e next stepped
    simpa using step_transport stepped
  exact ⟨_, history_refines refines ran⟩

/-- What `finish` found and did. -/
theorem finish_spec {p q : Clients T} {c : CallId} {call : Call} {delivery : Delivery}
    (finished : step codec p (.finish c) = some q) (found : p.rabbit.calls c = some call)
    (took : call.phase = .returned (.ok delivery)) :
    run RabbitMq.step p.rabbit (release (.ok (makeMessageFromDelivery c delivery call.args.ack_mode))) =
      some q.rabbit := by
  have taken := step_transport finished
  simpa [transportSteps, found, Call.result, took] using taken

/-! ### Automatic mode -/

/-- A message rests with the finished call that took it in automatic mode. -/
structure Rests (s : Rabbit) (c : CallId) (call : Call) (delivery : Delivery) : Prop where
  ok : s.Ok
  census : ∃ lost, s.Census lost
  found : s.calls c = some call
  automatic : call.args.ack_mode = .Auto
  took : call.phase = .returned (.ok delivery)

theorem rests_step {s t : Rabbit} {e : RabbitMq.Event} {c : CallId} {call : Call} {delivery : Delivery}
    (rests : Rests s c call delivery) (stepped : RabbitMq.step s e = some t) : Rests t c call delivery := by
  obtain ⟨ok, ⟨lost, census⟩, found, automatic, took⟩ := rests
  exact ⟨step_ok ok stepped, ⟨_, step_census ok census stepped⟩,
    returned_automatic_stays ok found automatic took stepped, automatic, took⟩

theorem rests_run {s t : Rabbit} {steps : List RabbitMq.Event} {c : CallId} {call : Call} {delivery : Delivery}
    (rests : Rests s c call delivery) (ran : run RabbitMq.step s steps = some t) : Rests t c call delivery :=
  invariant (fun _ _ _ => rests_step) rests ran

/-- What rests with a call is in no queue. -/
theorem rests_not_handed {s : Rabbit} {c : CallId} {call : Call} {delivery : Delivery}
    (rests : Rests s c call delivery) (e : RabbitMq.Event) : delivery ∉ RabbitMq.handed s e := by
  intro member
  obtain ⟨ok, ⟨lost, census⟩, found, automatic, took⟩ := rests
  obtain ⟨name, queued⟩ := handed_queued member
  have held : delivery ∈ s.holds (.call c) := by
    rw [holds_call found, holding_auto call automatic, took]
    simp [Phase.inHand]
  cases Custody.Census.unique census held queued

theorem rests_never_handed {p q : Clients T} {c : CallId} {call : Call} {delivery : Delivery} {fs : List Event}
    (rests : Rests p.rabbit c call delivery) (after : run (step codec) p fs = some q) :
    delivery ∉ history (step codec) handed p fs := by
  have keeps : ∀ (seen : List Delivery) (s : Clients T) e next,
      delivery ∉ seen ∧ Rests s.rabbit c call delivery → True → step codec s e = some next →
      delivery ∉ seen ++ handed s e ∧ Rests next.rabbit c call delivery := by
    rintro seen s e next ⟨unseen, resting⟩ _ stepped
    refine ⟨?_, rests_run resting (step_transport stepped)⟩
    intro member
    rcases List.mem_append.mp member with old | now
    · exact unseen old
    · cases e with
      | transport event => exact rests_not_handed resting event now
      | receive => cases now
      | finish => cases now
  exact (history_invariant keeps ⟨List.not_mem_nil, rests⟩ (along_of_forall (fun _ _ => trivial) _ _) after).1

/-! ### Manual mode -/

/-- Until a typed receive returns, its message is neither settled nor shared. -/
def Clients.Fresh (p : Clients T) : Prop :=
  ∀ c, p.typed c = true → p.returned c = none → ∀ call, p.rabbit.calls c = some call → call.Untouched

theorem release_result {c : CallId} {call : Call} {received : Result Message}
    (result : call.result c = some received) : release received = [] ∨ release received = [.drop c] := by
  unfold Call.result at result
  split at result
  · obtain rfl := Option.some.inj result
    cases mode : call.args.ack_mode <;> simp [makeMessageFromDelivery, release]
  · obtain rfl := Option.some.inj result
    exact .inl rfl
  · cases result

/-- `finish` touches no call but its own. -/
theorem finish_frame {p q : Clients T} {c other : CallId} (finished : step codec p (.finish c) = some q)
    (apart : other ≠ c) : q.rabbit.calls other = p.rabbit.calls other ∧ q.typed = p.typed ∧
      q.returned other = p.returned other := by
  simp only [step] at finished
  split at finished
  · split at finished
    · cases finished
    · rename_i received found
      obtain ⟨s, released, rfl⟩ := Option.map_eq_some_iff.mp finished
      obtain ⟨call, _, result⟩ := Option.bind_eq_some_iff.mp found
      refine ⟨?_, rfl, Function.update_of_ne apart _ _⟩
      rcases release_result result with none | one
      · rw [none, run_nil, Option.some.injEq] at released
        rw [released]
      · rw [one, run_cons] at released
        obtain ⟨next, dropped, same⟩ := released
        rw [run_nil, Option.some.injEq] at same
        subst same
        exact step_frame dropped fun about => apart (Option.some.inj about).symm
  · cases finished

theorem step_fresh {p q : Clients T} {e : Event} (fresh : p.Fresh) (stepped : step codec p e = some q) : q.Fresh := by
  intro c typed pending call found
  cases e with
  | transport event =>
    simp only [step] at stepped
    split at stepped
    · rename_i permitted
      obtain ⟨s, taken, rfl⟩ := Option.map_eq_some_iff.mp stepped
      refine step_untouched taken (fun requeue fault => ?_) (fresh c typed pending) found
      have typed : p.typed c = true := typed
      refine ⟨?_, ?_, ?_⟩ <;> rintro rfl <;> simp [Clients.permits, typed] at permitted
    · cases stepped
  | receive other transport src args =>
    obtain ⟨s, taken, rfl⟩ := Option.map_eq_some_iff.mp stepped
    refine step_untouched taken (fun _ _ => ⟨nofun, nofun, nofun⟩) ?_ found
    intro before was
    by_cases same : c = other
    · subst same
      simp [RabbitMq.step, was] at taken
    · exact fresh c (by simpa [same] using typed) pending before was
  | finish other =>
    by_cases same : c = other
    · subst same
      simp only [step] at stepped
      split at stepped
      · split at stepped
        · cases stepped
        · obtain ⟨s, _, rfl⟩ := Option.map_eq_some_iff.mp stepped
          simp at pending
      · cases stepped
    · obtain ⟨calls, kinds, results⟩ := finish_frame stepped same
      rw [calls] at found
      rw [kinds] at typed
      rw [results] at pending
      exact fresh c typed pending call found

theorem run_fresh {p : Clients T} {es : List Event} (ran : run (step codec) .new es = some p) : p.Fresh :=
  invariant (fun _ _ _ => step_fresh) (by intro c typed; cases typed) ran

/-- A typed receive in manual mode gives its message back to the front of its queue. -/
theorem manual_given_back {p q : Clients T} {c : CallId} {call : Call} {delivery : Delivery} {es : List Event}
    (ran : run (step codec) .new es = some p) (found : p.rabbit.calls c = some call)
    (manual : call.args.ack_mode = .Manual) (took : call.phase = .returned (.ok delivery))
    (finished : step codec p (.finish c) = some q) :
    delivery.queue ≠ "" ∧ ∃ rest, q.rabbit.ready delivery.queue = delivery :: rest := by
  obtain ⟨steps, reached⟩ := run_transport ran
  obtain ⟨ok, census⟩ := run_census reached
  have callOk := ok.calls c call found
  have untouched : call.Untouched := by
    simp only [step] at finished
    split at finished
    · rename_i pending
      exact run_fresh ran c pending.1 (by simpa using pending.2) call found
    · cases finished
  have released := finish_spec finished found took
  simp only [makeMessageFromDelivery, manual, ↓reduceIte, release, run_cons, run_nil, Option.some.injEq] at released
  obtain ⟨_, dropped, rfl⟩ := released
  have fits := callOk.fits
  rw [took] at fits
  generalize event : RabbitMq.Event.drop c = e, after : q.rabbit = t at dropped
  cases step_change dropped with
  | @droppedLast c' call' was last =>
    obtain rfl := RabbitMq.Event.drop.inj event
    obtain rfl : call = call' := Option.some.inj (found.symm.trans was)
    have outstanding := (fits.2 untouched.1 (by omega)).1
    have only := only_unacked callOk outstanding
    have route := callOk.routed delivery (callOk.handedOver delivery (.inr (.inl outstanding)))
    have held : delivery ∈ p.rabbit.holds (.call c) := by
      rw [holds_call found, holding_manual call manual]
      exact outstanding
    have accepted := ((Custody.Census.somewhere census delivery).mp ⟨_, held⟩).1
    refine ⟨ok.named delivery accepted, p.rabbit.ready call.src.name, ?_⟩
    · simp [Rabbit.close, only, route]
  | @dropped c' call' n was more =>
    obtain rfl := RabbitMq.Event.drop.inj event
    obtain rfl : call = call' := Option.some.inj (found.symm.trans was)
    have := untouched.2
    omega
  | _ => cases event

/-- A receive that polls a queue is handed its front. -/
theorem polls_front {p : Clients T} {delivery : Delivery} {rest : List Delivery} {n : Nat}
    (unused : p.rabbit.calls n = none ∧ p.rabbit.stopped n = false) (named : delivery.queue ≠ "")
    (ready : p.rabbit.ready delivery.queue = delivery :: rest) :
    ∃ fs r, run (step codec) p fs = some r ∧ delivery ∈ history (step codec) handed p fs := by
  let args : ReceiveArgs := { timeout := some 0, ack_mode := .Auto }
  let call : Call := { transport := n, src := ⟨delivery.queue⟩, args := args }
  let opened : Clients T := { p with rabbit := p.rabbit.set n call }
  let polled : Clients T := { p with rabbit := (p.rabbit.set n call).fetch n call }
  have opens : step codec p (.transport (.receive n n ⟨delivery.queue⟩ args)) = some opened := by
    simp [step, Clients.permits, RabbitMq.step, unused.1, Rabbit.receive, named, unused.2, opened, call, args]
  have polls : step codec opened (.transport (.fetch n)) = some polled := by
    simp [step, Clients.permits, RabbitMq.step, opened, polled, call, args]
  refine ⟨[.transport (.receive n n ⟨delivery.queue⟩ args), .transport (.fetch n)], polled, ?_, ?_⟩
  · simp [run, opens, polls]
  · rw [history_cons opens, history_cons polls]
    simp [handed, RabbitMq.handed, opened, call, ready]

/-- A typed receive consumes the message it took if and only if it used automatic mode:
    after its return, no receive is ever handed that message again. -/
theorem receive_settles_iff {es : List Event} {p q : Clients T} {c : CallId} {call : Call} {delivery : Delivery}
    (ran : run (step codec) .new es = some p) (found : p.rabbit.calls c = some call)
    (took : call.phase = .returned (.ok delivery)) (finished : step codec p (.finish c) = some q) :
    (∀ fs r, run (step codec) q fs = some r → delivery ∉ history (step codec) handed q fs) ↔
      call.args.ack_mode = .Auto := by
  obtain ⟨steps, reached⟩ := run_transport ran
  obtain ⟨ok, census⟩ := run_census reached
  cases mode : call.args.ack_mode with
  | Auto =>
    have rests : Rests p.rabbit c call delivery := ⟨ok, ⟨_, census⟩, found, mode, took⟩
    exact iff_of_true (fun fs r after => rests_never_handed (rests_run rests (step_transport finished)) after) rfl
  | Manual =>
    refine iff_of_false (fun never => ?_) (by simp)
    obtain ⟨named, rest, ready⟩ := manual_given_back ran found mode took finished
    obtain ⟨bound, unused⟩ := run_unused (run_append.mpr ⟨_, reached, step_transport finished⟩)
    obtain ⟨fs, r, after, member⟩ := polls_front (unused bound le_rfl) named ready
    exact never fs r after member

/-- Texts are their own payload. -/
def textCodec : Codec String := ⟨fun text => .ok { payload := text }, fun envelope => .ok envelope.payload⟩

abbrev textStep := step (fun _ => textCodec)

/-- A typed receive waits for the one message of a queue; the transport returns it. -/
def receivedOnce (args : ReceiveArgs) : List Event :=
  [.transport (.send 0 ⟨"tasks"⟩ { payload := "task" } {} none), .receive 0 1 ⟨"tasks"⟩ args, .transport (.consume 0),
    .transport (.push 0), .transport (.wait 0), .transport (.poll 0), .transport (.cancel 0 false)]

def onlyTask : Delivery := ⟨0, "tasks", { body := "task" }⟩

theorem receivedOnce_automatic_settles : ∃ p q,
    run textStep .new (receivedOnce { ack_mode := .Auto }) = some p ∧ textStep p (.finish 0) = some q ∧
      ∀ fs r, run textStep q fs = some r → onlyTask ∉ history textStep handed q fs := by
  refine ⟨_, _, rfl, rfl, ?_⟩
  have settles := @receive_settles_iff _ (fun _ => textCodec) (receivedOnce { ack_mode := .Auto }) _ _ 0 _ onlyTask
    rfl rfl rfl rfl
  exact settles.mpr rfl

/-- With the default arguments the returned message is handed to the next receive. -/
theorem receivedOnce_default_handed_again : ∃ p q r fs,
    run textStep .new (receivedOnce {}) = some p ∧ textStep p (.finish 0) = some q ∧
      q.returned 0 = some (.ok "task") ∧ run textStep q fs = some r ∧ onlyTask ∈ history textStep handed q fs := by
  refine ⟨_, _, _, [.transport (.receive 1 2 ⟨"tasks"⟩ { timeout := some 0 }), .transport (.fetch 1)], rfl, rfl, rfl,
    rfl, ?_⟩
  exact List.mem_singleton.mpr rfl

end Messenger
end Mqss
