import Mqss.RabbitMqOrder
import Mqss.Envelopes
import Mqss.TypedQueue

/-!
The typed messenger over RabbitMQ. What a typed receive returns is decoded from a value
that was sent to its queue: it is that value where the receive asks for its type, and no
two receives in automatic mode get the same one. A message that the broker pushed to a
call besides the one it returned may never be returned.
-/

namespace Mqss.RabbitMq
open Mqss.Machine

/-! ### What is accepted and handed over -/

/-- A send is accepted and published, or nothing happens. -/
theorem send_cases (s : Rabbit) (transport : TransportId) (dest : Address) (envelope : Envelope) (args : SendArgs)
    (fault : Option String) :
    (s.send transport dest envelope args fault).1 = .success ∧ (s.send transport dest envelope args fault).2 =
        s.publish ⟨s.accepted.length, dest.name, toBasicMessage envelope⟩ ∨
      (s.send transport dest envelope args fault).1 ≠ .success ∧ (s.send transport dest envelope args fault).2 = s := by
  unfold Rabbit.send
  split_ifs with unnamed confirm stopped
  · exact .inr ⟨by simp [Status.success, Status.invalidArgument], rfl⟩
  · exact .inr ⟨by simp [Status.success, Status.unsupported], rfl⟩
  · exact .inr ⟨by simp [Status.success, Status.unavailable], rfl⟩
  · cases fault with
    | some what => exact .inr ⟨by simp [Status.success, Status.unavailable], rfl⟩
    | none => exact .inl ⟨rfl, rfl⟩

/-- Only sends are accepted. -/
theorem step_silent {s t : Rabbit} {e : Event} (stepped : step s e = some t)
    (other : ∀ transport dest envelope args fault, e ≠ .send transport dest envelope args fault) :
    t.accepted = s.accepted := by
  cases step_change stepped with
  | refused | published => exact absurd rfl (other _ _ _ _ _)
  | rejected | fetchedNone | fetched | cancelled | failed => exact finish_accepted _ _ _ _
  | _ => rfl

theorem step_grows {s t : Rabbit} {e : Event} (stepped : step s e = some t) : ∃ more, t.accepted = s.accepted ++ more := by
  cases step_change stepped with
  | published => exact ⟨_, rfl⟩
  | rejected | fetchedNone | fetched | cancelled | failed =>
    rw [finish_accepted]
    exact ⟨[], (List.append_nil _).symm⟩
  | _ => exact ⟨[], (List.append_nil _).symm⟩

theorem finish_handed {s : Rabbit} {c other : CallId} {now call : Call} {result : Except Status Delivery}
    (found : (s.finish c now result).calls other = some call) :
    other = c ∧ call.handed = now.handed ∨ s.calls other = some call := by
  unfold Rabbit.finish at found
  split at found
  all_goals
    apply (calls_set found).imp_left
    rintro ⟨same, rfl⟩
    exact ⟨same, rfl⟩

/-- A call's deliveries are those that the steps about it handed over. -/
theorem step_handed {s t : Rabbit} {e : Event} (stepped : step s e = some t) {c : CallId} {call : Call}
    (found : t.calls c = some call) {d : Delivery} (got : d ∈ call.handed) :
    (∃ before, s.calls c = some before ∧ d ∈ before.handed) ∨ d ∈ handed s e := by
  cases step_change stepped with
  | refused | published | stopped | unacked | unrejected => exact .inl ⟨call, found, got⟩
  | rejected status new =>
    rcases finish_handed found with ⟨rfl, same⟩ | old
    · rw [same] at got
      cases got
    · exact .inl ⟨call, old, got⟩
  | opened new =>
    rcases calls_set found with ⟨rfl, rfl⟩ | old
    · cases got
    · exact .inl ⟨call, old, got⟩
  | fetchedNone was | cancelled was | failed was =>
    rcases finish_handed found with ⟨rfl, same⟩ | old
    · rw [same] at got
      exact .inl ⟨_, was, got⟩
    · exact .inl ⟨call, old, got⟩
  | @fetched c' call' delivery rest was phase queue =>
    rcases finish_handed found with ⟨rfl, same⟩ | old
    · rw [same, Call.hand] at got
      rcases List.mem_append.mp got with before | now
      · exact .inl ⟨_, was, before⟩
      · exact .inr (by simpa [handed, was, queue] using now)
    · exact .inl ⟨call, old, got⟩
  | @pushed c' call' delivery rest was pushable queue =>
    rcases calls_set found with ⟨rfl, rfl⟩ | old
    · rcases List.mem_append.mp got with before | now
      · exact .inl ⟨_, was, before⟩
      · exact .inr (by simpa [handed, was, queue] using now)
    · exact .inl ⟨call, old, got⟩
  | polled was =>
    rcases calls_set found with ⟨rfl, rfl⟩ | old
    · refine .inl ⟨_, was, ?_⟩
      unfold Call.poll at got
      split at got <;> exact got
    · exact .inl ⟨call, old, got⟩
  | consumed was | waited was | gaveUp _ was | copied was | droppedLast was | dropped was | acked was
  | rejectedBack was | rejectedForGood was =>
    rcases calls_set found with ⟨rfl, rfl⟩ | old
    · exact .inl ⟨_, was, got⟩
    · exact .inl ⟨call, old, got⟩

/-- What a call returned stays what it returned. -/
theorem result_stays {s t : Rabbit} {e : Event} (stepped : step s e = some t) {c : CallId} {call : Call}
    {result : Except Status Delivery} (found : s.calls c = some call) (phase : call.phase = .returned result) :
    ∃ now, t.calls c = some now ∧ now.phase = .returned result ∧ now.args = call.args ∧ now.src = call.src := by
  by_cases about : e.call = some c
  · cases step_change stepped with
    | refused | published | stopped => cases about
    | rejected status new | opened new =>
      obtain rfl := Option.some.inj about
      rw [found] at new
      cases new
    | unacked | unrejected => exact ⟨call, found, phase, rfl, rfl⟩
    | fetchedNone was other | fetched was other | consumed was other | waited was other | polled was other
    | gaveUp _ was other | cancelled was other =>
      obtain rfl := Option.some.inj about
      obtain rfl := Option.some.inj (found.symm.trans was)
      rw [phase] at other
      cases other
    | failed was other =>
      obtain rfl := Option.some.inj about
      obtain rfl := Option.some.inj (found.symm.trans was)
      rw [phase] at other
      rcases other with other | other <;> cases other
    | pushed was | copied was | droppedLast was | dropped was | acked was | rejectedBack was | rejectedForGood was =>
      obtain rfl := Option.some.inj about
      obtain rfl := Option.some.inj (found.symm.trans was)
      exact ⟨_, Function.update_self _ _ _, phase, rfl, rfl⟩
  · exact ⟨call, (step_frame stepped about).trans found, phase, rfl, rfl⟩

/-- What is known of the broker: every message is in one place, and what was handed over
    had been accepted. -/
structure Rabbit.Sound (s : Rabbit) : Prop where
  ok : s.Ok
  census : ∃ lost, s.Census lost
  handed : ∀ c call, s.calls c = some call → ∀ d ∈ call.handed, d ∈ s.accepted

theorem new_sound : Rabbit.new.Sound :=
  ⟨new_ok, ⟨_, (@run_census Rabbit.new [] rfl).2⟩, by rintro _ _ ⟨⟩⟩

theorem step_sound {s t : Rabbit} {e : Event} (sound : s.Sound) (stepped : step s e = some t) : t.Sound := by
  obtain ⟨lost, census⟩ := sound.census
  refine ⟨step_ok sound.ok stepped, ⟨_, step_census sound.ok census stepped⟩, fun c call found d got => ?_⟩
  obtain ⟨more, grown⟩ := step_grows stepped
  rw [grown]
  apply List.mem_append_left
  rcases step_handed stepped found got with ⟨before, was, old⟩ | now
  · exact sound.handed c before was d old
  · obtain ⟨name, queued⟩ := handed_queued now
    exact ((Custody.Census.somewhere census d).mp ⟨_, queued⟩).1

/-- What a call returned had been accepted for the queue that it receives from. -/
theorem returned_accepted {s : Rabbit} (sound : s.Sound) {c : CallId} {call : Call} {delivery : Delivery}
    (found : s.calls c = some call) (took : call.phase = .returned (.ok delivery)) :
    delivery ∈ s.accepted ∧ delivery.queue = call.src.name := by
  have callOk := sound.ok.calls c call found
  have got : delivery ∈ call.handed := callOk.handedOver delivery (.inr (.inr (by simp [took, Phase.inHand])))
  exact ⟨sound.handed c call found delivery got, callOk.routed delivery got⟩

/-- No two calls in automatic mode return the same message. -/
theorem returned_once {s : Rabbit} (sound : s.Sound) {c other : CallId} {call another : Call} {delivery : Delivery}
    (found : s.calls c = some call) (automatic : call.args.ack_mode = .Auto)
    (took : call.phase = .returned (.ok delivery)) (also : s.calls other = some another)
    (mode : another.args.ack_mode = .Auto) (again : another.phase = .returned (.ok delivery)) : c = other := by
  obtain ⟨lost, census⟩ := sound.census
  have here : delivery ∈ s.holds (.call c) := by
    rw [holds_call found, holding_auto call automatic, took]
    simp [Phase.inHand]
  have there : delivery ∈ s.holds (.call other) := by
    rw [holds_call also, holding_auto another mode, again]
    simp [Phase.inHand]
  exact Place.call.inj (Custody.Census.unique census here there)

end Mqss.RabbitMq

namespace Mqss.TypedRabbit
open Mqss.Machine Mqss.RabbitMq
open Mqss.TypedQueue (Sent)
universe u v

variable {Kind : Type u} {T : Kind → Type v}

/-! ### The calls -/

/-- A typed send, or any other step of the messenger and its transport. -/
inductive Event (T : Kind → Type v)
  | send (transport : TransportId) (dest : Address) (kind : Kind) (value : T kind) (args : SendArgs)
      (fault : Option String)
  | other (event : Messenger.Event)

/-- The broker and the typed receives, each of which asks for the type `asks` says. -/
abbrev Clients (T : Kind → Type v) (asks : CallId → Kind) := Messenger.Clients fun c => T (asks c)

variable (codec : ∀ kind, Codec (T kind)) (asks : CallId → Kind)

/-- A send whose encoding fails returns without a call of the transport. -/
def step (p : Clients T asks) : Event T → Option (Clients T asks)
  | .send transport dest kind value args fault =>
    match (codec kind).encode value with
    | .error _ => some p
    | .ok envelope =>
      Messenger.step (fun c => codec (asks c)) p (.transport (.send transport dest envelope args fault))
  | .other (.transport (.send _ _ _ _ _)) => none
  | .other event => Messenger.step (fun c => codec (asks c)) p event

/-- A value that the broker accepted for a queue. -/
structure Post (codec : ∀ kind, Codec (T kind)) where
  dest : Address
  item : Sent codec

def posted (p : Clients T asks) : Event T → List (Post codec)
  | .send transport dest kind value args fault =>
    match encoded : (codec kind).encode value with
    | .error _ => []
    | .ok envelope =>
      if (p.rabbit.send transport dest envelope args fault).1 = .success then [⟨dest, kind, value, envelope, encoded⟩]
      else []
  | .other _ => []

variable {codec asks} {p q : Clients T asks}

/-- The place, in the order of acceptance, of the message that a call returned. -/
def origin (p : Clients T asks) (c : CallId) : Option Nat :=
  match (p.rabbit.calls c).map Call.phase with
  | some (.returned (.ok delivery)) => some delivery.tag
  | _ => none

/-- The broker's messages are the posted ones, and what a typed receive returned is decoded
    from what its call returned. -/
structure Traced (posts : List (Post codec)) (p : Clients T asks) : Prop where
  sound : p.rabbit.Sound
  length : p.rabbit.accepted.length = posts.length
  posted : ∀ d ∈ p.rabbit.accepted, ∃ post, posts[d.tag]? = some post ∧ d.queue = post.dest.name ∧
    d.message = toBasicMessage post.item.envelope
  returned : ∀ c result, p.returned c = some result → ∃ call received, p.rabbit.calls c = some call ∧
    call.result c = some received ∧ result = Messenger.receive (codec (asks c)) received

/-- What the transport returned for a call stays the same. -/
theorem received_stays {s t : Rabbit} {steps : List RabbitMq.Event} (ran : run RabbitMq.step s steps = some t)
    {c : CallId} {call : Call} {received : Result Message} (found : s.calls c = some call)
    (result : call.result c = some received) : ∃ now, t.calls c = some now ∧ now.result c = some received := by
  have keeps : ∀ s e next, (∃ now : Call, s.calls c = some now ∧ now.result c = some received) →
      RabbitMq.step s e = some next → ∃ now, next.calls c = some now ∧ now.result c = some received := by
    rintro s e next ⟨call, found, result⟩ stepped
    unfold Call.result at result
    split at result
    · rename_i delivery took
      obtain ⟨now, after, phase, args, _⟩ := result_stays stepped found took
      refine ⟨now, after, ?_⟩
      unfold Call.result
      rw [phase, args, ← result]
    · rename_i status failed
      obtain ⟨now, after, phase, _⟩ := result_stays stepped found failed
      refine ⟨now, after, ?_⟩
      unfold Call.result
      rw [phase, ← result]
    · cases result
  exact invariant keeps ⟨call, found, result⟩ ran

/-- What a step returns to a caller: the call of the step's `finish`, if it is one. -/
theorem step_returned {event : Messenger.Event} (stepped : Messenger.step (fun c => codec (asks c)) p event = some q)
    {c : CallId} {result : Except Status (T (asks c))} (returned : q.returned c = some result) :
    p.returned c = some result ∨ ∃ call received, p.rabbit.calls c = some call ∧ call.result c = some received ∧
      result = Messenger.receive (codec (asks c)) received := by
  cases event with
  | transport event =>
    simp only [Messenger.step] at stepped
    split at stepped
    · obtain ⟨s, _, rfl⟩ := Option.map_eq_some_iff.mp stepped
      exact .inl returned
    · cases stepped
  | receive other transport src args =>
    obtain ⟨s, _, rfl⟩ := Option.map_eq_some_iff.mp stepped
    exact .inl returned
  | finish other =>
    by_cases same : c = other
    · subst same
      simp only [Messenger.step] at stepped
      split at stepped
      · split at stepped
        · cases stepped
        · rename_i received found
          obtain ⟨s, _, rfl⟩ := Option.map_eq_some_iff.mp stepped
          obtain ⟨call, was, took⟩ := Option.bind_eq_some_iff.mp found
          exact .inr ⟨call, received, was, took, by simpa using returned.symm⟩
      · cases stepped
    · rw [(Messenger.finish_frame stepped same).2.2] at returned
      exact .inl returned

/-- The steps of the messenger besides its sends leave the accepted messages. -/
theorem run_silent {s t : Rabbit} {steps : List RabbitMq.Event}
    (silent : ∀ e ∈ steps, ∀ transport dest envelope args fault, e ≠ .send transport dest envelope args fault)
    (ran : run RabbitMq.step s steps = some t) : t.accepted = s.accepted := by
  have keeps : ∀ u e next, u.accepted = s.accepted →
      (∀ transport dest envelope args fault, e ≠ .send transport dest envelope args fault) →
      RabbitMq.step u e = some next → next.accepted = s.accepted :=
    fun u e next same other stepped => (step_silent stepped other).trans same
  exact invariant_along keeps rfl (along_of_events silent s) ran

theorem step_other {event : Messenger.Event} (stepped : step codec asks p (.other event) = some q) :
    Messenger.step (fun c => codec (asks c)) p event = some q ∧
      ∀ e ∈ Messenger.transportSteps p event, ∀ transport dest envelope args fault,
        e ≠ .send transport dest envelope args fault := by
  unfold step at stepped
  split at stepped
  · rename_i other
    cases other
  · cases stepped
  · rename_i event unsent same
    obtain rfl := Event.other.inj same
    refine ⟨stepped, fun e member => ?_⟩
    cases event with
    | transport event =>
      obtain rfl := List.mem_singleton.mp member
      rintro transport dest envelope args fault rfl
      exact unsent _ _ _ _ _ rfl
    | receive c transport src args =>
      obtain rfl := List.mem_singleton.mp member
      rintro _ _ _ _ _ ⟨⟩
    | finish c =>
      simp only [Messenger.transportSteps] at member
      split at member
      · cases member
      · unfold Messenger.release at member
        split at member
        · obtain rfl := List.mem_singleton.mp member
          rintro _ _ _ _ _ ⟨⟩
        · cases member

theorem traced_other {posts : List (Post codec)} {event : Messenger.Event} (traced : Traced posts p)
    (stepped : step codec asks p (.other event) = some q) : Traced posts q := by
  obtain ⟨moved, silent⟩ := step_other stepped
  have ran := Messenger.step_transport moved
  have accepted := run_silent silent ran
  refine ⟨invariant (fun _ _ _ => step_sound) traced.sound ran, by rw [accepted]; exact traced.length,
    by rw [accepted]; exact traced.posted, fun c result returned => ?_⟩
  obtain ⟨call, received, found, took, decoded⟩ : ∃ call received, p.rabbit.calls c = some call ∧
      call.result c = some received ∧ result = Messenger.receive (codec (asks c)) received :=
    (step_returned moved returned).elim (traced.returned c result) id
  obtain ⟨now, after, still⟩ := received_stays ran found took
  exact ⟨now, received, after, still, decoded⟩

/-- A value that was encoded is accepted with its envelope, or not at all. -/
theorem traced_send {posts : List (Post codec)} {transport : TransportId} {dest : Address} {item : Sent codec}
    {args : SendArgs} {fault : Option String} (traced : Traced posts p) :
    Traced (posts ++ if (p.rabbit.send transport dest item.envelope args fault).1 = .success then [⟨dest, item⟩] else [])
      { p with rabbit := (p.rabbit.send transport dest item.envelope args fault).2 } := by
  have sent : RabbitMq.step p.rabbit (.send transport dest item.envelope args fault) =
      some (p.rabbit.send transport dest item.envelope args fault).2 := rfl
  have sound := step_sound traced.sound sent
  have stays : ∀ c result, p.returned c = some result → ∃ call received,
      (p.rabbit.send transport dest item.envelope args fault).2.calls c = some call ∧
        call.result c = some received ∧ result = Messenger.receive (codec (asks c)) received := by
    intro c result returned
    obtain ⟨call, received, found, took, decoded⟩ := traced.returned c result returned
    exact ⟨call, received, (step_frame sent nofun).trans found, took, decoded⟩
  rcases send_cases p.rabbit transport dest item.envelope args fault with ⟨success, after⟩ | ⟨refused, after⟩
  · rw [if_pos success]
    refine ⟨sound, ?_, ?_, stays⟩
    · simp [after, Rabbit.publish, traced.length]
    · intro d member
      rw [after] at member
      rcases List.mem_append.mp member with old | new
      · obtain ⟨post, here, rest⟩ := traced.posted d old
        exact ⟨post, List.getElem?_append_left (List.getElem?_eq_some_iff.mp here).1 ▸ here, rest⟩
      · obtain rfl := List.mem_singleton.mp new
        refine ⟨⟨dest, item⟩, ?_, rfl, rfl⟩
        simp [traced.length]
  · rw [if_neg refused, List.append_nil]
    refine ⟨sound, ?_, ?_, stays⟩
    · rw [after]
      exact traced.length
    · rw [after]
      exact traced.posted

theorem step_traced {posts : List (Post codec)} {e : Event T} (traced : Traced posts p)
    (stepped : step codec asks p e = some q) : Traced (posts ++ posted codec asks p e) q := by
  cases e with
  | other event =>
    rw [posted, List.append_nil]
    exact traced_other traced stepped
  | send transport dest kind value args fault =>
    simp only [step] at stepped
    simp only [posted]
    split
    · rename_i status failed
      rw [failed] at stepped
      obtain rfl := Option.some.inj stepped
      rwa [List.append_nil]
    · rename_i envelope encoded
      rw [encoded] at stepped
      obtain rfl := Option.some.inj stepped
      exact @traced_send _ _ _ _ _ _ transport dest ⟨kind, value, envelope, encoded⟩ args fault traced

theorem run_traced {es : List (Event T)} (ran : run (step codec asks) .new es = some p) :
    Traced (history (step codec asks) (posted codec asks) .new es) p := by
  have keeps : ∀ posts s e next, Traced posts s → True → step codec asks s e = some next →
      Traced (posts ++ posted codec asks s e) next := fun _ _ _ _ traced _ stepped => step_traced traced stepped
  have start : Traced ([] : List (Post codec)) (Messenger.Clients.new : Clients T asks) :=
    ⟨new_sound, rfl, nofun, nofun⟩
  exact history_invariant keeps start (along_of_forall (fun _ _ => trivial) _ es) ran

/-! ### What is received -/

/-- A codec decodes what it encodes, on the other side of the broker. -/
def Travels {V : Type*} (codec : Codec V) : Prop :=
  ∀ value envelope, codec.encode value = .ok envelope → codec.decode (named envelope) = .ok value

/-- The codecs read nothing that is lost on the way. -/
theorem protoCodec_travels {V : Type*} {format content_type : String} {serialize : V → Option String}
    {parse : String → Option V} (faithful : (protoCodec format content_type serialize parse).Faithful) :
    Travels (protoCodec format content_type serialize parse) :=
  fun value envelope encoded => faithful value envelope encoded

theorem receive_ok {V : Type*} (codec : Codec V) (message : Message) :
    Messenger.receive codec (.ok message) = codec.decode message.envelope := by
  cases read : codec.decode message.envelope <;> simp [Messenger.receive, Messenger.receiveExtended, read]

/-- A receive that asks for the type that was sent gets the value that was sent. -/
theorem decoded_of_same_kind (travels : ∀ kind, Travels (codec kind)) {item : Sent codec} {kind : Kind}
    (same : kind = item.kind) : ((codec kind).decode (named item.envelope)).map (Sigma.mk kind) = .ok item.typed := by
  obtain ⟨sentKind, value, envelope, encoded⟩ := item
  obtain rfl : kind = sentKind := same
  rw [travels kind value envelope encoded]
  rfl

/-- What a call with an origin returned. -/
theorem origin_eq_some {c : CallId} {k : Nat} : origin p c = some k ↔ ∃ call delivery, p.rabbit.calls c = some call ∧
    call.phase = .returned (.ok delivery) ∧ delivery.tag = k := by
  unfold origin
  cases found : p.rabbit.calls c with
  | none => simp
  | some call =>
    cases phase : call.phase with
    | returned result => cases result <;> simp [phase]
    | _ => simp [phase]

/-- A posted message is told by its place. -/
theorem posted_unique {posts : List (Post codec)} (traced : Traced posts p) {d other : Delivery}
    (member : d ∈ p.rabbit.accepted) (among : other ∈ p.rabbit.accepted) (same : d.tag = other.tag) : d = other := by
  obtain ⟨post, here, queue, message⟩ := traced.posted d member
  obtain ⟨another, there, queue', message'⟩ := traced.posted other among
  obtain rfl : post = another := Option.some.inj (here.symm.trans (same ▸ there))
  cases d
  cases other
  simp_all

/-- Calls in automatic mode have origins of their own. -/
theorem origin_unique {posts : List (Post codec)} (traced : Traced posts p) {c other : CallId} {call another : Call}
    {k : Nat} (found : p.rabbit.calls c = some call) (automatic : call.args.ack_mode = .Auto) (origin_c : origin p c = some k)
    (also : p.rabbit.calls other = some another) (mode : another.args.ack_mode = .Auto)
    (origin_other : origin p other = some k) : c = other := by
  obtain ⟨_, delivery, here, took, tag⟩ := origin_eq_some.mp origin_c
  obtain rfl := Option.some.inj (found.symm.trans here)
  obtain ⟨_, second, there, again, label⟩ := origin_eq_some.mp origin_other
  obtain rfl := Option.some.inj (also.symm.trans there)
  obtain rfl : delivery = second := posted_unique traced (returned_accepted traced.sound found took).1
    (returned_accepted traced.sound also again).1 (tag.trans label.symm)
  exact returned_once traced.sound found automatic took also mode again

/-- What a typed receive returned is the failure of its call, or what its type's codec makes
    of a value that was sent to its queue: that value, where it is of the type. No two
    receives in automatic mode get the same one. -/
theorem typed_receives_return_sent (travels : ∀ kind, Travels (codec kind)) {es : List (Event T)}
    (ran : run (step codec asks) .new es = some p) {c : CallId} {result : Except Status (T (asks c))}
    (returned : p.returned c = some result) :
    ∃ call, p.rabbit.calls c = some call ∧
      ((∃ status, call.phase = .returned (.error status) ∧ result = .error status) ∨
        ∃ k post, origin p c = some k ∧ (history (step codec asks) (posted codec asks) .new es)[k]? = some post ∧
          post.dest = call.src ∧ result = (codec (asks c)).decode (named post.item.envelope) ∧
          (asks c = post.item.kind → result.map (Sigma.mk (asks c)) = .ok post.item.typed) ∧
          (call.args.ack_mode = .Auto → ∀ other another, p.rabbit.calls other = some another →
            another.args.ack_mode = .Auto → origin p other = some k → other = c)) := by
  have traced := run_traced ran
  obtain ⟨call, received, found, took, decoded⟩ := traced.returned c result returned
  refine ⟨call, found, ?_⟩
  unfold Call.result at took
  split at took
  · rename_i delivery phase
    obtain rfl := Option.some.inj took
    obtain ⟨accepted, route⟩ := returned_accepted traced.sound found phase
    obtain ⟨post, here, queue, message⟩ := traced.posted delivery accepted
    have place : origin p c = some delivery.tag := origin_eq_some.mpr ⟨call, delivery, found, phase, rfl⟩
    have made : result = (codec (asks c)).decode (named post.item.envelope) := by
      rw [decoded, receive_ok, makeMessageFromDelivery, message, from_toBasicMessage]
    have dest : post.dest = call.src := by
      cases post_dest : post.dest
      cases call_src : call.src
      simp_all
    refine .inr ⟨delivery.tag, post, place, here, dest, made, ?_, ?_⟩
    · intro same
      rw [made]
      exact decoded_of_same_kind travels same
    · intro automatic other another also mode origin_other
      exact (origin_unique traced found automatic place also mode origin_other).symm
  · rename_i status phase
    obtain rfl := Option.some.inj took
    exact .inl ⟨status, phase, decoded⟩
  · cases took

theorem textOrFlag_travels (kind : Bool) : Travels (TypedQueue.textOrFlag kind) := by
  have faithful := TypedQueue.textOrFlag_faithful kind
  cases kind with
  | true =>
    rw [TypedQueue.textOrFlag, protoBinary] at faithful ⊢
    exact protoCodec_travels faithful
  | false =>
    rw [TypedQueue.textOrFlag, protoJson] at faithful ⊢
    exact protoCodec_travels faithful

/-- The first of two receives asks for a flag where a text was sent. -/
def asksFlagFirst : CallId → Bool
  | 0 => false
  | _ => true

/-- Two texts are sent, and polled in automatic mode. -/
def twoTexts : List (Event TypedQueue.TextOrFlag) :=
  [.send 0 ⟨"tasks"⟩ true "first" {} none, .send 0 ⟨"tasks"⟩ true "second" {} none,
    .other (.receive 0 1 ⟨"tasks"⟩ { timeout := some 0, ack_mode := .Auto }), .other (.transport (.fetch 0)),
    .other (.finish 0), .other (.receive 1 1 ⟨"tasks"⟩ { timeout := some 0, ack_mode := .Auto }),
    .other (.transport (.fetch 1)), .other (.finish 1)]

/-- The second text arrives behind the one that was no flag. -/
theorem twoTexts_return_sent : ∃ p, run (step TypedQueue.textOrFlag asksFlagFirst) .new twoTexts = some p ∧
    p.returned 1 = some (.ok "second") ∧ origin p 1 = some 1 ∧ ∃ k post, origin p 1 = some k ∧
      (history (step TypedQueue.textOrFlag asksFlagFirst) (posted TypedQueue.textOrFlag asksFlagFirst) .new twoTexts)[k]? =
        some post ∧ post.dest = ⟨"tasks"⟩ := by
  refine ⟨_, rfl, rfl, rfl, ?_⟩
  obtain ⟨call, found, failed | ⟨k, post, place, here, dest, _⟩⟩ :=
    @typed_receives_return_sent _ _ TypedQueue.textOrFlag asksFlagFirst _ textOrFlag_travels twoTexts rfl 1 (.ok "second") rfl
  · obtain ⟨status, _, other⟩ := failed
    cases other
  · obtain rfl := Option.some.inj found
    exact ⟨k, post, place, here, dest⟩

end Mqss.TypedRabbit
