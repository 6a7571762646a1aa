import Mqss.Machine
import Mqss.Transport
import Mqss.FiniteMap

/-!
The RabbitMQ transport over its broker. `send` publishes to the queue named by
the destination. Every `receive` opens a channel of its own, polls it once or
consumes from it, and closes it when its last reference is dropped: with the
call, or with the last copy of a message that is to be acknowledged by hand.

The broker pushes queued deliveries to a consumer at its own pace. A prefetch
limit binds consumers that acknowledge; a delivery to a consumer that does not
is forgotten at once. Deliveries that were neither acknowledged nor rejected go
back to the front of their queue when their channel is closed, and whatever a
cancelled or closed channel still buffers is discarded.

The stop flag is read without a lock. A step that reads it stands for that
reading together with what the call then does: the publishing of a `send`, the
deadline check of a round of the wait loop. A shutdown that comes in between is
taken to come after the step.
-/

namespace Mqss.RabbitMq

/-- The types of header values besides strings. -/
inductive ValueType
  | void | bool | int8 | int16 | int32 | int64 | uint8 | uint16 | uint32 | float | double | timestamp | array | table
  deriving DecidableEq, Repr

/-- Header values as the client library keeps them, those that are not strings by their
    type and content; `GetString` throws on the latter. -/
inductive TableValue
  | string (value : String)
  | other (type : ValueType) (content : List UInt8)
  deriving DecidableEq, Repr

def TableValue.GetString : TableValue → Option String
  | .string value => some value
  | _ => none

/-- The client library's message: a property that was not set is absent. -/
structure BasicMessage where
  body : String
  content_type : Option String := none
  correlation_id : Option String := none
  reply_to : Option String := none
  header_table : Option (Finmap (fun _ : String => TableValue)) := none
  deriving DecidableEq

/-- Convert a transport envelope; empty fields are not set. -/
def toBasicMessage (envelope : Envelope) : BasicMessage where
  body := envelope.payload
  content_type := if envelope.content_type = "" then none else some envelope.content_type
  correlation_id := if envelope.correlation_id = "" then none else some envelope.correlation_id
  reply_to :=
    match envelope.reply_to with
    | none => none
    | some address => if address.name = "" then none else some address.name
  header_table :=
    if envelope.headers = ∅ then none
    else some (FiniteMap.filterMapValues (fun v => some (.string v)) envelope.headers)

/-- Convert a message of the client library; headers that are not strings are ignored. -/
def fromBasicMessage (msg : BasicMessage) : Envelope where
  payload := msg.body
  content_type := msg.content_type.getD ""
  correlation_id := msg.correlation_id.getD ""
  reply_to := msg.reply_to.map Address.mk
  headers :=
    match msg.header_table with
    | none => ∅
    | some table => FiniteMap.filterMapValues TableValue.GetString table

/-- A message in the broker's custody; the tag is its place in the order of acceptance. -/
structure Delivery where
  tag : Nat
  queue : String
  message : BasicMessage
  deriving DecidableEq

abbrev TransportId := Nat
abbrev CallId := Nat

/-- A channel: whether its consumer is registered, the deliveries pushed to it that the
    client has not read, and those that wait for an acknowledgement. -/
structure Channel where
  consuming : Bool := false
  buffered : List Delivery := []
  unacked : List Delivery := []
  deriving DecidableEq

/-- Where a call of `receive` stands: connected with its queue declared, at the head of
    its wait loop, inside `BasicConsumeMessage`, decided but with its consumer still
    registered, or returned. -/
inductive Phase
  | connected
  | polling
  | waiting
  | leaving (result : Except Status Delivery)
  | returned (result : Except Status Delivery)

/-- The delivery that a call has taken from its channel. -/
def Phase.inHand : Phase → List Delivery
  | .leaving (.ok delivery) => [delivery]
  | .returned (.ok delivery) => [delivery]
  | _ => []

/-- One call of `receive`. `handed` is every delivery the broker gave to its channel;
    `completed` and `copies` are the shared state of a message acknowledged by hand: whether
    it was settled, and how many `Message` objects still share it. -/
structure Call where
  transport : TransportId
  src : Address
  args : ReceiveArgs
  phase : Phase := .connected
  channel : Channel := {}
  handed : List Delivery := []
  completed : Bool := false
  copies : Nat := 0

/-- The broker's queues and the transports that use it, with every delivery accepted
    and every call made so far. -/
structure Rabbit where
  stopped : TransportId → Bool
  accepted : List Delivery
  ready : String → List Delivery
  calls : CallId → Option Call

def Rabbit.new : Rabbit := ⟨fun _ => false, [], fun _ => [], fun _ => none⟩

def Rabbit.set (s : Rabbit) (c : CallId) (call : Call) : Rabbit :=
  { s with calls := Function.update s.calls c (some call) }

def Rabbit.setReady (s : Rabbit) (queue : String) (deliveries : List Delivery) : Rabbit :=
  { s with ready := Function.update s.ready queue deliveries }

/-- The broker accepts a delivery at the end of its queue. -/
def Rabbit.publish (s : Rabbit) (delivery : Delivery) : Rabbit :=
  { s.setReady delivery.queue (s.ready delivery.queue ++ [delivery]) with accepted := s.accepted ++ [delivery] }

/-- Close the channel of a call: what is unsettled goes back to its queue, the rest is discarded. -/
def Rabbit.close (s : Rabbit) (c : CallId) (call : Call) : Rabbit :=
  (s.setReady call.src.name (call.channel.unacked ++ s.ready call.src.name)).set c { call with channel := {} }

/-- Build a message from a delivery; only manual mode installs handlers. -/
def makeMessageFromDelivery (c : CallId) (delivery : Delivery) (ack_mode : AckMode) : Message where
  envelope := fromBasicMessage delivery.message
  handlers := if ack_mode = .Manual then some c else none

/-- `receive` returns and drops its reference to the channel. A message to acknowledge by
    hand keeps the channel open, any other result closes it. -/
def Rabbit.finish (s : Rabbit) (c : CallId) (call : Call) (result : Except Status Delivery) : Rabbit :=
  match call.args.ack_mode, result with
  | .Manual, .ok _ =>
    s.set c
      { call with
        phase := .returned result
        channel := { call.channel with buffered := [] }
        copies := 1 }
  | _, _ => s.close c { call with phase := .returned result }

/-- What the caller of `receive` gets. -/
def Call.result (c : CallId) (call : Call) : Option (Result Message) :=
  match call.phase with
  | .returned (.ok delivery) => some (.ok (makeMessageFromDelivery c delivery call.args.ack_mode))
  | .returned (.error status) => some (.error status)
  | _ => none

/-- `send`, from its last stop check on; a fault is an exception of the client library before the
    broker has the message. -/
def Rabbit.send (s : Rabbit) (transport : TransportId) (dest : Address) (envelope : Envelope) (args : SendArgs)
    (fault : Option String) : Status × Rabbit :=
  if dest.name = "" then (.invalidArgument "send destination name is empty", s)
  else if args.confirm then (.unsupported "send confirmation is not supported", s)
  else if s.stopped transport then (.unavailable "transport shut down", s)
  else
    match fault with
    | some what => (.unavailable ("send failed: " ++ what), s)
    | none =>
      (.success, s.publish ⟨s.accepted.length, dest.name, toBasicMessage envelope⟩)

/-- `receive` up to the point where its channel is open and its queue declared. -/
def Rabbit.receive (s : Rabbit) (c : CallId) (transport : TransportId) (src : Address) (args : ReceiveArgs) :
    Rabbit :=
  let call : Call := { transport := transport, src := src, args := args }
  if src.name = "" then s.finish c call (.error (.invalidArgument "receive source name is empty"))
  else if s.stopped transport then s.finish c call (.error (.unavailable "transport shut down"))
  else s.set c call

/-- The broker hands the front of a queue to a channel, which takes note of it. -/
def Call.hand (call : Call) (delivery : Delivery) : Call :=
  { call with
    handed := call.handed ++ [delivery]
    channel :=
      { call.channel with
        unacked := if call.args.ack_mode = .Manual then call.channel.unacked ++ [delivery] else call.channel.unacked } }

def Call.buffer (call : Call) (delivery : Delivery) : Call :=
  { call with channel := { call.channel with buffered := call.channel.buffered ++ [delivery] } }

/-- Whether the broker may push to the consumer of a call: always when it does not
    acknowledge, up to a prefetch count of one when it does. -/
def Call.pushable (call : Call) : Bool :=
  call.channel.consuming && (call.args.ack_mode = .Auto || call.channel.unacked.isEmpty)

inductive Event
  | send (transport : TransportId) (dest : Address) (envelope : Envelope) (args : SendArgs) (fault : Option String)
  | shutdown (transport : TransportId)
  /-- A new call of `receive`. -/
  | receive (call : CallId) (transport : TransportId) (src : Address) (args : ReceiveArgs)
  /-- `BasicGet`. -/
  | fetch (call : CallId)
  /-- `BasicConsume`. -/
  | consume (call : CallId)
  /-- The broker pushes a delivery. -/
  | push (call : CallId)
  /-- The loop enters `BasicConsumeMessage`. -/
  | wait (call : CallId)
  /-- `BasicConsumeMessage` returns. -/
  | poll (call : CallId)
  /-- The loop sees the stop flag, or past it the deadline. -/
  | giveUp (call : CallId)
  /-- `BasicCancel`, whose exceptions are ignored, and the return. -/
  | cancel (call : CallId) (thrown : Bool)
  /-- Any other call of the client library throws. -/
  | fail (call : CallId) (what : String)
  | copy (call : CallId)
  | drop (call : CallId)
  | ack (call : CallId) (fault : Option String)
  | nack (call : CallId) (requeue : Bool) (fault : Option String)

/-- The call of `receive` that an event is about. -/
def Event.call : Event → Option CallId
  | .send .. | .shutdown .. => none
  | .receive c _ _ _ | .fetch c | .consume c | .push c | .wait c | .poll c | .giveUp c | .cancel c _ | .fail c _
  | .copy c | .drop c | .ack c _ | .nack c _ _ => some c

/-- The poll: `BasicGet`, with no acknowledgement in automatic mode. -/
def Rabbit.fetch (s : Rabbit) (c : CallId) (call : Call) : Rabbit :=
  match s.ready call.src.name with
  | [] => s.finish c call (.error (.timeout "no message received"))
  | delivery :: rest =>
    (s.setReady call.src.name rest).finish c (call.hand delivery) (.ok delivery)

/-- The broker's push: the delivery is also buffered until the client reads it. -/
def Rabbit.push (s : Rabbit) (c : CallId) (call : Call) : Option Rabbit :=
  match s.ready call.src.name with
  | [] => none
  | delivery :: rest =>
    some ((s.setReady call.src.name rest).set c ((call.hand delivery).buffer delivery))

/-- The reading of `BasicConsumeMessage`: the oldest buffered delivery, or back to the loop. -/
def Call.poll (call : Call) : Call :=
  match call.channel.buffered with
  | [] => { call with phase := .polling }
  | delivery :: rest =>
    { call with phase := .leaving (.ok delivery), channel := { call.channel with buffered := rest } }

/-- How the loop ends without a message, if it may: the stop flag is looked at before the deadline. -/
def Call.giveUp (call : Call) (stopped : Bool) : Option Status :=
  if stopped then some (.unavailable "transport shut down")
  else if call.args.timeout.isSome then some (.timeout "receive timed out")
  else none

/-- The acknowledgement handler: its status, and whether the broker was reached. -/
def ackStatus (completed : Bool) (fault : Option String) (name : String) : Status × Bool :=
  if completed then (.internal "message already acked/nacked", false)
  else
    match fault with
    | some what => (.internal (name ++ " failed: " ++ what), false)
    | none => (.success, true)

/-- A successful settlement: the delivery is no longer outstanding on the channel. -/
def Call.settle (call : Call) (delivery : Delivery) : Call :=
  { call with
    completed := true
    channel := { call.channel with unacked := call.channel.unacked.erase delivery } }

def step (s : Rabbit) : Event → Option Rabbit
  | .send transport dest envelope args fault => some (s.send transport dest envelope args fault).2
  | .shutdown transport => some { s with stopped := Function.update s.stopped transport true }
  | .receive c transport src args =>
    match s.calls c with
    | none => some (s.receive c transport src args)
    | some _ => none
  | .fetch c =>
    match s.calls c with
    | none => none
    | some call =>
      match call.phase with
      | .connected => if call.args.timeout = some 0 then some (s.fetch c call) else none
      | _ => none
  | .consume c =>
    match s.calls c with
    | none => none
    | some call =>
      match call.phase with
      | .connected =>
        if call.args.timeout = some 0 then none
        else some (s.set c { call with phase := .polling, channel := { call.channel with consuming := true } })
      | _ => none
  | .push c =>
    match s.calls c with
    | none => none
    | some call => if call.pushable then s.push c call else none
  | .wait c =>
    match s.calls c with
    | none => none
    | some call =>
      match call.phase with
      | .polling => if s.stopped call.transport then none else some (s.set c { call with phase := .waiting })
      | _ => none
  | .poll c =>
    match s.calls c with
    | none => none
    | some call =>
      match call.phase with
      | .waiting => some (s.set c call.poll)
      | _ => none
  | .giveUp c =>
    match s.calls c with
    | none => none
    | some call =>
      match call.phase with
      | .polling =>
        (call.giveUp (s.stopped call.transport)).map
          (fun status => s.set c { call with phase := .leaving (.error status) })
      | _ => none
  | .cancel c thrown =>
    match s.calls c with
    | none => none
    | some call =>
      match call.phase with
      | .leaving result =>
        some (s.finish c { call with channel := { call.channel with consuming := thrown } } result)
      | _ => none
  | .fail c what =>
    match s.calls c with
    | none => none
    | some call =>
      match call.phase with
      | .connected | .waiting => some (s.finish c call (.error (.unavailable ("receive failed: " ++ what))))
      | _ => none
  | .copy c =>
    match s.calls c with
    | none => none
    | some call => if call.copies = 0 then none else some (s.set c { call with copies := call.copies + 1 })
  | .drop c =>
    match s.calls c with
    | none => none
    | some call =>
      match call.copies with
      | 0 => none
      | 1 => some (s.close c { call with copies := 0 })
      | n + 2 => some (s.set c { call with copies := n + 1 })
  | .ack c fault =>
    match s.calls c with
    | none => none
    | some call =>
      match call.copies, call.phase with
      | _ + 1, .returned (.ok delivery) =>
        if (ackStatus call.completed fault "ack").2 then some (s.set c (call.settle delivery)) else some s
      | _, _ => none
  | .nack c requeue fault =>
    match s.calls c with
    | none => none
    | some call =>
      match call.copies, call.phase with
      | _ + 1, .returned (.ok delivery) =>
        if (ackStatus call.completed fault "nack").2 then
          let settled := s.set c (call.settle delivery)
          some (if requeue then settled.setReady delivery.queue (delivery :: s.ready delivery.queue) else settled)
        else some s
      | _, _ => none

/-- Everything a step can do, with the guards it passed. -/
inductive Change (s : Rabbit) : Event → Rabbit → Prop
  | refused {transport dest envelope args fault} : Change s (.send transport dest envelope args fault) s
  | published {transport dest envelope args} (named : dest.name ≠ "") (running : s.stopped transport = false) :
      Change s (.send transport dest envelope args none)
        (s.publish ⟨s.accepted.length, dest.name, toBasicMessage envelope⟩)
  | stopped {transport} :
      Change s (.shutdown transport) { s with stopped := Function.update s.stopped transport true }
  | rejected {c transport src args} (status : Status) (new : s.calls c = none) :
      Change s (.receive c transport src args)
        (s.finish c { transport := transport, src := src, args := args } (.error status))
  | opened {c transport src args} (new : s.calls c = none) :
      Change s (.receive c transport src args) (s.set c { transport := transport, src := src, args := args })
  | fetchedNone {c call} (found : s.calls c = some call) (phase : call.phase = .connected)
      (queue : s.ready call.src.name = []) :
      Change s (.fetch c) (s.finish c call (.error (.timeout "no message received")))
  | fetched {c call delivery rest} (found : s.calls c = some call) (phase : call.phase = .connected)
      (queue : s.ready call.src.name = delivery :: rest) :
      Change s (.fetch c) ((s.setReady call.src.name rest).finish c (call.hand delivery) (.ok delivery))
  | consumed {c call} (found : s.calls c = some call) (phase : call.phase = .connected) :
      Change s (.consume c)
        (s.set c { call with phase := .polling, channel := { call.channel with consuming := true } })
  | pushed {c call delivery rest} (found : s.calls c = some call) (pushable : call.pushable = true)
      (queue : s.ready call.src.name = delivery :: rest) :
      Change s (.push c) ((s.setReady call.src.name rest).set c ((call.hand delivery).buffer delivery))
  | waited {c call} (found : s.calls c = some call) (phase : call.phase = .polling) :
      Change s (.wait c) (s.set c { call with phase := .waiting })
  | polled {c call} (found : s.calls c = some call) (phase : call.phase = .waiting) :
      Change s (.poll c) (s.set c call.poll)
  | gaveUp {c call} (status : Status) (found : s.calls c = some call) (phase : call.phase = .polling) :
      Change s (.giveUp c) (s.set c { call with phase := .leaving (.error status) })
  | cancelled {c call result thrown} (found : s.calls c = some call) (phase : call.phase = .leaving result) :
      Change s (.cancel c thrown)
        (s.finish c { call with channel := { call.channel with consuming := thrown } } result)
  | failed {c call what} (found : s.calls c = some call)
      (phase : call.phase = .connected ∨ call.phase = .waiting) :
      Change s (.fail c what) (s.finish c call (.error (.unavailable ("receive failed: " ++ what))))
  | copied {c call} (found : s.calls c = some call) (shared : call.copies ≠ 0) :
      Change s (.copy c) (s.set c { call with copies := call.copies + 1 })
  | droppedLast {c call} (found : s.calls c = some call) (last : call.copies = 1) :
      Change s (.drop c) (s.close c { call with copies := 0 })
  | dropped {c call n} (found : s.calls c = some call) (more : call.copies = n + 2) :
      Change s (.drop c) (s.set c { call with copies := n + 1 })
  | unacked {c call fault} (found : s.calls c = some call) (ignored : call.completed = true ∨ fault ≠ none) :
      Change s (.ack c fault) s
  | unrejected {c call requeue fault} (found : s.calls c = some call)
      (ignored : call.completed = true ∨ fault ≠ none) : Change s (.nack c requeue fault) s
  | acked {c call delivery} (found : s.calls c = some call) (shared : call.copies ≠ 0)
      (phase : call.phase = .returned (.ok delivery)) (unsettled : call.completed = false) :
      Change s (.ack c none) (s.set c (call.settle delivery))
  | rejectedBack {c call delivery} (found : s.calls c = some call) (shared : call.copies ≠ 0)
      (phase : call.phase = .returned (.ok delivery)) (unsettled : call.completed = false) :
      Change s (.nack c true none)
        ((s.set c (call.settle delivery)).setReady delivery.queue (delivery :: s.ready delivery.queue))
  | rejectedForGood {c call delivery} (found : s.calls c = some call) (shared : call.copies ≠ 0)
      (phase : call.phase = .returned (.ok delivery)) (unsettled : call.completed = false) :
      Change s (.nack c false none) (s.set c (call.settle delivery))

/-- The broker is reached by the first settlement that does not fail. -/
theorem ackStatus_reached (completed : Bool) (fault : Option String) (name : String) :
    (ackStatus completed fault name).2 = true ↔ completed = false ∧ fault = none := by
  cases completed <;> cases fault <;> simp [ackStatus]

/-- A step about a call finds the call. -/
theorem call_of_step {s t : Rabbit} {c : CallId} {body : Call → Option Rabbit}
    (stepped : (match s.calls c with | none => none | some call => body call) = some t) :
    ∃ call, s.calls c = some call ∧ body call = some t := by
  cases found : s.calls c with
  | none => simp [found] at stepped
  | some call => exact ⟨call, rfl, by simpa [found] using stepped⟩

theorem step_change {s t : Rabbit} {e : Event} (stepped : step s e = some t) : Change s e t := by
  cases e with
  | send transport dest envelope args fault =>
    obtain rfl := Option.some.inj stepped
    unfold Rabbit.send
    split_ifs with unnamed confirm stopped
    · exact .refused
    · exact .refused
    · exact .refused
    · cases fault with
      | some what => exact .refused
      | none => exact .published unnamed (by simpa using stopped)
  | shutdown transport =>
    obtain rfl := Option.some.inj stepped
    exact .stopped
  | receive c transport src args =>
    simp only [step] at stepped
    split at stepped
    · rename_i new
      obtain rfl := Option.some.inj stepped
      unfold Rabbit.receive
      split_ifs
      · exact .rejected _ new
      · exact .rejected _ new
      · exact .opened new
    · cases stepped
  | fetch c =>
    obtain ⟨call, found, stepped⟩ := call_of_step stepped
    split at stepped
    · rename_i phase
      split at stepped
      · obtain rfl := Option.some.inj stepped
        unfold Rabbit.fetch
        split
        · rename_i queue
          exact .fetchedNone found phase queue
        · rename_i delivery rest queue
          exact .fetched found phase queue
      · cases stepped
    · cases stepped
  | consume c =>
    obtain ⟨call, found, stepped⟩ := call_of_step stepped
    split at stepped
    · rename_i phase
      split at stepped
      · cases stepped
      · obtain rfl := Option.some.inj stepped
        exact .consumed found phase
    · cases stepped
  | push c =>
    obtain ⟨call, found, stepped⟩ := call_of_step stepped
    split at stepped
    · rename_i pushable
      unfold Rabbit.push at stepped
      split at stepped
      · cases stepped
      · rename_i delivery rest queue
        obtain rfl := Option.some.inj stepped
        exact .pushed found pushable queue
    · cases stepped
  | wait c =>
    obtain ⟨call, found, stepped⟩ := call_of_step stepped
    split at stepped
    · rename_i phase
      split at stepped
      · cases stepped
      · obtain rfl := Option.some.inj stepped
        exact .waited found phase
    · cases stepped
  | poll c =>
    obtain ⟨call, found, stepped⟩ := call_of_step stepped
    split at stepped
    · rename_i phase
      obtain rfl := Option.some.inj stepped
      exact .polled found phase
    · cases stepped
  | giveUp c =>
    obtain ⟨call, found, stepped⟩ := call_of_step stepped
    split at stepped
    · rename_i phase
      obtain ⟨status, _, rfl⟩ := Option.map_eq_some_iff.mp stepped
      exact .gaveUp status found phase
    · cases stepped
  | cancel c thrown =>
    obtain ⟨call, found, stepped⟩ := call_of_step stepped
    split at stepped
    · rename_i result phase
      obtain rfl := Option.some.inj stepped
      exact .cancelled found phase
    · cases stepped
  | fail c what =>
    obtain ⟨call, found, stepped⟩ := call_of_step stepped
    split at stepped
    · rename_i phase
      obtain rfl := Option.some.inj stepped
      exact .failed found (.inl phase)
    · rename_i phase
      obtain rfl := Option.some.inj stepped
      exact .failed found (.inr phase)
    · cases stepped
  | copy c =>
    obtain ⟨call, found, stepped⟩ := call_of_step stepped
    split at stepped
    · cases stepped
    · rename_i shared
      obtain rfl := Option.some.inj stepped
      exact .copied found shared
  | drop c =>
    obtain ⟨call, found, stepped⟩ := call_of_step stepped
    split at stepped
    · cases stepped
    · rename_i last
      obtain rfl := Option.some.inj stepped
      exact .droppedLast found last
    · rename_i n more
      obtain rfl := Option.some.inj stepped
      exact .dropped found more
  | ack c fault =>
    obtain ⟨call, found, stepped⟩ := call_of_step stepped
    split at stepped
    · rename_i n delivery shared phase
      split at stepped
      · rename_i reached
        obtain rfl := Option.some.inj stepped
        obtain ⟨unsettled, rfl⟩ := (ackStatus_reached _ _ _).mp reached
        exact .acked found (by omega) phase unsettled
      · rename_i ignored
        obtain rfl := Option.some.inj stepped
        refine .unacked found ?_
        simpa [ackStatus_reached, or_iff_not_imp_left] using ignored
    · cases stepped
  | nack c requeue fault =>
    obtain ⟨call, found, stepped⟩ := call_of_step stepped
    split at stepped
    · rename_i n delivery shared phase
      split at stepped
      · rename_i reached
        obtain rfl := Option.some.inj stepped
        obtain ⟨unsettled, rfl⟩ := (ackStatus_reached _ _ _).mp reached
        cases requeue with
        | true => exact .rejectedBack found (by omega) phase unsettled
        | false => exact .rejectedForGood found (by omega) phase unsettled
      · rename_i ignored
        obtain rfl := Option.some.inj stepped
        refine .unrejected found ?_
        simpa [ackStatus_reached, or_iff_not_imp_left] using ignored
    · cases stepped

end Mqss.RabbitMq
