import Mqss.InMemoryCalls
import Mqss.InMemoryFifo
import Mqss.Messenger
import Mqss.Traversals

/-!
The typed messenger over the in-memory transport. Several types share the queues; a send
encodes before it takes the lock, a receive decodes what it took after it has left it. To
the callers it is one queue of typed values per address, from which a receive that cannot
decode takes its one message as well. Decoding looks at nothing but the message taken, so
what it comes to is recorded with the step that takes the message.
-/

namespace Mqss

/-- A codec decodes what it encodes. -/
def Codec.Faithful {T : Type*} (codec : Codec T) : Prop :=
  ∀ value envelope, codec.encode value = .ok envelope → codec.decode envelope = .ok value

/-- A codec over the library's functions for one format. -/
def protoCodec {T : Type*} (format content_type : String) (serialize : T → Option String) (parse : String → Option T) :
    Codec T where
  encode msg :=
    match serialize msg with
    | none => .error (.serialization ("protobuf " ++ format ++ " serialization failed"))
    | some payload => .ok { payload := payload, content_type := content_type }
  decode envelope :=
    match parse envelope.payload with
    | none => .error (.serialization ("protobuf " ++ format ++ " parse failed"))
    | some msg => .ok msg

/-- `Codec<T, ProtoBinary>`. -/
def protoBinary {T : Type*} (SerializeToString : T → Option String) (ParseFromString : String → Option T) : Codec T :=
  protoCodec "binary" "application/x-protobuf" SerializeToString ParseFromString

/-- `Codec<T, ProtoJson>`. -/
def protoJson {T : Type*} (MessageToJsonString : T → Option String) (JsonStringToMessage : String → Option T) :
    Codec T :=
  protoCodec "JSON" "application/json" MessageToJsonString JsonStringToMessage

/-- The codecs are as faithful as the library. -/
theorem protoCodec_faithful {T : Type*} {format content_type : String} {serialize : T → Option String}
    {parse : String → Option T} :
    (protoCodec format content_type serialize parse).Faithful ↔
      ∀ msg payload, serialize msg = some payload → parse payload = some msg := by
  constructor
  · intro faithful msg payload written
    have encoded : (protoCodec format content_type serialize parse).encode msg =
        .ok { payload := payload, content_type := content_type } := by
      simp only [protoCodec, written]
    have decoded := faithful msg _ encoded
    simp only [protoCodec] at decoded
    split at decoded
    · cases decoded
    · rename_i read
      rw [read, Except.ok.inj decoded]
  · intro inverse msg envelope encoded
    simp only [protoCodec] at encoded
    split at encoded
    · cases encoded
    · rename_i payload written
      obtain rfl := Except.ok.inj encoded
      simp only [protoCodec, inverse msg payload written]

namespace TypedQueue
open Mqss.Machine Mqss.Traversals
open Mqss.InMemory (Process Observation ThreadId Wake makeMessageFromEnvelope)
universe u v

variable {Kind : Type u} {T : Kind → Type v}

/-! ### The calls -/

/-- The type that a receive asks for, and whether it is a `receiveExtended`. -/
structure Ask (Kind : Type u) where
  kind : Kind
  extended : Bool

/-- The transport, and the receive that each thread called last. -/
structure Clients (Kind : Type u) where
  process : Process
  asks : ThreadId → Option (Ask Kind)

def Clients.new : Clients Kind := ⟨.new, fun _ => none⟩

inductive Event (T : Kind → Type v)
  | send (thread : ThreadId) (dest : Address) (kind : Kind) (value : T kind) (args : SendArgs)
  | receive (thread : ThreadId) (src : Address) (ask : Ask Kind) (args : ReceiveArgs)
  | wake (thread : ThreadId) (cause : Wake)
  | shutdown (thread : ThreadId)
  | notifyAll (thread : ThreadId)

variable (codec : ∀ kind, Codec (T kind))

/-- A send whose encoding fails returns without a call of the transport; a wake-up goes on
    with the receive that its thread called. -/
def step (p : Clients Kind) : Event T → Option (Clients Kind)
  | .send thread dest kind value args =>
    match (codec kind).encode value with
    | .error _ => if p.process.threads thread = .idle then some p else none
    | .ok envelope =>
      (InMemory.step p.process (.send thread dest envelope args)).map fun process => { p with process := process }
  | .receive thread src ask args =>
    (InMemory.step p.process (.receive thread src args)).map
      fun process => ⟨process, Function.update p.asks thread (some ask)⟩
  | .wake thread cause =>
    match p.asks thread with
    | none => none
    | some _ => (InMemory.step p.process (.wake thread cause)).map fun process => { p with process := process }
  | .shutdown thread =>
    (InMemory.step p.process (.shutdown thread)).map fun process => { p with process := process }
  | .notifyAll thread =>
    (InMemory.step p.process (.notifyAll thread)).map fun process => { p with process := process }

/-- What a receive returns to its caller. -/
inductive Returned (T : Type v)
  | value (result : Except Status T)
  | extended (result : Except Status (T × Message))

/-- The call of `receive` or `receiveExtended` after the transport returned. -/
def answer (ask : Ask Kind) (received : Result Message) : Returned (T ask.kind) :=
  if ask.extended then .extended (Messenger.receiveExtended (codec ask.kind) received)
  else .value (Messenger.receive (codec ask.kind) received)

/-- A value that was encoded. -/
structure Sent (codec : ∀ kind, Codec (T kind)) where
  kind : Kind
  value : T kind
  envelope : Envelope
  encoded : (codec kind).encode value = .ok envelope

/-- What the callers learn: the status of a send whose encoding failed, the status of any
    other send, and for a receive that ends what the transport returned and what its caller got. -/
inductive Seen (codec : ∀ kind, Codec (T kind))
  | unencoded (thread : ThreadId) (dest : Address) (kind : Kind) (value : T kind) (status : Status)
  | sent (thread : ThreadId) (dest : Address) (item : Sent codec) (status : Status)
  | received (thread : ThreadId) (src : Address) (ask : Ask Kind) (message : Result Message)
      (returned : Returned (T ask.kind))

/-- What is seen of a receive, from what is seen of the transport. -/
def typed (ask : Ask Kind) : Observation → Option (Seen codec)
  | .received thread src message => some (.received thread src ask message (answer codec ask message))
  | .sent _ _ _ _ => none

def see (p : Clients Kind) : Event T → List (Seen codec)
  | .send thread dest kind value args =>
    match encoded : (codec kind).encode value with
    | .error status => [.unencoded thread dest kind value status]
    | .ok envelope =>
      [.sent thread dest ⟨kind, value, envelope, encoded⟩ (InMemory.send dest envelope args p.process.shared).1]
  | .receive thread src ask args =>
    (InMemory.observe p.process (.receive thread src args)).filterMap (typed codec ask)
  | .wake thread cause =>
    match p.asks thread with
    | none => []
    | some ask => (InMemory.observe p.process (.wake thread cause)).filterMap (typed codec ask)
  | .shutdown _ => []
  | .notifyAll _ => []

variable {codec}

/-- What the transport shows of it. -/
def Seen.observation : Seen codec → List Observation
  | .unencoded _ _ _ _ _ => []
  | .sent thread dest item status => [.sent thread dest item.envelope status]
  | .received thread src _ message _ => [.received thread src message]

/-! ### The queues of values -/

/-- A message that a receive took, and what its caller got. -/
structure Taken (T : Kind → Type v) where
  ask : Ask Kind
  message : Message
  returned : Returned (T ask.kind)

/-- The sends to a name that the transport accepted, in the order of their locked sections. -/
def sentTo (name : String) : List (Seen codec) → List (Sent codec)
  | [] => []
  | .sent _ dest item status :: rest =>
    if dest.name = name ∧ status.ok then item :: sentTo name rest else sentTo name rest
  | .unencoded _ _ _ _ _ :: rest => sentTo name rest
  | .received _ _ _ _ _ :: rest => sentTo name rest

/-- The receives from a name to which the transport gave a message, in the order of their pops. -/
def takenFrom (name : String) : List (Seen codec) → List (Taken T)
  | [] => []
  | .received _ src ask (.ok message) returned :: rest =>
    if src.name = name then ⟨ask, message, returned⟩ :: takenFrom name rest else takenFrom name rest
  | .received _ _ _ (.error _) _ :: rest => takenFrom name rest
  | .unencoded _ _ _ _ _ :: rest => takenFrom name rest
  | .sent _ _ _ _ :: rest => takenFrom name rest

theorem sentTo_envelopes (name : String) (seen : List (Seen codec)) :
    InMemory.sentTo name (seen.flatMap Seen.observation) = (sentTo name seen).map Sent.envelope := by
  induction seen with
  | nil => rfl
  | cons first rest ih =>
    rw [List.flatMap_cons]
    cases first with
    | unencoded thread dest kind value status => exact ih
    | sent thread dest item status =>
      simp only [Seen.observation, List.singleton_append, InMemory.sentTo, sentTo, ih]
      split <;> rfl
    | received thread src ask message returned => exact ih

theorem takenFrom_envelopes (name : String) (seen : List (Seen codec)) :
    InMemory.receivedFrom name (seen.flatMap Seen.observation) =
      (takenFrom name seen).map fun taken => taken.message.envelope := by
  induction seen with
  | nil => rfl
  | cons first rest ih =>
    rw [List.flatMap_cons]
    cases first with
    | unencoded thread dest kind value status => exact ih
    | sent thread dest item status => exact ih
    | received thread src ask message returned =>
      cases message with
      | error status => exact ih
      | ok message =>
        simp only [Seen.observation, List.singleton_append, InMemory.receivedFrom, takenFrom, ih]
        split <;> rfl

/-! ### What one step does -/

/-- The transport takes a step that shows what is seen, or none and nothing is seen of it. -/
inductive Change (p : Clients Kind) : Event T → Clients Kind → List (Seen codec) → Prop
  | unencoded {thread dest kind value args status} (failed : (codec kind).encode value = .error status) :
      Change p (.send thread dest kind value args) p [.unencoded thread dest kind value status]
  | transport {e q seen} (event : InMemory.Event) (stepped : InMemory.step p.process event = some q.process)
      (shown : InMemory.observe p.process event = seen.flatMap Seen.observation) : Change p e q seen

theorem typed_observation {ask : Ask Kind} {observations : List Observation}
    (receives : ∀ observation ∈ observations, ∃ thread src message, observation = .received thread src message) :
    (observations.filterMap (typed codec ask)).flatMap Seen.observation = observations := by
  induction observations with
  | nil => rfl
  | cons observation observations ih =>
    obtain ⟨thread, src, message, rfl⟩ := receives observation List.mem_cons_self
    have later := ih fun other member => receives other (List.mem_cons_of_mem _ member)
    have first : typed codec ask (.received thread src message) =
        some (.received thread src ask message (answer codec ask message)) := rfl
    rw [List.filterMap_cons_some first, List.flatMap_cons, later]
    rfl

theorem observed_receives {verdict : InMemory.Section} {thread : ThreadId} {src : Address} :
    ∀ observation ∈ verdict.observed thread src, ∃ thread src message, observation = .received thread src message := by
  intro observation member
  cases verdict with
  | returns result after =>
    obtain rfl := List.mem_singleton.mp member
    exact ⟨thread, src, result, rfl⟩
  | waits => cases member

theorem wake_receives (process : Process) (thread : ThreadId) (cause : Wake) :
    ∀ observation ∈ InMemory.observe process (.wake thread cause),
      ∃ thread src message, observation = .received thread src message := by
  simp only [InMemory.observe]
  split
  · exact observed_receives
  · simp

/-- A send ends in its encoding, or it is the send of the envelope. -/
theorem step_send {p q : Clients Kind} {thread : ThreadId} {dest : Address} {kind : Kind} {value : T kind}
    {args : SendArgs} (stepped : step codec p (.send thread dest kind value args) = some q) :
    (∃ status, (codec kind).encode value = .error status ∧ q = p ∧
      see codec p (.send thread dest kind value args) = [.unencoded thread dest kind value status]) ∨
    ∃ (envelope : Envelope) (encoded : (codec kind).encode value = .ok envelope) (process : Process),
      InMemory.step p.process (.send thread dest envelope args) = some process ∧ q = { p with process := process } ∧
      see codec p (.send thread dest kind value args) =
        [.sent thread dest ⟨kind, value, envelope, encoded⟩ (InMemory.send dest envelope args p.process.shared).1] := by
  simp only [step] at stepped
  simp only [see]
  split at stepped
  · rename_i status failed
    split at stepped
    · refine .inl ⟨status, failed, (Option.some.inj stepped).symm, ?_⟩
      split
      · rename_i other again
        rw [Except.error.inj (again.symm.trans failed)]
      · rename_i envelope again
        cases failed.symm.trans again
    · cases stepped
  · rename_i envelope encoded
    obtain ⟨process, taken, rfl⟩ := Option.map_eq_some_iff.mp stepped
    refine .inr ⟨envelope, encoded, process, taken, rfl, ?_⟩
    split
    · rename_i status again
      cases encoded.symm.trans again
    · rename_i other again
      obtain rfl := Except.ok.inj (encoded.symm.trans again)
      rfl

/-- A wake-up goes on with the receive that the thread was asked for. -/
theorem step_wake {p q : Clients Kind} {thread : ThreadId} {cause : Wake}
    (stepped : step codec p (.wake thread cause) = some q) :
    ∃ ask process, p.asks thread = some ask ∧ InMemory.step p.process (.wake thread cause) = some process ∧
      q = { p with process := process } := by
  simp only [step] at stepped
  split at stepped
  · cases stepped
  · rename_i ask asked
    obtain ⟨process, taken, rfl⟩ := Option.map_eq_some_iff.mp stepped
    exact ⟨ask, process, asked, taken, rfl⟩

theorem step_change {p q : Clients Kind} {e : Event T} (stepped : step codec p e = some q) :
    Change p e q (see codec p e) := by
  cases e with
  | send thread dest kind value args =>
    rcases step_send stepped with ⟨status, failed, rfl, seen⟩ | ⟨envelope, encoded, process, taken, rfl, seen⟩
    · rw [seen]
      exact .unencoded failed
    · rw [seen]
      exact .transport (.send thread dest envelope args) taken rfl
  | receive thread src ask args =>
    obtain ⟨process, taken, rfl⟩ := Option.map_eq_some_iff.mp stepped
    exact .transport (.receive thread src args) taken (typed_observation observed_receives).symm
  | wake thread cause =>
    obtain ⟨ask, process, asked, taken, rfl⟩ := step_wake stepped
    simp only [see, asked]
    exact .transport (.wake thread cause) taken (typed_observation (wake_receives p.process thread cause)).symm
  | shutdown thread =>
    obtain ⟨process, taken, rfl⟩ := Option.map_eq_some_iff.mp stepped
    exact .transport (.shutdown thread) taken rfl
  | notifyAll thread =>
    obtain ⟨process, taken, rfl⟩ := Option.map_eq_some_iff.mp stepped
    exact .transport (.notifyAll thread) taken rfl

/-- A thread that waits is in a receive that it was asked for. -/
def Asked (p : Clients Kind) : Prop :=
  ∀ thread src timeout told, p.process.threads thread = .waiting src timeout told → ∃ ask, p.asks thread = some ask

theorem asked_same {p : Clients Kind} (asked : Asked p) {event : InMemory.Event} {process : Process}
    (stepped : InMemory.step p.process event = some process)
    (other : ∀ thread src args, event ≠ .receive thread src args) : Asked { p with process := process } := by
  intro thread src timeout told waits
  rcases InMemory.waiting_before stepped waits with ⟨args, same⟩ | ⟨before, waited⟩
  · exact absurd same (other thread src args)
  · exact asked thread src timeout before waited

theorem step_asked {p q : Clients Kind} {e : Event T} (asked : Asked p) (stepped : step codec p e = some q) :
    Asked q := by
  cases e with
  | send thread dest kind value args =>
    rcases step_send stepped with ⟨_, _, rfl, _⟩ | ⟨envelope, encoded, process, taken, rfl, _⟩
    · exact asked
    · exact asked_same asked taken (by simp)
  | receive thread src ask args =>
    obtain ⟨process, taken, rfl⟩ := Option.map_eq_some_iff.mp stepped
    intro other src' timeout told waits
    by_cases same : other = thread
    · exact ⟨ask, by simp [same]⟩
    · rcases InMemory.waiting_before taken waits with ⟨_, event⟩ | ⟨before, waited⟩
      · exact absurd (InMemory.Event.receive.inj event).1.symm same
      · obtain ⟨given, found⟩ := asked other src' timeout before waited
        exact ⟨given, by simpa [same] using found⟩
  | wake thread cause =>
    obtain ⟨ask, process, _, taken, rfl⟩ := step_wake stepped
    exact asked_same asked taken (by simp)
  | shutdown thread =>
    obtain ⟨process, taken, rfl⟩ := Option.map_eq_some_iff.mp stepped
    exact asked_same asked taken (by simp)
  | notifyAll thread =>
    obtain ⟨process, taken, rfl⟩ := Option.map_eq_some_iff.mp stepped
    exact asked_same asked taken (by simp)

/-- In every reachable state a wake-up is possible when it is one of the transport. -/
theorem wake_enabled {es : List (Event T)} {p : Clients Kind} (ran : run (step codec) .new es = some p)
    (thread : ThreadId) (cause : Wake) :
    (step codec p (.wake thread cause)).isSome = (InMemory.step p.process (.wake thread cause)).isSome := by
  have start : Asked (Clients.new : Clients Kind) := by
    intro thread src timeout told waits
    cases waits
  have asked := invariant (fun _ _ _ => step_asked) start ran
  simp only [step]
  split
  · rename_i none
    cases here : p.process.threads thread with
    | waiting src timeout told =>
      obtain ⟨ask, some⟩ := asked thread src timeout told here
      cases none.symm.trans some
    | idle => simp [InMemory.step, here]
    | notifying => simp [InMemory.step, here]
  · rw [Option.isSome_map]

/-- Every step acts on the mailboxes of the transport as its observations say. -/
theorem step_refines (p : Clients Kind) (e : Event T) (q : Clients Kind) (stepped : step codec p e = some q) :
    run Mailbox.act p.process.shared.contents
      ((see codec p e).flatMap fun seen => seen.observation.flatMap Observation.action) =
        some q.process.shared.contents := by
  have change := step_change stepped
  generalize see codec p e = seen at change ⊢
  rw [← List.flatMap_assoc]
  cases change with
  | unencoded failed => rfl
  | transport event taken shown =>
    rw [← shown]
    exact InMemory.step_refines p.process event q.process taken

/-- At every point of every run, the envelopes sent to a name are those taken from it,
    followed by those still queued. -/
theorem run_balance {es : List (Event T)} {p : Clients Kind} (ran : run (step codec) .new es = some p) (name : String) :
    (sentTo name (history (step codec) (see codec) .new es)).map Sent.envelope =
      (takenFrom name (history (step codec) (see codec) .new es)).map (fun taken => taken.message.envelope) ++
        p.process.shared.contents name := by
  have balance := Mailbox.run_balance (history_refines step_refines ran) name
  rw [← List.flatMap_assoc, ← InMemory.sentTo_eq_puts, ← InMemory.receivedFrom_eq_gets, sentTo_envelopes,
    takenFrom_envelopes] at balance
  exact balance

/-! ### What a receive returns -/

/-- What the call returns that took an envelope: its value, with the envelope when that is
    asked for, or the error of the codec. -/
def decoded (codec : ∀ kind, Codec (T kind)) (ask : Ask Kind) (envelope : Envelope) : Returned (T ask.kind) :=
  match (codec ask.kind).decode envelope, ask.extended with
  | .ok value, false => .value (.ok value)
  | .ok value, true => .extended (.ok (value, { envelope := envelope }))
  | .error status, false => .value (.error status)
  | .error status, true => .extended (.error status)

theorem answer_decoded (ask : Ask Kind) (envelope : Envelope) :
    answer codec ask (.ok (makeMessageFromEnvelope envelope)) = decoded codec ask envelope := by
  obtain ⟨kind, extended⟩ := ask
  unfold answer decoded Messenger.receive Messenger.receiveExtended makeMessageFromEnvelope
  cases found : (codec kind).decode envelope <;> cases extended <;> simp [found]

/-- A record of a receive tells what its caller got for the envelope that the transport gave. -/
def Seen.Decodes : Seen codec → Prop
  | .received _ _ ask (.ok message) returned => returned = decoded codec ask message.envelope
  | _ => True

theorem verdict_made {src : Address} {st : InMemory.State} {verdict : InMemory.Section}
    (held : InMemory.Verdict src st verdict) (thread : ThreadId) (ask : Ask Kind) :
    ∀ seen ∈ (verdict.observed thread src).filterMap (typed codec ask), seen.Decodes := by
  intro seen member
  obtain ⟨observation, shown, made⟩ := List.mem_filterMap.mp member
  cases held with
  | took running contents =>
    obtain rfl := List.mem_singleton.mp shown
    obtain rfl := Option.some.inj made
    exact answer_decoded ask _
  | failed bad =>
    obtain rfl := List.mem_singleton.mp shown
    obtain rfl := Option.some.inj made
    trivial
  | waits => cases shown

theorem see_decodes (p : Clients Kind) (e : Event T) : ∀ seen ∈ see codec p e, seen.Decodes := by
  cases e with
  | send thread dest kind value args =>
    intro seen member
    simp only [see] at member
    split at member
    · obtain rfl := List.mem_singleton.mp member
      trivial
    · obtain rfl := List.mem_singleton.mp member
      trivial
  | receive thread src ask args => exact verdict_made (InMemory.receive_verdict src args p.process.shared) thread ask
  | wake thread cause =>
    simp only [see]
    split
    · simp
    · rename_i ask asked
      simp only [InMemory.observe]
      split
      · rename_i src timeout notified waiting
        exact verdict_made (InMemory.wake_verdict src timeout cause p.process.shared) thread ask
      · simp
  | shutdown thread => simp [see]
  | notifyAll thread => simp [see]

theorem run_decodes {es : List (Event T)} {p : Clients Kind} (ran : run (step codec) .new es = some p) :
    ∀ seen ∈ history (step codec) (see codec) .new es, seen.Decodes := by
  have always := @along_of_forall _ _ (step codec) _ (@see_decodes _ _ codec) .new es
  exact (along_iff_history (fun _ _ => Iff.rfl) ran).mp always

theorem takenFrom_decodes {name : String} {seen : List (Seen codec)} (decodes : ∀ record ∈ seen, record.Decodes) :
    ∀ taken ∈ takenFrom name seen, taken.returned = decoded codec taken.ask taken.message.envelope := by
  induction seen with
  | nil => simp [takenFrom]
  | cons first rest ih =>
    have here := decodes first List.mem_cons_self
    have later := ih fun record member => decodes record (List.mem_cons_of_mem _ member)
    cases first with
    | unencoded thread dest kind value status => exact later
    | sent thread dest item status => exact later
    | received thread src ask message returned =>
      cases message with
      | error status => exact later
      | ok message =>
        rw [takenFrom]
        split
        · rw [List.forall_mem_cons]
          exact ⟨here, later⟩
        · exact later

/-- The receive that takes the k-th message returns what its caller makes of the k-th
    envelope sent. -/
theorem taken_decodes_sent {es : List (Event T)} {p : Clients Kind} (ran : run (step codec) .new es = some p)
    {name : String} {k : Nat} {taken : Taken T}
    (found : (takenFrom name (history (step codec) (see codec) .new es))[k]? = some taken) :
    ∃ item, (sentTo name (history (step codec) (see codec) .new es))[k]? = some item ∧
      taken.message.envelope = item.envelope ∧ taken.returned = decoded codec taken.ask item.envelope := by
  have balance := run_balance ran name
  have envelope : ((sentTo name (history (step codec) (see codec) .new es)).map Sent.envelope)[k]? =
      some taken.message.envelope := by
    rw [balance, List.getElem?_append_left, List.getElem?_map, found]
    · rfl
    · rw [List.length_map]
      exact (List.getElem?_eq_some_iff.mp found).1
  rw [List.getElem?_map, Option.map_eq_some_iff] at envelope
  obtain ⟨item, sent, same⟩ := envelope
  have returned := takenFrom_decodes (run_decodes ran) taken (List.mem_of_getElem? found)
  rw [← same] at returned
  exact ⟨item, sent, same.symm, returned⟩

/-! ### Values of one type -/

/-- A value with its type. -/
def Sent.typed (item : Sent codec) : Sigma T := ⟨item.kind, item.value⟩

/-- The value that the caller got, if there is one. -/
def Taken.typed (taken : Taken T) : Option (Sigma T) :=
  match taken.returned with
  | .value (.ok value) => some ⟨taken.ask.kind, value⟩
  | .extended (.ok (value, _)) => some ⟨taken.ask.kind, value⟩
  | .value (.error _) => none
  | .extended (.error _) => none

/-- A receive that asks for the type that was sent gets the value that was sent. -/
theorem typed_of_same_kind (faithful : ∀ kind, (codec kind).Faithful) {taken : Taken T} {item : Sent codec}
    (returned : taken.returned = decoded codec taken.ask item.envelope) (same : taken.ask.kind = item.kind) :
    taken.typed = some item.typed := by
  obtain ⟨⟨kind, extended⟩, message, answered⟩ := taken
  obtain ⟨sentKind, value, envelope, encoded⟩ := item
  obtain rfl : kind = sentKind := same
  have back := faithful kind value envelope encoded
  have same : answered = decoded codec ⟨kind, extended⟩ envelope := returned
  subst same
  unfold Taken.typed decoded
  cases extended <;> simp [back, Sent.typed]

/-- The values received are the first ones of those sent, one for each message taken. -/
theorem received_prefix (faithful : ∀ kind, (codec kind).Faithful) {es : List (Event T)} {p : Clients Kind}
    (ran : run (step codec) .new es = some p) {name : String}
    (agree : ∀ (k : Nat) taken item, (takenFrom name (history (step codec) (see codec) .new es))[k]? = some taken →
      (sentTo name (history (step codec) (see codec) .new es))[k]? = some item → taken.ask.kind = item.kind) :
    (takenFrom name (history (step codec) (see codec) .new es)).filterMap Taken.typed =
      ((sentTo name (history (step codec) (see codec) .new es)).map Sent.typed).take
        (takenFrom name (history (step codec) (see codec) .new es)).length := by
  apply filterMap_eq_take
  intro k taken found
  obtain ⟨item, sent, _, returned⟩ := taken_decodes_sent ran found
  exact ⟨item, sent, typed_of_same_kind faithful returned (agree k taken item found sent)⟩

/-! ### Calls that fail -/

theorem step_unencoded {p q : Clients Kind} {thread : ThreadId} {dest : Address} {kind : Kind} {value : T kind}
    {args : SendArgs} {status : Status} (failed : (codec kind).encode value = .error status)
    (stepped : step codec p (.send thread dest kind value args) = some q) :
    q = p ∧ see codec p (.send thread dest kind value args) = [.unencoded thread dest kind value status] := by
  rcases step_send stepped with ⟨other, again, same, seen⟩ | ⟨envelope, encoded, _, _, _, _⟩
  · rw [failed] at again
    obtain rfl := Except.error.inj again
    exact ⟨same, seen⟩
  · cases failed.symm.trans encoded

/-- A receive that takes a message takes the oldest one of its address and no other. -/
theorem step_takes {p q : Clients Kind} {e : Event T} (stepped : step codec p e = some q) {thread : ThreadId}
    {src : Address} {ask : Ask Kind} {message : Message} {returned : Returned (T ask.kind)}
    (seen : .received thread src ask (.ok message) returned ∈ see codec p e) :
    ∃ rest, p.process.shared.contents src.name = message.envelope :: rest ∧
      q.process.shared.contents = Function.update p.process.shared.contents src.name rest := by
  have change := step_change stepped
  generalize see codec p e = all at change seen
  cases change with
  | unencoded failed => simp at seen
  | transport event taken shown =>
    have observed : .received thread src (.ok message) ∈ InMemory.observe p.process event := by
      rw [shown]
      exact List.mem_flatMap.mpr ⟨_, seen, List.mem_singleton.mpr rfl⟩
    have moved := InMemory.step_change taken
    generalize p.process.shared = st, q.process.shared = after, InMemory.observe p.process event = records at moved observed
    cases moved with
    | pushed other dest envelope named running => simp at observed
    | popped other src' envelope rest running queued =>
      simp only [List.mem_singleton, Observation.received.injEq, Except.ok.injEq] at observed
      obtain ⟨rfl, rfl, rfl⟩ := observed
      exact ⟨rest, by simp [InMemory.State.contents, queued, makeMessageFromEnvelope],
        InMemory.contents_popped st src.name rest⟩
    | stopped running => cases observed
    | kept _ failed => cases failed _ observed

/-- The error that a receive returns, if it returns one. -/
def Returned.failure {T : Type v} : Returned T → Option Status
  | .value (.error status) => some status
  | .extended (.error status) => some status
  | .value (.ok _) => none
  | .extended (.ok _) => none

theorem decoded_failure {ask : Ask Kind} {envelope : Envelope} {status : Status}
    (failed : (codec ask.kind).decode envelope = .error status) :
    (decoded codec ask envelope).failure = some status := by
  unfold decoded
  cases ask.extended <;> simp [failed, Returned.failure]

theorem decoded_extended {ask : Ask Kind} {envelope : Envelope} {value : T ask.kind} {message : Message}
    (returned : decoded codec ask envelope = .extended (.ok (value, message))) :
    (codec ask.kind).decode envelope = .ok value ∧ message.envelope = envelope := by
  unfold decoded at returned
  cases found : (codec ask.kind).decode envelope with
  | error status => cases extended : ask.extended <;> simp [found, extended] at returned
  | ok decoded =>
    cases extended : ask.extended with
    | false => simp [found, extended] at returned
    | true =>
      simp only [found, extended, Returned.extended.injEq, Except.ok.injEq, Prod.mk.injEq] at returned
      obtain ⟨rfl, rfl⟩ := returned
      exact ⟨rfl, rfl⟩

/-! ### The messenger as a queue of values -/

/-- What the callers at one address see of a run. -/
structure IsQueue (codec : ∀ kind, Codec (T kind)) (name : String) (trace : List (Seen codec)) : Prop where
  /-- The k-th message taken is decoded from the k-th envelope sent. -/
  decodes : ∀ (k : Nat) (taken : Taken T), (takenFrom name trace)[k]? = some taken →
    ∃ item : Sent codec, (sentTo name trace)[k]? = some item ∧ taken.returned = decoded codec taken.ask item.envelope
  /-- When each receive asks for the type that was sent, the values are a prefix. -/
  values : (∀ (k : Nat) (taken : Taken T) (item : Sent codec), (takenFrom name trace)[k]? = some taken →
      (sentTo name trace)[k]? = some item → taken.ask.kind = item.kind) →
    (takenFrom name trace).filterMap Taken.typed =
      ((sentTo name trace).map Sent.typed).take (takenFrom name trace).length
  /-- A value is returned with the envelope that it was decoded from. -/
  extended : ∀ (k : Nat) (taken : Taken T) value message, (takenFrom name trace)[k]? = some taken →
    taken.returned = .extended (.ok (value, message)) →
    ∃ item : Sent codec, (sentTo name trace)[k]? = some item ∧ message.envelope = item.envelope ∧
      (codec taken.ask.kind).decode message.envelope = .ok value

/-- What a call that fails in the codec does. -/
structure FailsAlone (codec : ∀ kind, Codec (T kind)) (p : Clients Kind) (e : Event T) (q : Clients Kind) : Prop where
  unencoded : ∀ thread dest kind value args status, e = .send thread dest kind value args →
    (codec kind).encode value = .error status → q = p ∧ see codec p e = [.unencoded thread dest kind value status]
  undecoded : ∀ thread src ask message returned status, .received thread src ask (.ok message) returned ∈ see codec p e →
    (codec ask.kind).decode message.envelope = .error status → returned.failure = some status ∧
      ∃ rest, p.process.shared.contents src.name = message.envelope :: rest ∧
        q.process.shared.contents = Function.update p.process.shared.contents src.name rest

/-- The messenger over the in-memory transport is a queue of values for every address, in
    which a call that fails in the codec concerns no message but its own. -/
theorem messenger_is_typed_queue (faithful : ∀ kind, (codec kind).Faithful) {es : List (Event T)} {p : Clients Kind}
    (ran : run (step codec) .new es = some p) :
    (∀ name, IsQueue codec name (history (step codec) (see codec) .new es)) ∧
      ∀ e q, step codec p e = some q → FailsAlone codec p e q := by
  constructor
  · intro name
    refine ⟨?_, received_prefix faithful ran, ?_⟩
    · intro k taken found
      obtain ⟨item, sent, _, returned⟩ := taken_decodes_sent ran found
      exact ⟨item, sent, returned⟩
    · intro k taken value message found pair
      obtain ⟨item, sent, _, returned⟩ := taken_decodes_sent ran found
      obtain ⟨read, same⟩ := decoded_extended (returned.symm.trans pair)
      exact ⟨item, sent, same, by rw [same]; exact read⟩
  · intro e q stepped
    constructor
    · rintro thread dest kind value args status rfl failed
      exact step_unencoded failed stepped
    · intro thread src ask message returned status seen failed
      have made : returned = decoded codec ask message.envelope := see_decodes p e _ seen
      exact ⟨by rw [made]; exact decoded_failure failed, step_takes stepped seen⟩

/-- Texts and flags. -/
abbrev TextOrFlag : Bool → Type
  | true => String
  | false => Bool

def textOrFlag : ∀ kind, Codec (TextOrFlag kind)
  | true => protoBinary some some
  | false =>
    protoJson (fun flag => some (if flag then "true" else "false"))
      (fun payload => if payload = "true" then some true else if payload = "false" then some false else none)

theorem textOrFlag_faithful (kind : Bool) : (textOrFlag kind).Faithful := by
  cases kind with
  | true =>
    rw [textOrFlag, protoBinary, protoCodec_faithful]
    intro msg payload written
    exact written.symm
  | false =>
    rw [textOrFlag, protoJson, protoCodec_faithful]
    intro flag payload written
    obtain rfl := Option.some.inj written
    cases flag <;> rfl

/-- A text and a flag are sent to one address; the first receive asks for a flag too early. -/
def mixedCalls : List (Event TextOrFlag) :=
  [.send 0 ⟨"queue"⟩ true "text" {}, .notifyAll 0, .send 0 ⟨"queue"⟩ false true {}, .notifyAll 0,
    .receive 1 ⟨"queue"⟩ ⟨false, false⟩ {}, .receive 1 ⟨"queue"⟩ ⟨false, true⟩ {}]

theorem mixedCalls_queue : ∃ p, run (step textOrFlag) .new mixedCalls = some p ∧
    IsQueue textOrFlag "queue" (history (step textOrFlag) (see textOrFlag) .new mixedCalls) :=
  ⟨_, rfl, (@messenger_is_typed_queue _ _ textOrFlag textOrFlag_faithful mixedCalls _ rfl).1 "queue"⟩

/-- The flag arrives behind the text that was no flag. -/
example : (takenFrom "queue" (history (step textOrFlag) (see textOrFlag) .new mixedCalls)).filterMap Taken.typed =
    [⟨false, true⟩] := rfl

end TypedQueue
end Mqss
