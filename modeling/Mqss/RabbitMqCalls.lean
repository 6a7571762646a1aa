import Mqss.RabbitMq

/-!
What every call of `receive` keeps: how its phase, its channel and the state that
its message shares fit together, and which deliveries it was handed. A step
changes at most the call it is about, and no step changes a call's arguments.
-/

namespace Mqss.RabbitMq
open Mqss.Machine

/-- The deliveries a call is responsible for. -/
def Call.holding (call : Call) : List Delivery :=
  match call.args.ack_mode with
  | .Auto => call.channel.buffered ++ call.phase.inHand
  | .Manual => call.channel.unacked

@[simp] theorem set_ready (s : Rabbit) (c : CallId) (call : Call) : (s.set c call).ready = s.ready := rfl
@[simp] theorem set_accepted (s : Rabbit) (c : CallId) (call : Call) : (s.set c call).accepted = s.accepted := rfl
@[simp] theorem set_stopped (s : Rabbit) (c : CallId) (call : Call) : (s.set c call).stopped = s.stopped := rfl
@[simp] theorem set_calls (s : Rabbit) (c : CallId) (call : Call) :
    (s.set c call).calls = Function.update s.calls c (some call) := rfl
@[simp] theorem setReady_ready (s : Rabbit) (queue : String) (deliveries : List Delivery) :
    (s.setReady queue deliveries).ready = Function.update s.ready queue deliveries := rfl
@[simp] theorem setReady_accepted (s : Rabbit) (queue : String) (deliveries : List Delivery) :
    (s.setReady queue deliveries).accepted = s.accepted := rfl
@[simp] theorem setReady_stopped (s : Rabbit) (queue : String) (deliveries : List Delivery) :
    (s.setReady queue deliveries).stopped = s.stopped := rfl
@[simp] theorem setReady_calls (s : Rabbit) (queue : String) (deliveries : List Delivery) :
    (s.setReady queue deliveries).calls = s.calls := rfl

/-! ### What every call keeps -/

/-- What a call's phase says about its channel and the state its message shares. -/
def Call.Fits (call : Call) : Phase → Prop
  | .connected => call.channel = {} ∧ call.handed = [] ∧ call.completed = false ∧ call.copies = 0
  | .polling => call.completed = false ∧ call.copies = 0
  | .waiting => call.completed = false ∧ call.copies = 0
  | .leaving (.ok delivery) =>
    call.completed = false ∧ call.copies = 0 ∧ (call.args.ack_mode = .Manual → delivery ∈ call.channel.unacked)
  | .leaving (.error _) => call.completed = false ∧ call.copies = 0
  | .returned (.ok delivery) =>
    (call.copies = 0 → call.channel = {}) ∧
      (call.completed = false → call.copies ≠ 0 → delivery ∈ call.channel.unacked ∧ call.channel.buffered = [])
  | .returned (.error _) => call.channel = {} ∧ call.copies = 0

def Phase.finished : Phase → Bool
  | .returned _ => true
  | _ => false

structure Call.Ok (call : Call) : Prop where
  auto : call.args.ack_mode = .Auto → call.channel.unacked = [] ∧ call.copies = 0
  prefetch : call.channel.unacked.length ≤ 1
  unread : call.args.ack_mode = .Manual → ∀ d ∈ call.channel.buffered, d ∈ call.channel.unacked
  handedOver : ∀ d, d ∈ call.channel.buffered ∨ d ∈ call.channel.unacked ∨ d ∈ call.phase.inHand → d ∈ call.handed
  routed : ∀ d ∈ call.handed, d.queue = call.src.name
  order : call.phase.finished = false → call.handed = call.phase.inHand ++ call.channel.buffered
  fits : call.Fits call.phase

/-- The state of a call that is about to return a result. -/
structure Call.Leaves (call : Call) (result : Except Status Delivery) : Prop where
  auto : call.args.ack_mode = .Auto → call.channel.unacked = []
  prefetch : call.channel.unacked.length ≤ 1
  handedOver : ∀ d ∈ call.channel.unacked, d ∈ call.handed
  routed : ∀ d ∈ call.handed, d.queue = call.src.name
  fresh : call.copies = 0
  took : ∀ d, result = .ok d → d ∈ call.handed
  unsettled : ∀ d, result = .ok d → call.args.ack_mode = .Manual → d ∈ call.channel.unacked

/-- A call that has returned with its channel closed. -/
def Call.closed (call : Call) (result : Except Status Delivery) : Call :=
  { call with phase := .returned result, channel := {} }

/-- A call that has returned a message to be settled by hand. -/
def Call.unsettled (call : Call) (delivery : Delivery) : Call :=
  { call with
    phase := .returned (.ok delivery)
    channel := { call.channel with buffered := [] }
    copies := 1 }

theorem finish_auto {call : Call} (automatic : call.args.ack_mode = .Auto) (unsettled : call.channel.unacked = [])
    (s : Rabbit) (c : CallId) (result : Except Status Delivery) :
    s.finish c call result = s.set c (call.closed result) := by
  simp [Rabbit.finish, automatic, Rabbit.close, unsettled, Rabbit.setReady, Call.closed]

theorem finish_manual {call : Call} (manual : call.args.ack_mode = .Manual) (s : Rabbit) (c : CallId)
    (delivery : Delivery) : s.finish c call (.ok delivery) = s.set c (call.unsettled delivery) := by
  simp [Rabbit.finish, manual, Call.unsettled]

theorem finish_error (s : Rabbit) (c : CallId) (call : Call) (status : Status) :
    s.finish c call (.error status) =
      (s.setReady call.src.name (call.channel.unacked ++ s.ready call.src.name)).set c (call.closed (.error status)) := by
  cases mode : call.args.ack_mode <;> simp [Rabbit.finish, mode, Rabbit.close, Call.closed]

theorem closed_ok {call : Call} {result : Except Status Delivery} (leaves : call.Leaves result)
    (closes : ∀ d, result = .ok d → call.args.ack_mode = .Auto) : (call.closed result).Ok := by
  refine ⟨fun _ => ⟨rfl, leaves.fresh⟩, by simp [Call.closed], by simp [Call.closed], ?_, leaves.routed, nofun, ?_⟩
  · rintro d (member | member | member)
    · simp [Call.closed] at member
    · simp [Call.closed] at member
    · cases result with
      | error status => simp [Call.closed, Phase.inHand] at member
      | ok delivery =>
        obtain rfl : d = delivery := by simpa [Call.closed, Phase.inHand] using member
        exact leaves.took d rfl
  · cases result with
    | error status => exact ⟨rfl, leaves.fresh⟩
    | ok delivery => exact ⟨fun _ => rfl, fun _ copied => absurd leaves.fresh copied⟩

theorem unsettled_ok {call : Call} {delivery : Delivery} (leaves : call.Leaves (.ok delivery))
    (manual : call.args.ack_mode = .Manual) : (call.unsettled delivery).Ok := by
  refine ⟨?_, leaves.prefetch, by simp [Call.unsettled], ?_, leaves.routed, nofun, ?_⟩
  · intro automatic
    exact absurd (manual.symm.trans automatic) (by simp)
  · rintro d (member | member | member)
    · simp [Call.unsettled] at member
    · exact leaves.handedOver d member
    · obtain rfl : d = delivery := by simpa [Call.unsettled, Phase.inHand] using member
      exact leaves.took d rfl
  · exact ⟨by simp [Call.unsettled], fun _ _ => ⟨leaves.unsettled delivery rfl manual, rfl⟩⟩

theorem start_ok (transport : TransportId) (src : Address) (args : ReceiveArgs) :
    Call.Ok { transport := transport, src := src, args := args } := by
  refine ⟨fun _ => ⟨rfl, rfl⟩, by simp, by simp, ?_, by simp, fun _ => rfl, ⟨rfl, rfl, rfl, rfl⟩⟩
  rintro d (member | member | member) <;> simp [Phase.inHand] at member

/-- A channel that is dropped before a delivery was taken. -/
theorem leaves_error {call : Call} (ok : call.Ok) (fresh : call.copies = 0) (status : Status) :
    call.Leaves (.error status) where
  auto automatic := (ok.auto automatic).1
  prefetch := ok.prefetch
  handedOver d member := ok.handedOver d (.inr (.inl member))
  routed := ok.routed
  fresh := fresh
  took _ impossible := by cases impossible
  unsettled _ impossible := by cases impossible

/-- What a call about to return is responsible for: in automatic mode also what it discards. -/
def Call.carrying (call : Call) (result : Except Status Delivery) : List Delivery :=
  match call.args.ack_mode with
  | .Auto => call.channel.buffered ++ (Phase.returned result).inHand
  | .Manual => call.channel.unacked

/-- The deliveries that are forgotten with the channel of a call. -/
def Call.forgets (call : Call) : List Delivery :=
  match call.args.ack_mode with
  | .Auto => call.channel.buffered
  | .Manual => []

@[simp] theorem setReady_same (s : Rabbit) (queue : String) : s.setReady queue (s.ready queue) = s := by
  simp [Rabbit.setReady]

/-- A call that returns forgets some of what it carries, gives some back and keeps the rest. -/
theorem finish_spec {call : Call} {result : Except Status Delivery} (leaves : call.Leaves result) (s : Rabbit)
    (c : CallId) : ∃ now back, now.Ok ∧ now.phase = .returned result ∧ now.args = call.args ∧
      now.handed = call.handed ∧ (∀ d ∈ back, d.queue = call.src.name) ∧
      s.finish c call result = (s.setReady call.src.name (back ++ s.ready call.src.name)).set c now ∧
      call.carrying result = call.forgets ++ (back ++ now.holding) := by
  cases mode : call.args.ack_mode with
  | Auto =>
    refine ⟨call.closed result, [], closed_ok leaves fun _ _ => mode, rfl, rfl, rfl, nofun, ?_, ?_⟩
    · simp [finish_auto mode (leaves.auto mode)]
    · simp [Call.carrying, Call.forgets, Call.holding, Call.closed, mode]
  | Manual =>
    cases result with
    | error status =>
      refine ⟨call.closed (.error status), call.channel.unacked, closed_ok leaves nofun, rfl, rfl, rfl,
        fun d member => leaves.routed d (leaves.handedOver d member), ?_, ?_⟩
      · rw [finish_error]
      · simp [Call.carrying, Call.forgets, Call.holding, Call.closed, mode]
    | ok delivery =>
      refine ⟨call.unsettled delivery, [], unsettled_ok leaves mode, rfl, rfl, rfl, nofun, ?_, ?_⟩
      · simp [finish_manual mode]
      · simp [Call.carrying, Call.forgets, Call.holding, Call.unsettled, mode]

theorem hand_unacked_auto {call : Call} (automatic : call.args.ack_mode = .Auto) (delivery : Delivery) :
    (call.hand delivery).channel.unacked = call.channel.unacked := by
  simp [Call.hand, automatic]

theorem hand_unacked_manual {call : Call} (manual : call.args.ack_mode = .Manual) (delivery : Delivery) :
    (call.hand delivery).channel.unacked = call.channel.unacked ++ [delivery] := by
  simp [Call.hand, manual]

/-- What is outstanding on the channel after a delivery was handed over. -/
theorem of_mem_hand_unacked {call : Call} {delivery d : Delivery}
    (member : d ∈ (call.hand delivery).channel.unacked) : d ∈ call.channel.unacked ∨ d = delivery := by
  cases mode : call.args.ack_mode with
  | Auto =>
    rw [hand_unacked_auto mode] at member
    exact .inl member
  | Manual =>
    rw [hand_unacked_manual mode, List.mem_append, List.mem_singleton] at member
    exact member

theorem mem_hand_unacked {call : Call} {d : Delivery} (member : d ∈ call.channel.unacked) (delivery : Delivery) :
    d ∈ (call.hand delivery).channel.unacked := by
  cases mode : call.args.ack_mode with
  | Auto => rwa [hand_unacked_auto mode]
  | Manual =>
    rw [hand_unacked_manual mode]
    exact List.mem_append_left _ member

theorem hand_prefetch {call : Call} (prefetch : call.channel.unacked.length ≤ 1)
    (nothing : call.args.ack_mode = .Manual → call.channel.unacked = []) (delivery : Delivery) :
    (call.hand delivery).channel.unacked.length ≤ 1 := by
  cases mode : call.args.ack_mode with
  | Auto => rwa [hand_unacked_auto mode]
  | Manual =>
    rw [hand_unacked_manual mode, nothing mode]
    simp

theorem hand_routed {call : Call} {delivery : Delivery} (routed : ∀ d ∈ call.handed, d.queue = call.src.name)
    (route : delivery.queue = call.src.name) : ∀ d ∈ (call.hand delivery).handed, d.queue = call.src.name := by
  intro d member
  rcases List.mem_append.mp member with old | new
  · exact routed d old
  · obtain rfl := List.mem_singleton.mp new
    exact route

/-- Nothing is outstanding on the channel of a call that the broker may push to,
    unless its consumer does not acknowledge. -/
theorem pushable_manual {call : Call} (pushable : call.pushable = true) (manual : call.args.ack_mode = .Manual) :
    call.channel.unacked = [] := by
  simp [Call.pushable, manual] at pushable
  exact pushable.2

theorem pushed_fits {call : Call} (ok : call.Ok) (pushable : call.pushable = true) (delivery : Delivery) :
    ((call.hand delivery).buffer delivery).Fits call.phase := by
  have consuming : call.channel.consuming = true := by
    simp only [Call.pushable, Bool.and_eq_true] at pushable
    exact pushable.1
  have fits := ok.fits
  rcases phase : call.phase with _ | _ | _ | (status | d) | (status | d) <;> rw [phase] at fits
  · simp [fits.1] at consuming
  · exact fits
  · exact fits
  · exact fits
  · exact ⟨fits.1, fits.2.1, fun manual => mem_hand_unacked (fits.2.2 manual) delivery⟩
  · simp [fits.1] at consuming
  · constructor
    · intro none
      simp [fits.1 none] at consuming
    · intro open_ shared
      cases mode : call.args.ack_mode with
      | Auto => exact absurd (ok.auto mode).2 shared
      | Manual =>
        have outstanding := (fits.2 open_ shared).1
        rw [pushable_manual pushable mode] at outstanding
        cases outstanding

theorem pushed_ok {call : Call} {delivery : Delivery} (ok : call.Ok) (pushable : call.pushable = true)
    (route : delivery.queue = call.src.name) : ((call.hand delivery).buffer delivery).Ok := by
  refine ⟨?_, ?_, ?_, ?_, hand_routed ok.routed route, ?_, pushed_fits ok pushable delivery⟩
  · intro automatic
    have automatic : call.args.ack_mode = .Auto := automatic
    exact ⟨(hand_unacked_auto automatic delivery).trans (ok.auto automatic).1, (ok.auto automatic).2⟩
  · exact hand_prefetch ok.prefetch (pushable_manual pushable) delivery
  · intro manual d member
    have manual : call.args.ack_mode = .Manual := manual
    rcases List.mem_append.mp member with old | new
    · exact mem_hand_unacked (ok.unread manual d old) delivery
    · show d ∈ (call.hand delivery).channel.unacked
      rw [hand_unacked_manual manual]
      exact List.mem_append_right _ new
  · intro d member
    show d ∈ call.handed ++ [delivery]
    rcases member with member | member | member
    · rcases List.mem_append.mp member with old | new
      · exact List.mem_append_left _ (ok.handedOver d (.inl old))
      · exact List.mem_append_right _ new
    · rcases of_mem_hand_unacked member with old | rfl
      · exact List.mem_append_left _ (ok.handedOver d (.inr (.inl old)))
      · exact List.mem_append_right _ List.mem_cons_self
    · exact List.mem_append_left _ (ok.handedOver d (.inr (.inr member)))
  · intro open_
    show call.handed ++ [delivery] = call.phase.inHand ++ (call.channel.buffered ++ [delivery])
    rw [ok.order open_, List.append_assoc]

/-- The call after `BasicGet` gave it a delivery. -/
theorem fetched_leaves {call : Call} {delivery : Delivery} (ok : call.Ok) (phase : call.phase = .connected)
    (route : delivery.queue = call.src.name) : (call.hand delivery).Leaves (.ok delivery) := by
  have fits := ok.fits
  rw [phase] at fits
  obtain ⟨channel, _, _, fresh⟩ := fits
  have nothing : call.channel.unacked = [] := by rw [channel]
  have last : delivery ∈ (call.hand delivery).handed := List.mem_append_right _ List.mem_cons_self
  refine ⟨?_, hand_prefetch ok.prefetch (fun _ => nothing) delivery, ?_, hand_routed ok.routed route, fresh, ?_, ?_⟩
  · intro automatic
    have automatic : call.args.ack_mode = .Auto := automatic
    rw [hand_unacked_auto automatic, nothing]
  · intro d member
    rcases of_mem_hand_unacked member with old | rfl
    · rw [nothing] at old
      cases old
    · exact last
  · intro d same
    cases same
    exact last
  · intro d same manual
    have manual : call.args.ack_mode = .Manual := manual
    cases same
    rw [hand_unacked_manual manual]
    exact List.mem_append_right _ List.mem_cons_self

theorem polled_ok {call : Call} (ok : call.Ok) (phase : call.phase = .waiting) : call.poll.Ok := by
  obtain ⟨auto, prefetch, unread, handedOver, routed, order, fits⟩ := ok
  rw [phase] at fits
  unfold Call.poll
  split
  · refine ⟨auto, prefetch, unread, ?_, routed, ?_, fits⟩
    rintro d (member | member | member)
    · exact handedOver d (.inl member)
    · exact handedOver d (.inr (.inl member))
    · simp [Phase.inHand] at member
    · simpa [phase, Phase.finished, Phase.inHand] using order
  · rename_i delivery rest buffered
    refine ⟨auto, prefetch, ?_, ?_, routed, ?_, fits.1, fits.2, ?_⟩
    · intro manual d member
      exact unread manual d (by rw [buffered]; exact List.mem_cons_of_mem _ member)
    · rintro d (member | member | member)
      · exact handedOver d (.inl (by rw [buffered]; exact List.mem_cons_of_mem _ member))
      · exact handedOver d (.inr (.inl member))
      · obtain rfl : d = delivery := by simpa [Phase.inHand] using member
        exact handedOver d (.inl (by simp [buffered]))
    · simpa [phase, Phase.finished, Phase.inHand, buffered] using order
    · intro manual
      exact unread manual delivery (by simp [buffered])

/-- A call in its wait loop goes on with nothing taken. -/
theorem moved_ok {call : Call} (phase : Phase) (consuming : Bool) (ok : call.Ok)
    (running : call.phase.finished = false ∧ call.phase.inHand = []) (empty : phase.inHand = [])
    (fits : Call.Fits { call with channel := { call.channel with consuming := consuming } } phase) :
    Call.Ok { call with phase := phase, channel := { call.channel with consuming := consuming } } := by
  obtain ⟨auto, prefetch, unread, handedOver, routed, order, _⟩ := ok
  refine ⟨auto, prefetch, unread, ?_, routed, ?_, fits⟩
  · rintro d (member | member | member)
    · exact handedOver d (.inl member)
    · exact handedOver d (.inr (.inl member))
    · have member : d ∈ phase.inHand := member
      rw [empty] at member
      cases member
  · intro _
    show call.handed = phase.inHand ++ call.channel.buffered
    rw [order running.1, running.2, empty]

/-- The call when `BasicCancel` is done. -/
theorem cancelled_leaves {call : Call} {result : Except Status Delivery} (ok : call.Ok)
    (phase : call.phase = .leaving result) (thrown : Bool) :
    Call.Leaves { call with channel := { call.channel with consuming := thrown } } result := by
  obtain ⟨auto, prefetch, unread, handedOver, routed, order, fits⟩ := ok
  rw [phase] at fits
  refine ⟨fun automatic => (auto automatic).1, prefetch, fun d member => handedOver d (.inr (.inl member)), routed,
    ?_, ?_, ?_⟩
  · cases result with
    | error status => exact fits.2
    | ok delivery => exact fits.2.1
  · rintro d rfl
    exact handedOver d (.inr (.inr (by simp [phase, Phase.inHand])))
  · rintro d rfl manual
    exact fits.2.2 manual

/-- The prefetch limit leaves one delivery outstanding. -/
theorem only_unacked {call : Call} (ok : call.Ok) {delivery : Delivery}
    (outstanding : delivery ∈ call.channel.unacked) : call.channel.unacked = [delivery] := by
  have short := ok.prefetch
  match unacked : call.channel.unacked with
  | [] => rw [unacked] at outstanding; cases outstanding
  | [d] => rw [unacked] at outstanding; rw [List.mem_singleton.mp outstanding]
  | _ :: _ :: _ => simp [unacked] at short

/-- Only a returned message that is acknowledged by hand is shared. -/
theorem shared_message {call : Call} (ok : call.Ok) (shared : call.copies ≠ 0) :
    call.args.ack_mode = .Manual ∧ ∃ delivery, call.phase = .returned (.ok delivery) := by
  refine ⟨?_, ?_⟩
  · cases mode : call.args.ack_mode with
    | Auto => exact absurd (ok.auto mode).2 shared
    | Manual => rfl
  · have fits := ok.fits
    rcases phase : call.phase with _ | _ | _ | (status | d) | (status | d) <;> rw [phase] at fits
    · exact absurd fits.2.2.2 shared
    · exact absurd fits.2 shared
    · exact absurd fits.2 shared
    · exact absurd fits.2 shared
    · exact absurd fits.2.1 shared
    · exact absurd fits.2 shared
    · exact ⟨d, rfl⟩

/-- The number of objects that share a message changes. -/
theorem counted_ok {call : Call} (ok : call.Ok) (shared : call.copies ≠ 0) {n : Nat} (still : n ≠ 0) :
    Call.Ok { call with copies := n } := by
  obtain ⟨manual, delivery, phase⟩ := shared_message ok shared
  obtain ⟨auto, prefetch, unread, handedOver, routed, order, fits⟩ := ok
  rw [phase] at fits
  refine ⟨?_, prefetch, unread, handedOver, routed, order, ?_⟩
  · intro automatic
    have automatic : call.args.ack_mode = .Auto := automatic
    exact absurd (manual.symm.trans automatic) (by simp)
  · show Call.Fits _ call.phase
    rw [phase]
    exact ⟨fun dropped => absurd dropped still, fun unsettled _ => fits.2 unsettled shared⟩

/-- The last object that shares a message is gone. -/
theorem dropped_ok {call : Call} (ok : call.Ok) (shared : call.copies ≠ 0) :
    Call.Ok { call with copies := 0, channel := {} } := by
  obtain ⟨_, delivery, phase⟩ := shared_message ok shared
  refine ⟨fun _ => ⟨rfl, rfl⟩, by simp, by simp, ?_, ok.routed, ?_, ?_⟩
  · rintro d (member | member | member)
    · cases member
    · cases member
    · exact ok.handedOver d (.inr (.inr member))
  · intro running
    have running : call.phase.finished = false := running
    simp [phase, Phase.finished] at running
  · show Call.Fits _ call.phase
    rw [phase]
    exact ⟨fun _ => rfl, fun _ copied => absurd rfl copied⟩

theorem settled_ok {call : Call} {delivery : Delivery} (ok : call.Ok) (shared : call.copies ≠ 0)
    (phase : call.phase = .returned (.ok delivery)) (unsettled : call.completed = false) : (call.settle delivery).Ok := by
  have manual := (shared_message ok shared).1
  obtain ⟨auto, prefetch, unread, handedOver, routed, order, fits⟩ := ok
  rw [phase] at fits
  refine ⟨?_, ?_, ?_, ?_, routed, order, ?_⟩
  · intro automatic
    have automatic : call.args.ack_mode = .Auto := automatic
    exact absurd (manual.symm.trans automatic) (by simp)
  · exact (List.length_erase_le).trans prefetch
  · intro _ d member
    have member : d ∈ call.channel.buffered := member
    simp [(fits.2 unsettled shared).2] at member
  · rintro d (member | member | member)
    · exact handedOver d (.inl member)
    · exact handedOver d (.inr (.inl (List.mem_of_mem_erase member)))
    · exact handedOver d (.inr (.inr member))
  · show (call.settle delivery).Fits call.phase
    rw [phase]
    exact ⟨fun dropped => absurd dropped shared, fun open_ => by simp [Call.settle] at open_⟩

/-! ### What the broker and its calls keep together -/

structure Rabbit.Ok (s : Rabbit) : Prop where
  calls : ∀ c call, s.calls c = some call → call.Ok
  routed : ∀ name, ∀ d ∈ s.ready name, d.queue = name
  tags : ∀ d ∈ s.accepted, d.tag < s.accepted.length
  named : ∀ d ∈ s.accepted, d.queue ≠ ""

theorem new_ok : Rabbit.new.Ok := by
  refine ⟨?_, ?_, ?_, ?_⟩ <;> simp [Rabbit.new]

theorem Rabbit.Ok.set {s : Rabbit} (ok : s.Ok) (c : CallId) {call : Call} (now : call.Ok) : (s.set c call).Ok := by
  refine ⟨?_, ok.routed, ok.tags, ok.named⟩
  intro other known found
  by_cases same : other = c
  · subst same
    obtain rfl : call = known := by simpa using found
    exact now
  · exact ok.calls other known (by simpa [same] using found)

theorem Rabbit.Ok.setReady {s : Rabbit} (ok : s.Ok) {queue : String} {deliveries : List Delivery}
    (routed : ∀ d ∈ deliveries, d.queue = queue) : (s.setReady queue deliveries).Ok := by
  refine ⟨ok.calls, ?_, ok.tags, ok.named⟩
  intro name d member
  by_cases same : name = queue
  · subst same
    exact routed d (by simpa using member)
  · exact ok.routed name d (by simpa [same] using member)

theorem Rabbit.Ok.publish {s : Rabbit} (ok : s.Ok) {delivery : Delivery} (next : delivery.tag = s.accepted.length)
    (named : delivery.queue ≠ "") : (s.publish delivery).Ok := by
  have queued : (s.setReady delivery.queue (s.ready delivery.queue ++ [delivery])).Ok := by
    apply ok.setReady
    intro d member
    rcases List.mem_append.mp member with old | new
    · exact ok.routed _ d old
    · rw [List.mem_singleton.mp new]
  refine ⟨queued.calls, queued.routed, ?_, ?_⟩
  · intro d member
    have member : d ∈ s.accepted ++ [delivery] := member
    show d.tag < (s.accepted ++ [delivery]).length
    rw [List.length_append, List.length_singleton]
    rcases List.mem_append.mp member with old | new
    · have := ok.tags d old
      omega
    · obtain rfl := List.mem_singleton.mp new
      omega
  · intro d member
    have member : d ∈ s.accepted ++ [delivery] := member
    rcases List.mem_append.mp member with old | new
    · exact ok.named d old
    · obtain rfl := List.mem_singleton.mp new
      exact named

theorem Rabbit.Ok.finish {s : Rabbit} (ok : s.Ok) (c : CallId) {call : Call} {result : Except Status Delivery}
    (leaves : call.Leaves result) : (s.finish c call result).Ok := by
  obtain ⟨now, back, nowOk, _, _, _, routed, finished, _⟩ := finish_spec leaves s c
  rw [finished]
  refine (ok.setReady fun d member => ?_).set c nowOk
  rcases List.mem_append.mp member with given | queued
  · exact routed d given
  · exact ok.routed _ d queued

theorem Rabbit.Ok.close {s : Rabbit} (ok : s.Ok) (c : CallId) {call : Call} (callOk : call.Ok)
    (shared : call.copies ≠ 0) : (s.close c { call with copies := 0 }).Ok := by
  have closed : Call.Ok { call with copies := 0, channel := {} } := dropped_ok callOk shared
  refine (ok.setReady fun d member => ?_).set c closed
  rcases List.mem_append.mp member with given | queued
  · exact callOk.routed d (callOk.handedOver d (.inr (.inl given)))
  · exact ok.routed _ d queued

/-- The front of a queue is taken. -/
theorem Rabbit.Ok.front {s : Rabbit} (ok : s.Ok) {queue : String} {delivery : Delivery} {rest : List Delivery}
    (ready : s.ready queue = delivery :: rest) : delivery.queue = queue ∧ (s.setReady queue rest).Ok := by
  refine ⟨ok.routed queue delivery (by simp [ready]), ok.setReady fun d member => ?_⟩
  exact ok.routed queue d (by rw [ready]; exact List.mem_cons_of_mem _ member)

theorem running_fresh {call : Call} (ok : call.Ok) (phase : call.phase = .connected ∨ call.phase = .waiting) :
    call.copies = 0 := by
  have fits := ok.fits
  rcases phase with phase | phase <;> rw [phase] at fits
  · exact fits.2.2.2
  · exact fits.2

/-- Every step keeps the broker and its calls consistent. -/
theorem step_ok {s t : Rabbit} {e : Event} (ok : s.Ok) (stepped : step s e = some t) : t.Ok := by
  cases step_change stepped with
  | refused => exact ok
  | published named running => exact ok.publish rfl named
  | stopped => exact ⟨ok.calls, ok.routed, ok.tags, ok.named⟩
  | rejected status new => exact ok.finish _ (leaves_error (start_ok _ _ _) rfl status)
  | opened new => exact ok.set _ (start_ok _ _ _)
  | fetchedNone found phase queue =>
    have callOk := ok.calls _ _ found
    have fits := callOk.fits
    rw [phase] at fits
    exact ok.finish _ (leaves_error callOk fits.2.2.2 _)
  | fetched found phase queue =>
    obtain ⟨route, taken⟩ := ok.front queue
    exact taken.finish _ (fetched_leaves (ok.calls _ _ found) phase route)
  | consumed found phase =>
    have callOk := ok.calls _ _ found
    have fits := callOk.fits
    rw [phase] at fits
    exact ok.set _ (moved_ok .polling true callOk (by simp [phase, Phase.finished, Phase.inHand]) rfl fits.2.2)
  | pushed found pushable queue =>
    obtain ⟨route, taken⟩ := ok.front queue
    exact taken.set _ (pushed_ok (ok.calls _ _ found) pushable route)
  | waited found phase =>
    have callOk := ok.calls _ _ found
    have fits := callOk.fits
    rw [phase] at fits
    exact ok.set _ (moved_ok .waiting _ callOk (by simp [phase, Phase.finished, Phase.inHand]) rfl fits)
  | polled found phase => exact ok.set _ (polled_ok (ok.calls _ _ found) phase)
  | gaveUp status found phase =>
    have callOk := ok.calls _ _ found
    have fits := callOk.fits
    rw [phase] at fits
    exact ok.set _ (moved_ok (.leaving _) _ callOk (by simp [phase, Phase.finished, Phase.inHand]) rfl fits)
  | cancelled found phase => exact ok.finish _ (cancelled_leaves (ok.calls _ _ found) phase _)
  | failed found phase =>
    have callOk := ok.calls _ _ found
    exact ok.finish _ (leaves_error callOk (running_fresh callOk phase) _)
  | copied found shared => exact ok.set _ (counted_ok (ok.calls _ _ found) shared (Nat.succ_ne_zero _))
  | droppedLast found last => exact ok.close _ (ok.calls _ _ found) (by omega)
  | dropped found more => exact ok.set _ (counted_ok (ok.calls _ _ found) (by omega) (Nat.succ_ne_zero _))
  | unacked | unrejected => exact ok
  | acked found shared phase unsettled | rejectedForGood found shared phase unsettled =>
    exact ok.set _ (settled_ok (ok.calls _ _ found) shared phase unsettled)
  | @rejectedBack c call delivery found shared phase unsettled =>
    have callOk := ok.calls _ _ found
    apply (ok.set _ (settled_ok callOk shared phase unsettled)).setReady
    intro d member
    rcases List.mem_cons.mp member with rfl | queued
    · rfl
    · exact ok.routed _ d queued

theorem calls_set {s : Rabbit} {c other : CallId} {now call : Call} (found : (s.set c now).calls other = some call) :
    other = c ∧ call = now ∨ s.calls other = some call := by
  by_cases same : other = c
  · subst same
    exact .inl ⟨rfl, by simpa using found.symm⟩
  · exact .inr (by simpa [same] using found)

theorem calls_finish {s : Rabbit} {c other : CallId} {now call : Call} {result : Except Status Delivery}
    (found : (s.finish c now result).calls other = some call) :
    other = c ∧ call.args = now.args ∧ call.completed = now.completed ∧ (call.copies = 1 ∨ call.copies = now.copies) ∨
      s.calls other = some call := by
  unfold Rabbit.finish at found
  split at found
  · apply (calls_set found).imp_left
    intro changed
    obtain ⟨same, rfl⟩ := changed
    exact ⟨same, rfl, rfl, .inl rfl⟩
  · apply (calls_set found).imp_left
    intro changed
    obtain ⟨same, rfl⟩ := changed
    exact ⟨same, rfl, rfl, .inr rfl⟩

theorem set_other {s : Rabbit} {c other : CallId} (apart : other ≠ c) (call : Call) :
    (s.set c call).calls other = s.calls other := by
  simp [apart]

theorem finish_other {s : Rabbit} {c other : CallId} (apart : other ≠ c) (call : Call)
    (result : Except Status Delivery) : (s.finish c call result).calls other = s.calls other := by
  unfold Rabbit.finish
  split
  · exact set_other apart _
  · exact set_other apart _

@[simp] theorem finish_accepted (s : Rabbit) (c : CallId) (call : Call) (result : Except Status Delivery) :
    (s.finish c call result).accepted = s.accepted := by
  unfold Rabbit.finish
  split <;> rfl

/-- A step changes only the call that its event is about. -/
theorem step_frame {s t : Rabbit} {e : Event} (stepped : step s e = some t) {c : CallId} (apart : e.call ≠ some c) :
    t.calls c = s.calls c := by
  have other : ∀ {d}, e.call = some d → c ≠ d := fun about same => apart (same ▸ about)
  cases step_change stepped with
  | refused | published | stopped | unacked | unrejected => rfl
  | rejected | fetchedNone | cancelled | failed => exact finish_other (other rfl) _ _
  | fetched => exact finish_other (other rfl) _ _
  | opened | consumed | pushed | waited | polled | gaveUp | copied | droppedLast | dropped | acked | rejectedBack
  | rejectedForGood => exact set_other (other rfl) _

/-- The arguments of a call are those it was made with. -/
theorem step_args {s t : Rabbit} {e : Event} (stepped : step s e = some t) {c : CallId} {call : Call}
    (found : t.calls c = some call) :
    (∃ before, s.calls c = some before ∧ call.args = before.args) ∨
      ∃ transport src, e = .receive c transport src call.args := by
  have kept : s.calls c = some call → ∃ before, s.calls c = some before ∧ call.args = before.args :=
    fun same => ⟨call, same, rfl⟩
  cases step_change stepped with
  | refused | published | stopped | unacked | unrejected => exact .inl (kept found)
  | rejected status new =>
    rcases calls_finish found with ⟨rfl, same, _⟩ | old
    · exact .inr ⟨_, _, by rw [same]⟩
    · exact .inl (kept old)
  | opened new =>
    rcases calls_set found with ⟨rfl, rfl⟩ | old
    · exact .inr ⟨_, _, rfl⟩
    · exact .inl (kept old)
  | fetchedNone was | fetched was | cancelled was | failed was =>
    rcases calls_finish found with ⟨rfl, same, _⟩ | old
    · exact .inl ⟨_, was, same⟩
    · exact .inl (kept old)
  | polled was =>
    rcases calls_set found with ⟨rfl, rfl⟩ | old
    · exact .inl ⟨_, was, by unfold Call.poll; split <;> rfl⟩
    · exact .inl (kept old)
  | consumed was | pushed was | waited was | gaveUp _ was | copied was | droppedLast was | dropped was | acked was
  | rejectedBack was | rejectedForGood was =>
    rcases calls_set found with ⟨rfl, rfl⟩ | old
    · exact .inl ⟨_, was, rfl⟩
    · exact .inl (kept old)

/-- The rule of arguments: what the arguments of every new receive have, those of every call have. -/
theorem step_arguments {P : ReceiveArgs → Prop} {s t : Rabbit} {e : Event}
    (before : ∀ c call, s.calls c = some call → P call.args)
    (new : ∀ c transport src args, e = .receive c transport src args → P args) (stepped : step s e = some t) :
    ∀ c call, t.calls c = some call → P call.args := by
  intro c call found
  rcases step_args stepped found with ⟨old, was, same⟩ | ⟨transport, src, receives⟩
  · rw [same]
    exact before c old was
  · exact new c transport src call.args receives

theorem run_arguments {P : ReceiveArgs → Prop} {t : Rabbit} {es : List Event}
    (new : ∀ c transport src args, .receive c transport src args ∈ es → P args)
    (ran : run step Rabbit.new es = some t) : ∀ c call, t.calls c = some call → P call.args := by
  have start : ∀ c call, Rabbit.new.calls c = some call → P call.args := by
    intro c call found
    cases found
  have events : ∀ e ∈ es, ∀ c transport src args, e = .receive c transport src args → P args := by
    rintro e member c transport src args rfl
    exact new c transport src args member
  exact invariant_along (fun _ _ _ before allowed stepped => step_arguments before allowed stepped) start
    (along_of_events events _) ran

/-- The message of a call is not settled and not shared. -/
def Call.Untouched (call : Call) : Prop := call.completed = false ∧ call.copies ≤ 1

/-- Only its own copies and settlements touch a message. -/
theorem step_untouched {s t : Rabbit} {e : Event} (stepped : step s e = some t) {c : CallId}
    (other : ∀ requeue fault, e ≠ .copy c ∧ e ≠ .ack c fault ∧ e ≠ .nack c requeue fault)
    (before : ∀ call, s.calls c = some call → call.Untouched) {call : Call} (found : t.calls c = some call) :
    call.Untouched := by
  cases step_change stepped with
  | refused | published | stopped | unacked | unrejected => exact before call found
  | rejected status new =>
    rcases calls_finish found with ⟨rfl, _, completed, copies⟩ | old
    · exact ⟨completed, by rcases copies with one | same <;> simp [*]⟩
    · exact before call old
  | opened new =>
    rcases calls_set found with ⟨rfl, rfl⟩ | old
    · exact ⟨rfl, Nat.zero_le _⟩
    · exact before call old
  | fetchedNone was | fetched was | cancelled was | failed was =>
    rcases calls_finish found with ⟨rfl, _, completed, copies⟩ | old
    · obtain ⟨unsettled, few⟩ := before _ was
      refine ⟨completed.trans unsettled, ?_⟩
      rcases copies with one | same
      · exact one.le
      · exact same.le.trans few
    · exact before call old
  | polled was =>
    rcases calls_set found with ⟨rfl, rfl⟩ | old
    · have few := before _ was
      unfold Call.poll
      split <;> exact few
    · exact before call old
  | consumed was | pushed was | waited was | gaveUp _ was =>
    rcases calls_set found with ⟨rfl, rfl⟩ | old
    · have few := before _ was
      exact few
    · exact before call old
  | droppedLast was =>
    rcases calls_set found with ⟨rfl, rfl⟩ | old
    · exact ⟨(before _ was).1, Nat.zero_le _⟩
    · exact before call old
  | dropped was more =>
    rcases calls_set found with ⟨rfl, rfl⟩ | old
    · have few := (before _ was).2
      omega
    · exact before call old
  | copied was =>
    rcases calls_set found with ⟨rfl, _⟩ | old
    · exact absurd rfl (other true none).1
    · exact before call old
  | acked was =>
    rcases calls_set found with ⟨rfl, _⟩ | old
    · exact absurd rfl (other true none).2.1
    · exact before call old
  | rejectedBack was =>
    rcases calls_set found with ⟨rfl, _⟩ | old
    · exact absurd rfl (other true none).2.2
    · exact before call old
  | rejectedForGood was =>
    rcases calls_set found with ⟨rfl, _⟩ | old
    · exact absurd rfl (other false none).2.2
    · exact before call old

@[simp] theorem finish_stopped (s : Rabbit) (c : CallId) (call : Call) (result : Except Status Delivery) :
    (s.finish c call result).stopped = s.stopped := by
  unfold Rabbit.finish
  split <;> rfl

/-- Only a shutdown stops a transport. -/
theorem step_stopped {s t : Rabbit} {e : Event} (stepped : step s e = some t) {transport : TransportId}
    (running : s.stopped transport = false) (other : e ≠ .shutdown transport) : t.stopped transport = false := by
  cases step_change stepped with
  | @stopped transport' =>
    have apart : transport ≠ transport' := fun same => other (by rw [same])
    show Function.update s.stopped transport' true transport = false
    rw [Function.update_of_ne apart, running]
  | rejected | fetchedNone | fetched | cancelled | failed => simpa using running
  | _ => exact running

/-- From some identity on, no call was made and no transport was stopped. -/
def Rabbit.Unused (s : Rabbit) (bound : Nat) : Prop :=
  ∀ n, bound ≤ n → s.calls n = none ∧ s.stopped n = false

/-- A step uses at most one new identity. -/
theorem step_unused {s t : Rabbit} {e : Event} {bound : Nat} (unused : s.Unused bound)
    (stepped : step s e = some t) : ∃ newer, t.Unused newer := by
  have apart : ∃ newer : Nat, ∀ n, newer ≤ n → e.call ≠ some n ∧ e ≠ .shutdown n := by
    cases about : e.call with
    | some c =>
      refine ⟨c + 1, fun n later => ⟨fun same => ?_, ?_⟩⟩
      · obtain rfl := Option.some.inj same
        exact absurd later (Nat.not_succ_le_self _)
      · rintro rfl
        cases about
    | none =>
      cases e with
      | shutdown transport =>
        refine ⟨transport + 1, fun n later => ⟨nofun, fun same => ?_⟩⟩
        obtain rfl := Event.shutdown.inj same
        exact absurd later (Nat.not_succ_le_self _)
      | send => exact ⟨0, fun n _ => ⟨nofun, nofun⟩⟩
      | _ => cases about
  obtain ⟨newer, other⟩ := apart
  refine ⟨max bound newer, ?_⟩
  intro n later
  obtain ⟨notCalled, notStopped⟩ := other n (le_of_max_le_right later)
  obtain ⟨none, running⟩ := unused n (le_of_max_le_left later)
  exact ⟨(step_frame stepped notCalled).trans none, step_stopped stepped running notStopped⟩

theorem run_unused {t : Rabbit} {es : List Event} (ran : run step Rabbit.new es = some t) :
    ∃ bound, t.Unused bound := by
  have start : ∃ bound, Rabbit.new.Unused bound := ⟨0, fun _ _ => ⟨rfl, rfl⟩⟩
  have keeps : ∀ s e next, (∃ bound, s.Unused bound) → step s e = some next → ∃ bound, next.Unused bound :=
    fun s e next ⟨bound, unused⟩ stepped => step_unused unused stepped
  exact invariant keeps start ran

end Mqss.RabbitMq
