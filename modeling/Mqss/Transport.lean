import Mathlib.Data.Finmap

/-!
The vocabulary of the transport interface: statuses, addresses, envelopes,
delivered messages and the optional arguments of `send` and `receive`.
-/

namespace Mqss

/-- Status codes reported by operations. -/
inductive StatusCode
  | Ok | Timeout | Unavailable | Unsupported | InvalidArgument | Serialization | Configuration | Internal
  deriving DecidableEq, Repr

/-- The status of an operation; its constructors leave the reason of a success empty. -/
structure Status where
  code : StatusCode
  reason : String
  quiet : code = .Ok → reason = ""
  deriving DecidableEq

namespace Status
def success : Status := ⟨.Ok, "", fun _ => rfl⟩
def timeout (reason : String) : Status := ⟨.Timeout, reason, nofun⟩
def unavailable (reason : String) : Status := ⟨.Unavailable, reason, nofun⟩
def unsupported (reason : String) : Status := ⟨.Unsupported, reason, nofun⟩
def invalidArgument (reason : String) : Status := ⟨.InvalidArgument, reason, nofun⟩
def serialization (reason : String) : Status := ⟨.Serialization, reason, nofun⟩
def configuration (reason : String) : Status := ⟨.Configuration, reason, nofun⟩
def internal (reason : String) : Status := ⟨.Internal, reason, nofun⟩
def ok (status : Status) : Bool := status.code = .Ok

@[simp] theorem ok_success : success.ok = true := rfl
@[simp] theorem ok_timeout (reason : String) : (timeout reason).ok = false := rfl
@[simp] theorem ok_unavailable (reason : String) : (unavailable reason).ok = false := rfl
@[simp] theorem ok_unsupported (reason : String) : (unsupported reason).ok = false := rfl
@[simp] theorem ok_invalidArgument (reason : String) : (invalidArgument reason).ok = false := rfl
@[simp] theorem ok_internal (reason : String) : (internal reason).ok = false := rfl

/-- There is one success status. -/
theorem ok_iff (status : Status) : status.ok = true ↔ status = success := by
  constructor
  · intro fine
    obtain ⟨code, reason, quiet⟩ := status
    have isOk : code = .Ok := by simpa [ok] using fine
    subst isOk
    simp [success, quiet rfl]
  · rintro rfl
    rfl
end Status

/-- The result of an operation that returns a value or a failure status. -/
abbrev Result (α : Type) := Except Status α

/-- Transport endpoint identifier. -/
structure Address where
  name : String
  deriving DecidableEq

/-- Encoded message with the metadata that codecs and messaging patterns use. -/
structure Envelope where
  payload : String
  content_type : String := ""
  headers : Finmap (fun _ : String => String) := ∅
  correlation_id : String := ""
  reply_to : Option Address := none
  deriving DecidableEq

/-- The acknowledgement state that the handlers of a message share, by its identity. -/
abbrev AckRef := Nat

/-- A delivered envelope with its completion handlers, when the transport installed some. -/
structure Message where
  envelope : Envelope
  handlers : Option AckRef := none
  deriving DecidableEq

/-- Delivery acknowledgement mode. -/
inductive AckMode
  | Auto | Manual
  deriving DecidableEq, Repr

/-- Optional arguments of `send`. -/
structure SendArgs where
  confirm : Bool := false
  deriving DecidableEq, Repr

/-- Optional arguments of `receive`; the timeout counts milliseconds. -/
structure ReceiveArgs where
  timeout : Option Int := none
  ack_mode : AckMode := .Manual
  deriving DecidableEq, Repr

end Mqss
