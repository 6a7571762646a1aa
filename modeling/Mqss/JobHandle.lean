import Mqss.ControlQueries
import Mqss.RestGrammar

/-!
The handle that a control client gets for its task. It leaves the service as a
32-bit number or as a decimal text and comes back as either, so the 64-bit id it
stands for is found again only when it passes through both.
-/

namespace Mqss.QOffload
open Mqss.Words Mqss.Machine Mqss.Segments

/-- The uuid of a create response, in the form its protocol gives it. -/
inductive Handle
  | typed (uuid : Int32)
  | rest (uuid : String)

/-- The handle in a response. -/
def Handle.of (response : APIResponse) : Option Handle :=
  match response.typed_response with
  | some (.create_task uuid) => some (.typed uuid)
  | some _ => none
  | none =>
    match response.response_body.bind (fun body => Struct.find body "uuid") with
    | some (.string uuid) => some (.rest uuid)
    | _ => none

/-- The handle as a 32-bit number. -/
def Handle.uuid : Handle → Int32
  | .typed uuid => uuid
  | .rest uuid => ((Rest.parseTaskId uuid.toList).map narrow).getD 0

/-- The handle as a text. -/
def Handle.text : Handle → String
  | .typed uuid => toString uuid.toInt
  | .rest uuid => uuid

inductive Query
  | status | result
  deriving DecidableEq

/-- A query for a handle through either protocol. -/
def Handle.ask (handle : Handle) (protocol : Protocol) (query : Query) (response_queue : String) : APIRequest :=
  match protocol, query with
  | .typed, .status => { typed_request := some (.task_status handle.uuid), response_queue := response_queue }
  | .typed, .result => { typed_request := some (.task_result handle.uuid), response_queue := response_queue }
  | .rest, .status =>
    { method := "GET", request := "/job/" ++ handle.text ++ "/status", response_queue := response_queue }
  | .rest, .result =>
    { method := "GET", request := "/job/" ++ handle.text ++ "/result", response_queue := response_queue }

def Query.command (query : Query) (task_id : UInt64) : ControlCommand :=
  match query with
  | .status => .GetTaskStatus task_id
  | .result => .GetTaskResult task_id

def Query.part : Query → List Char
  | .status => "status".toList
  | .result => "result".toList

/-! ### Paths -/

namespace Rest

/-- The path of a query for a task has three parts. -/
theorem splitPath_job {text : List Char} (plain : '/' ∉ text) (query : Query) :
    splitPath ("/job/".toList ++ text ++ '/' :: query.part) = ["job".toList, text, query.part] := by
  have job : '/' ∉ "job".toList := by decide
  have last : '/' ∉ query.part ∧ query.part ≠ [] := by cases query <;> decide
  have front : ("/job/".toList ++ text ++ '/' :: query.part).dropWhile (· = '/') =
      "job".toList ++ '/' :: (text ++ '/' :: query.part) := by
    have letters : "/job/".toList = ['/', 'j', 'o', 'b', '/'] := rfl
    have name : "job".toList = ['j', 'o', 'b'] := rfl
    simp [letters, name, List.dropWhile]
  have back : ("job".toList ++ '/' :: (text ++ '/' :: query.part)).rdropWhile (· = '/') =
      "job".toList ++ '/' :: (text ++ '/' :: query.part) := by
    rw [List.rdropWhile_eq_self_iff]
    intro nonempty
    have ends : ("job".toList ++ '/' :: (text ++ '/' :: query.part)).getLast nonempty = query.part.getLast last.2 := by
      rw [List.getLast_append_of_ne_nil _ (by simp), List.getLast_cons (by simp),
        List.getLast_append_of_ne_nil _ (by simp), List.getLast_cons last.2]
    rw [ends]
    intro slash
    exact last.1 (of_decide_eq_true slash ▸ List.getLast_mem last.2)
  rw [splitPath, parts_eq_cut, front, back, cut_append job, cut_append plain, cut_plain last.1 last.2]

theorem getCommand_job {text : List Char} (query : Query) :
    getCommand ["job".toList, text, query.part] =
      ((parseTaskId text).map query.command).getD (.InvalidControl "INVALID JOB ID") := by
  rw [getCommand, if_pos rfl]
  cases parseTaskId text with
  | none => rfl
  | some task_id => cases query <;> rfl

end Rest

/-! ### What a handle stands for -/

/-- A query through the typed protocol names the extension of the handle's number. -/
theorem Handle.command_ask_typed (handle : Handle) (query : Query) (response_queue : String) :
    Control.command (handle.ask .typed query response_queue) = query.command (widen handle.uuid) := by
  cases query <;> rfl

/-- A query through the REST-like protocol names the number that its text reads as. -/
theorem Handle.command_ask_rest {handle : Handle} (plain : '/' ∉ handle.text.toList) (query : Query)
    (response_queue : String) : Control.command (handle.ask .rest query response_queue) =
      ((Rest.parseTaskId handle.text.toList).map query.command).getD (.InvalidControl "INVALID JOB ID") := by
  have untyped : controlProtocolFor (handle.ask .rest query response_queue) = .rest := by cases query <;> rfl
  have get : (handle.ask .rest query response_queue).method = "GET" := by cases query <;> rfl
  have path : (handle.ask .rest query response_queue).request.toList =
      "/job/".toList ++ handle.text.toList ++ '/' :: query.part := by
    cases query with
    | status =>
      show ("/job/" ++ handle.text ++ "/status").toList = _
      rw [String.toList_append, String.toList_append]
      rfl
    | result =>
      show ("/job/" ++ handle.text ++ "/result").toList = _
      rw [String.toList_append, String.toList_append]
      rfl
  rw [Control.command, untyped, Protocol.decode, Rest.decode, path, Rest.splitPath_job plain, Rest.getCommand_job]
  simp [get]

/-- The handle of a create response for the task with this id. -/
def Handle.created (protocol : Protocol) (id : UInt64) : Handle :=
  match protocol with
  | .typed => .typed (narrow id)
  | .rest => .rest (toString (widen (narrow id)).toNat)

/-- The id passes through a 32-bit field, and a typed handle is no negative number. -/
def Usable (protocol : Protocol) (id : UInt64) : Prop :=
  Fits id ∧ (protocol = .typed → id.toNat < 2 ^ 31)

instance (protocol : Protocol) (id : UInt64) : Decidable (Usable protocol id) :=
  inferInstanceAs (Decidable (_ ∧ _))

namespace Handle

theorem of_created (protocol : Protocol) (id : UInt64) (queue : String) :
    Handle.of (protocol.encode (.TaskCreated (widen (narrow id))) queue) = some (created protocol id) := by
  cases protocol with
  | typed => simp [Protocol.encode, Typed.encode, Typed.response, Handle.of, created]
  | rest =>
    simp [Protocol.encode, Rest.encode, Rest.responseBody, Rest.setString, Handle.of, created, Struct.set, Struct.find]

theorem uuid_created (protocol : Protocol) (id : UInt64) : (created protocol id).uuid = narrow id := by
  cases protocol with
  | typed => rfl
  | rest =>
    rw [created, uuid, Rest.parseTaskId_toString, Option.map_some, Option.getD_some, narrow_widen]

theorem plain_toString (n : Nat) : '/' ∉ (toString n).toList := by
  intro slash
  rw [Decimal.toList_toString] at slash
  exact absurd (Decimal.isDigit_of_mem_toChars slash) (by decide)

theorem plain_created (protocol : Protocol) (id : UInt64) : '/' ∉ (created protocol id).text.toList := by
  cases protocol with
  | rest => exact plain_toString _
  | typed =>
    show '/' ∉ (toString (narrow id).toInt).toList
    by_cases negative : (narrow id).toInt < 0
    · rw [Decimal.toList_toString_neg negative, List.mem_cons, not_or]
      exact ⟨by decide, plain_toString _⟩
    · obtain ⟨n, same⟩ := Int.eq_ofNat_of_zero_le (Int.not_lt.mp negative)
      rw [same]
      exact plain_toString n

/-- The text of a usable handle is the id in decimal. -/
theorem text_created {protocol : Protocol} {id : UInt64} (usable : Usable protocol id) :
    (created protocol id).text = toString id.toNat := by
  obtain ⟨fits, positive⟩ := usable
  cases protocol with
  | typed =>
    show toString (narrow id).toInt = _
    rw [fits.toInt_narrow, if_pos (positive rfl)]
    rfl
  | rest =>
    show toString (widen (narrow id)).toNat = _
    rw [show widen (narrow id) = id from fits]

/-- The text of a negative number is no task id. -/
theorem parseTaskId_neg {i : Int} (negative : i < 0) : Rest.parseTaskId (toString i).toList = none := by
  rw [Decimal.toList_toString_neg negative, Rest.parseTaskId, Decimal.fromChars, if_neg (by simp), if_neg ?_]
  · rfl
  · intro digits
    have dash : Char.isDigit '-' = true := List.all_eq_true.mp digits '-' List.mem_cons_self
    exact absurd dash (by decide)

/-- A handle names its task through both protocols if and only if it is usable. -/
theorem commands_iff (protocol : Protocol) (id : UInt64) :
    (∀ through query queue, Control.command ((created protocol id).ask through query queue) = query.command id) ↔
      Usable protocol id := by
  constructor
  · intro named
    have fits : Fits id := by
      have typed := named .typed .status ""
      rw [command_ask_typed, uuid_created] at typed
      exact ControlCommand.GetTaskStatus.inj typed
    refine ⟨fits, ?_⟩
    rintro rfl
    by_contra large
    have rest := named .rest .status ""
    have negative : (narrow id).toInt < 0 := by
      have bound : id.toNat < 2 ^ 64 := id.toNat_lt
      rw [fits.toInt_narrow, if_neg large]
      omega
    have text : (created .typed id).text = toString (narrow id).toInt := rfl
    rw [command_ask_rest (plain_created _ _), text, parseTaskId_neg negative] at rest
    cases rest
  · intro usable through query queue
    cases through with
    | typed => rw [command_ask_typed, uuid_created, show widen (narrow id) = id from usable.1]
    | rest =>
      rw [command_ask_rest (plain_created _ _), text_created usable, Rest.parseTaskId_toString]
      rfl

/-- Usable handles of different tasks differ in both forms. -/
theorem created_apart {protocol other : Protocol} {id id' : UInt64} (usable : Usable protocol id)
    (usable' : Usable other id') (apart : id ≠ id') :
    (created protocol id).uuid ≠ (created other id').uuid ∧ (created protocol id).text ≠ (created other id').text := by
  constructor
  · intro same
    rw [uuid_created, uuid_created] at same
    exact apart ((usable.1.eq_widen same).trans usable'.1)
  · intro same
    rw [text_created usable, text_created usable'] at same
    have parsed := Rest.parseTaskId_toString id
    rw [same, Rest.parseTaskId_toString] at parsed
    exact apart (Option.some.inj parsed).symm

end Handle

namespace Relay

/-- The request creates the next task. -/
def Op.createsTask : Op → Option APIRequest
  | .process request => if Control.creates (Control.command request) then some request else none
  | _ => none

/-- The call takes the completed task with this id. -/
def Op.takes (id : UInt64) : Op → Prop
  | .process request => (Control.command request).takes id = true
  | _ => False

/-- The response to a query with a handle. -/
def answerTo (config : Config) (s : Relay) (handle : Handle) (through : Protocol) (query : Query) (queue : String) :
    APIResponse :=
  (s.process config (handle.ask through query queue)).1.response

/-- What the handle of a task reports in this state. -/
def Reports (config : Config) (s : Relay) (handle : Handle) (query : Query) (result : ControlResult) : Prop :=
  ∀ through queue, answerTo config s handle through query queue = through.encode result queue

/-- The handle of the next task works: it names the task, reports it as waiting until a
    result with the outbound task's id is processed, and from then on as that result says;
    the result itself is there until it is taken. -/
def HandleWorks (config : Config) (s : Relay) (op : Op) : Prop :=
  ∀ request, op.createsTask = some request →
    ∃ handle outbound, Handle.of (s.process config request).1.response = some handle ∧
      (s.process config request).1.outbound_task = some outbound ∧
      (∀ through query queue,
        Control.command (handle.ask through query queue) = query.command s.forwarder.nextTaskId.1) ∧
      ∀ between t, run (step config) (s.process config request).2 between = some t →
        (∀ op ∈ between, ¬ op.answers outbound.task_id) → submissions between < 2 ^ 60 →
        t.Reports config handle .status (.TaskStatus .Waiting) ∧
        ∀ result : QuantumResult, result.task_id = outbound.task_id →
          ∀ after u, run (step config) (t.processResult result).2 after = some u →
            (∀ op ∈ after, ¬ op.takes s.forwarder.nextTaskId.1) →
            submissions between + submissions after < 2 ^ 60 →
            u.Reports config handle .status
              (.TaskStatus (if result.execution_status then .Completed else .Cancelled)) ∧
            u.Reports config handle .result (.TaskResult (Forward.completedTask
              ⟨.ControlTask, s.forwarder.nextTaskId.1, s.forwarder.nextTaskId.1, ""⟩ result))

/-- The handle that a call's response carries. -/
def createdHandles (config : Config) (s : Relay) (op : Op) : List Handle :=
  op.createsTask.toList.filterMap (fun request => Handle.of (s.process config request).1.response)

/-- A create request finds the next id usable for its protocol. -/
def FindsUsable (s : Relay) (op : Op) : Prop :=
  ∀ request, op.createsTask = some request → Usable (controlProtocolFor request) s.forwarder.nextTaskId.1

/-- The place in the id sequence at which a create request finds the counter. -/
def createdAt (s : Relay) (op : Op) : List Nat :=
  op.createsTask.toList.map (fun _ => s.forwarder.next_task_index.toNat % 2 ^ 60)

/-- No two create requests of a run find the counter at one place of the id sequence. -/
def FindsDistinct (config : Config) (s : Relay) (ops : List Op) : Prop :=
  (history (step config) createdAt s ops).Nodup

/-- All handles of a run differ, as numbers and as texts. -/
def HandlesDistinct (config : Config) (s : Relay) (ops : List Op) : Prop :=
  (history (step config) (createdHandles config) s ops).Pairwise fun handle other =>
    handle.uuid ≠ other.uuid ∧ handle.text ≠ other.text

/-- The protocol of a create request and the forwarder it finds. -/
def created (s : Relay) (op : Op) : List (Protocol × Forward) :=
  op.createsTask.toList.map (fun request => (controlProtocolFor request, s.forwarder))

/-- The entry of the next task that a create request makes. -/
def nextEntry (s : Relay) : PendingTask :=
  ⟨.ControlTask, s.forwarder.nextTaskId.1, s.forwarder.nextTaskId.1, ""⟩

theorem createsTask_eq_some {op : Op} {request : APIRequest} :
    op.createsTask = some request ↔ op = .process request ∧ ∃ create, Control.command request = .CreateQuantumTask create := by
  cases op with
  | process other =>
    simp only [Op.createsTask, Option.ite_none_right_eq_some, Option.some.injEq, Op.process.injEq]
    constructor
    · rintro ⟨creates, rfl⟩
      refine ⟨rfl, ?_⟩
      cases command : Control.command other with
      | CreateQuantumTask create => exact ⟨create, rfl⟩
      | _ => simp [command, Control.creates] at creates
    · rintro ⟨rfl, create, command⟩
      exact ⟨by simp [command, Control.creates], rfl⟩
  | _ => simp [Op.createsTask]

/-- What a create request does and is answered. -/
theorem process_create {config : Config} {s : Relay} {request : APIRequest} {create : CreateQuantumTaskCommand}
    (command : Control.command request = .CreateQuantumTask create) :
    s.process config request =
      (⟨some (Forward.readdressed (Control.applyCreateTaskCommand create) s.forwarder.nextTaskId.1 config),
        (controlProtocolFor request).encode (.TaskCreated (widen (narrow s.forwarder.nextTaskId.1)))
          request.response_queue⟩,
        ⟨s.forwarder.nextTaskId.2, s.tasks.addDirectTask s.nextEntry⟩) := by
  have decoded : (controlProtocolFor request).decode request = .CreateQuantumTask create := command
  simp [process, Control.process, decoded, Control.executeControlCommand, Forward.createControlTask,
    TaskStore.addControlTask, Forward.readdressed, nextEntry]

theorem handle_of_create {config : Config} {s : Relay} {request : APIRequest} {create : CreateQuantumTaskCommand}
    (command : Control.command request = .CreateQuantumTask create) :
    Handle.of (s.process config request).1.response =
      some (Handle.created (controlProtocolFor request) s.forwarder.nextTaskId.1) := by
  rw [process_create command, Handle.of_created]

/-- A status query that names a task is answered with its status. -/
theorem reports_status {config : Config} {s : Relay} {handle : Handle} {id : UInt64} {status : TaskStatus}
    (names : ∀ through query queue, Control.command (handle.ask through query queue) = query.command id)
    (is : s.tasks.status id = status) : s.Reports config handle .status (.TaskStatus status) := by
  intro through queue
  have protocol : controlProtocolFor (handle.ask through .status queue) = through := by cases through <;> rfl
  have queue_kept : (handle.ask through .status queue).response_queue = queue := by cases through <;> rfl
  rw [answerTo, process_response, names, protocol, queue_kept, Query.command, Control.executeControlCommand, is]

/-- A result query that names a completed task is answered with its record. -/
theorem reports_result {config : Config} {s : Relay} {handle : Handle} {id : UInt64} {record : CompletedControlTask}
    (names : ∀ through query queue, Control.command (handle.ask through query queue) = query.command id)
    (idle : id ∉ s.tasks.pending) (found : s.tasks.completed_control_tasks.lookup id = some record) :
    s.Reports config handle .result (.TaskResult record) := by
  intro through queue
  have protocol : controlProtocolFor (handle.ask through .result queue) = through := by cases through <;> rfl
  have queue_kept : (handle.ask through .result queue).response_queue = queue := by cases through <;> rfl
  rw [answerTo, process_response, names, protocol, queue_kept, Query.command, Control.executeControlCommand,
    Control.getTaskResult, takeCompleted_stored idle found]

/-- A record stays when its task is not taken. -/
theorem step_untaken {config : Config} {s t : Relay} {op : Op} {id : UInt64} {record : CompletedControlTask}
    (own : s.Own) (idle : id ∉ s.tasks.pending) (quiet : ¬ op.takes id)
    (found : s.tasks.completed_control_tasks.lookup id = some record) (stepped : step config s op = some t) :
    t.tasks.completed_control_tasks.lookup id = some record := by
  refine step_keeps_record own idle ?_ found stepped
  rintro request rfl
  constructor <;>
  · intro asked
    simp [Op.takes, asked, ControlCommand.takes] at quiet

/-- The record of a task whose id has come back stays until it is taken. -/
theorem run_keeps_record {config : Config} {uid : UInt64} {s t : Relay} {ops : List Op} {k n : Nat}
    {record : CompletedControlTask} (own : s.Own) (counted : Counted uid s n) (earlier : k < n)
    (few : n + submissions ops ≤ k + 2 ^ 60) (idle : stride uid k ∉ s.tasks.pending)
    (quiet : ∀ op ∈ ops, ¬ op.takes (stride uid k))
    (found : s.tasks.completed_control_tasks.lookup (stride uid k) = some record)
    (ran : run (step config) s ops = some t) :
    t.tasks.completed_control_tasks.lookup (stride uid k) = some record ∧ stride uid k ∉ t.tasks.pending :=
  run_idle (fun _ _ _ own idle found quiet stepped => step_untaken own idle quiet found stepped) own counted earlier
    few idle quiet found ran

/-- The handle of a create request works if and only if the request finds a usable id. -/
theorem handleWorks_iff {config : Config} {uid : UInt64} {s : Relay} {n : Nat} (own : s.Own) (counted : Counted uid s n)
    (op : Op) : HandleWorks config s op ↔ FindsUsable s op := by
  have next := counted.next
  constructor
  · intro works request creates
    obtain ⟨rfl, create, command⟩ := createsTask_eq_some.mp creates
    obtain ⟨handle, outbound, response, _, names, _⟩ := works request creates
    rw [handle_of_create command, Option.some.injEq] at response
    rw [← Handle.commands_iff]
    rw [← response] at names
    exact names
  · intro usable request creates
    obtain ⟨rfl, create, command⟩ := createsTask_eq_some.mp creates
    have names := (Handle.commands_iff _ _).mpr (usable request creates)
    have key : widen (narrow s.forwarder.nextTaskId.1) = s.forwarder.nextTaskId.1 := (usable request creates).1
    have after : Counted uid (s.process config request).2 (n + 1) := by
      rw [process_create command]
      exact ⟨counted.uid, by simp [Forward.nextTaskId, counted.index]⟩
    have ownAfter : (s.process config request).2.Own := step_own own (rfl : step config s (.process request) = _)
    have entered : (s.process config request).2.tasks.pending.lookup s.forwarder.nextTaskId.1 = some s.nextEntry := by
      rw [process_create command]
      exact Finmap.lookup_insert _
    refine ⟨_, _, handle_of_create command, by rw [process_create command], names, ?_⟩
    intro between t waited first few
    have quiet : ∀ op ∈ between, ¬ op.answers (narrow s.forwarder.nextTaskId.1) := first
    have pending : t.tasks.pending.lookup s.forwarder.nextTaskId.1 = some s.nextEntry := by
      rw [next] at quiet entered ⊢
      exact run_keeps_lookup after (Nat.lt_succ_self n) (by omega) (.inr quiet) entered waited
    have waiting : t.tasks.status s.forwarder.nextTaskId.1 = .Waiting :=
      if_pos (Finmap.mem_iff.mpr ⟨_, pending⟩)
    refine ⟨reports_status names waiting, ?_⟩
    intro result same later u ran untaken fewer
    have key' : widen result.task_id = s.forwarder.nextTaskId.1 := by
      rw [same]
      exact key
    have ownLater : t.Own := invariant (fun _ _ _ own stepped => step_own own stepped) ownAfter waited
    have done : Counted uid (t.processResult result).2 (n + 1 + submissions between) :=
      step_counted (run_counted after waited) (rfl : step config t (.processResult result) = _)
    obtain ⟨gone, stored⟩ := processResult_leaves ownLater pending rfl key'
    have ownDone : (t.processResult result).2.Own :=
      step_own ownLater (rfl : step config t (.processResult result) = _)
    obtain ⟨kept, idle⟩ : u.tasks.completed_control_tasks.lookup s.forwarder.nextTaskId.1 =
        some (Forward.completedTask s.nextEntry result) ∧ s.forwarder.nextTaskId.1 ∉ u.tasks.pending := by
      rw [next] at gone stored untaken ⊢
      exact run_keeps_record ownDone done (by omega) (by omega) gone untaken stored ran
    refine ⟨reports_status names ?_, reports_result names idle kept⟩
    simp only [TaskStore.status, idle, kept, if_false, Forward.completedTask]

/-- Everything seen so far and the forwarder itself have the uid of the instance. -/
def SeenUid (uid : UInt64) (seen : List (Protocol × Forward)) (s : Relay) : Prop :=
  s.forwarder.instance_uid = uid ∧ ∀ x ∈ seen, x.2.instance_uid = uid

theorem along_handleWorks_iff {config : Config} {uid : UInt64} {s t : Relay} {ops : List Op} {n : Nat} (own : s.Own)
    (counted : Counted uid s n) (ran : run (step config) s ops = some t) :
    Along (step config) (HandleWorks config) s ops ↔ Along (step config) FindsUsable s ops := by
  induction ops generalizing s n with
  | nil => exact Iff.rfl
  | cons op ops ih =>
    obtain ⟨next, stepped, rest⟩ := run_cons.mp ran
    rw [along_cons stepped, along_cons stepped, handleWorks_iff own counted]
    exact and_congr_right fun _ => ih (step_own own stepped) (step_counted counted stepped) rest

theorem created_uid {config : Config} {uid : UInt64} {t : Relay} {ops : List Op}
    (ran : run (step config) (.new uid) ops = some t) :
    SeenUid uid (history (step config) created (.new uid) ops) t := by
  refine history_invariant ?_ ⟨rfl, by simp⟩ (along_of_forall (fun _ _ => trivial) _ _) ran
  rintro seen s op next ⟨same, all⟩ (_ : True) stepped
  refine ⟨?_, ?_⟩
  · cases step_change stepped <;> exact same
  · intro x member
    rcases List.mem_append.mp member with old | new
    · exact all x old
    · obtain ⟨request, _, rfl⟩ := List.mem_map.mp new
      exact same

theorem createdHandles_eq (config : Config) (s : Relay) (op : Op) :
    createdHandles config s op = (created s op).map (fun x => Handle.created x.1 x.2.nextTaskId.1) := by
  cases creates : op.createsTask with
  | none => simp [createdHandles, created, creates]
  | some request =>
    obtain ⟨rfl, create, command⟩ := createsTask_eq_some.mp creates
    simp [createdHandles, created, creates, handle_of_create command]

theorem createdAt_eq (s : Relay) (op : Op) :
    createdAt s op = (created s op).map (fun x => x.2.next_task_index.toNat % 2 ^ 60) := by
  rw [createdAt, created, List.map_map]
  rfl

theorem findsUsable_iff (s : Relay) (op : Op) : FindsUsable s op ↔ ∀ x ∈ created s op, Usable x.1 x.2.nextTaskId.1 := by
  cases creates : op.createsTask <;> simp [FindsUsable, created, creates]

/-- Given usable ids, handles differ if and only if the requests came at different places
    of the id sequence. -/
theorem handlesDistinct_iff {config : Config} {uid : UInt64} {t : Relay} {ops : List Op}
    (ran : run (step config) (.new uid) ops = some t) (usable : Along (step config) FindsUsable (.new uid) ops) :
    HandlesDistinct config (.new uid) ops ↔ FindsDistinct config (.new uid) ops := by
  have uids := (created_uid ran).2
  rw [along_iff_history findsUsable_iff ran] at usable
  rw [HandlesDistinct, history_map (createdHandles_eq config), FindsDistinct, history_map createdAt_eq, List.Nodup,
    List.pairwise_map, List.pairwise_map]
  refine List.Pairwise.iff_of_mem fun {x y} first second => ?_
  have place : x.2.nextTaskId.1 = y.2.nextTaskId.1 ↔
      x.2.next_task_index.toNat % 2 ^ 60 = y.2.next_task_index.toNat % 2 ^ 60 := by
    rw [Forward.nextTaskId, Forward.nextTaskId, uids x first, uids y second]
    exact stride_word_inj
  constructor
  · rintro ⟨apart, _⟩ same
    rw [Handle.uuid_created, Handle.uuid_created, place.mpr same] at apart
    exact apart rfl
  · intro apart
    exact Handle.created_apart (usable x first) (usable y second) fun same => apart (place.mp same)

/-- In every run the handles of all create requests work and differ if and only if every
    one of these requests finds a usable id, no two at one place of the id sequence. -/
theorem job_handles_work_iff {config : Config} {uid : UInt64} {t : Relay} {ops : List Op}
    (ran : run (step config) (.new uid) ops = some t) :
    Along (step config) (HandleWorks config) (.new uid) ops ∧ HandlesDistinct config (.new uid) ops ↔
      Along (step config) FindsUsable (.new uid) ops ∧ FindsDistinct config (.new uid) ops := by
  have works := along_handleWorks_iff (new_own uid) (new_counted uid) ran
  constructor
  · rintro ⟨working, distinct⟩
    have usable := works.mp working
    exact ⟨usable, (handlesDistinct_iff ran usable).mp distinct⟩
  · rintro ⟨usable, distinct⟩
    exact ⟨works.mpr usable, (handlesDistinct_iff ran usable).mpr distinct⟩

/-- The places at which create requests come grow until the id sequence comes round. -/
theorem createdAt_grows {config : Config} {uid : UInt64} {s t : Relay} {ops : List Op} {n : Nat}
    (counted : Counted uid s n) (few : n + submissions ops ≤ 2 ^ 60) (ran : run (step config) s ops = some t) :
    (history (step config) createdAt s ops).Nodup ∧ ∀ place ∈ history (step config) createdAt s ops, n ≤ place := by
  induction ops generalizing s n with
  | nil => simp
  | cons op ops ih =>
    obtain ⟨next, stepped, rest⟩ := run_cons.mp ran
    rw [submissions_cons] at few
    obtain ⟨distinct, later⟩ := ih (step_counted counted stepped) (by omega) rest
    rw [history_cons stepped]
    cases creates : op.createsTask with
    | none =>
      have nothing : createdAt s op = [] := by simp [createdAt, creates]
      rw [nothing, List.nil_append]
      refine ⟨distinct, ?_⟩
      intro place member
      have bound := later place member
      omega
    | some request =>
      obtain ⟨rfl, create, command⟩ := createsTask_eq_some.mp creates
      have one : submissions [.process request] = 1 := by simp [submissions, Op.submits, command, Control.creates]
      have here : createdAt s (.process request) = [n] := by
        have place : s.forwarder.next_task_index.toNat % 2 ^ 60 = n := by
          rw [counted.index, UInt64.toNat_ofNat']
          omega
        simp only [createdAt, creates, Option.toList_some, List.map_cons, List.map_nil, place]
      rw [here, List.singleton_append, List.nodup_cons]
      refine ⟨⟨fun again => ?_, distinct⟩, fun place member => ?_⟩
      · have bound := later n again
        omega
      · rcases List.mem_cons.mp member with rfl | after
        · exact le_rfl
        · have bound := later place after
          omega

/-- A run that does not exhaust the id sequence meets its places once each. -/
theorem findsDistinct_of_few {config : Config} {uid : UInt64} {t : Relay} {ops : List Op}
    (ran : run (step config) (.new uid) ops = some t) (few : submissions ops ≤ 2 ^ 60) :
    FindsDistinct config (.new uid) ops :=
  (createdAt_grows (new_counted uid) (by omega) ran).1

def createTyped : Op := .process { typed_request := some (.create_task {}), response_queue := "client" }

theorem firstHandle_works : ∃ t, run (step makeDefaultConfig) (.new 11) [createTyped] = some t ∧
    Along (step makeDefaultConfig) (HandleWorks makeDefaultConfig) (.new 11) [createTyped] ∧
    HandlesDistinct makeDefaultConfig (.new 11) [createTyped] := by
  have usable : Along (step makeDefaultConfig) FindsUsable (.new 11) [createTyped] := by
    refine ⟨?_, fun _ _ => trivial⟩
    intro request creates
    obtain rfl := Option.some.inj creates
    decide
  have ran : run (step makeDefaultConfig) (.new 11) [createTyped] = some ((Relay.new 11).process makeDefaultConfig
    { typed_request := some (.create_task {}), response_queue := "client" }).2 := rfl
  exact ⟨_, ran, (job_handles_work_iff ran).mpr ⟨usable, findsDistinct_of_few ran (by decide)⟩⟩

/-- An instance whose first id is 2^31 hands out a handle that it does not know. -/
theorem large_uid_handle_unknown : ∃ s,
    step makeDefaultConfig (.new 2147483648) createTyped = some s ∧
    createdHandles makeDefaultConfig (.new 2147483648) createTyped = [.typed (-2147483648)] ∧
    (answerTo makeDefaultConfig s (.typed (-2147483648)) .typed .status "client").typed_response =
      some (.error "JOB NOT FOUND") ∧
    ¬ Along (step makeDefaultConfig) (HandleWorks makeDefaultConfig) (.new 2147483648) [createTyped] := by
  refine ⟨_, rfl, rfl, by decide, ?_⟩
  rintro ⟨works, _⟩
  have usable := (handleWorks_iff (new_own _) (new_counted _) _).mp works _ rfl
  exact absurd usable (by decide)

end Relay
end Mqss.QOffload
