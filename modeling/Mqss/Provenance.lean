import Mqss.Installation
import Mqss.StoreInvariant

/-!
What a client gets from the service in front of the workflow. A task that the service
forwards and the entry that it files for it come from one request, and as long as the ids
last and fit their field, an entry gets the result that was computed for that request.
-/

namespace Mqss.QOffload
open Mqss.Words Mqss.Machine Mqss.FiniteMap List
open QrmWorkflow (Site Serves)

namespace Installation

/-- What is seen of the service. -/
def served? : Seen → Option Service.Seen
  | .service seen => some seen
  | _ => none

def served (trace : List Seen) : List Service.Seen := trace.filterMap served?

/-- The entry and the task that the service makes of a request under an id. -/
inductive Submitted (config : Config) (trace : List Seen) (id : UInt64) : PendingTask → QuantumTask → Prop
  | direct {request} (asked : .task request ∈ trace) :
      Submitted config trace id (Forward.directEntry request id) (Forward.readdressed request id config)
  | control {request command} (asked : .control request ∈ trace)
      (creates : Control.command request = .CreateQuantumTask command) :
      Submitted config trace id ⟨.ControlTask, id, id, ""⟩
        (Forward.readdressed (Control.applyCreateTaskCommand command) id config)

/-- The requests that the task worker and the control worker go through were received, and
    those that they have registered were entered. -/
def TaskHeard (trace : List Seen) : TaskWorker → Prop
  | .idle => True
  | .received request | .numbered request _ => .task request ∈ trace
  | .registered request id => .task request ∈ trace ∧ .entered (Forward.directEntry request id) ∈ served trace

def ControlHeard (trace : List Seen) : ControlWorker → Prop
  | .received request => .control request ∈ trace
  | .numbered request command _ => .control request ∈ trace ∧ Control.command request = .CreateQuantumTask command
  | .registered request command id => (.control request ∈ trace ∧ Control.command request = .CreateQuantumTask command) ∧
      .entered ⟨.ControlTask, id, id, ""⟩ ∈ served trace
  | _ => True

/-- Entries and forwarded tasks come from requests that were received. -/
structure Dealt (config : Config) (uid : UInt64) (n : Nat) (trace : List Seen) (s : Installation) : Prop where
  traces : s.service.Traces uid n (served trace)
  task : TaskHeard trace s.service.taskWorker
  control : ControlHeard trace s.service.controlWorker
  forwarded : ∀ task ∈ forwarded trace, ∃ entry, .entered entry ∈ served trace ∧ Submitted config trace task.1 entry task.2
  taken : ∀ entry result, s.service.resultWorker = .taken entry result → .entered entry ∈ served trace
  completed : ∀ x ∈ completed trace, .entered x.1 ∈ served trace

variable {config : Config} {site : Site} {crossed : Crossed} {uid : UInt64} {n : Nat} {trace more : List Seen}
  {s t : Installation} {e : Event}

theorem served_append (trace more : List Seen) : served (trace ++ more) = served trace ++ served more :=
  filterMap_append

theorem served_mono {seen : Service.Seen} (member : seen ∈ served trace) (more : List Seen) :
    seen ∈ served (trace ++ more) := by
  rw [served_append]
  exact mem_append_left _ member

theorem served_service (e : Service.Event) (shown : List Service.Seen) : served (requests e ++ shown.map .service) = shown := by
  have silent : served (requests e) = [] := by
    cases e <;> rfl
  have all : served (shown.map .service) = shown := by
    rw [served, filterMap_map]
    exact filterMap_some
  rw [served_append, silent, all, nil_append]

theorem served_qrm (shown : List QrmWorkflow.Seen) : served (shown.map .qrm) = [] := by
  simp [served, served?]

theorem Submitted.mono {id : UInt64} {entry : PendingTask} {task : QuantumTask}
    (submitted : Submitted config trace id entry task) (more : List Seen) :
    Submitted config (trace ++ more) id entry task := by
  cases submitted with
  | direct asked => exact .direct (mem_append_left _ asked)
  | control asked creates => exact .control (mem_append_left _ asked) creates

theorem Submitted.key {id : UInt64} {entry : PendingTask} {task : QuantumTask}
    (submitted : Submitted config trace id entry task) : entry.forwarded_task_id = id := by
  cases submitted <;> rfl

theorem TaskHeard.mono {worker : TaskWorker} (heard : TaskHeard trace worker) (more : List Seen) :
    TaskHeard (trace ++ more) worker := by
  cases worker with
  | idle => trivial
  | received request | numbered request => exact mem_append_left _ heard
  | registered request id => exact ⟨mem_append_left _ heard.1, served_mono heard.2 _⟩

theorem ControlHeard.mono {worker : ControlWorker} (heard : ControlHeard trace worker) (more : List Seen) :
    ControlHeard (trace ++ more) worker := by
  cases worker with
  | received request => exact mem_append_left _ heard
  | numbered request command => exact ⟨mem_append_left _ heard.1, heard.2⟩
  | registered request command id => exact ⟨⟨mem_append_left _ heard.1.1, heard.1.2⟩, served_mono heard.2 _⟩
  | _ => trivial

section
variable {service next : Service} {act : Service.Event} {shown : List Service.Seen}

theorem step_task (heard : TaskHeard trace service.taskWorker) (change : Service.Change config service act next shown) :
    TaskHeard (trace ++ (requests act ++ shown.map .service)) next.taskWorker := by
  cases change with
  | @receiveTask request => exact mem_append_right _ mem_cons_self
  | numberTask loc =>
    rw [loc] at heard
    exact mem_append_left _ heard
  | registerTask loc =>
    rw [loc] at heard
    refine ⟨mem_append_left _ heard, ?_⟩
    rw [served_append, served_service]
    exact mem_append_right _ mem_cons_self
  | sendTask => trivial
  | _ => exact heard.mono _

theorem step_control (heard : ControlHeard trace service.controlWorker)
    (change : Service.Change config service act next shown) :
    ControlHeard (trace ++ (requests act ++ shown.map .service)) next.controlWorker := by
  cases change with
  | @receiveRequest request => exact mem_append_right _ mem_cons_self
  | numberRequest loc creates =>
    rw [loc] at heard
    exact ⟨mem_append_left _ heard, creates⟩
  | registerRequest loc =>
    rw [loc] at heard
    refine ⟨⟨mem_append_left _ heard.1, heard.2⟩, ?_⟩
    rw [served_append, served_service]
    exact mem_append_right _ mem_cons_self
  | status | refuse | look | inform | take | sendOutboundTask | announce | answer => trivial
  | _ => exact heard.mono _

/-- A forwarded task is made of the request that its worker has registered. -/
theorem step_forwarded (task : TaskHeard trace service.taskWorker) (control : ControlHeard trace service.controlWorker)
    (change : Service.Change config service act next shown) :
    ∀ x ∈ forwarded (shown.map .service), ∃ entry, .entered entry ∈ served trace ∧ Submitted config trace x.1 entry x.2 := by
  cases change with
  | @sendTask request id fault loc =>
    rw [loc] at task
    cases Service.accepted config.qrm_task fault with
    | false => exact nofun
    | true =>
      intro x member
      obtain rfl := mem_singleton.mp member
      exact ⟨_, task.2, .direct task.1⟩
  | @sendOutboundTask request command id fault loc =>
    rw [loc] at control
    cases Service.accepted config.qrm_task fault with
    | false => exact nofun
    | true =>
      intro x member
      obtain rfl := mem_singleton.mp member
      exact ⟨_, control.2, .control control.1.1 control.1.2⟩
  | _ => exact nofun
end

/-- The ids that a step gives out. -/
def numbers (s : Installation) : Event → List UInt64
  | .work e => s.service.numbers e
  | _ => []

theorem step_dealt (dealt : Dealt config uid n trace s) (few : n + (numbers s e).length ≤ 2 ^ 60)
    (stepped : step config site crossed s e = some t) :
    Dealt config uid (n + (numbers s e).length) (trace ++ seen config site s e) t := by
  have move := step_move stepped
  generalize seen config site s e = more at move
  cases move with
  | @work act service shown change other =>
    have told := served_append trace (requests act ++ shown.map .service)
    rw [served_service] at told
    have traces := Service.step_traces dealt.traces few change
    rw [← told] at traces
    refine ⟨traces, step_task dealt.task change, step_control dealt.control change, ?_, ?_, ?_⟩
    · intro x member
      rw [forwarded_append, forwarded_append, (requests_seen act).2.1, nil_append] at member
      rcases mem_append.mp member with old | new
      · obtain ⟨entry, entered, submitted⟩ := dealt.forwarded x old
        exact ⟨entry, served_mono entered _, submitted.mono _⟩
      · obtain ⟨entry, entered, submitted⟩ := step_forwarded dealt.task dealt.control change x new
        exact ⟨entry, served_mono entered _, submitted.mono _⟩
    · intro entry result loc
      rcases change.taken loc with before | ⟨_, _, found⟩
      · exact served_mono (dealt.taken entry result before) _
      · exact served_mono (dealt.traces.pending found) _
    · intro x member
      rw [completed_append, completed_append, (requests_seen act).2.2.2, nil_append] at member
      rcases mem_append.mp member with old | new
      · exact served_mono (dealt.completed x old) _
      · exact served_mono (dealt.taken _ _ (work_completed change new)) _
  | @received message rest result front read idle =>
    have change : Service.Change config s.service (.receiveResult result)
      { s.service with resultWorker := .received result } [] := .receiveResult idle
    have lasts : n + (s.service.numbers (.receiveResult result)).length ≤ 2 ^ 60 := few
    have traces := Service.step_traces dealt.traces lasts change
    rw [append_nil] at traces ⊢
    exact ⟨traces, dealt.task, dealt.control, dealt.forwarded, nofun, dealt.completed⟩
  | unread | discarded =>
    rw [append_nil]
    exact ⟨dealt.traces, dealt.task, dealt.control, dealt.forwarded, dealt.taken, dealt.completed⟩
  | @qrm act workflow shown change =>
    obtain ⟨_, nothing, _⟩ := qrm_seen shown
    have told := served_append trace (shown.map .qrm)
    rw [served_qrm, append_nil] at told
    have got : completed (trace ++ shown.map .qrm) = completed trace := by
      simp [completed, completed?]
    refine ⟨by rw [told]; exact dealt.traces, dealt.task.mono _, dealt.control.mono _, ?_, ?_, ?_⟩
    · intro x member
      rw [forwarded_append, nothing, append_nil] at member
      obtain ⟨entry, entered, submitted⟩ := dealt.forwarded x member
      exact ⟨entry, by rwa [told], submitted.mono _⟩
    · rw [told]
      exact dealt.taken
    · rw [told, got]
      exact dealt.completed

/-- The number of ids that a run gives out. -/
def numbered (config : Config) (site : Site) (crossed : Crossed) (s : Installation) (es : List Event) : Nat :=
  (history (step config site crossed) numbers s es).length

/-- What every step keeps with the number of the ids given out, as long as these are no more
    than a bound. -/
theorem run_counted {Inv : Nat → List Seen → Installation → Prop} {condition : Installation → Event → Prop}
    (bound : Nat) (keeps : ∀ n trace s e t, Inv n trace s → n + (numbers s e).length ≤ bound → condition s e →
      step config site crossed s e = some t → Inv (n + (numbers s e).length) (trace ++ seen config site s e) t)
    {es : List Event} (start : Inv n trace s) (few : n + numbered config site crossed s es ≤ bound)
    (met : Along (step config site crossed) condition s es) (ran : run (step config site crossed) s es = some t) :
    Inv (n + numbered config site crossed s es) (trace ++ history (step config site crossed) (seen config site) s es) t := by
  induction es generalizing s n trace with
  | nil =>
    obtain rfl := Option.some.inj ran
    simpa [numbered] using start
  | cons e es ih =>
    obtain ⟨next, stepped, rest⟩ := run_cons.mp ran
    have count : numbered config site crossed s (e :: es) = (numbers s e).length + numbered config site crossed next es := by
      rw [numbered, history_cons stepped, length_append, numbered]
    rw [count, ← Nat.add_assoc] at few ⊢
    have later := ih (keeps n trace s e next start (by omega) met.1 stepped) few (met.2 next stepped) rest
    rwa [history_cons stepped, ← append_assoc]

theorem run_dealt {es : List Event} (dealt : Dealt config uid n trace s)
    (few : n + numbered config site crossed s es ≤ 2 ^ 60) (ran : run (step config site crossed) s es = some t) :
    Dealt config uid (n + numbered config site crossed s es)
      (trace ++ history (step config site crossed) (seen config site) s es) t :=
  run_counted (2 ^ 60) (fun _ _ _ _ _ dealt few (_ : True) stepped => step_dealt dealt few stepped) dealt few
    (along_of_forall (fun _ _ => trivial) s es) ran

/-- Entries under one id are one. -/
theorem Dealt.entered_unique (dealt : Dealt config uid n trace s) {entry other : PendingTask}
    (entered : .entered entry ∈ served trace) (again : .entered other ∈ served trace)
    (same : entry.forwarded_task_id = other.forwarded_task_id) : entry = other := by
  have once := dealt.traces.claims.once entry.forwarded_task_id
  obtain ⟨before, after, split⟩ := append_of_mem entered
  by_contra apart
  have elsewhere : entry.forwarded_task_id ∈ before.flatMap Service.registered ∨
      entry.forwarded_task_id ∈ after.flatMap Service.registered := by
    have key : entry.forwarded_task_id ∈ Service.registered (.entered other) := by simp [Service.registered, same]
    rw [split, mem_append, mem_cons] at again
    rcases again with first | now | later
    · exact .inl (mem_flatMap.mpr ⟨_, first, key⟩)
    · exact absurd (Service.Seen.entered.inj now).symm apart
    · exact .inr (mem_flatMap.mpr ⟨_, later, key⟩)
  rw [Service.claims, split] at once
  simp only [flatMap_append, flatMap_cons, count_append, Service.registered, count_singleton_self] at once
  rcases elsewhere with first | later
  · have more := count_pos_iff.mpr first
    omega
  · have more := count_pos_iff.mpr later
    omega

theorem new_dealt (config : Config) (uid : UInt64) : Dealt config uid 0 [] (new uid) := by
  refine ⟨Service.new_traces uid, trivial, trivial, ?_, nofun, ?_⟩
  · simp [forwarded]
  · simp [completed]

/-- As long as the ids last and those of the forwarded tasks fit, a task that gets its result
    gets what was computed for the request that it was filed for. -/
theorem clients_get_their_own_results {es : List Event} (joined : Joined config site)
    (names : ∀ e ∈ es, NamesOther config site e) (few : numbered config site crossed (new uid) es ≤ 2 ^ 60)
    (fit : ∀ task ∈ forwarded (history (step config site crossed) (seen config site) (new uid) es), Fits task.1)
    (ran : run (step config site crossed) (new uid) es = some s) :
    ∀ x ∈ completed (history (step config site crossed) (seen config site) (new uid) es), ∃ id task,
      Submitted config (history (step config site crossed) (seen config site) (new uid) es) id x.1 task ∧
        Serves site config.result x.2 task := by
  intro x member
  have dealt := run_dealt (new_dealt config uid) (by omega) ran
  rw [nil_append] at dealt
  obtain ⟨task, among, serves, same⟩ := run_correlated joined names ran x member
  obtain ⟨entry, entered, submitted⟩ := dealt.forwarded task among
  have key : x.1.forwarded_task_id = entry.forwarded_task_id := by
    rw [same, submitted.key]
    exact fit task among
  rw [dealt.entered_unique (dealt.completed x member) entered key]
  exact ⟨task.1, task.2, submitted, serves⟩

theorem relayedRun_fit : ∀ task ∈ forwarded (history (step makeDefaultConfig gateway uncrossed)
    (seen makeDefaultConfig gateway) (new 11) relayedRun), Fits task.1 := by
  have sent : (forwarded (history (step makeDefaultConfig gateway uncrossed) (seen makeDefaultConfig gateway) (new 11)
    relayedRun)).map Prod.fst = [11] := rfl
  intro task member
  have one : task.1 ∈ _ := mem_map_of_mem member
  rw [sent] at one
  rw [mem_singleton.mp one]
  decide

theorem relayedRun_own : ∃ s, run (step makeDefaultConfig gateway uncrossed) (new 11) relayedRun = some s ∧
    (completed (history (step makeDefaultConfig gateway uncrossed) (seen makeDefaultConfig gateway) (new 11)
      relayedRun)).length = 1 ∧
    ∀ x ∈ completed (history (step makeDefaultConfig gateway uncrossed) (seen makeDefaultConfig gateway) (new 11)
      relayedRun), ∃ id task, Submitted makeDefaultConfig (history (step makeDefaultConfig gateway uncrossed)
        (seen makeDefaultConfig gateway) (new 11) relayedRun) id x.1 task ∧
          Serves gateway makeDefaultConfig.result x.2 task :=
  ⟨_, rfl, rfl, clients_get_their_own_results gateway_joined relayedRun_names (by decide) relayedRun_fit rfl⟩

end Installation
end Mqss.QOffload
