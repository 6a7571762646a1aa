import Mqss.Control
import Mqss.Machine
import Mqss.FiniteMap

/-!
The service with its store under any sequence of calls, one at a time. The entry of a task
stays in the store, under the 64-bit id the task was given, until a result comes
back whose sign-extended id is that word. The id sequence gives out 2^60 words
before it comes round.
-/

namespace Mqss.QOffload
open Mqss.Words Mqss.Machine

/-- The forwarder and its store. -/
structure Relay where
  forwarder : Forward
  tasks : TaskStore := {}

def Relay.new (instance_uid : UInt64) : Relay := ⟨{ instance_uid := instance_uid }, {}⟩

namespace Relay

/-- A call of the forwarder, or of `Control::process` with a control request. -/
inductive Op
  | forwardDirectTask (request : QuantumTask)
  | createControlTask (task : QuantumTask)
  | processResult (result : QuantumResult)
  | process (request : APIRequest)

/-- The task sent to QRM by a call, if it is a submission. -/
def submitted (config : Config) (s : Relay) : Op → List QuantumTask
  | .forwardDirectTask request => [(s.forwarder.forwardDirectTask request s.tasks config).1]
  | .createControlTask task => [(s.forwarder.createControlTask task s.tasks config).1]
  | .processResult _ => []
  | .process request => (Control.process request s.tasks config s.forwarder).1.outbound_task.toList

def forwardDirectTask (config : Config) (s : Relay) (request : QuantumTask) : Relay :=
  let (_, forwarder, tasks) := s.forwarder.forwardDirectTask request s.tasks config
  ⟨forwarder, tasks⟩

def createControlTask (config : Config) (s : Relay) (task : QuantumTask) : Relay :=
  let (_, forwarder, tasks) := s.forwarder.createControlTask task s.tasks config
  ⟨forwarder, tasks⟩

def processResult (s : Relay) (result : QuantumResult) : ResultProcessingOutcome × Relay :=
  let (outcome, tasks) := Forward.processResult result s.tasks
  (outcome, { s with tasks := tasks })

def process (config : Config) (s : Relay) (request : APIRequest) : ControlMessageOutcome × Relay :=
  let (outcome, forwarder, tasks) := Control.process request s.tasks config s.forwarder
  (outcome, ⟨forwarder, tasks⟩)

def step (config : Config) (s : Relay) : Op → Option Relay
  | .forwardDirectTask request => some (s.forwardDirectTask config request)
  | .createControlTask task => some (s.createControlTask config task)
  | .processResult result => some (s.processResult result).2
  | .process request => some (s.process config request).2

def Op.submits : Op → Bool
  | .processResult _ => false
  | .process request => Control.creates (Control.command request)
  | _ => true

/-- The number of submissions among some calls. -/
def submissions (ops : List Op) : Nat := ops.countP Op.submits

/-- The call processes a result with this id. -/
def Op.answers (task_id : Int32) : Op → Prop
  | .processResult result => result.task_id = task_id
  | _ => False

/-- What the counter and the store say after `n` submissions. -/
structure Counted (uid : UInt64) (s : Relay) (n : Nat) : Prop where
  uid : s.forwarder.instance_uid = uid
  index : s.forwarder.next_task_index = UInt64.ofNat n

theorem new_counted (uid : UInt64) : Counted uid (.new uid) 0 := ⟨rfl, rfl⟩

theorem Counted.next {uid : UInt64} {s : Relay} {n : Nat} (counted : Counted uid s n) :
    s.forwarder.nextTaskId.1 = stride uid n := by
  simp [Forward.nextTaskId, counted.uid, counted.index, stride]

/-- What a call can do: give out the next id and enter a task under it, process a result,
    or answer a request that is no submission. -/
inductive Change (config : Config) (s : Relay) : Op → Relay → Prop
  | entered {op} (entry : PendingTask) (submits : op.submits = true)
      (sent : (submitted config s op).map QuantumTask.task_id = [narrow s.forwarder.nextTaskId.1])
      (key : entry.forwarded_task_id = s.forwarder.nextTaskId.1)
      (own : entry.kind = .ControlTask → entry.original_task_id = s.forwarder.nextTaskId.1) :
      Change config s op ⟨s.forwarder.nextTaskId.2, s.tasks.addDirectTask entry⟩
  | processed (result : QuantumResult) : Change config s (.processResult result) (s.processResult result).2
  | answered {request} (query : Control.creates (Control.command request) = false) (completed)
      (fewer : completed = s.tasks.completed_control_tasks ∨ ∃ task_id,
        (Control.command request = .GetTaskResult task_id ∨ Control.command request = .GetCancelReason task_id) ∧
        task_id ∉ s.tasks.pending ∧ completed = s.tasks.completed_control_tasks.erase task_id) :
      Change config s (.process request) ⟨s.forwarder, ⟨s.tasks.pending, completed⟩⟩

theorem takeCompleted_change (config : Config) (s : Relay) {request : APIRequest} {task_id : UInt64}
    (answer : CompletedControlTask → ControlResult) (query : Control.creates (Control.command request) = false)
    (asks : Control.command request = .GetTaskResult task_id ∨ Control.command request = .GetCancelReason task_id) :
    Change config s (.process request) ⟨s.forwarder, (Control.takeCompleted answer s.tasks task_id).2⟩ := by
  rw [Control.takeCompleted_spec]
  split
  · exact .answered query _ (.inl rfl)
  · rename_i idle
    split
    · exact .answered query _ (.inl rfl)
    · exact .answered query _ (.inr ⟨task_id, asks, idle, rfl⟩)

theorem step_change {config : Config} {s t : Relay} {op : Op} (stepped : step config s op = some t) :
    Change config s op t := by
  cases op with
  | forwardDirectTask request =>
    obtain rfl := Option.some.inj stepped
    exact .entered (Forward.directEntry request s.forwarder.nextTaskId.1) rfl rfl rfl nofun
  | createControlTask task =>
    obtain rfl := Option.some.inj stepped
    exact .entered ⟨.ControlTask, s.forwarder.nextTaskId.1, s.forwarder.nextTaskId.1, ""⟩ rfl rfl rfl fun _ => rfl
  | processResult result =>
    obtain rfl := Option.some.inj stepped
    exact .processed result
  | process request =>
    obtain rfl := Option.some.inj stepped
    cases asked : Control.command request with
    | CreateQuantumTask create =>
      have command : (controlProtocolFor request).decode request = .CreateQuantumTask create := asked
      have result : (s.process config request).2 =
          s.createControlTask config (Control.applyCreateTaskCommand create) := by
        simp [process, Control.process, command, Control.executeControlCommand, createControlTask]
      rw [result]
      exact .entered ⟨.ControlTask, s.forwarder.nextTaskId.1, s.forwarder.nextTaskId.1, ""⟩
        (by simp [Op.submits, asked, Control.creates])
        (by simp [submitted, Control.process, command, Control.executeControlCommand, Forward.createControlTask,
          Forward.readdressed]) rfl fun _ => rfl
    | GetTaskResult task_id =>
      have command : (controlProtocolFor request).decode request = .GetTaskResult task_id := asked
      have result : (s.process config request).2 = ⟨s.forwarder, (Control.getTaskResult s.tasks task_id).2⟩ := by
        simp [process, Control.process, command, Control.executeControlCommand]
      rw [result]
      exact takeCompleted_change config s _ (by simp [asked, Control.creates]) (.inl asked)
    | GetCancelReason task_id =>
      have command : (controlProtocolFor request).decode request = .GetCancelReason task_id := asked
      have result : (s.process config request).2 = ⟨s.forwarder, (Control.getCancelReason s.tasks task_id).2⟩ := by
        simp [process, Control.process, command, Control.executeControlCommand]
      rw [result]
      exact takeCompleted_change config s _ (by simp [asked, Control.creates]) (.inr asked)
    | _ =>
      have command := asked
      unfold Control.command at command
      have kept : (s.process config request).2 = ⟨s.forwarder, ⟨s.tasks.pending, s.tasks.completed_control_tasks⟩⟩ := by
        simp [process, Control.process, command, Control.executeControlCommand]
      rw [kept]
      exact .answered (by simp [asked, Control.creates]) _ (.inl rfl)

theorem step_counted {config : Config} {uid : UInt64} {s t : Relay} {op : Op} {n : Nat} (counted : Counted uid s n)
    (stepped : step config s op = some t) : Counted uid t (n + submissions [op]) := by
  obtain ⟨same, index⟩ := counted
  cases step_change stepped with
  | entered entry submits => exact ⟨same, by simp [Forward.nextTaskId, index, submissions, submits]⟩
  | processed result => exact ⟨same, index⟩
  | answered query => exact ⟨same, by simp [index, submissions, Op.submits, query]⟩

theorem submissions_cons (op : Op) (ops : List Op) : submissions (op :: ops) = submissions [op] + submissions ops := by
  rw [← List.singleton_append, submissions, List.countP_append]
  rfl

/-- The rule of numbered runs: what every allowed call keeps together with the number of
    submissions, as long as these are few, every run of them keeps. -/
theorem run_numbered {config : Config} {Inv : Nat → Relay → Prop} {allowed : Op → Prop} {bound n : Nat}
    (keeps : ∀ n s op t, Inv n s → n + submissions [op] ≤ bound → allowed op → step config s op = some t →
      Inv (n + submissions [op]) t)
    {s t : Relay} {ops : List Op} (start : Inv n s) (few : n + submissions ops ≤ bound)
    (calls : ∀ op ∈ ops, allowed op) (ran : run (step config) s ops = some t) : Inv (n + submissions ops) t := by
  induction ops generalizing s n with
  | nil =>
    obtain rfl := Option.some.inj ran
    exact start
  | cons op ops ih =>
    obtain ⟨next, stepped, rest⟩ := run_cons.mp ran
    rw [submissions_cons, ← Nat.add_assoc] at few ⊢
    have kept := keeps n s op next start (by omega) (calls op List.mem_cons_self) stepped
    exact ih kept few (fun later member => calls later (List.mem_cons_of_mem _ member)) rest

theorem run_counted {config : Config} {uid : UInt64} {s t : Relay} {ops : List Op} {n : Nat}
    (counted : Counted uid s n) (ran : run (step config) s ops = some t) : Counted uid t (n + submissions ops) := by
  have keeps : ∀ k s op t, Counted uid s k → k + submissions [op] ≤ n + submissions ops → True →
      step config s op = some t → Counted uid t (k + submissions [op]) :=
    fun _ _ _ _ counted _ _ stepped => step_counted counted stepped
  exact run_numbered keeps counted le_rfl (fun _ _ => trivial) ran

/-- What a call leaves under an id that it is not given. -/
theorem step_lookup {config : Config} {s t : Relay} {op : Op} {id : UInt64} (stepped : step config s op = some t)
    (other : op.submits = true → s.forwarder.nextTaskId.1 ≠ id) :
    t.tasks.pending.lookup id = s.tasks.pending.lookup id ∨
      t.tasks.pending.lookup id = none ∧ op.answers (narrow id) := by
  cases step_change stepped with
  | entered entry submits _ key =>
    have apart : id ≠ entry.forwarded_task_id := fun same => other submits (by rw [same, key])
    exact .inl (Finmap.lookup_insert_of_ne _ apart)
  | processed result =>
    have after : (s.processResult result).2.tasks.pending.lookup id = _ :=
      Forward.processResult_lookup result s.tasks id
    by_cases same : id = widen result.task_id
    · exact .inr ⟨by simpa [same] using after, by simp [same, Op.answers]⟩
    · exact .inl (by simpa [same] using after)
  | answered => exact .inl rfl

/-- As long as the ids do not come round, the entry of a task stays until a result with
    its id is processed, and an id without an entry stays without one. -/
theorem run_keeps_lookup {config : Config} {uid : UInt64} {s t : Relay} {ops : List Op} {k n : Nat}
    {entry : Option PendingTask} (counted : Counted uid s n) (earlier : k < n)
    (few : n + submissions ops ≤ k + 2 ^ 60)
    (waiting : entry = none ∨ ∀ op ∈ ops, ¬ op.answers (narrow (stride uid k)))
    (found : s.tasks.pending.lookup (stride uid k) = entry) (ran : run (step config) s ops = some t) :
    t.tasks.pending.lookup (stride uid k) = entry := by
  have keeps : ∀ n s op t, Counted uid s n ∧ k < n ∧ s.tasks.pending.lookup (stride uid k) = entry →
      n + submissions [op] ≤ k + 2 ^ 60 → (entry = none ∨ ¬ op.answers (narrow (stride uid k))) →
      step config s op = some t →
      Counted uid t (n + submissions [op]) ∧ k < n + submissions [op] ∧
        t.tasks.pending.lookup (stride uid k) = entry := by
    rintro n s op t ⟨counted, earlier, found⟩ few waiting stepped
    have other : op.submits = true → s.forwarder.nextTaskId.1 ≠ stride uid k := by
      intro submits
      have one : submissions [op] = 1 := by simp [submissions, submits]
      rw [counted.next]
      exact (stride_apart earlier (by omega)).symm
    refine ⟨step_counted counted stepped, by omega, ?_⟩
    rcases step_lookup stepped other with same | ⟨gone, answered⟩
    · rw [same, found]
    · rcases waiting with none | quiet
      · rw [gone, none]
      · exact absurd answered quiet
  have calls : ∀ op ∈ ops, entry = none ∨ ¬ op.answers (narrow (stride uid k)) := by
    intro op member
    exact waiting.imp_right fun quiet => quiet op member
  exact (run_numbered keeps ⟨counted, earlier, found⟩ few calls ran).2.2

/-! ### What the store keeps -/

/-- The entry of a control task names the id it stands under. -/
def Own (s : Relay) : Prop :=
  ∀ id entry, s.tasks.pending.lookup id = some entry → entry.kind = .ControlTask → entry.original_task_id = id

theorem new_own (uid : UInt64) : (Relay.new uid).Own := by
  intro id entry found
  cases found

/-- The entries that a result leaves were there before it, under another id. -/
theorem processResult_waited {s : Relay} {result : QuantumResult} {id : UInt64} {entry : PendingTask}
    (found : (s.processResult result).2.tasks.pending.lookup id = some entry) :
    id ≠ widen result.task_id ∧ s.tasks.pending.lookup id = some entry := by
  have after : (s.processResult result).2.tasks.pending.lookup id = _ :=
    Forward.processResult_lookup result s.tasks id
  rw [after] at found
  split at found
  · cases found
  · rename_i other
    exact ⟨other, found⟩

/-- A control task's result leaves its record under the id, with the counts of the result. -/
theorem processResult_leaves {s : Relay} {result : QuantumResult} {id : UInt64} {entry : PendingTask} (own : s.Own)
    (waiting : s.tasks.pending.lookup id = some entry) (control : entry.kind = .ControlTask)
    (key : widen result.task_id = id) : id ∉ (s.processResult result).2.tasks.pending ∧
      (s.processResult result).2.tasks.completed_control_tasks.lookup id =
        some (Forward.completedTask entry result) := by
  have processed : (s.processResult result).2.tasks =
      (s.tasks.takePending id).2.storeCompletedControlTask (Forward.completedTask entry result) := by
    show (Forward.processResult result s.tasks).2 = _
    rw [Forward.processResult_control (by rw [key, waiting]) control, key]
  have origin : (Forward.completedTask entry result).task_id = id := own id entry waiting control
  rw [processed]
  constructor
  · rw [← Finmap.lookup_eq_none, TaskStore.store_pending, TaskStore.takePending_lookup, if_pos rfl]
  · rw [TaskStore.storeCompletedControlTask, origin]
    exact Finmap.lookup_insert _

theorem step_own {config : Config} {s t : Relay} {op : Op} (own : s.Own) (stepped : step config s op = some t) :
    t.Own := by
  intro id entry found control
  cases step_change stepped with
  | entered fresh submits _ key origin =>
    by_cases same : id = fresh.forwarded_task_id
    · subst same
      obtain rfl : fresh = entry := by simpa using found
      exact (origin control).trans key.symm
    · have old : s.tasks.pending.lookup id = some entry := by simpa [same] using found
      exact own id entry old control
  | processed result => exact own id entry (processResult_waited found).2 control
  | answered => exact own id entry found control

/-- A record stays until it is taken, as long as its id has no entry. -/
theorem step_keeps_record {config : Config} {s t : Relay} {op : Op} {id : UInt64} {record : CompletedControlTask}
    (own : s.Own) (idle : id ∉ s.tasks.pending)
    (quiet : ∀ request, op = .process request → Control.command request ≠ .GetTaskResult id ∧
      Control.command request ≠ .GetCancelReason id)
    (found : s.tasks.completed_control_tasks.lookup id = some record) (stepped : step config s op = some t) :
    t.tasks.completed_control_tasks.lookup id = some record := by
  cases step_change stepped with
  | entered => exact found
  | processed result =>
    rcases Forward.processResult_completed result s.tasks id with same | ⟨pending, was, control, key, _⟩
    · exact same.trans found
    · have home := own _ pending was control
      exact absurd (Finmap.mem_iff.mpr ⟨pending, by rwa [← key, home]⟩) idle
  | @answered request _ completed fewer =>
    obtain ⟨noResult, noReason⟩ := quiet request rfl
    rcases fewer with rfl | ⟨task_id, asks, _, rfl⟩
    · exact found
    · have apart : id ≠ task_id := by
        rintro rfl
        exact asks.elim noResult noReason
      exact (Finmap.lookup_erase_ne apart).trans found

/-- The rule of ids without an entry: as long as the ids do not come round, such an id stays
    without one, and what every allowed call keeps in the meantime, every run of them keeps. -/
theorem run_idle {config : Config} {uid : UInt64} {s t : Relay} {ops : List Op} {k n : Nat} {Inv : Relay → Prop}
    {allowed : Op → Prop} (keeps : ∀ s op t, s.Own → stride uid k ∉ s.tasks.pending → Inv s → allowed op →
      step config s op = some t → Inv t)
    (own : s.Own) (counted : Counted uid s n) (earlier : k < n) (few : n + submissions ops ≤ k + 2 ^ 60)
    (idle : stride uid k ∉ s.tasks.pending) (calls : ∀ op ∈ ops, allowed op) (start : Inv s)
    (ran : run (step config) s ops = some t) : Inv t ∧ stride uid k ∉ t.tasks.pending := by
  have all : ∀ n s op t, (s.Own ∧ Counted uid s n ∧ k < n ∧ stride uid k ∉ s.tasks.pending ∧ Inv s) →
      n + submissions [op] ≤ k + 2 ^ 60 → allowed op → step config s op = some t →
      t.Own ∧ Counted uid t (n + submissions [op]) ∧ k < n + submissions [op] ∧
        stride uid k ∉ t.tasks.pending ∧ Inv t := by
    rintro n s op t ⟨own, counted, earlier, idle, inv⟩ few may stepped
    have one : run (step config) s [op] = some t := run_cons.mpr ⟨t, stepped, rfl⟩
    have still : stride uid k ∉ t.tasks.pending := by
      rw [← Finmap.lookup_eq_none] at idle ⊢
      exact run_keeps_lookup counted earlier few (.inl rfl) idle one
    exact ⟨step_own own stepped, step_counted counted stepped, by omega, still, keeps s op t own idle inv may stepped⟩
  obtain ⟨_, _, _, still, kept⟩ := run_numbered all ⟨own, counted, earlier, idle, start⟩ few calls ran
  exact ⟨kept, still⟩

/-- Entries and records stand under ids that were given out, and no id has both. -/
structure Ok (uid : UInt64) (s : Relay) (n : Nat) : Prop where
  counted : Counted uid s n
  own : s.Own
  pendingIds : ∀ id, id ∈ s.tasks.pending → ∃ k < n, id = stride uid k
  completedIds : ∀ id record, s.tasks.completed_control_tasks.lookup id = some record →
    record.task_id = id ∧ ∃ k < n, id = stride uid k
  apart : ∀ id, id ∈ s.tasks.pending → id ∉ s.tasks.completed_control_tasks

theorem new_ok (uid : UInt64) : Ok uid (.new uid) 0 := by
  refine ⟨new_counted uid, new_own uid, ?_, ?_, ?_⟩
  · intro id member
    cases member
  · intro id record found
    cases found
  · intro id member
    cases member

/-- The id about to be given out is in neither map. -/
theorem Ok.next_unused {uid : UInt64} {s : Relay} {n : Nat} (ok : Ok uid s n) (few : n < 2 ^ 60) :
    s.forwarder.nextTaskId.1 ∉ s.tasks.completed_control_tasks := by
  rw [ok.counted.next, ← Finmap.lookup_eq_none]
  cases found : s.tasks.completed_control_tasks.lookup (stride uid n) with
  | none => rfl
  | some record =>
    obtain ⟨_, k, earlier, same⟩ := ok.completedIds _ record found
    exact absurd same.symm (stride_apart earlier (by omega))

/-- What a result leaves stored was stored before, or is the record of the result's own task. -/
theorem processResult_stored {s : Relay} {result : QuantumResult} {id : UInt64} {record : CompletedControlTask}
    (own : s.Own) (found : (s.processResult result).2.tasks.completed_control_tasks.lookup id = some record) :
    s.tasks.completed_control_tasks.lookup id = some record ∨
      id = widen result.task_id ∧ id ∈ s.tasks.pending ∧ record.task_id = id := by
  have found : (Forward.processResult result s.tasks).2.completed_control_tasks.lookup id = some record := found
  rcases Forward.processResult_completed result s.tasks id with same | ⟨pending, was, control, key, now⟩
  · exact .inl (same.symm.trans found)
  · rw [now, Option.some.injEq] at found
    have home : id = widen result.task_id := key.symm.trans (own _ pending was control)
    refine .inr ⟨home, ?_, ?_⟩
    · rw [home]
      exact Finmap.mem_iff.mpr ⟨pending, was⟩
    · rw [← found]
      exact key

theorem step_ok {config : Config} {uid : UInt64} {s t : Relay} {op : Op} {n : Nat} (ok : Ok uid s n)
    (few : n + submissions [op] ≤ 2 ^ 60) (stepped : step config s op = some t) :
    Ok uid t (n + submissions [op]) := by
  have counted := step_counted ok.counted stepped
  have own := step_own ok.own stepped
  have grows : ∀ {id}, (∃ k < n, id = stride uid k) → ∃ k < n + submissions [op], id = stride uid k :=
    fun ⟨k, less, same⟩ => ⟨k, by omega, same⟩
  cases step_change stepped with
  | entered entry submits _ key =>
    have one : submissions [op] = 1 := by simp [submissions, submits]
    refine ⟨counted, own, ?_, ?_, ?_⟩
    · intro id member
      rcases Finmap.mem_insert.mp member with same | old
      · exact ⟨n, by omega, by rw [same, key, ok.counted.next]⟩
      · exact grows (ok.pendingIds id old)
    · intro id record found
      exact ⟨(ok.completedIds id record found).1, grows (ok.completedIds id record found).2⟩
    · intro id member
      rcases Finmap.mem_insert.mp member with same | old
      · rw [same, key]
        exact ok.next_unused (by omega)
      · exact ok.apart id old
  | processed result =>
    have waited : ∀ id, id ∈ (s.processResult result).2.tasks.pending →
        id ≠ widen result.task_id ∧ id ∈ s.tasks.pending := by
      intro id member
      obtain ⟨entry, found⟩ := Finmap.mem_iff.mp member
      obtain ⟨other, old⟩ := processResult_waited found
      exact ⟨other, Finmap.mem_iff.mpr ⟨entry, old⟩⟩
    refine ⟨counted, own, ?_, ?_, ?_⟩
    · intro id member
      exact grows (ok.pendingIds id (waited id member).2)
    · intro id record found
      rcases processResult_stored ok.own found with old | ⟨_, used, key⟩
      · exact ⟨(ok.completedIds id record old).1, grows (ok.completedIds id record old).2⟩
      · exact ⟨key, grows (ok.pendingIds id used)⟩
    · intro id member done
      obtain ⟨other, old⟩ := waited id member
      obtain ⟨record, found⟩ := Finmap.mem_iff.mp done
      rcases processResult_stored ok.own found with stored | ⟨home, _⟩
      · exact ok.apart id old (Finmap.mem_iff.mpr ⟨record, stored⟩)
      · exact other home
  | answered query completed fewer =>
    have subset : ∀ id record, completed.lookup id = some record →
        s.tasks.completed_control_tasks.lookup id = some record := by
      intro id record found
      rcases fewer with same | ⟨task_id, _, _, erased⟩
      · rwa [same] at found
      · rw [erased] at found
        exact (FiniteMap.lookup_of_erase found).2
    refine ⟨counted, own, ?_, ?_, ?_⟩
    · intro id member
      exact grows (ok.pendingIds id member)
    · intro id record found
      have old := subset id record found
      exact ⟨(ok.completedIds id record old).1, grows (ok.completedIds id record old).2⟩
    · intro id member done
      obtain ⟨record, found⟩ := Finmap.mem_iff.mp done
      exact ok.apart id member (Finmap.mem_iff.mpr ⟨record, subset id record found⟩)

theorem run_ok {config : Config} {uid : UInt64} {s t : Relay} {ops : List Op} {n : Nat} (ok : Ok uid s n)
    (few : n + submissions ops ≤ 2 ^ 60) (ran : run (step config) s ops = some t) :
    Ok uid t (n + submissions ops) := by
  have keeps : ∀ n s op t, Ok uid s n → n + submissions [op] ≤ 2 ^ 60 → True → step config s op = some t →
      Ok uid t (n + submissions [op]) :=
    fun _ _ _ _ ok few _ stepped => step_ok ok few stepped
  exact run_numbered keeps ok few (fun _ _ => trivial) ran

end Relay
end Mqss.QOffload
