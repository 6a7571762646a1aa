import Mqss.Workers
import Mqss.FiniteMap

/-!
The life of a task. Every id is in at most one place: with a worker that was given
it, in one of the two maps of the store, or with the result worker that took its
entry. So the steps of the three workers read, for each id, as the steps of one
task that waits, is held and is stored.
-/

namespace Mqss.QOffload
open Mqss.Words Mqss.Machine Mqss.FiniteMap

/-! ### The abstract task -/

/-- What the service has of a task. -/
inductive Life
  | absent
  | waiting (entry : PendingTask)
  | held (entry : PendingTask) (result : QuantumResult)
  | stored (record : CompletedControlTask)

inductive Deed
  | enter (entry : PendingTask)
  | correlate (result : QuantumResult)
  | store
  | send
  | fetch

/-- A task waits for its result; a control task's result is stored until it is fetched, a
    direct task's result is sent on. -/
def Life.step : Life → Deed → Option Life
  | .absent, .enter entry => some (.waiting entry)
  | .waiting entry, .correlate result => some (.held entry result)
  | .held entry result, .store =>
    if entry.kind = .ControlTask then some (.stored (Forward.completedTask entry result)) else none
  | .held entry _, .send => if entry.kind = .DirectTask then some .absent else none
  | .stored _, .fetch => some .absent
  | _, _ => none

/-- The status that the store gives a task. -/
def Life.status : Life → TaskStatus
  | .waiting _ => .Waiting
  | .stored record => if record.execution_status then .Completed else .Cancelled
  | _ => .NotFound

/-- The record that the store has of a task. -/
def Life.record : Life → Option CompletedControlTask
  | .stored record => some record
  | _ => none

/-- The result sent on when a task takes a step. -/
def Life.sends : Life → Deed → List QuantumResult
  | .held entry result, .send => [Forward.remapped entry result]
  | _, _ => []

namespace Service

/-- The life of the task with this id. -/
def life (s : Service) (id : UInt64) : Life :=
  match s.tasks.pending.lookup id with
  | some entry => .waiting entry
  | none =>
    match s.tasks.completed_control_tasks.lookup id with
    | some record => .stored record
    | none =>
      match s.resultWorker with
      | .taken entry result => if entry.forwarded_task_id = id then .held entry result else .absent
      | _ => .absent

/-- What a step does to the task with this id. -/
def deeds (id : UInt64) : Seen → List Deed
  | .entered entry => if entry.forwarded_task_id = id then [.enter entry] else []
  | .processed result (some entry) => if entry.forwarded_task_id = id then [.correlate result] else []
  | .stored entry _ => if entry.forwarded_task_id = id then [.store] else []
  | .delivered entry _ _ _ => if entry.forwarded_task_id = id then [.send] else []
  | .fetched _ task_id (some _) => if task_id = id then [.fetch] else []
  | _ => []

/-! ### Where the ids are -/

def taskPlace (id : UInt64) : TaskWorker → Nat
  | .numbered _ other => if id = other then 1 else 0
  | _ => 0

def controlPlace (id : UInt64) : ControlWorker → Nat
  | .numbered _ _ other => if id = other then 1 else 0
  | _ => 0

def resultPlace (id : UInt64) : ResultWorker → Nat
  | .taken entry _ => if id = entry.forwarded_task_id then 1 else 0
  | _ => 0

/-- The number of places an id is in. -/
def places (s : Service) (id : UInt64) : Nat :=
  taskPlace id s.taskWorker + controlPlace id s.controlWorker + resultPlace id s.resultWorker +
    count s.tasks.pending id + count s.tasks.completed_control_tasks id

/-- Entries and records name the id they stand under. -/
structure Own (s : Service) : Prop where
  pending : ∀ id entry, s.tasks.pending.lookup id = some entry →
    entry.forwarded_task_id = id ∧ (entry.kind = .ControlTask → entry.original_task_id = id)
  held : ∀ entry result, s.resultWorker = .taken entry result → entry.kind = .ControlTask →
    entry.original_task_id = entry.forwarded_task_id
  completed : ∀ id record, s.tasks.completed_control_tasks.lookup id = some record → record.task_id = id

theorem new_own (uid : UInt64) : (new uid).Own := by
  refine ⟨?_, ?_, ?_⟩
  · intro id entry found
    cases found
  · intro entry result taken
    cases taken
  · intro id record found
    cases found

theorem step_own {config : Config} {s t : Service} {e : Event} {seen : List Seen} (own : s.Own)
    (change : Change config s e t seen) : t.Own := by
  obtain ⟨pending, held, completed⟩ := own
  cases change with
  | @registerTask request id loc =>
    refine ⟨?_, held, completed⟩
    intro other entry found
    rcases lookup_of_insert found with ⟨same, rfl⟩ | old
    · exact ⟨same.symm, nofun⟩
    · exact pending other entry old
  | @registerRequest request command id loc =>
    refine ⟨?_, held, completed⟩
    intro other entry found
    rcases lookup_of_insert found with ⟨same, rfl⟩ | old
    · exact ⟨same.symm, fun _ => same.symm⟩
    · exact pending other entry old
  | @take request id loc =>
    rw [takeCompleted_erases]
    exact ⟨pending, held, fun other record found => completed other record (lookup_of_erase found).2⟩
  | correlate loc found =>
    refine ⟨fun other entry kept => pending other entry (lookup_of_erase kept).2, ?_, completed⟩
    intro entry result taken control
    obtain ⟨rfl, rfl⟩ := ResultWorker.taken.inj taken
    obtain ⟨key, origin⟩ := pending _ _ found
    exact (origin control).trans key.symm
  | store loc control =>
    refine ⟨pending, nofun, ?_⟩
    intro other record found
    rcases lookup_of_insert found with ⟨same, rfl⟩ | old
    · exact same.symm
    · exact completed other record old
  | receiveResult => exact ⟨pending, nofun, completed⟩
  | ignore => exact ⟨pending, nofun, completed⟩
  | deliver => exact ⟨pending, nofun, completed⟩
  | _ => exact ⟨pending, held, completed⟩

/-- No step puts an id in a place but by giving it out or moving it from another. -/
theorem step_places {config : Config} {s t : Service} {e : Event} {seen : List Seen} (own : s.Own)
    (change : Change config s e t seen) (id : UInt64) : t.places id ≤ s.places id + (s.numbers e).count id := by
  have one : ∀ other, List.count id [other] = if id = other then 1 else 0 := by
    intro other
    by_cases same : id = other
    · simp [same]
    · simp [same, Ne.symm same]
  cases change with
  | numberTask loc =>
    simp only [places, numbers, loc, taskPlace, one]
    omega
  | numberRequest loc creates =>
    simp only [places, numbers, loc, controlPlace, creates, Control.creates, ↓reduceIte, one]
    omega
  | @registerTask request other loc =>
    have grown := count_insert_le s.tasks.pending other id (Forward.directEntry request other)
    simp only [places, loc, taskPlace, TaskStore.addDirectTask, Forward.directEntry] at grown ⊢
    omega
  | @registerRequest request command other loc =>
    have grown := count_insert_le s.tasks.pending other id ⟨.ControlTask, other, other, ""⟩
    simp only [places, loc, controlPlace, TaskStore.addControlTask, TaskStore.addDirectTask] at grown ⊢
    omega
  | @take request other loc =>
    have shrunk := count_erase_le s.tasks.completed_control_tasks other id
    rw [takeCompleted_erases]
    simp only [places, loc, controlPlace]
    omega
  | @correlate result entry loc found =>
    have key := (own.pending _ _ found).1
    have moved := count_erase (Finmap.mem_iff.mpr ⟨entry, found⟩) id
    simp only [places, loc, resultPlace, key] at moved ⊢
    omega
  | @store entry result loc control =>
    have origin := own.held entry result loc control
    have grown := count_insert_le s.tasks.completed_control_tasks entry.original_task_id id
      (Forward.completedTask entry result)
    rw [origin] at grown
    simp only [places, loc, resultPlace, TaskStore.storeCompletedControlTask, Forward.completedTask, origin] at grown ⊢
    omega
  | _ =>
    rename_i loc
    simp only [places, loc, taskPlace, controlPlace, resultPlace]
    omega

/-- What the counter and the store say after `n` ids: each of them is in one place at most,
    and no other word is in any. -/
structure Ok (uid : UInt64) (s : Service) (n : Nat) : Prop where
  instance_uid : s.forwarder.instance_uid = uid
  index : s.forwarder.next_task_index = UInt64.ofNat n
  own : s.Own
  once : ∀ id, s.places id ≤ 1
  given : ∀ id, 0 < s.places id → ∃ k < n, id = stride uid k

theorem new_ok (uid : UInt64) : Ok uid (new uid) 0 := by
  have nowhere : ∀ id, (new uid).places id = 0 := by
    intro id
    rfl
  refine ⟨rfl, rfl, new_own uid, ?_, ?_⟩
  · intro id
    rw [nowhere]
    omega
  · intro id here
    rw [nowhere] at here
    omega

variable {config : Config} {uid : UInt64} {s t : Service} {e : Event} {seen : List Seen} {n : Nat}

theorem Ok.next (ok : Ok uid s n) : s.forwarder.nextTaskId.1 = stride uid n := by
  simp [Forward.nextTaskId, ok.instance_uid, ok.index, stride]

/-- A step gives out the next id or none. -/
theorem Change.counts (change : Change config s e t seen) :
    t.forwarder.instance_uid = s.forwarder.instance_uid ∧
      (s.numbers e = [] ∧ t.forwarder = s.forwarder ∨
        s.numbers e = [s.forwarder.nextTaskId.1] ∧ t.forwarder = s.forwarder.nextTaskId.2) := by
  cases change with
  | numberTask loc => exact ⟨rfl, .inr ⟨by simp [numbers, loc], rfl⟩⟩
  | numberRequest loc creates => exact ⟨rfl, .inr ⟨by simp [numbers, loc, creates, Control.creates], rfl⟩⟩
  | status loc asks => exact ⟨rfl, .inl ⟨by simp [numbers, loc, asks, Control.creates], rfl⟩⟩
  | refuse loc asks => exact ⟨rfl, .inl ⟨by rcases asks with asks | asks <;> simp [numbers, loc, asks, Control.creates], rfl⟩⟩
  | look loc asks => exact ⟨rfl, .inl ⟨by rcases asks with asks | asks <;> simp [numbers, loc, asks, Control.creates], rfl⟩⟩
  | inform loc creates => exact ⟨rfl, .inl ⟨by simp [numbers, loc, creates], rfl⟩⟩
  | _ => exact ⟨rfl, .inl ⟨rfl, rfl⟩⟩

/-- An amount that is at most one for each of the first `n` ids and nothing for any other word. -/
structure Single (uid : UInt64) (n : Nat) (amount : UInt64 → Nat) : Prop where
  once : ∀ id, amount id ≤ 1
  given : ∀ id, 0 < amount id → ∃ k < n, id = stride uid k

/-- An amount that grows only by the ids given out stays single. -/
theorem Single.step {amount now : UInt64 → Nat} (single : Single uid n amount) (ok : Ok uid s n)
    (few : n + (s.numbers e).length ≤ 2 ^ 60) (change : Change config s e t seen)
    (grown : ∀ id, now id ≤ amount id + (s.numbers e).count id) : Single uid (n + (s.numbers e).length) now := by
  rcases change.counts.2 with ⟨none, _⟩ | ⟨one, _⟩
  · rw [none, List.length_nil, Nat.add_zero]
    rw [none] at grown
    constructor
    · intro id
      exact (grown id).trans (by simpa using single.once id)
    · intro id here
      exact single.given id (by simpa using here.trans_le (grown id))
  · rw [one] at few grown ⊢
    simp only [List.length_singleton] at few ⊢
    have new : amount s.forwarder.nextTaskId.1 = 0 := by
      by_contra here
      obtain ⟨k, earlier, same⟩ := single.given _ (Nat.pos_of_ne_zero here)
      rw [ok.next] at same
      exact stride_apart earlier (by omega) same.symm
    constructor
    · intro id
      by_cases next : id = s.forwarder.nextTaskId.1
      · have bound := grown id
        rw [next, new] at bound
        rw [next]
        simpa using bound
      · have bound := grown id
        rw [List.count_eq_zero_of_not_mem (by simpa using next)] at bound
        exact bound.trans (single.once id)
    · intro id here
      by_cases next : id = s.forwarder.nextTaskId.1
      · exact ⟨n, by omega, by rw [next, ok.next]⟩
      · have bound := grown id
        rw [List.count_eq_zero_of_not_mem (by simpa using next)] at bound
        obtain ⟨k, less, same⟩ := single.given id (by omega)
        exact ⟨k, by omega, same⟩

theorem step_ok (ok : Ok uid s n) (few : n + (s.numbers e).length ≤ 2 ^ 60) (change : Change config s e t seen) :
    Ok uid t (n + (s.numbers e).length) := by
  have placed : Single uid n s.places := ⟨ok.once, ok.given⟩
  obtain ⟨once, given⟩ := placed.step ok few change (step_places ok.own change)
  obtain ⟨same, effect⟩ := change.counts
  refine ⟨same.trans ok.instance_uid, ?_, step_own ok.own change, once, given⟩
  rcases effect with ⟨none, kept⟩ | ⟨one, counted⟩
  · rw [kept, ok.index, none, List.length_nil, Nat.add_zero]
  · rw [counted, one]
    simp [Forward.nextTaskId, ok.index]

/-! ### The life of each id -/

theorem life_waiting {id : UInt64} {entry : PendingTask} (found : s.tasks.pending.lookup id = some entry) :
    s.life id = .waiting entry := by
  simp [life, found]

theorem life_stored {id : UInt64} {record : CompletedControlTask} (idle : s.tasks.pending.lookup id = none)
    (found : s.tasks.completed_control_tasks.lookup id = some record) : s.life id = .stored record := by
  simp [life, idle, found]

theorem life_held {id : UInt64} {entry : PendingTask} {result : QuantumResult}
    (idle : s.tasks.pending.lookup id = none) (fetched : s.tasks.completed_control_tasks.lookup id = none)
    (loc : s.resultWorker = .taken entry result) (key : entry.forwarded_task_id = id) :
    s.life id = .held entry result := by
  simp [life, idle, fetched, loc, key]

theorem life_absent {id : UInt64} (idle : s.tasks.pending.lookup id = none)
    (fetched : s.tasks.completed_control_tasks.lookup id = none) (free : resultPlace id s.resultWorker = 0) :
    s.life id = .absent := by
  unfold resultPlace at free
  simp only [life, idle, fetched]
  split
  · split
    · simp_all
    · rfl
  · rfl

/-- What each kind of life says of the store and of the result worker. -/
theorem life_spec (s : Service) (id : UInt64) :
    match s.life id with
    | .waiting entry => s.tasks.pending.lookup id = some entry
    | .stored record =>
      s.tasks.pending.lookup id = none ∧ s.tasks.completed_control_tasks.lookup id = some record
    | .held entry result => s.tasks.pending.lookup id = none ∧
      s.tasks.completed_control_tasks.lookup id = none ∧ s.resultWorker = .taken entry result ∧
      entry.forwarded_task_id = id
    | .absent => s.tasks.pending.lookup id = none ∧
      s.tasks.completed_control_tasks.lookup id = none ∧ resultPlace id s.resultWorker = 0 := by
  unfold life
  cases pending : s.tasks.pending.lookup id with
  | some entry => rfl
  | none =>
    cases completed : s.tasks.completed_control_tasks.lookup id with
    | some record => exact ⟨rfl, rfl⟩
    | none =>
      cases worker : s.resultWorker with
      | taken entry result =>
        by_cases same : entry.forwarded_task_id = id
        · simp [same]
        · simp [same, resultPlace, Ne.symm same]
      | _ => exact ⟨rfl, rfl, rfl⟩

theorem status_of_life {id : UInt64} : s.tasks.status id = (s.life id).status := by
  unfold TaskStore.status life
  cases pending : s.tasks.pending.lookup id with
  | some entry =>
    have here : id ∈ s.tasks.pending := Finmap.mem_iff.mpr ⟨entry, pending⟩
    rw [if_pos here]
    rfl
  | none =>
    rw [if_neg (Finmap.lookup_eq_none.mp pending)]
    cases completed : s.tasks.completed_control_tasks.lookup id with
    | some record => rfl
    | none =>
      cases s.resultWorker with
      | taken entry result => by_cases same : entry.forwarded_task_id = id <;> simp [same, Life.status]
      | _ => rfl

theorem life_congr {id : UInt64} (pending : t.tasks.pending.lookup id = s.tasks.pending.lookup id)
    (completed : t.tasks.completed_control_tasks.lookup id = s.tasks.completed_control_tasks.lookup id)
    (worker : t.resultWorker = s.resultWorker ∨
      resultPlace id t.resultWorker = 0 ∧ resultPlace id s.resultWorker = 0) : t.life id = s.life id := by
  rcases worker with same | ⟨free, free'⟩
  · simp only [life, pending, completed, same]
  · cases found : s.tasks.pending.lookup id with
    | some entry => rw [life_waiting found, life_waiting (pending.trans found)]
    | none =>
      cases record : s.tasks.completed_control_tasks.lookup id with
      | some value => rw [life_stored found record, life_stored (pending.trans found) (completed.trans record)]
      | none => rw [life_absent found record free', life_absent (pending.trans found) (completed.trans record) free]

theorem quiet_life {id : UInt64} (quiet : seen.flatMap (deeds id) = [])
    (pending : t.tasks.pending.lookup id = s.tasks.pending.lookup id)
    (completed : t.tasks.completed_control_tasks.lookup id = s.tasks.completed_control_tasks.lookup id)
    (worker : t.resultWorker = s.resultWorker ∨
      resultPlace id t.resultWorker = 0 ∧ resultPlace id s.resultWorker = 0) :
    run Life.step (s.life id) (seen.flatMap (deeds id)) = some (t.life id) := by
  rw [quiet, run_nil, life_congr pending completed worker]

theorem moved_life {id : UInt64} {before after : Life} {deed : Deed} (old : s.life id = before)
    (one : seen.flatMap (deeds id) = [deed]) (moves : before.step deed = some after) (new : t.life id = after) :
    run Life.step (s.life id) (seen.flatMap (deeds id)) = some (t.life id) := by
  rw [one, old, new]
  simp [run, moves]

/-- A step does to each id what the life of a task allows. -/
theorem step_life (once : ∀ id, s.places id ≤ 1) (own : s.Own) (change : Change config s e t seen) (id : UInt64) :
    run Life.step (s.life id) (seen.flatMap (deeds id)) = some (t.life id) := by
  have single := once id
  unfold places at single
  cases change with
  | @registerTask request other loc =>
    by_cases same : other = id
    · subst same
      have here : taskPlace other s.taskWorker = 1 := by simp [loc, taskPlace]
      exact moved_life (life_absent (count_eq_zero.mp (by omega)) (count_eq_zero.mp (by omega)) (by omega))
        (by simp [deeds, Forward.directEntry]; rfl) rfl (life_waiting (Finmap.lookup_insert _))
    · exact quiet_life (by simp [deeds, Forward.directEntry, same]) (Finmap.lookup_insert_of_ne _ (Ne.symm same)) rfl
        (.inl rfl)
  | @registerRequest request command other loc =>
    by_cases same : other = id
    · subst same
      have here : controlPlace other s.controlWorker = 1 := by simp [loc, controlPlace]
      exact moved_life (life_absent (count_eq_zero.mp (by omega)) (count_eq_zero.mp (by omega)) (by omega))
        (by simp [deeds]; rfl) rfl (life_waiting (Finmap.lookup_insert _))
    · exact quiet_life (by simp [deeds, same]) (Finmap.lookup_insert_of_ne _ (Ne.symm same)) rfl (.inl rfl)
  | @take request other loc =>
    rw [takeCompleted_erases]
    cases found : s.tasks.completed_control_tasks.lookup other with
    | none =>
      refine quiet_life rfl rfl ?_ (.inl rfl)
      by_cases same : id = other
      · rw [same, found]
        exact Finmap.lookup_erase _ _
      · exact Finmap.lookup_erase_ne same
    | some record =>
      by_cases same : other = id
      · subst same
        have here := count_eq_one found
        have idle : s.tasks.pending.lookup other = none := count_eq_zero.mp (by omega)
        have free : resultPlace other s.resultWorker = 0 := by omega
        exact moved_life (life_stored idle found) (by simp [deeds]; rfl) rfl
          (life_absent idle (Finmap.lookup_erase _ _) free)
      · exact quiet_life (by simp [deeds, same]) rfl (Finmap.lookup_erase_ne (Ne.symm same)) (.inl rfl)
  | @correlate result entry loc found =>
    have key := (own.pending _ _ found).1
    by_cases same : entry.forwarded_task_id = id
    · have home : widen result.task_id = id := key.symm.trans same
      rw [home] at found ⊢
      have here := count_eq_one found
      have fetched : s.tasks.completed_control_tasks.lookup id = none := count_eq_zero.mp (by omega)
      exact moved_life (life_waiting found) (by simp [deeds, same]; rfl) rfl
        (life_held (Finmap.lookup_erase _ _) fetched rfl same)
    · have apart : id ≠ widen result.task_id := fun home => same (key.trans home.symm)
      refine quiet_life (by simp [deeds, same]) (Finmap.lookup_erase_ne apart) rfl (.inr ⟨if_neg (Ne.symm same), ?_⟩)
      rw [loc]
      rfl
  | @store entry result loc control =>
    have origin := own.held entry result loc control
    by_cases same : entry.forwarded_task_id = id
    · have here : resultPlace id s.resultWorker = 1 := by simp [loc, resultPlace, same]
      have idle : s.tasks.pending.lookup id = none := count_eq_zero.mp (by omega)
      have fetched : s.tasks.completed_control_tasks.lookup id = none := count_eq_zero.mp (by omega)
      have home : id = (Forward.completedTask entry result).task_id := (origin.trans same).symm
      have stored : (s.tasks.storeCompletedControlTask
          (Forward.completedTask entry result)).completed_control_tasks.lookup id =
          some (Forward.completedTask entry result) := by
        rw [home]
        exact Finmap.lookup_insert _
      have moves : (Life.held entry result).step .store = some (.stored (Forward.completedTask entry result)) :=
        if_pos control
      exact moved_life (life_held idle fetched loc same) (by simp [deeds, same]) moves (life_stored idle stored)
    · have apart : id ≠ (Forward.completedTask entry result).task_id := fun home => same (origin.symm.trans home.symm)
      refine quiet_life (by simp [deeds, same]) rfl (Finmap.lookup_insert_of_ne _ apart) (.inr ⟨rfl, ?_⟩)
      rw [loc]
      exact if_neg (Ne.symm same)
  | @deliver entry result fault loc direct =>
    by_cases same : entry.forwarded_task_id = id
    · have here : resultPlace id s.resultWorker = 1 := by simp [loc, resultPlace, same]
      have idle : s.tasks.pending.lookup id = none := count_eq_zero.mp (by omega)
      have fetched : s.tasks.completed_control_tasks.lookup id = none := count_eq_zero.mp (by omega)
      have moves : (Life.held entry result).step .send = some .absent := if_pos direct
      exact moved_life (life_held idle fetched loc same) (by simp [deeds, same]) moves (life_absent idle fetched rfl)
    · refine quiet_life (by simp [deeds, same]) rfl rfl (.inr ⟨rfl, ?_⟩)
      rw [loc]
      exact if_neg (Ne.symm same)
  | receiveResult loc =>
    refine quiet_life rfl rfl rfl (.inr ⟨rfl, ?_⟩)
    rw [loc]
    rfl
  | ignore loc =>
    refine quiet_life rfl rfl rfl (.inr ⟨rfl, ?_⟩)
    rw [loc]
    rfl
  | _ => rfl

/-! ### Runs -/

/-- The number of ids that a run gives out. -/
def numbered (s : Service) (es : List Event) : Nat := (history step numbers s es).length

theorem numbered_cons {es : List Event} (stepped : step s e = some t) :
    s.numbered (e :: es) = (s.numbers e).length + t.numbered es := by
  rw [numbered, history_cons stepped, List.length_append, numbered]

/-- The rule of runs that do not exhaust the ids: what every step keeps of the count, the
    trace and the state, every run keeps. -/
theorem run_traced {Inv : Nat → List Seen → Service → Prop}
    (keeps : ∀ n trace s e t, Inv n trace s → n + (s.numbers e).length ≤ 2 ^ 60 →
      Change config s e t (Service.seen config s e) →
      Inv (n + (s.numbers e).length) (trace ++ Service.seen config s e) t)
    {trace : List Seen} {es : List Event} (start : Inv n trace s) (few : n + s.numbered es ≤ 2 ^ 60)
    (ran : run step s es = some t) : Inv (n + s.numbered es) (trace ++ history step (Service.seen config) s es) t := by
  induction es generalizing s n trace with
  | nil =>
    obtain rfl := Option.some.inj ran
    simpa [numbered] using start
  | cons e es ih =>
    obtain ⟨next, stepped, rest⟩ := run_cons.mp ran
    rw [numbered_cons stepped, ← Nat.add_assoc] at few ⊢
    rw [history_cons stepped, ← List.append_assoc]
    exact ih (keeps n trace s e next start (by omega) (step_change stepped)) few rest

theorem run_ok {es : List Event} (ok : Ok uid s n) (few : n + s.numbered es ≤ 2 ^ 60) (ran : run step s es = some t) :
    Ok uid t (n + s.numbered es) :=
  @run_traced makeDefaultConfig s t n (fun n _ s => Ok uid s n)
    (fun _ _ _ _ _ ok few change => step_ok ok few change) [] es ok few ran

/-- The store is sound in every state of a run that does not exhaust the ids. -/
theorem along_ok {es : List Event} (ok : Ok uid s n) (few : n + s.numbered es ≤ 2 ^ 60) :
    Along step (fun s _ => ∃ n, Ok uid s n) s es := by
  induction es generalizing s n with
  | nil => trivial
  | cons e es ih =>
    refine ⟨⟨n, ok⟩, ?_⟩
    intro next stepped
    rw [numbered_cons stepped, ← Nat.add_assoc] at few
    exact ih (step_ok ok (by omega) (@step_change makeDefaultConfig s next e stepped)) few

/-- Every run does to each id what the life of a task allows. -/
theorem run_life {es : List Event} (ok : Ok uid s n) (few : n + s.numbered es ≤ 2 ^ 60) (ran : run step s es = some t)
    (id : UInt64) :
    run Life.step (s.life id) ((history step (Service.seen config) s es).flatMap (deeds id)) = some (t.life id) := by
  have keeps : ∀ n trace s' e t, (Ok uid s' n ∧ run Life.step (s.life id) (trace.flatMap (deeds id)) = some (s'.life id)) →
      n + (s'.numbers e).length ≤ 2 ^ 60 → Change config s' e t (Service.seen config s' e) →
      Ok uid t (n + (s'.numbers e).length) ∧
        run Life.step (s.life id) ((trace ++ Service.seen config s' e).flatMap (deeds id)) = some (t.life id) := by
    intro n trace s' e t known few change
    refine ⟨step_ok known.1 few change, ?_⟩
    rw [List.flatMap_append, run_append]
    exact ⟨s'.life id, known.2, step_life known.1.once known.1.own change id⟩
  have start : Ok uid s n ∧ run Life.step (s.life id) (([] : List Seen).flatMap (deeds id)) = some (s.life id) :=
    ⟨ok, rfl⟩
  exact (run_traced keeps start few ran).2

end Service
end Mqss.QOffload
