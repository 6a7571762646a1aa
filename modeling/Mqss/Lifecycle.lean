import Mqss.Workers
import Mqss.Progress

/-!
The life of the service. The controlling thread starts the three workers, and to stop them
it asks each one to stop, then joins them one after the other. A worker looks at its stop
flag at the head of its loop only. Over any number of starts and stops the workers are the
one service that the store and the id counter belong to, and a stop comes to its end.
-/

namespace Mqss.QOffload
open Mqss.Words Mqss.Machine Mqss.Progress

/-- The workers in the order in which they are started. -/
inductive Worker
  | task | control | result
  deriving DecidableEq

def Worker.all : List Worker := [.task, .control, .result]

/-- Where a worker's thread is: at the head of its loop, in its body, or after the loop. -/
inductive Place
  | head | body | ended
  deriving DecidableEq

/-- A worker's thread, with its stop flag. -/
structure Thread where
  stop : Bool := false
  place : Place := .head
  deriving DecidableEq

/-- The controlling thread between its calls, in `startWorkers`, in the loop of `requestStop`
    that asks the workers to stop, and in the destructors that join them, with the workers
    that it has yet to come to. -/
inductive Controller
  | free
  | starting (left : List Worker)
  | telling (left : List Worker)
  | joining (left : List Worker)

/-- The class `QOffload`: its service outlives the threads. -/
structure Runtime where
  service : Service
  running : Bool := false
  workers : Worker → Option Thread := fun _ => none
  controller : Controller := .free

namespace Runtime

def new (instance_uid : UInt64) : Runtime := { service := .new instance_uid }

/-- The worker that takes a step of the service. -/
def worker : Service.Event → Worker
  | .receiveTask _ | .numberTask | .registerTask | .sendTask _ => .task
  | .receiveRequest _ | .executeRequest | .completeRequest | .sendOutboundTask _ | .sendResponse _ => .control
  | .receiveResult _ | .takePending | .storeResult | .sendResult _ => .result

/-- A worker has no message in hand. -/
def idle (s : Service) : Worker → Bool
  | .task =>
    match s.taskWorker with
    | .idle => true
    | _ => false
  | .control =>
    match s.controlWorker with
    | .idle => true
    | _ => false
  | .result =>
    match s.resultWorker with
    | .idle => true
    | _ => false

/-- A step of the controlling thread or of a worker: the look at the stop flag, a receive
    that times out or fails, or a step of the service. -/
inductive Event
  | start
  | startWorker
  | requestStop
  | tell
  | join
  | check (worker : Worker)
  | receiveNothing (worker : Worker)
  | work (e : Service.Event)

/-- The controlling thread goes on with the workers that are left, or to what comes after them. -/
def goOn (call : List Worker → Controller) (left : List Worker) (next : Controller) : Controller :=
  if left.isEmpty then next else call left

def put (s : Runtime) (worker : Worker) (thread : Option Thread) : Runtime :=
  { s with workers := Function.update s.workers worker thread }

def step (s : Runtime) : Event → Option Runtime
  | .start =>
    match s.controller with
    | .free => if s.running then some s else some { s with running := true, controller := .starting Worker.all }
    | _ => none
  | .startWorker =>
    match s.controller with
    | .starting (worker :: left) => some { s.put worker (some {}) with controller := goOn .starting left .free }
    | _ => none
  | .requestStop =>
    match s.controller with
    | .free => if s.running then some { s with running := false, controller := .telling Worker.all } else some s
    | _ => none
  | .tell =>
    match s.controller with
    | .telling (worker :: left) =>
      some { s.put worker ((s.workers worker).map ({ · with stop := true })) with
        controller := goOn .telling left (.joining Worker.all) }
    | _ => none
  | .join =>
    match s.controller with
    | .joining (worker :: left) =>
      match s.workers worker with
      | some ⟨_, .ended⟩ => some { s.put worker none with controller := goOn .joining left .free }
      | _ => none
    | _ => none
  | .check worker =>
    match s.workers worker with
    | some ⟨stop, .head⟩ => some (s.put worker (some ⟨stop, if stop then .ended else .body⟩))
    | _ => none
  | .receiveNothing worker =>
    match s.workers worker with
    | some ⟨stop, .body⟩ => if idle s.service worker then some (s.put worker (some ⟨stop, .head⟩)) else none
    | _ => none
  | .work e =>
    match s.workers (worker e) with
    | some ⟨stop, .body⟩ =>
      (s.service.step e).map fun service =>
        { s.put (worker e) (some ⟨stop, if idle service (worker e) then .head else .body⟩) with service := service }
    | _ => none

/-- The steps of the service. -/
def works (_ : Runtime) : Event → List Service.Event
  | .work e => [e]
  | _ => []

/-- Everything a step can do. -/
inductive Change (s : Runtime) : Event → Runtime → Prop
  | already (free : s.controller = .free) (up : s.running = true) : Change s .start s
  | start (free : s.controller = .free) (down : s.running = false) :
      Change s .start { s with running := true, controller := .starting Worker.all }
  | startWorker {worker left} (starting : s.controller = .starting (worker :: left)) :
      Change s .startWorker { s.put worker (some {}) with controller := goOn .starting left .free }
  | stopped (free : s.controller = .free) (down : s.running = false) : Change s .requestStop s
  | requestStop (free : s.controller = .free) (up : s.running = true) :
      Change s .requestStop { s with running := false, controller := .telling Worker.all }
  | tell {worker left} (telling : s.controller = .telling (worker :: left)) :
      Change s .tell { s.put worker ((s.workers worker).map ({ · with stop := true })) with
        controller := goOn .telling left (.joining Worker.all) }
  | join {worker left stop} (joining : s.controller = .joining (worker :: left))
      (ended : s.workers worker = some ⟨stop, .ended⟩) :
      Change s .join { s.put worker none with controller := goOn .joining left .free }
  | check {worker stop} (head : s.workers worker = some ⟨stop, .head⟩) :
      Change s (.check worker) (s.put worker (some ⟨stop, if stop then .ended else .body⟩))
  | receiveNothing {worker stop} (body : s.workers worker = some ⟨stop, .body⟩) (empty : idle s.service worker = true) :
      Change s (.receiveNothing worker) (s.put worker (some ⟨stop, .head⟩))
  | work {e stop service} (body : s.workers (worker e) = some ⟨stop, .body⟩) (stepped : s.service.step e = some service) :
      Change s (.work e)
        { s.put (worker e) (some ⟨stop, if idle service (worker e) then .head else .body⟩) with service := service }

theorem step_change {s t : Runtime} {e : Event} (stepped : step s e = some t) : Change s e t := by
  cases e with
  | start =>
    simp only [step] at stepped
    split at stepped
    · rename_i free
      split at stepped
      · rename_i up
        obtain rfl := Option.some.inj stepped
        exact .already free up
      · rename_i down
        obtain rfl := Option.some.inj stepped
        exact .start free (by simpa using down)
    · cases stepped
  | startWorker =>
    simp only [step] at stepped
    split at stepped
    · rename_i worker left starting
      obtain rfl := Option.some.inj stepped
      exact .startWorker starting
    · cases stepped
  | requestStop =>
    simp only [step] at stepped
    split at stepped
    · rename_i free
      split at stepped
      · rename_i up
        obtain rfl := Option.some.inj stepped
        exact .requestStop free up
      · rename_i down
        obtain rfl := Option.some.inj stepped
        exact .stopped free (by simpa using down)
    · cases stepped
  | tell =>
    simp only [step] at stepped
    split at stepped
    · rename_i worker left telling
      obtain rfl := Option.some.inj stepped
      exact .tell telling
    · cases stepped
  | join =>
    simp only [step] at stepped
    split at stepped
    · rename_i worker left joining
      split at stepped
      · rename_i stop ended
        obtain rfl := Option.some.inj stepped
        exact .join joining ended
      · cases stepped
    · cases stepped
  | check worker =>
    simp only [step] at stepped
    split at stepped
    · rename_i stop head
      obtain rfl := Option.some.inj stepped
      exact .check head
    · cases stepped
  | receiveNothing worker =>
    simp only [step] at stepped
    split at stepped
    · rename_i stop body
      split at stepped
      · rename_i empty
        obtain rfl := Option.some.inj stepped
        exact .receiveNothing body empty
      · cases stepped
    · cases stepped
  | work e =>
    simp only [step] at stepped
    split at stepped
    · rename_i stop body
      obtain ⟨service, worked, rfl⟩ := Option.map_eq_some_iff.mp stepped
      exact .work body worked
    · cases stepped

/-! ### Threads and calls -/

/-- A thread that was not asked to stop has not left its loop. -/
def Up (thread : Option Thread) : Prop := ∃ place, thread = some ⟨false, place⟩ ∧ place ≠ .ended

/-- A thread that was asked to stop. -/
def Told (thread : Option Thread) : Prop := ∃ place, thread = some ⟨true, place⟩

/-- The thread of a worker, where the controlling thread is in its calls. -/
def Stands (running : Bool) (controller : Controller) (worker : Worker) (thread : Option Thread) : Prop :=
  match controller with
  | .free => if running then Up thread else thread = none
  | .starting left => if worker ∈ left then thread = none else Up thread
  | .telling left => if worker ∈ left then Up thread else Told thread
  | .joining left => if worker ∈ left then Told thread else thread = none

/-- The calls are where the flag says, and come to no worker twice. -/
def Orderly (running : Bool) : Controller → Prop
  | .free => True
  | .starting left => running = true ∧ left.Nodup
  | .telling left | .joining left => running = false ∧ left ≠ [] ∧ left.Nodup

/-- What holds between the controlling thread, the threads of the workers and the service. -/
structure Ok (s : Runtime) : Prop where
  stands : ∀ worker, Stands s.running s.controller worker (s.workers worker)
  orderly : Orderly s.running s.controller
  busy : ∀ worker, idle s.service worker = false → ∃ stop, s.workers worker = some ⟨stop, .body⟩

theorem Worker.mem_all (worker : Worker) : worker ∈ Worker.all := by
  cases worker <;> decide

theorem idle_iff {s : Service} : s.Idle ↔ ∀ worker, idle s worker = true := by
  constructor
  · rintro ⟨task, control, result⟩ worker
    cases worker <;> simp [idle, task, control, result]
  · intro all
    have task := all .task
    have control := all .control
    have result := all .result
    simp only [idle] at task control result
    refine ⟨?_, ?_, ?_⟩
    · split at task
      · assumption
      · cases task
    · split at control
      · assumption
      · cases control
    · split at result
      · assumption
      · cases result

theorem new_ok (uid : UInt64) : (new uid).Ok := by
  refine ⟨fun worker => rfl, trivial, fun worker busy => ?_⟩
  cases worker <;> cases busy

/-- A thread that keeps its flag stands as it stood, unless it leaves its loop unasked. -/
theorem Stands.moved {running : Bool} {controller : Controller} {worker : Worker} {stop : Bool} {place next : Place}
    (stands : Stands running controller worker (some ⟨stop, place⟩)) (asked : stop = false → next ≠ .ended) :
    Stands running controller worker (some ⟨stop, next⟩) := by
  have up : Up (some ⟨stop, place⟩) → Up (some ⟨stop, next⟩) := by
    rintro ⟨_, same, _⟩
    obtain ⟨rfl, rfl⟩ := Thread.mk.inj (Option.some.inj same)
    exact ⟨next, rfl, asked rfl⟩
  have told : Told (some ⟨stop, place⟩) → Told (some ⟨stop, next⟩) := by
    rintro ⟨_, same⟩
    obtain ⟨rfl, rfl⟩ := Thread.mk.inj (Option.some.inj same)
    exact ⟨next, rfl⟩
  cases controller with
  | free =>
    simp only [Stands] at stands ⊢
    split at stands
    · rename_i on
      rw [if_pos on]
      exact up stands
    · cases stands
  | starting left =>
    simp only [Stands] at stands ⊢
    split at stands
    · cases stands
    · rename_i started
      rw [if_neg started]
      exact up stands
  | telling left =>
    simp only [Stands] at stands ⊢
    split at stands
    · rename_i untold
      rw [if_pos untold]
      exact up stands
    · rename_i done
      rw [if_neg done]
      exact told stands
  | joining left =>
    simp only [Stands] at stands ⊢
    split at stands
    · rename_i waiting
      rw [if_pos waiting]
      exact told stands
    · cases stands

/-- A step of the service leaves the other workers where they are. -/
theorem step_idle {s t : Service} {e : Service.Event} (stepped : s.step e = some t) {other : Worker}
    (apart : other ≠ worker e) : idle t other = idle s other := by
  obtain ⟨shown, change⟩ : ∃ shown, Service.Change makeDefaultConfig s e t shown := ⟨_, Service.step_change stepped⟩
  cases change <;> cases other <;> first | rfl | exact absurd rfl apart

/-! ### Calls that go on -/

section
variable {worker : Worker} {left : List Worker} {thread : Option Thread}

theorem stands_starting : Stands true (goOn .starting left .free) worker thread ↔
    if worker ∈ left then thread = none else Up thread := by
  cases left <;> simp [goOn, Stands]

theorem stands_telling {running : Bool} : Stands running (goOn .telling left (.joining Worker.all)) worker thread ↔
    if worker ∈ left then Up thread else Told thread := by
  cases left <;> simp [goOn, Stands, Worker.mem_all]

theorem stands_joining : Stands false (goOn .joining left .free) worker thread ↔
    if worker ∈ left then Told thread else thread = none := by
  cases left <;> simp [goOn, Stands]
end

variable {s t : Runtime} {e : Event}

/-- The thread that a call has come to, and the others. -/
theorem Ok.called (ok : s.Ok) {controller : Controller} {worker : Worker} {left : List Worker} {thread : Option Thread}
    (waits done : Option Thread → Prop) (fresh : worker ∉ left)
    (stood : ∀ other, if other ∈ worker :: left then waits (s.workers other) else done (s.workers other))
    (stands : ∀ other thread, Stands s.running controller other thread ↔ if other ∈ left then waits thread else done thread)
    (orderly : Orderly s.running controller) (now : done thread)
    (busy : idle s.service worker = false → ∃ stop, thread = some ⟨stop, .body⟩) :
    Ok { s.put worker thread with controller := controller } := by
  refine ⟨fun other => ?_, orderly, fun other works => ?_⟩
  · refine (stands other _).mpr ?_
    have before := stood other
    by_cases same : other = worker
    · subst same
      rw [if_neg fresh]
      simpa [put] using now
    · simp only [put, Function.update_of_ne same]
      simpa only [List.mem_cons, same, false_or] using before
  · by_cases same : other = worker
    · subst same
      simpa [put] using busy works
    · simpa [put, Function.update_of_ne same] using ok.busy other works

/-- A worker's own step keeps its flag. -/
theorem Ok.moved (ok : s.Ok) {worker : Worker} {stop : Bool} {place next : Place} {service : Service}
    (there : s.workers worker = some ⟨stop, place⟩) (asked : stop = false → next ≠ .ended)
    (others : ∀ other, other ≠ worker → idle service other = idle s.service other)
    (busy : idle service worker = false → next = .body) :
    Ok { s.put worker (some ⟨stop, next⟩) with service := service } := by
  refine ⟨fun other => ?_, ok.orderly, fun other works => ?_⟩
  · by_cases same : other = worker
    · subst same
      have stands := ok.stands other
      rw [there] at stands
      simpa [put] using stands.moved asked
    · simpa [put, Function.update_of_ne same] using ok.stands other
  · by_cases same : other = worker
    · subst same
      exact ⟨stop, by simp [put, busy works]⟩
    · rw [others other same] at works
      simpa [put, Function.update_of_ne same] using ok.busy other works

theorem step_ok (ok : s.Ok) (stepped : step s e = some t) : t.Ok := by
  cases step_change stepped with
  | already => exact ok
  | stopped => exact ok
  | start free down =>
    refine ⟨fun worker => ?_, ⟨rfl, by decide⟩, ok.busy⟩
    have stands := ok.stands worker
    rw [free, down] at stands
    simpa [Stands, Worker.mem_all] using stands
  | @startWorker worker left starting =>
    have orderly := ok.orderly
    rw [starting] at orderly
    obtain ⟨up, distinct⟩ := orderly
    obtain ⟨fresh, rest⟩ := List.nodup_cons.mp distinct
    have stood : ∀ other, if other ∈ worker :: left then s.workers other = none else Up (s.workers other) := by
      intro other
      have stands := ok.stands other
      rwa [starting] at stands
    have absent := stood worker
    rw [if_pos List.mem_cons_self] at absent
    refine ok.called (· = none) Up fresh stood (fun other thread => by rw [up]; exact stands_starting) ?_ ⟨.head, rfl, by decide⟩ ?_
    · cases left with
      | nil => trivial
      | cons => exact ⟨up, rest⟩
    · intro works
      obtain ⟨stop, body⟩ := ok.busy worker works
      rw [absent] at body
      cases body
  | requestStop free up =>
    refine ⟨fun worker => ?_, ⟨rfl, by decide, by decide⟩, ok.busy⟩
    have stands := ok.stands worker
    rw [free, up] at stands
    simpa [Stands, Worker.mem_all] using stands
  | @tell worker left telling =>
    have orderly := ok.orderly
    rw [telling] at orderly
    obtain ⟨down, _, distinct⟩ := orderly
    obtain ⟨fresh, rest⟩ := List.nodup_cons.mp distinct
    have stood : ∀ other, if other ∈ worker :: left then Up (s.workers other) else Told (s.workers other) := by
      intro other
      have stands := ok.stands other
      rwa [telling] at stands
    have here := stood worker
    rw [if_pos List.mem_cons_self] at here
    obtain ⟨place, thread, _⟩ := here
    refine ok.called Up Told fresh stood (fun other thread => stands_telling) ?_ ⟨place, by rw [thread]; rfl⟩ ?_
    · cases left with
      | nil => exact ⟨down, by decide, by decide⟩
      | cons => exact ⟨down, by simp, rest⟩
    · intro works
      obtain ⟨stop, body⟩ := ok.busy worker works
      exact ⟨true, by rw [body]; rfl⟩
  | @join worker left stop joining ended =>
    have orderly := ok.orderly
    rw [joining] at orderly
    obtain ⟨down, _, distinct⟩ := orderly
    obtain ⟨fresh, rest⟩ := List.nodup_cons.mp distinct
    have stood : ∀ other, if other ∈ worker :: left then Told (s.workers other) else s.workers other = none := by
      intro other
      have stands := ok.stands other
      rwa [joining] at stands
    refine ok.called Told (· = none) fresh stood (fun other thread => by rw [down]; exact stands_joining) ?_ rfl ?_
    · cases left with
      | nil => trivial
      | cons => exact ⟨down, by simp, rest⟩
    · intro works
      obtain ⟨_, body⟩ := ok.busy worker works
      rw [ended] at body
      cases body
  | @check worker stop head =>
    refine ok.moved head ?_ (fun _ _ => rfl) ?_
    · rintro rfl
      decide
    · intro works
      obtain ⟨_, body⟩ := ok.busy worker works
      rw [head] at body
      cases body
  | @receiveNothing worker stop body empty =>
    refine ok.moved body (fun _ => by decide) (fun _ _ => rfl) ?_
    intro works
    rw [empty] at works
    cases works
  | @work e stop service body worked =>
    refine ok.moved body ?_ (fun other apart => step_idle worked apart) ?_
    · intro _
      split <;> decide
    · intro works
      rw [works]
      rfl

theorem Ok.all_up (ok : s.Ok) (free : s.controller = .free) (up : s.running = true) (worker : Worker) :
    Up (s.workers worker) := by
  have stands := ok.stands worker
  rw [free, up] at stands
  exact stands

theorem Ok.quiet (ok : s.Ok) (free : s.controller = .free) (down : s.running = false) :
    (∀ worker, s.workers worker = none) ∧ s.service.Idle := by
  have gone : ∀ worker, s.workers worker = none := by
    intro worker
    have stands := ok.stands worker
    rw [free, down] at stands
    exact stands
  refine ⟨gone, idle_iff.mpr fun worker => ?_⟩
  by_contra works
  obtain ⟨_, body⟩ := ok.busy worker (by simpa using works)
  rw [gone worker] at body
  cases body

/-- A worker of the service only works in the body of its loop, so over any number of starts
    and stops the workers take a run of the service. Between its calls, the controlling
    thread has three workers that were not asked to stop, or, when it does not run, none,
    and every message that they received has been handled. -/
theorem lifecycle_runs_service {uid : UInt64} {es : List Event} (ran : run step (new uid) es = some s) :
    run Service.step (.new uid) (history step works (new uid) es) = some s.service ∧
      (s.controller = .free →
        (s.running = true → ∀ worker, Up (s.workers worker)) ∧
        (s.running = false → (∀ worker, s.workers worker = none) ∧ s.service.Idle)) := by
  have ok : s.Ok := invariant (fun _ _ _ ok stepped => step_ok ok stepped) (new_ok uid) ran
  constructor
  · have refines : ∀ s e next, step s e = some next →
        run Service.step s.service ((works s e).flatMap fun e => [e]) = some next.service := by
      intro s e next stepped
      cases step_change stepped with
      | work _ worked => simpa [works, run] using worked
      | _ => rfl
    have ran := history_refines refines ran
    rwa [List.flatMap_singleton'] at ran
  · exact fun free => ⟨fun up => ok.all_up free up, fun down => ok.quiet free down⟩

/-- A task is received and forwarded, and the service is stopped and started again. -/
def restarted : List Event :=
  [.start, .startWorker, .startWorker, .startWorker, .check .task, .work (.receiveTask {}), .work .numberTask,
    .work .registerTask, .work (.sendTask false), .requestStop, .tell, .tell, .tell, .check .task, .check .control,
    .check .result, .join, .join, .join, .start, .startWorker, .startWorker, .startWorker]

theorem restarted_runs_service : ∃ s, run step (new 11) restarted = some s ∧
    run Service.step (.new 11) (history step works (new 11) restarted) = some s.service ∧
      (s.controller = .free →
        (s.running = true → ∀ worker, Up (s.workers worker)) ∧
        (s.running = false → (∀ worker, s.workers worker = none) ∧ s.service.Idle)) :=
  ⟨_, rfl, lifecycle_runs_service rfl⟩

/-! ### The end of a stop -/

/-- The steps between the calls of `start` and `requestStop`. -/
def Event.internal : Event → Bool
  | .start | .requestStop => false
  | _ => true

/-- A worker receives a message. -/
def Event.receives (worker : Worker) : Event → Bool
  | .work (.receiveTask _) => worker = .task
  | .work (.receiveRequest _) => worker = .control
  | .work (.receiveResult _) => worker = .result
  | _ => false

/-- The steps of a worker from the body of its loop to the end of a loop that was asked to stop. -/
def inBody (s : Service) : Worker → Nat
  | .task =>
    match s.taskWorker with
    | .idle => 5
    | .received _ => 4
    | .numbered _ _ => 3
    | .registered _ _ => 2
  | .control =>
    match s.controlWorker with
    | .idle => 6
    | .received _ => 5
    | .numbered _ _ _ => 4
    | .registered _ _ _ | .looked _ _ => 3
    | .announcing _ _ | .answering _ _ => 2
  | .result =>
    match s.resultWorker with
    | .idle => 4
    | .received _ => 3
    | .taken _ _ => 2

def threadLeft (s : Service) (worker : Worker) : Option Thread → Nat
  | none | some ⟨_, .ended⟩ => 0
  | some ⟨_, .head⟩ => 1
  | some ⟨_, .body⟩ => inBody s worker

def joins : Controller → Nat
  | .joining left => left.length
  | _ => 0

/-- The steps that are left of a stop, at most. -/
def left (s : Runtime) : Nat :=
  threadLeft s.service .task (s.workers .task) + threadLeft s.service .control (s.workers .control) +
    threadLeft s.service .result (s.workers .result) + joins s.controller

def longest : Worker → Nat
  | .task => 5
  | .control => 6
  | .result => 4

theorem threadLeft_le (s : Service) (worker : Worker) (thread : Option Thread) :
    threadLeft s worker thread ≤ longest worker := by
  have body : inBody s worker ≤ longest worker := by
    cases worker <;> simp only [inBody, longest] <;> split <;> omega
  have one : 1 ≤ longest worker := by cases worker <;> decide
  unfold threadLeft
  split <;> omega

/-- The workers were asked to stop, or have stopped. -/
structure Stopping (s : Runtime) : Prop where
  ok : s.Ok
  down : s.running = false
  told : s.controller = .free ∨ ∃ left, s.controller = .joining left

/-- The thread of a worker that was asked to stop and has yet to be joined. -/
theorem Stopping.thread (stopping : s.Stopping) {worker : Worker} {stop : Bool} {place : Place}
    (there : s.workers worker = some ⟨stop, place⟩) : stop = true := by
  have stands := stopping.ok.stands worker
  rw [there, stopping.down] at stands
  rcases stopping.told with free | ⟨left, joining⟩
  · rw [free] at stands
    cases stands
  · rw [joining] at stands
    simp only [Stands] at stands
    split at stands
    · obtain ⟨_, same⟩ := stands
      exact (Thread.mk.inj (Option.some.inj same)).1
    · cases stands

theorem Stopping.elsewhere (stopping : s.Stopping) (left : List Worker) :
    s.controller ≠ .starting left ∧ s.controller ≠ .telling left := by
  rcases stopping.told with free | ⟨_, joining⟩
  · simp [free]
  · simp [joining]

theorem two_le_inBody (s : Service) (worker : Worker) : 2 ≤ inBody s worker := by
  cases worker <;> simp only [inBody] <;> split <;> omega

theorem step_inBody {s t : Service} {e : Service.Event} (stepped : s.step e = some t) {other : Worker}
    (apart : other ≠ worker e) : inBody t other = inBody s other := by
  obtain ⟨shown, change⟩ : ∃ shown, Service.Change makeDefaultConfig s e t shown := ⟨_, Service.step_change stepped⟩
  cases change <;> cases other <;> first | rfl | exact absurd rfl apart

/-- A worker that takes a step of the service gets on in its loop. -/
theorem step_getsOn {s t : Service} {e : Service.Event} (stepped : s.step e = some t) :
    (if idle t (worker e) then 1 else inBody t (worker e)) < inBody s (worker e) := by
  obtain ⟨shown, change⟩ : ∃ shown, Service.Change makeDefaultConfig s e t shown := ⟨_, Service.step_change stepped⟩
  cases change <;> rename_i loc <;> simp_all [idle, inBody, worker]

/-- The step of one worker leaves what the others have left. -/
theorem left_moved {worker : Worker} {thread : Option Thread} {service : Service}
    (others : ∀ other, other ≠ worker → inBody service other = inBody s.service other) :
    left { s.put worker thread with service := service } + threadLeft s.service worker (s.workers worker) =
      s.left + threadLeft service worker thread := by
  have same : ∀ other, other ≠ worker → threadLeft service other (s.workers other) =
      threadLeft s.service other (s.workers other) := by
    intro other apart
    unfold threadLeft
    split <;> first | rfl | exact others other apart
  cases worker with
  | task =>
    have control := same .control (by decide)
    have result := same .result (by decide)
    simp [left, put, control, result]
    omega
  | control =>
    have task := same .task (by decide)
    have result := same .result (by decide)
    simp [left, put, task, result]
    omega
  | result =>
    have task := same .task (by decide)
    have control := same .control (by decide)
    simp [left, put, task, control]
    omega

theorem stop_uses : Uses step Stopping Event.internal left := by
  intro s e t stopping internal stepped
  have ok := step_ok stopping.ok stepped
  cases step_change stepped with
  | already | start | stopped | requestStop => cases internal
  | startWorker starting => exact absurd starting (stopping.elsewhere _).1
  | tell telling => exact absurd telling (stopping.elsewhere _).2
  | @join worker left stop joining ended =>
    refine ⟨⟨ok, stopping.down, ?_⟩, ?_⟩
    · cases left with
      | nil => exact .inl rfl
      | cons next left => exact .inr ⟨next :: left, rfl⟩
    · have counted : Runtime.left (s.put worker none) + threadLeft s.service worker (s.workers worker) = s.left + 0 :=
        left_moved fun _ _ => rfl
      have before : joins s.controller = left.length + 1 := by rw [joining]; rfl
      have after : joins (goOn .joining left .free) = left.length := by cases left <;> rfl
      rw [ended] at counted
      simp only [threadLeft, Nat.add_zero] at counted
      simp only [Runtime.left, put] at counted ⊢
      omega
  | @check worker stop head =>
    obtain rfl := stopping.thread head
    refine ⟨⟨ok, stopping.down, stopping.told⟩, ?_⟩
    have counted : Runtime.left (s.put worker (some ⟨true, .ended⟩)) + threadLeft s.service worker (s.workers worker) =
        s.left + 0 := left_moved fun _ _ => rfl
    rw [head] at counted
    simp only [threadLeft, if_true] at counted ⊢
    omega
  | @receiveNothing worker stop body empty =>
    refine ⟨⟨ok, stopping.down, stopping.told⟩, ?_⟩
    have counted : Runtime.left (s.put worker (some ⟨stop, .head⟩)) + threadLeft s.service worker (s.workers worker) =
        s.left + 1 := left_moved fun _ _ => rfl
    have long : 2 ≤ inBody s.service worker := two_le_inBody s.service worker
    rw [body] at counted
    simp only [threadLeft] at counted
    omega
  | @work e stop service body worked =>
    refine ⟨⟨ok, stopping.down, stopping.told⟩, ?_⟩
    have less := step_getsOn worked
    have moved := @left_moved s (worker e) (some ⟨stop, if idle service (worker e) then .head else .body⟩) service
      fun other apart => step_inBody worked apart
    have here : threadLeft service (worker e) (some ⟨stop, if idle service (worker e) then .head else .body⟩) =
        if idle service (worker e) then 1 else inBody service (worker e) := by
      split <;> rfl
    rw [body, here] at moved
    exact Nat.lt_of_add_lt_add_right (lt_of_eq_of_lt moved (Nat.add_lt_add_left less _))

/-- A worker that has a message in hand can go on with it. -/
theorem busy_steps {s : Service} {who : Worker} (busy : idle s who = false) :
    ∃ e t, worker e = who ∧ s.step e = some t := by
  cases who with
  | task =>
    cases loc : s.taskWorker with
    | idle => simp [idle, loc] at busy
    | received => exact ⟨.numberTask, _, rfl, by simp only [Service.step, loc]; rfl⟩
    | numbered => exact ⟨.registerTask, _, rfl, by simp only [Service.step, loc]; rfl⟩
    | registered => exact ⟨.sendTask false, _, rfl, by simp only [Service.step, loc]; rfl⟩
  | control =>
    cases loc : s.controlWorker with
    | idle => simp [idle, loc] at busy
    | received => exact ⟨.executeRequest, _, rfl, by simp only [Service.step, loc]; rfl⟩
    | numbered | looked => exact ⟨.completeRequest, _, rfl, by simp only [Service.step, loc]; rfl⟩
    | registered => exact ⟨.sendOutboundTask false, _, rfl, by simp only [Service.step, loc]; rfl⟩
    | announcing | answering => exact ⟨.sendResponse false, _, rfl, by simp only [Service.step, loc]; rfl⟩
  | result =>
    cases loc : s.resultWorker with
    | idle => simp [idle, loc] at busy
    | received result =>
      cases found : s.tasks.takePending (widen result.task_id) with
      | mk taken tasks =>
        cases taken <;> exact ⟨.takePending, _, rfl, by simp only [Service.step, loc, found]; rfl⟩
    | taken entry =>
      cases kind : entry.kind with
      | ControlTask => exact ⟨.storeResult, _, rfl, by simp only [Service.step, loc, kind, if_true]; rfl⟩
      | DirectTask => exact ⟨.sendResult false, _, rfl, by simp only [Service.step, loc, kind, if_true]; rfl⟩

/-- A stop rests when it has come to its end, and then only. -/
theorem stop_rests_iff (stopping : s.Stopping) : Rests step Event.internal s ↔ s.controller = .free := by
  constructor
  · intro rests
    rcases stopping.told with free | ⟨left, joining⟩
    · exact free
    · have orderly := stopping.ok.orderly
      rw [joining] at orderly
      obtain ⟨who, rest, rfl⟩ := List.exists_cons_of_ne_nil orderly.2.1
      have stands := stopping.ok.stands who
      rw [joining] at stands
      simp only [Stands, List.mem_cons, true_or, if_true] at stands
      obtain ⟨place, thread⟩ := stands
      cases place with
      | head =>
        have enabled := rests (.check who) rfl
        simp [step, thread] at enabled
      | ended =>
        have enabled := rests .join rfl
        simp [step, joining, thread] at enabled
      | body =>
        by_cases empty : idle s.service who = true
        · have enabled := rests (.receiveNothing who) rfl
          simp [step, thread, empty] at enabled
        · obtain ⟨e, t, rfl, worked⟩ := busy_steps (by simpa using empty)
          have enabled := rests (.work e) rfl
          simp [step, thread, worked] at enabled
  · intro free e internal
    obtain ⟨gone, _⟩ := stopping.ok.quiet free stopping.down
    cases e with
    | start | requestStop => cases internal
    | startWorker | tell | join => simp [step, free]
    | check | receiveNothing | work => simp [step, gone]

/-- A worker is in a receive, or about to enter one. -/
def inReceive (s : Service) (who : Worker) : Option Thread → Nat
  | some ⟨_, .body⟩ => (idle s who).toNat
  | _ => 0

def receiving (who : Worker) (s : Runtime) : Nat := inReceive s.service who (s.workers who)

theorem receiving_le (who : Worker) (s : Runtime) : receiving who s ≤ 1 := by
  unfold receiving inReceive
  split
  · exact Bool.toNat_le _
  · omega

/-- A worker's step after which it is in no receive. -/
theorem receiving_moved (who : Worker) {worker : Worker} {thread : Option Thread} {service : Service}
    (others : ∀ other, other ≠ worker → idle service other = idle s.service other)
    (none : inReceive service worker thread = 0) :
    receiving who { s.put worker thread with service := service } ≤ receiving who s := by
  by_cases same : who = worker
  · subst same
    simp [receiving, put, none]
  · unfold receiving inReceive
    simp only [put, Function.update_of_ne same, others who same]
    exact le_rfl

theorem receive_uses (who : Worker) : Uses step Stopping (Event.receives who) (receiving who) := by
  intro s e t stopping receives stepped
  have internal : e.internal = true := by
    cases e with
    | work => rfl
    | _ => cases receives
  refine ⟨(stop_uses s e t stopping internal stepped).1, ?_⟩
  cases step_change stepped with
  | @work e stop service body worked =>
    cases e with
    | receiveTask | receiveRequest | receiveResult =>
      obtain rfl := of_decide_eq_true receives
      obtain ⟨shown, change⟩ : ∃ shown, Service.Change makeDefaultConfig s.service _ service shown :=
        ⟨_, Service.step_change worked⟩
      cases change with
      | _ loc =>
        simp only [worker] at body
        simp [receiving, inReceive, body, put, worker, idle, loc]
    | _ => cases receives
  | _ => cases receives

theorem receive_spares (who : Worker) :
    Spares step Stopping (fun e => e.internal = true) (receiving who) := by
  intro s e t stopping internal stepped
  refine ⟨(stop_uses s e t stopping internal stepped).1, ?_⟩
  cases step_change stepped with
  | already | start | stopped | requestStop => cases internal
  | startWorker starting => exact absurd starting (stopping.elsewhere _).1
  | tell telling => exact absurd telling (stopping.elsewhere _).2
  | join => exact receiving_moved who (fun _ _ => rfl) rfl
  | @check worker stop head =>
    obtain rfl := stopping.thread head
    exact receiving_moved who (fun _ _ => rfl) rfl
  | receiveNothing => exact receiving_moved who (fun _ _ => rfl) rfl
  | @work e stop service body worked =>
    refine receiving_moved who (fun other apart => step_idle worked apart) ?_
    cases free : idle service (worker e) <;> simp [inReceive, free]

/-- Once the workers were asked to stop, each of them receives at most one more message, and
    at most eighteen more steps are taken. Whatever their order, the stop can come to its end,
    and where no step is left, it has: the threads are gone and no message is in hand. -/
theorem requestStop_ends {uid : UInt64} {es : List Event} {left : List Worker} (ran : run step (new uid) es = some s)
    (joining : s.controller = .joining left) :
    (∀ fs t, (∀ e ∈ fs, e.internal = true) → run step s fs = some t →
      fs.length ≤ 18 ∧ (∀ who, fs.countP (Event.receives who) ≤ 1) ∧
      (Rests step Event.internal t →
        t.controller = .free ∧ t.running = false ∧ (∀ who, t.workers who = none) ∧ t.service.Idle)) ∧
    ∃ fs t, (∀ e ∈ fs, e.internal = true) ∧ run step s fs = some t ∧ Rests step Event.internal t := by
  have ok : s.Ok := invariant (fun _ _ _ ok stepped => step_ok ok stepped) (new_ok uid) ran
  have orderly := ok.orderly
  rw [joining] at orderly
  have stopping : s.Stopping := ⟨ok, orderly.1, .inr ⟨left, joining⟩⟩
  have few : s.left ≤ 18 := by
    have task := threadLeft_le s.service .task (s.workers .task)
    have control := threadLeft_le s.service .control (s.workers .control)
    have result := threadLeft_le s.service .result (s.workers .result)
    have joins : left.length ≤ 3 := (orderly.2.2.subperm fun who _ => Worker.mem_all who).length_le
    simp only [longest] at task control result
    simp only [Runtime.left, joining, Runtime.joins]
    omega
  constructor
  · intro fs t internal later
    obtain ⟨stopped, bound⟩ := length_le stop_uses stopping internal later
    refine ⟨by omega, fun who => ?_, fun rests => ?_⟩
    · have kinds : ∀ e ∈ fs, e.receives who = true ∨ e.internal = true := fun e member => .inr (internal e member)
      obtain ⟨_, messages⟩ := countP_le (receive_uses who) (receive_spares who) stopping kinds later
      have one := receiving_le who s
      omega
    · have free := (stop_rests_iff stopped).mp rests
      obtain ⟨gone, quiet⟩ := stopped.ok.quiet free stopped.down
      exact ⟨free, stopped.down, gone, quiet⟩
  · obtain ⟨fs, t, internal, later, _, rests⟩ := comes_to_rest stop_uses stopping
    exact ⟨fs, t, internal, later, rests⟩

/-- The service is stopped while the task worker receives. -/
def stoppedInReceive : List Event :=
  [.start, .startWorker, .startWorker, .startWorker, .check .task, .requestStop, .tell, .tell, .tell]

theorem stoppedInReceive_ends : ∃ s, run step (new 11) stoppedInReceive = some s ∧
    (∀ fs t, (∀ e ∈ fs, e.internal = true) → run step s fs = some t →
      fs.length ≤ 18 ∧ (∀ who, fs.countP (Event.receives who) ≤ 1) ∧
      (Rests step Event.internal t →
        t.controller = .free ∧ t.running = false ∧ (∀ who, t.workers who = none) ∧ t.service.Idle)) ∧
    ∃ fs t, (∀ e ∈ fs, e.internal = true) ∧ run step s fs = some t ∧ Rests step Event.internal t := by
  obtain ⟨s, ran, joining⟩ : ∃ s, run step (new 11) stoppedInReceive = some s ∧ s.controller = .joining Worker.all :=
    ⟨_, rfl, rfl⟩
  exact ⟨s, ran, requestStop_ends ran joining⟩

end Runtime
end Mqss.QOffload
