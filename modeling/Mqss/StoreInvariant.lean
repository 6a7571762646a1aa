import Mqss.Lives

/-!
What the two tables of the store represent. Both are written with insert-or-assign,
and only the freshness of the ids keeps one write from hiding another. An id is
registered at most once, so the deeds done to it are known from where it is now.
-/

namespace Mqss.QOffload
open Mqss.Words Mqss.Machine Mqss.FiniteMap

/-! ### A task that is registered at most once -/

/-- What was done to a task that was registered at most once. -/
inductive Life.Course : List Deed → Life → Prop
  | unborn : Course [] .absent
  | waiting {entry} : Course [.enter entry] (.waiting entry)
  | held {entry result} : Course [.enter entry, .correlate result] (.held entry result)
  | stored {entry result} (control : entry.kind = .ControlTask) :
      Course [.enter entry, .correlate result, .store] (.stored (Forward.completedTask entry result))
  | sent {entry result} (direct : entry.kind = .DirectTask) :
      Course [.enter entry, .correlate result, .send] .absent
  | fetched {entry result} (control : entry.kind = .ControlTask) :
      Course [.enter entry, .correlate result, .store, .fetch] .absent

def Deed.enters : Deed → Bool
  | .enter _ => true
  | _ => false

/-- A course goes on with every deed but a second registration. -/
theorem Life.Course.step {deeds : List Deed} {before after : Life} {deed : Deed} (course : Course deeds before)
    (moves : before.step deed = some after) (once : (deeds ++ [deed]).countP Deed.enters ≤ 1) :
    Course (deeds ++ [deed]) after := by
  cases course with
  | unborn =>
    cases deed with
    | enter entry =>
      obtain rfl := Option.some.inj moves
      exact .waiting
    | _ => cases moves
  | waiting =>
    cases deed with
    | correlate result =>
      obtain rfl := Option.some.inj moves
      exact .held
    | _ => cases moves
  | held =>
    cases deed with
    | store =>
      simp only [Life.step] at moves
      split at moves <;> cases moves
      rename_i control
      exact .stored control
    | send =>
      simp only [Life.step] at moves
      split at moves <;> cases moves
      rename_i direct
      exact .sent direct
    | _ => cases moves
  | stored control =>
    cases deed with
    | fetch =>
      obtain rfl := Option.some.inj moves
      exact .fetched control
    | _ => cases moves
  | sent | fetched =>
    cases deed with
    | enter entry => simp [List.countP_cons, Deed.enters] at once
    | _ => cases moves

theorem course_of_run {deeds : List Deed} {life : Life} (ran : run Life.step .absent deeds = some life)
    (once : deeds.countP Deed.enters ≤ 1) : Life.Course deeds life := by
  induction deeds using List.reverseRecOn generalizing life with
  | nil =>
    obtain rfl := Option.some.inj ran
    exact .unborn
  | append_singleton deeds deed ih =>
    obtain ⟨before, earlier, last⟩ := run_append.mp ran
    have moves : before.step deed = some life := by simpa [run] using last
    refine (ih earlier ?_).step moves once
    rw [List.countP_append] at once
    omega

namespace Service

/-! ### Registrations and matched results -/

/-- The id that is registered in a step. -/
def registered : Seen → List UInt64
  | .entered entry => [entry.forwarded_task_id]
  | _ => []

/-- The id whose pending entry is taken for a result. -/
def matched : Seen → List UInt64
  | .processed _ (some entry) => [entry.forwarded_task_id]
  | _ => []

/-- The registrations of an id and the workers that are about to register it. -/
def claims (trace : List Seen) (s : Service) (id : UInt64) : Nat :=
  (trace.flatMap registered).count id + taskPlace id s.taskWorker + controlPlace id s.controlWorker

variable {config : Config} {uid : UInt64} {s t : Service} {e : Event} {seen trace : List Seen} {n : Nat}

/-- An id is claimed when it is given out. -/
theorem step_claims (change : Change config s e t seen) (id : UInt64) :
    claims (trace ++ seen) t id ≤ claims trace s id + (s.numbers e).count id := by
  have one : ∀ other, List.count id [other] = if id = other then 1 else 0 := by
    intro other
    by_cases same : id = other
    · simp [same]
    · simp [same, Ne.symm same]
  simp only [claims, List.flatMap_append, List.count_append]
  cases change with
  | numberTask loc =>
    simp only [numbers, loc, taskPlace, one, List.flatMap_nil, List.count_nil]
    omega
  | numberRequest loc creates =>
    simp only [numbers, loc, controlPlace, creates, Control.creates, ↓reduceIte, one, List.flatMap_nil, List.count_nil]
    omega
  | registerTask loc =>
    simp only [loc, taskPlace, List.flatMap_cons, List.flatMap_nil, registered, Forward.directEntry, List.append_nil, one]
    omega
  | registerRequest loc =>
    simp only [loc, controlPlace, List.flatMap_cons, List.flatMap_nil, registered, List.append_nil, one]
    omega
  | _ =>
    rename_i loc
    simp only [loc, taskPlace, controlPlace, List.flatMap_cons, List.flatMap_nil, registered, List.append_nil,
      List.count_nil]
    omega

/-- The tasks of control requests are registered under their own id, to be answered nowhere. -/
def OwnEntries (trace : List Seen) : Prop :=
  ∀ entry, .entered entry ∈ trace → entry.kind = .ControlTask →
    entry = ⟨.ControlTask, entry.forwarded_task_id, entry.forwarded_task_id, ""⟩

theorem step_ownEntries (own : OwnEntries trace) (change : Change config s e t seen) : OwnEntries (trace ++ seen) := by
  intro entry member control
  rcases List.mem_append.mp member with old | new
  · exact own entry old control
  · cases change with
    | registerTask loc =>
      obtain rfl := Seen.entered.inj (List.mem_singleton.mp new)
      cases control
    | registerRequest loc =>
      obtain rfl := Seen.entered.inj (List.mem_singleton.mp new)
      rfl
    | _ => simp at new

/-- A registration finds its id in neither table. -/
theorem registers_fresh (ok : Ok uid s n) (change : Change config s e t seen) {entry : PendingTask}
    (member : .entered entry ∈ seen) : entry.forwarded_task_id ∉ s.tasks.pending ∧
      entry.forwarded_task_id ∉ s.tasks.completed_control_tasks := by
  have fresh : ∀ {id}, 0 < taskPlace id s.taskWorker + controlPlace id s.controlWorker →
      id ∉ s.tasks.pending ∧ id ∉ s.tasks.completed_control_tasks := by
    intro id claimed
    have once := ok.once id
    unfold places at once
    exact ⟨Finmap.lookup_eq_none.mp (count_eq_zero.mp (by omega)), Finmap.lookup_eq_none.mp (count_eq_zero.mp (by omega))⟩
  cases change with
  | registerTask loc =>
    obtain rfl := Seen.entered.inj (List.mem_singleton.mp member)
    exact fresh (by simp [loc, taskPlace, Forward.directEntry])
  | registerRequest loc =>
    obtain rfl := Seen.entered.inj (List.mem_singleton.mp member)
    exact fresh (by simp [loc, controlPlace])
  | _ => simp at member

/-- A result is stored for a control task, under an id that has no record. -/
theorem stores_fresh (ok : Ok uid s n) (change : Change config s e t seen) {entry : PendingTask}
    {result : QuantumResult} (member : .stored entry result ∈ seen) : entry.kind = .ControlTask ∧
      entry.original_task_id ∉ s.tasks.completed_control_tasks := by
  cases change with
  | store loc control =>
    obtain ⟨rfl, rfl⟩ := Seen.stored.inj (List.mem_singleton.mp member)
    refine ⟨control, ?_⟩
    have once := ok.once entry.forwarded_task_id
    have here : resultPlace entry.forwarded_task_id s.resultWorker = 1 := by simp [loc, resultPlace]
    unfold places at once
    rw [ok.own.held entry result loc control]
    exact Finmap.lookup_eq_none.mp (count_eq_zero.mp (by omega))
  | _ => simp at member

theorem pendingCount_insert {tasks : TaskStore} {entry : PendingTask} (fresh : entry.forwarded_task_id ∉ tasks.pending) :
    (tasks.addDirectTask entry).pendingCount = tasks.pendingCount + 1 := by
  have keys : (tasks.addDirectTask entry).pending.keys = insert entry.forwarded_task_id tasks.pending.keys := by
    ext id
    simp [Finmap.mem_keys]
  rw [TaskStore.pendingCount, keys, Finset.card_insert_of_notMem (by simpa [Finmap.mem_keys] using fresh),
    TaskStore.pendingCount]

theorem pendingCount_erase {tasks : TaskStore} {id : UInt64} (here : id ∈ tasks.pending) :
    ({ tasks with pending := tasks.pending.erase id } : TaskStore).pendingCount + 1 = tasks.pendingCount := by
  have keys : (tasks.pending.erase id).keys = tasks.pending.keys.erase id := by
    ext other
    simp [Finmap.mem_keys]
  simp only [TaskStore.pendingCount, keys]
  exact Finset.card_erase_add_one (by simpa [Finmap.mem_keys] using here)

/-- The pending entries are the registrations whose result was not matched yet. -/
def Counted (trace : List Seen) (s : Service) : Prop :=
  s.tasks.pendingCount + (trace.flatMap matched).length = (trace.flatMap registered).length

theorem step_counted (counted : Counted trace s) (ok : Ok uid s n) (change : Change config s e t seen) :
    Counted (trace ++ seen) t := by
  unfold Counted at counted ⊢
  simp only [List.flatMap_append, List.length_append]
  have fresh : ∀ entry, .entered entry ∈ seen → entry.forwarded_task_id ∉ s.tasks.pending :=
    fun entry member => (registers_fresh ok change member).1
  cases change with
  | registerTask loc =>
    rw [pendingCount_insert (fresh _ (by simp))]
    simp only [List.flatMap_cons, List.flatMap_nil, registered, matched, List.length_append, List.length_cons, List.length_nil]
    omega
  | registerRequest loc => 
    show (s.tasks.addDirectTask _).pendingCount + _ = _
    rw [pendingCount_insert (fresh _ (by simp))]
    simp only [List.flatMap_cons, List.flatMap_nil, registered, matched, List.length_append, List.length_cons, List.length_nil]
    omega
  | correlate loc found =>
    have fewer := pendingCount_erase (Finmap.mem_iff.mpr ⟨_, found⟩)
    simp only [List.flatMap_cons, List.flatMap_nil, registered, matched, List.length_append, List.length_cons, List.length_nil]
    omega
  | take loc =>
    rw [takeCompleted_erases]
    exact counted
  | _ => exact counted

/-- The deeds of an id register it as often as the trace does. -/
theorem enters_deeds (trace : List Seen) (id : UInt64) :
    (trace.flatMap (deeds id)).countP Deed.enters = (trace.flatMap registered).count id := by
  induction trace with
  | nil => rfl
  | cons seen trace ih =>
    rw [List.flatMap_cons, List.flatMap_cons, List.countP_append, List.count_append, ih]
    congr 1
    unfold deeds registered
    split <;> first | rfl | (split <;> simp_all [List.countP_cons, Deed.enters])

/-- What the tables of a state represent, after a run that was seen as the trace. -/
structure Represents (trace : List Seen) (s : Service) : Prop where
  filed : ∀ id entry, s.tasks.pending.lookup id = some entry → entry.forwarded_task_id = id
  control : ∀ id entry, s.tasks.pending.lookup id = some entry → entry.kind = .ControlTask →
    entry.original_task_id = id ∧ entry.original_result_destination = ""
  completed : ∀ id record, s.tasks.completed_control_tasks.lookup id = some record → record.task_id = id ∧
    ∃ result, trace.flatMap (deeds id) = [.enter ⟨.ControlTask, id, id, ""⟩, .correlate result, .store]
  disjoint : ∀ id ∈ s.tasks.pending, id ∉ s.tasks.completed_control_tasks
  counted : s.tasks.pendingCount + (trace.flatMap matched).length = (trace.flatMap registered).length
  registers : ∀ config e t entry, step s e = some t → .entered entry ∈ Service.seen config s e →
    entry.forwarded_task_id ∉ s.tasks.pending ∧ entry.forwarded_task_id ∉ s.tasks.completed_control_tasks
  stores : ∀ config e t entry result, step s e = some t → .stored entry result ∈ Service.seen config s e →
    entry.kind = .ControlTask ∧ entry.original_task_id ∉ s.tasks.completed_control_tasks

/-- What every step keeps of the ids, the trace and the tables. -/
structure Traces (uid : UInt64) (n : Nat) (trace : List Seen) (s : Service) : Prop where
  ok : Ok uid s n
  claims : Single uid n (claims trace s)
  lives : ∀ id, run Life.step .absent (trace.flatMap (deeds id)) = some (s.life id)
  own : OwnEntries trace
  counted : Counted trace s

theorem new_traces (uid : UInt64) : Traces uid 0 [] (new uid) := by
  have unclaimed : ∀ id, claims [] (new uid) id = 0 := fun id => rfl
  refine ⟨new_ok uid, ⟨fun id => ?_, fun id here => ?_⟩, fun id => rfl, ?_, rfl⟩
  · rw [unclaimed]
    omega
  · rw [unclaimed] at here
    omega
  · intro entry member
    cases member

theorem step_traces (traces : Traces uid n trace s) (few : n + (s.numbers e).length ≤ 2 ^ 60)
    (change : Change config s e t seen) : Traces uid (n + (s.numbers e).length) (trace ++ seen) t := by
  refine ⟨step_ok traces.ok few change, traces.claims.step traces.ok few change (step_claims change), fun id => ?_,
    step_ownEntries traces.own change, step_counted traces.counted traces.ok change⟩
  rw [List.flatMap_append, run_append]
  exact ⟨s.life id, traces.lives id, step_life traces.ok.once traces.ok.own change id⟩

theorem Traces.course (traces : Traces uid n trace s) (id : UInt64) :
    Life.Course (trace.flatMap (deeds id)) (s.life id) := by
  apply course_of_run (traces.lives id)
  rw [enters_deeds]
  have once := traces.claims.once id
  unfold Service.claims at once
  omega

/-- The first deed of an id registers an entry of the trace under it. -/
theorem entered_of_deeds {id : UInt64} {entry : PendingTask} (done : .enter entry ∈ trace.flatMap (deeds id)) :
    .entered entry ∈ trace ∧ entry.forwarded_task_id = id := by
  obtain ⟨seen, member, deed⟩ := List.mem_flatMap.mp done
  unfold deeds at deed
  split at deed
  case h_1 other =>
    split at deed
    · rename_i key
      obtain rfl := Deed.enter.inj (List.mem_singleton.mp deed)
      exact ⟨member, key⟩
    · cases deed
  all_goals first | cases deed | (split at deed <;> simp at deed)

/-- A pending entry was registered. -/
theorem Traces.pending (traces : Traces uid n trace s) {id : UInt64} {entry : PendingTask}
    (found : s.tasks.pending.lookup id = some entry) : .entered entry ∈ trace := by
  have course := traces.course id
  rw [life_waiting found] at course
  generalize done : trace.flatMap (deeds id) = deeds at course
  cases course with
  | waiting => exact (entered_of_deeds (by rw [done]; exact List.mem_singleton_self _)).1

/-- A completed entry is of a control task whose pending entry was taken once. -/
theorem Traces.completed (traces : Traces uid n trace s) {id : UInt64} {record : CompletedControlTask}
    (found : s.tasks.completed_control_tasks.lookup id = some record) :
    ∃ result, trace.flatMap (deeds id) = [.enter ⟨.ControlTask, id, id, ""⟩, .correlate result, .store] := by
  have once := traces.ok.once id
  unfold places at once
  have here := count_eq_one found
  have idle : s.tasks.pending.lookup id = none := count_eq_zero.mp (by omega)
  have course := traces.course id
  rw [life_stored idle found] at course
  generalize done : trace.flatMap (deeds id) = deeds at course
  cases course with
  | @stored entry result control =>
    obtain ⟨member, rfl⟩ := entered_of_deeds (by rw [done]; exact List.mem_cons_self)
    refine ⟨result, ?_⟩
    rw [← traces.own entry member control]

theorem Traces.represents (traces : Traces uid n trace s) : s.Represents trace := by
  have own := traces.ok.own
  refine ⟨?_, ?_, ?_, ?_, traces.counted, ?_, ?_⟩
  · intro id entry found
    exact (own.pending id entry found).1
  · intro id entry found control
    have shape := traces.own entry (traces.pending found) control
    have key := (own.pending id entry found).1
    rw [shape]
    exact ⟨key, rfl⟩
  · intro id record found
    exact ⟨own.completed id record found, traces.completed found⟩
  · intro id here completed
    have once := traces.ok.once id
    unfold places at once
    obtain ⟨entry, found⟩ := Finmap.mem_iff.mp here
    obtain ⟨record, stored⟩ := Finmap.mem_iff.mp completed
    have one := count_eq_one found
    have other := count_eq_one stored
    omega
  · intro config e t entry stepped member
    exact registers_fresh traces.ok (step_change stepped) member
  · intro config e t entry result stepped member
    exact stores_fresh traces.ok (step_change stepped) member

/-- As long as the ids last, the tables represent the registered tasks in every state of
    every interleaving of the workers. -/
theorem store_represents_tasks (config : Config) {es : List Event} (few : (new uid).numbered es ≤ 2 ^ 60)
    (ran : run step (new uid) es = some s) : s.Represents (history step (Service.seen config) (new uid) es) := by
  have keeps : ∀ n trace s e t, Traces uid n trace s → n + (s.numbers e).length ≤ 2 ^ 60 →
      Change config s e t (Service.seen config s e) →
      Traces uid (n + (s.numbers e).length) (trace ++ Service.seen config s e) t :=
    fun _ _ _ _ _ traces few change => step_traces traces few change
  have traces := run_traced keeps (new_traces uid) (by omega) ran
  exact traces.represents

/-- A control task is created and the result of QRM is processed before its client asks. -/
def createdAndCompleted : List Event :=
  [.receiveRequest { typed_request := some (.create_task { shots := 1 }) }, .executeRequest, .completeRequest,
    .sendOutboundTask false, .sendResponse false, .receiveResult { task_id := 7, execution_status := true },
    .takePending, .storeResult]

theorem createdAndCompleted_represented : ∃ s, run step (new 7) createdAndCompleted = some s ∧
    s.Represents (history step (Service.seen makeDefaultConfig) (new 7) createdAndCompleted) := by
  have enabled : (run step (new 7) createdAndCompleted).isSome = true := by decide
  have ran := Option.eq_some_of_isSome enabled
  exact ⟨_, ran, store_represents_tasks makeDefaultConfig (by decide) ran⟩

end Service
end Mqss.QOffload
