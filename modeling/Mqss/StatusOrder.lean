import Mqss.Lives

/-!
What successive queries report of one control task. The entry of a task leaves the
pending map before its record enters the completed one; a query that reads the
store in between is told that there is no such task.
-/

namespace Mqss.QOffload
open Mqss.Words Mqss.Machine Mqss.FiniteMap

/-! ### The order of reports -/

/-- What clients are told of a task, and the processing of its result. -/
inductive Report
  | waiting
  | decided (execution_status : Bool)
  | done (execution_status : Bool)
  | fetched (execution_status : Bool)
  | notFound
  deriving DecidableEq

def Report.ofStatus : TaskStatus → Report
  | .Waiting => .waiting
  | .Completed => .done true
  | .Cancelled => .done false
  | .NotFound => .notFound

/-- How far a task has come for its clients. -/
inductive Stage
  | waiting
  | decided (execution_status : Bool)
  | gone

/-- A task is waiting until its result is processed, then done as the result says until it
    is fetched, and not found from then on. -/
def Stage.next : Stage → Report → Option Stage
  | .waiting, .waiting => some .waiting
  | .waiting, .decided execution_status => some (.decided execution_status)
  | .decided execution_status, .done reported =>
    if reported = execution_status then some (.decided execution_status) else none
  | .decided execution_status, .fetched reported => if reported = execution_status then some .gone else none
  | .gone, .notFound => some .gone
  | _, _ => none

/-- Reports from the creation of a task on that only move forward. -/
def Orderly (reports : List Report) : Prop := ∃ stage, run Stage.next .waiting reports = some stage

theorem run_gone {reports : List Report} {stage : Stage} (ran : run Stage.next .gone reports = some stage) :
    reports = List.replicate reports.length .notFound := by
  induction reports with
  | nil => rfl
  | cons report reports ih =>
    obtain ⟨next, stepped, rest⟩ := run_cons.mp ran
    cases report <;> simp only [Stage.next, reduceCtorEq, Option.some.injEq] at stepped
    subst stepped
    rw [List.length_cons, List.replicate_succ, ← ih rest]

theorem run_decided {reports : List Report} {stage : Stage} {b : Bool}
    (ran : run Stage.next (.decided b) reports = some stage) :
    (∃ n, reports = List.replicate n (.done b)) ∨
      ∃ n k, reports = List.replicate n (.done b) ++ .fetched b :: List.replicate k .notFound := by
  induction reports with
  | nil => exact .inl ⟨0, rfl⟩
  | cons report reports ih =>
    obtain ⟨next, stepped, rest⟩ := run_cons.mp ran
    cases report with
    | done reported =>
      simp only [Stage.next, Option.ite_none_right_eq_some, Option.some.injEq] at stepped
      obtain ⟨rfl, rfl⟩ := stepped
      rcases ih rest with ⟨n, same⟩ | ⟨n, k, same⟩
      · exact .inl ⟨n + 1, by rw [same, List.replicate_succ]⟩
      · exact .inr ⟨n + 1, k, by rw [same, List.replicate_succ, List.cons_append]⟩
    | fetched reported =>
      simp only [Stage.next, Option.ite_none_right_eq_some, Option.some.injEq] at stepped
      obtain ⟨rfl, rfl⟩ := stepped
      exact .inr ⟨0, reports.length, by rw [← run_gone rest]; rfl⟩
    | _ => cases stepped

/-- Orderly reports: waiting, then done as the result says, then not found after a fetch. -/
theorem orderly_shape {reports : List Report} (orderly : Orderly reports) :
    ∃ n, reports = List.replicate n .waiting ∨ ∃ b m, reports = List.replicate n .waiting ++ .decided b ::
      List.replicate m (.done b) ∨ ∃ k, reports = List.replicate n .waiting ++ .decided b ::
        (List.replicate m (.done b) ++ .fetched b :: List.replicate k .notFound) := by
  obtain ⟨stage, ran⟩ := orderly
  induction reports with
  | nil => exact ⟨0, .inl rfl⟩
  | cons report reports ih =>
    obtain ⟨next, stepped, rest⟩ := run_cons.mp ran
    cases report with
    | waiting =>
      obtain rfl := Option.some.inj stepped
      obtain ⟨n, same | ⟨b, m, same | ⟨k, same⟩⟩⟩ := ih rest
      · exact ⟨n + 1, .inl (by rw [same, List.replicate_succ])⟩
      · exact ⟨n + 1, .inr ⟨b, m, .inl (by rw [same, List.replicate_succ, List.cons_append])⟩⟩
      · exact ⟨n + 1, .inr ⟨b, m, .inr ⟨k, by rw [same, List.replicate_succ, List.cons_append]⟩⟩⟩
    | decided b =>
      obtain rfl := Option.some.inj stepped
      rcases run_decided rest with ⟨m, same⟩ | ⟨m, k, same⟩
      · exact ⟨0, .inr ⟨b, m, .inl (by rw [same]; rfl)⟩⟩
      · exact ⟨0, .inr ⟨b, m, .inr ⟨k, by rw [same]; rfl⟩⟩⟩
    | _ => cases stepped

namespace Service

/-- What a step reports of the task with this id. -/
def reports (id : UInt64) : Seen → List Report
  | .reported task_id status => if task_id = id then [.ofStatus status] else []
  | .fetched _ task_id record =>
    if task_id = id then
      match record with
      | none => [.notFound]
      | some record => [.fetched record.execution_status]
    else []
  | .processed result (some entry) => if entry.forwarded_task_id = id then [.decided result.execution_status] else []
  | _ => []

/-- A query for the task reads the store: a status query, or one that takes the record. -/
def Reads (id : UInt64) (s : Service) (e : Event) : Prop :=
  (e = .executeRequest ∧ ∃ request, s.controlWorker = .received request ∧
    Control.command request = .GetTaskStatus id) ∨
  (e = .completeRequest ∧ ∃ request, s.controlWorker = .looked request id)

/-- No query for the task reads the store while the result worker holds its entry. -/
def Undisturbed (id : UInt64) (s : Service) (e : Event) : Prop :=
  Reads id s e → resultPlace id s.resultWorker = 0

variable {config : Config} {uid : UInt64} {s t : Service} {e : Event} {seen : List Seen} {n : Nat} {id : UInt64}

/-- A look that found the task not waiting. -/
def looks (id : UInt64) (s : Service) : Prop := ∃ request, s.controlWorker = .looked request id

/-- What a step does to a task and reports of it. -/
inductive Effect (id : UInt64) (s : Service) (e : Event) : List Deed → List Report → Prop
  | none (silent : ¬ Reads id s e) : Effect id s e [] []
  | enter (entry) (silent : ¬ Reads id s e) : Effect id s e [.enter entry] []
  | decide (result) (silent : ¬ Reads id s e) :
    Effect id s e [.correlate result] [.decided result.execution_status]
  | store (silent : ¬ Reads id s e) : Effect id s e [.store] []
  | send (silent : ¬ Reads id s e) : Effect id s e [.send] []
  | fetch (record) (found : s.tasks.completed_control_tasks.lookup id = some record) (reads : Reads id s e) :
    Effect id s e [.fetch] [.fetched record.execution_status]
  | miss (missing : s.tasks.completed_control_tasks.lookup id = none) (looked : looks id s) (reads : Reads id s e) :
    Effect id s e [] [.notFound]
  | report (reads : Reads id s e) : Effect id s e [] [.ofStatus (s.tasks.status id)]
  | refuse (waiting : s.tasks.status id = .Waiting) (silent : ¬ Reads id s e) : Effect id s e [] [.waiting]

theorem silent_of_event (execute : e ≠ .executeRequest) (complete : e ≠ .completeRequest) : ¬ Reads id s e := by
  rintro (⟨same, _⟩ | ⟨same, _⟩)
  · exact execute same
  · exact complete same

theorem silent_of_command {request : APIRequest} (loc : s.controlWorker = .received request)
    (other : Control.command request ≠ .GetTaskStatus id) : ¬ Reads id s .executeRequest := by
  rintro (⟨_, same, received, command⟩ | ⟨same, _⟩)
  · rw [loc] at received
    obtain rfl := ControlWorker.received.inj received
    exact other command
  · cases same

theorem silent_of_worker (other : ∀ request, s.controlWorker ≠ .looked request id) :
    ¬ Reads id s .completeRequest := by
  rintro (⟨same, _⟩ | ⟨_, request, looked⟩)
  · cases same
  · exact other request looked

theorem Change.effect (change : Change config s e t seen) (id : UInt64) :
    Effect id s e (seen.flatMap (deeds id)) (seen.flatMap (reports id)) := by
  cases change with
  | @registerTask request other loc =>
    have silent : ¬ Reads id s .registerTask := silent_of_event (by simp) (by simp)
    by_cases same : other = id
    · simpa [deeds, reports, Forward.directEntry, same] using Effect.enter _ silent
    · simpa [deeds, reports, Forward.directEntry, same] using Effect.none silent
  | @registerRequest request command other loc =>
    have silent : ¬ Reads id s .completeRequest := silent_of_worker (by simp [loc])
    by_cases same : other = id
    · simpa [deeds, reports, same] using Effect.enter _ silent
    · simpa [deeds, reports, same] using Effect.none silent
  | @take request other loc =>
    by_cases same : other = id
    · subst same
      have looked : looks other s := ⟨request, loc⟩
      have reads : Reads other s .completeRequest := .inr ⟨rfl, looked⟩
      cases found : s.tasks.completed_control_tasks.lookup other with
      | none => simpa [deeds, reports] using Effect.miss found looked reads
      | some record => simpa [deeds, reports] using Effect.fetch record found reads
    · have silent : ¬ Reads id s .completeRequest := silent_of_worker (by simp [loc, same])
      cases s.tasks.completed_control_tasks.lookup other <;> simpa [deeds, reports, same] using Effect.none silent
  | @status request task_id loc asks =>
    by_cases same : task_id = id
    · subst same
      simpa [deeds, reports] using Effect.report (.inl ⟨rfl, request, loc, asks⟩)
    · simpa [deeds, reports, same] using Effect.none (silent_of_command loc (by simpa [asks] using same))
  | @refuse request task_id loc asks waiting =>
    have silent : ¬ Reads id s .executeRequest :=
      silent_of_command loc (by rcases asks with asks | asks <;> simp [asks])
    by_cases same : task_id = id
    · subst same
      simpa [deeds, reports, Report.ofStatus] using Effect.refuse waiting silent
    · simpa [deeds, reports, same] using Effect.none silent
  | numberRequest loc creates => exact .none (silent_of_command loc (by simp [creates]))
  | look loc asks => exact .none (silent_of_command loc (by rcases asks with asks | asks <;> simp [asks]))
  | inform loc creates status => exact .none (silent_of_command loc (status id))
  | @correlate result entry loc found =>
    have silent : ¬ Reads id s .takePending := silent_of_event (by simp) (by simp)
    by_cases same : entry.forwarded_task_id = id
    · simpa [deeds, reports, same] using Effect.decide result silent
    · simpa [deeds, reports, same] using Effect.none silent
  | @store entry result loc control =>
    have silent : ¬ Reads id s .storeResult := silent_of_event (by simp) (by simp)
    by_cases same : entry.forwarded_task_id = id
    · simpa [deeds, reports, same] using Effect.store silent
    · simpa [deeds, reports, same] using Effect.none silent
  | @deliver entry result fault loc direct =>
    have silent : ¬ Reads id s (.sendResult fault) := silent_of_event (by simp) (by simp)
    by_cases same : entry.forwarded_task_id = id
    · simpa [deeds, reports, same] using Effect.send silent
    · simpa [deeds, reports, same] using Effect.none silent
  | _ => exact .none (silent_of_event (by simp) (by simp))

/-- The state of the service when a control task has come to a stage. -/
def At (id : UInt64) (s : Service) : Stage → Prop
  | .waiting => (∃ entry, s.life id = .waiting entry ∧ entry.kind = .ControlTask) ∧ ¬ looks id s
  | .decided b =>
    (∃ entry result, s.life id = .held entry result ∧ entry.kind = .ControlTask ∧ result.execution_status = b) ∨
      ∃ record, s.life id = .stored record ∧ record.execution_status = b
  | .gone => s.places id = 0

theorem life_of_nowhere (nowhere : s.places id = 0) : s.life id = .absent := by
  unfold places at nowhere
  exact life_absent (count_eq_zero.mp (by omega)) (count_eq_zero.mp (by omega)) (by omega)

theorem lookup_of_life (once : s.places id ≤ 1) (found : s.tasks.completed_control_tasks.lookup id = some record) :
    s.life id = .stored record := by
  have here := count_eq_one found
  unfold places at once
  exact life_stored (count_eq_zero.mp (by omega)) found

/-- Only a look that finds a task done leads to taking its record. -/
theorem Change.looks (change : Change config s e t seen) (looked : Service.looks id t) :
    Service.looks id s ∨ s.tasks.status id ≠ .Waiting := by
  obtain ⟨request, looked⟩ := looked
  cases change with
  | look loc asks done =>
    obtain ⟨_, rfl⟩ := ControlWorker.looked.inj looked
    exact .inr done
  | registerTask => exact .inl ⟨request, looked⟩
  | _ => first | cases looked | exact .inl ⟨request, looked⟩

/-- An id that was given out is not given out again before the ids come round. -/
theorem Ok.unnumbered (ok : Ok uid s n) (few : n + (s.numbers e).length ≤ 2 ^ 60) {k : Nat} (used : k < n)
    (key : id = stride uid k) (change : Change config s e t seen) : (s.numbers e).count id = 0 := by
  rcases change.counts.2 with ⟨none, _⟩ | ⟨one, _⟩
  · rw [none]
    rfl
  · rw [one] at few ⊢
    simp only [List.length_singleton] at few
    apply List.count_eq_zero_of_not_mem
    intro again
    rw [List.mem_singleton, ok.next, key] at again
    exact stride_apart used (by omega) again

theorem step_numbering (change : Change config s e t seen) (id : UInt64) :
    taskPlace id t.taskWorker + controlPlace id t.controlWorker ≤
      taskPlace id s.taskWorker + controlPlace id s.controlWorker + (s.numbers e).count id := by
  cases change with
  | numberTask loc =>
    by_cases same : id = s.forwarder.nextTaskId.1
    · simp only [taskPlace, numbers, loc, same, ↓reduceIte, List.count_singleton_self]
      omega
    · simp [taskPlace, loc, same]
  | numberRequest loc creates =>
    by_cases same : id = s.forwarder.nextTaskId.1
    · simp [controlPlace, numbers, loc, creates, Control.creates, same]
    · simp [controlPlace, loc, same]
  | _ =>
    rename_i loc
    simp only [loc, taskPlace, controlPlace]
    omega

theorem places_of_absent (absent : s.life id = .absent) :
    s.places id = taskPlace id s.taskWorker + controlPlace id s.controlWorker := by
  have spec := life_spec s id
  rw [absent] at spec
  obtain ⟨pending, completed, free⟩ := spec
  simp [places, count_eq_zero.mpr pending, count_eq_zero.mpr completed, free]

/-- While a task waits or is stored, the result worker does not hold its entry. -/
theorem free_of_waiting {entry : PendingTask} (once : s.places id ≤ 1) (waiting : s.life id = .waiting entry) :
    resultPlace id s.resultWorker = 0 := by
  have spec := life_spec s id
  rw [waiting] at spec
  have here := count_eq_one spec
  unfold places at once
  omega

theorem free_of_stored {record : CompletedControlTask} (once : s.places id ≤ 1) (stored : s.life id = .stored record) :
    resultPlace id s.resultWorker = 0 ∧ taskPlace id s.taskWorker + controlPlace id s.controlWorker = 0 := by
  have spec := life_spec s id
  rw [stored] at spec
  have here := count_eq_one spec.2
  unfold places at once
  omega

theorem place_of_held {entry : PendingTask} {result : QuantumResult} (held : s.life id = .held entry result) :
    resultPlace id s.resultWorker = 1 := by
  have spec := life_spec s id
  rw [held] at spec
  obtain ⟨_, _, worker, key⟩ := spec
  simp [worker, resultPlace, key]

/-- What a step does from a stage: an undisturbed one reports in order, a disturbed one does not. -/
def StepsFrom (id : UInt64) (s : Service) (e : Event) (t : Service) (told : List Report) (stage : Stage) : Prop :=
  (Undisturbed id s e → ∃ next, run Stage.next stage told = some next ∧ At id t next) ∧
    (¬ Undisturbed id s e → run Stage.next stage told = none)

/-- From a stage whose entry the result worker does not hold, every step reports in order. -/
theorem stepsFrom_free {told : List Report} {stage next : Stage} (free : resultPlace id s.resultWorker = 0)
    (reported : run Stage.next stage told = some next) (there : At id t next) : StepsFrom id s e t told stage :=
  ⟨fun _ => ⟨next, reported, there⟩, fun disturbed => absurd (fun _ => free) disturbed⟩

theorem step_waiting (ok : Ok uid s n) (change : Change config s e t seen) (here : At id s .waiting) :
    StepsFrom id s e t (seen.flatMap (reports id)) .waiting := by
  have lives := step_life ok.once ok.own change id
  have effect := change.effect id
  have status := @status_of_life s id
  have once := ok.once id
  obtain ⟨⟨entry, life, control⟩, unlooked⟩ := here
  rw [life] at lives status
  have free := free_of_waiting once life
  have still : ¬ looks id t := fun looked => (change.looks looked).elim unlooked fun done => done status
  generalize seen.flatMap (deeds id) = done at lives effect
  generalize seen.flatMap (reports id) = told at effect ⊢
  cases effect with
  | none => exact stepsFrom_free free rfl ⟨⟨entry, (Option.some.inj lives).symm, control⟩, still⟩
  | decide result => exact stepsFrom_free free rfl (.inl ⟨entry, result, (Option.some.inj lives).symm, control, rfl⟩)
  | report reads =>
    rw [status]
    exact stepsFrom_free free rfl ⟨⟨entry, (Option.some.inj lives).symm, control⟩, still⟩
  | refuse waiting => exact stepsFrom_free free rfl ⟨⟨entry, (Option.some.inj lives).symm, control⟩, still⟩
  | miss missing looked => exact absurd looked unlooked
  | fetch record found =>
    rw [lookup_of_life once found] at life
    cases life
  | enter => cases lives
  | store => cases lives
  | send => cases lives

theorem step_decided (ok : Ok uid s n) (few : n + (s.numbers e).length ≤ 2 ^ 60) {k : Nat} (used : k < n)
    (key : id = stride uid k) (change : Change config s e t seen) {b : Bool} (here : At id s (.decided b)) :
    StepsFrom id s e t (seen.flatMap (reports id)) (.decided b) := by
  have lives := step_life ok.once ok.own change id
  have effect := change.effect id
  have status := @status_of_life s id
  have once := ok.once id
  have fresh := ok.unnumbered few used key change
  have numbering := step_numbering change id
  generalize seen.flatMap (deeds id) = done at lives effect
  generalize seen.flatMap (reports id) = told at effect ⊢
  rcases here with ⟨entry, result, life, control, said⟩ | ⟨record, life, said⟩
  · rw [life] at lives status
    have holds := place_of_held life
    -- A silent step is undisturbed; one that reads the store here finds nothing.
    have disturbed : Reads id s e → ¬ Undisturbed id s e := fun reads quiet => by
      rw [quiet reads] at holds
      cases holds
    have silent : ∀ {next}, ¬ Reads id s e → run Stage.next (.decided b) told = some next → At id t next →
        StepsFrom id s e t told (.decided b) := fun silent reported there =>
      ⟨fun _ => ⟨_, reported, there⟩, fun noisy => absurd (fun reads => absurd reads silent) noisy⟩
    cases effect with
    | none quiet => exact silent quiet rfl (.inl ⟨entry, result, (Option.some.inj lives).symm, control, said⟩)
    | store quiet =>
      simp only [run, Life.step, control, ↓reduceIte, Option.bind_some, Option.some.injEq] at lives
      exact silent quiet rfl (.inr ⟨_, lives.symm, said⟩)
    | send quiet => simp [run, Life.step, control] at lives
    | miss missing looked reads => exact ⟨fun quiet => absurd quiet (disturbed reads), fun _ => rfl⟩
    | report reads =>
      rw [status]
      exact ⟨fun quiet => absurd quiet (disturbed reads), fun _ => rfl⟩
    | refuse waiting =>
      rw [status] at waiting
      cases waiting
    | fetch record found =>
      rw [lookup_of_life once found] at life
      cases life
    | enter => cases lives
    | decide => cases lives
  · rw [life] at lives status
    obtain ⟨free, unnumbered⟩ := free_of_stored once life
    have spec := life_spec s id
    rw [life] at spec
    obtain ⟨_, found⟩ := spec
    cases effect with
    | none => exact stepsFrom_free free rfl (.inr ⟨record, (Option.some.inj lives).symm, said⟩)
    | fetch other other_found =>
      obtain rfl := Option.some.inj (found.symm.trans other_found)
      have gone : t.life id = .absent := (Option.some.inj lives).symm
      have nowhere : t.places id = 0 := by
        rw [places_of_absent gone]
        omega
      have reported : run Stage.next (.decided b) [.fetched record.execution_status] = some .gone := by
        simp [run, Stage.next, said]
      exact stepsFrom_free free reported nowhere
    | miss missing =>
      rw [missing] at found
      cases found
    | report reads =>
      have reported : Report.ofStatus (s.tasks.status id) = .done b := by
        rw [status, Life.status, said]
        cases b <;> rfl
      rw [reported]
      have again : run Stage.next (.decided b) [.done b] = some (.decided b) := by simp [run, Stage.next]
      exact stepsFrom_free free again (.inr ⟨record, (Option.some.inj lives).symm, said⟩)
    | refuse waiting =>
      rw [status, Life.status] at waiting
      split at waiting <;> cases waiting
    | enter => cases lives
    | decide => cases lives
    | store => cases lives
    | send => cases lives

theorem step_gone (ok : Ok uid s n) (few : n + (s.numbers e).length ≤ 2 ^ 60) {k : Nat} (used : k < n)
    (key : id = stride uid k) (change : Change config s e t seen) (here : At id s .gone) :
    StepsFrom id s e t (seen.flatMap (reports id)) .gone := by
  have lives := step_life ok.once ok.own change id
  have effect := change.effect id
  have status := @status_of_life s id
  have life := life_of_nowhere here
  have nowhere : t.places id = 0 := by
    have moved := step_places ok.own change id
    rw [ok.unnumbered few used key change, show s.places id = 0 from here] at moved
    omega
  have free : resultPlace id s.resultWorker = 0 := by
    have none : s.places id = 0 := here
    unfold places at none
    omega
  generalize seen.flatMap (deeds id) = done at lives effect
  generalize seen.flatMap (reports id) = told at effect ⊢
  rw [life_of_nowhere nowhere, life] at lives
  rw [life] at status
  cases effect with
  | none => exact stepsFrom_free free rfl nowhere
  | miss => exact stepsFrom_free free rfl nowhere
  | report =>
    rw [status]
    exact stepsFrom_free free rfl nowhere
  | refuse waiting =>
    rw [status] at waiting
    cases waiting
  | fetch record found =>
    rw [lookup_of_life (ok.once id) found] at life
    cases life
  | enter => cases lives
  | decide => cases lives
  | store => cases lives
  | send => cases lives

theorem step_stage (ok : Ok uid s n) (few : n + (s.numbers e).length ≤ 2 ^ 60) {k : Nat} (used : k < n)
    (key : id = stride uid k) (change : Change config s e t seen) {stage : Stage} (here : At id s stage) :
    StepsFrom id s e t (seen.flatMap (reports id)) stage := by
  cases stage with
  | waiting => exact step_waiting ok change here
  | decided b => exact step_decided ok few used key change here
  | gone => exact step_gone ok few used key change here

/-- From every stage on, the reports of a run are in order if and only if no query is disturbed. -/
theorem run_stage {es : List Event} (ok : Ok uid s n) (few : n + s.numbered es ≤ 2 ^ 60) {k : Nat} (used : k < n)
    (key : id = stride uid k) {stage : Stage} (here : At id s stage) (ran : run step s es = some t) :
    (∃ last, run Stage.next stage ((history step (Service.seen config) s es).flatMap (reports id)) = some last) ↔
      Along step (Undisturbed id) s es := by
  induction es generalizing s n stage with
  | nil => simp [Along]
  | cons e es ih =>
    obtain ⟨next, stepped, rest⟩ := run_cons.mp ran
    rw [numbered_cons stepped, ← Nat.add_assoc] at few
    have change := @step_change config s next e stepped
    obtain ⟨orderly, disorderly⟩ := step_stage ok (by omega) used key change here
    rw [along_cons stepped, history_cons stepped, List.flatMap_append]
    simp only [run_append]
    by_cases quiet : Undisturbed id s e
    · obtain ⟨middle, reported, there⟩ := orderly quiet
      have tail := ih (step_ok ok (by omega) change) few (by omega) there rest
      rw [reported]
      simp only [Option.some.injEq, exists_eq_left', quiet, true_and]
      exact tail
    · rw [disorderly quiet]
      simp [quiet]

/-- The number of a control task's id is in use once its entry is in the store. -/
theorem registered_used {before : List Event} {p : Service} {request : APIRequest}
    {command : CreateQuantumTaskCommand} (ran : run step (new uid) before = some p)
    (loc : p.controlWorker = .numbered request command id) (few : (new uid).numbered before ≤ 2 ^ 60) :
    ∃ k < (new uid).numbered before, id = stride uid k := by
  have ok := run_ok (new_ok uid) (by omega) ran
  rw [Nat.zero_add] at ok
  apply ok.given id
  have here : controlPlace id p.controlWorker = 1 := by simp [loc, controlPlace]
  unfold places
  omega

/-- From the moment a control task with a fitting id is in the store, the reports of the id
    that its client is told are waiting, then done as its result says, then not found once
    its result was fetched, if and only if no query for the task reads the store while the
    result worker holds the task's entry. -/
theorem reports_orderly_iff {before es : List Event} {p s t : Service} {request : APIRequest}
    {command : CreateQuantumTaskCommand} (ran : run step (new uid) before = some p)
    (loc : p.controlWorker = .numbered request command id) (entered : step p .completeRequest = some s)
    (later : run step s es = some t) (few : (new uid).numbered before + s.numbered es ≤ 2 ^ 60) (fits : Fits id) :
    Orderly ((history step (Service.seen config) s es).flatMap (reports (widen (narrow id)))) ↔
      Along step (Undisturbed id) s es := by
  obtain ⟨k, used, key⟩ := registered_used ran loc (by omega)
  have ok := run_ok (new_ok uid) (by omega) ran
  rw [Nat.zero_add] at ok
  have change := @step_change config p s _ entered
  have none : p.numbers .completeRequest = [] := rfl
  have after := step_ok ok (by rw [none]; simp; omega) change
  rw [none] at after
  have stored : s = { p with
      tasks := p.tasks.addControlTask id, controlWorker := .registered request command id } := by
    simp only [step, loc] at entered
    exact (Option.some.inj entered).symm
  have waiting : At id s .waiting := by
    rw [stored]
    refine ⟨⟨⟨.ControlTask, id, id, ""⟩, life_waiting (Finmap.lookup_insert _), rfl⟩, ?_⟩
    rintro ⟨_, looked⟩
    cases looked
  rw [show widen (narrow id) = id from fits]
  exact run_stage after (by simpa using few) used key waiting later

/-- A control task up to its id, and the status query of its client. -/
def creation : List Event :=
  [.receiveRequest { typed_request := some (.create_task {}), response_queue := "client" }, .executeRequest]

def statusQuery : List Event :=
  [.receiveRequest { typed_request := some (.task_status 11), response_queue := "client" }, .executeRequest]

/-- The response is sent and the result comes back. -/
def resultTaken : List Event :=
  [.sendOutboundTask false, .sendResponse false, .receiveResult { task_id := 11, execution_status := true },
    .takePending]

theorem status_after_store_orderly : ∃ p s t, run step (new 11) creation = some p ∧
    step p .completeRequest = some s ∧ run step s (resultTaken ++ .storeResult :: statusQuery) = some t ∧
    Along step (Undisturbed 11) s (resultTaken ++ .storeResult :: statusQuery) := by
  refine ⟨_, _, _, rfl, rfl, rfl, ?_⟩
  exact (@reports_orderly_iff makeDefaultConfig 11 11 creation _ _ _ _ _ _ rfl rfl rfl rfl (by decide) (by decide)).mp
    ⟨.decided true, rfl⟩

/-- A status query between the two accesses of the result worker finds no task. -/
theorem status_before_store_not_found : ∃ p s t, run step (new 11) creation = some p ∧
    step p .completeRequest = some s ∧ run step s (resultTaken ++ statusQuery) = some t ∧
    (history step (Service.seen makeDefaultConfig) s (resultTaken ++ statusQuery)).flatMap (reports 11) =
      [.decided true, .notFound] ∧
    ¬ Orderly ((history step (Service.seen makeDefaultConfig) s (resultTaken ++ statusQuery)).flatMap (reports 11)) := by
  refine ⟨_, _, _, rfl, rfl, rfl, rfl, ?_⟩
  rintro ⟨stage, orderly⟩
  cases orderly

end Service
end Mqss.QOffload
