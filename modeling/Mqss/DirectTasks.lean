import Mqss.Relay

/-!
Direct tasks: what QRM is sent in place of a client's request, and what becomes
of the first and of every later result with that task's id.
-/

namespace Mqss.QOffload
open Mqss.Words Mqss.Machine

namespace Relay

/-- The task that `forwardDirectTask` returns. -/
def forwarded (config : Config) (s : Relay) (request : QuantumTask) : QuantumTask :=
  (s.forwarder.forwardDirectTask request s.tasks config).1

/-- The ids of the tasks that a call sends to QRM. -/
def submittedIds (config : Config) (s : Relay) (op : Op) : List Int32 :=
  (submitted config s op).map QuantumTask.task_id

/-- The result that a direct client is owed: the client's id and destination are put back. -/
def returnedTo (request : QuantumTask) (result : QuantumResult) : ResultProcessingOutcome where
  kind := .DirectResult
  direct_result := some { result with task_id := request.task_id, destination := request.result_destination }
  direct_result_destination := request.result_destination

/-- The field of every entry's key was submitted. -/
def Known (s : Relay) (fields : List Int32) : Prop :=
  ∀ id, id ∈ s.tasks.pending → narrow id ∈ fields

theorem step_known {config : Config} {s t : Relay} {op : Op} {fields : List Int32} (known : s.Known fields)
    (stepped : step config s op = some t) :
    t.Known (fields ++ submittedIds config s op) := by
  intro id member
  cases step_change stepped with
  | entered entry submits sent key =>
    have fieldSent : submittedIds config s op = [narrow s.forwarder.nextTaskId.1] := sent
    rw [fieldSent]
    rcases Finmap.mem_insert.mp member with same | old
    · rw [same, key]
      exact List.mem_append_right _ (List.mem_singleton.mpr rfl)
    · exact List.mem_append_left _ (known id old)
  | processed result =>
    obtain ⟨entry, found⟩ := Finmap.mem_iff.mp member
    have waited := (processResult_waited found).2
    exact List.mem_append_left _ (known id (Finmap.mem_iff.mpr ⟨entry, waited⟩))
  | answered => exact List.mem_append_left _ (known id member)

/-- Results with an id that was never submitted are unknown. -/
theorem run_known {config : Config} {uid : UInt64} {t : Relay} {ops : List Op}
    (ran : run (step config) (.new uid) ops = some t) :
    t.Known (history (step config) (submittedIds config) (.new uid) ops) := by
  have start : (Relay.new uid).Known [] := by
    intro id member
    cases member
  have keeps : ∀ fields s op next, s.Known fields → True → step config s op = some next →
      next.Known (fields ++ submittedIds config s op) :=
    fun fields s op next known _ stepped => step_known known stepped
  exact history_invariant keeps start (along_of_forall (fun _ _ => trivial) _ _) ran

theorem forward_lookup (config : Config) (s : Relay) (request : QuantumTask) :
    (s.forwardDirectTask config request).tasks.pending.lookup s.forwarder.nextTaskId.1 =
      some (Forward.directEntry request s.forwarder.nextTaskId.1) :=
  Finmap.lookup_insert _

theorem processResult_unknown {t : Relay} {result : QuantumResult}
    (missing : t.tasks.pending.lookup (widen result.task_id) = none) : t.processResult result = ({}, t) := by
  rw [processResult, Forward.processResult_unknown missing]

/-- A result that finds the entry of a direct request is returned to its client. -/
theorem processResult_returned {t : Relay} {request : QuantumTask} {result : QuantumResult} {id : UInt64}
    (found : t.tasks.pending.lookup (widen result.task_id) = some (Forward.directEntry request id)) :
    (t.processResult result).1 = returnedTo request result ∧
      (t.processResult result).2.tasks.pending.lookup (widen result.task_id) = none := by
  have after : (t.processResult result).2.tasks.pending.lookup (widen result.task_id) = _ :=
    Forward.processResult_lookup result t.tasks (widen result.task_id)
  refine ⟨?_, by simpa using after⟩
  show (Forward.processResult result t.tasks).1 = _
  rw [Forward.processResult_direct found rfl]
  simp [Forward.remapped, Forward.directEntry, returnedTo]

/-- A direct request is forwarded unchanged but for its id, destination and priority. As
    long as its id fits its field and the ids do not come round, the first result with
    that id is returned to its client, and every later one is unknown. Results with an
    id that was never submitted are always unknown. -/
theorem direct_tasks_are_transparent {uid : UInt64} {config : Config} {before : List Op} {p : Relay}
    (ran : run (step config) (.new uid) before = some p) (r : QuantumTask) :
    forwarded config p r =
      { r with
        task_id := (forwarded config p r).task_id
        result_destination := config.result
        priority := if config.hpc_node then 1 else r.priority } ∧
    (Fits p.forwarder.nextTaskId.1 →
      ∀ between t, run (step config) (p.forwardDirectTask config r) between = some t →
      (∀ op ∈ between, ¬ op.answers (forwarded config p r).task_id) → submissions between < 2 ^ 60 →
      ∀ s : QuantumResult, s.task_id = (forwarded config p r).task_id →
        (t.processResult s).1 = returnedTo r s ∧
        ∀ after u, run (step config) (t.processResult s).2 after = some u →
          submissions between + submissions after < 2 ^ 60 →
          ∀ s' : QuantumResult, s'.task_id = s.task_id → u.processResult s' = ({}, u)) ∧
    ∀ s : QuantumResult, s.task_id ∉ history (step config) (submittedIds config) (.new uid) before →
      p.processResult s = ({}, p) := by
  have counted := run_counted (new_counted uid) ran
  rw [Nat.zero_add] at counted
  have id := counted.next
  refine ⟨rfl, ?_, ?_⟩
  · intro fits between t waited first few s same
    have field : s.task_id = narrow (stride uid (submissions before)) := by
      rw [same, ← id]
      rfl
    have key : widen s.task_id = stride uid (submissions before) := by
      rw [field, ← id]
      exact fits
    have next : Counted uid (p.forwardDirectTask config r) (submissions before + 1) :=
      step_counted counted (rfl : step config p (.forwardDirectTask r) = _)
    have entered := forward_lookup config p r
    rw [id] at entered
    have found := run_keeps_lookup next (Nat.lt_succ_self _) (by omega)
      (.inr (by rw [← field, same]; exact first)) entered waited
    rw [← key] at found
    obtain ⟨returned, gone⟩ := processResult_returned found
    refine ⟨returned, ?_⟩
    intro after u later still s' again
    have done : Counted uid (t.processResult s).2 (submissions before + 1 + submissions between) :=
      step_counted (run_counted next waited) (rfl : step config t (.processResult s) = _)
    rw [key] at gone
    have absent := run_keeps_lookup done (by omega) (by omega) (.inl rfl) gone later
    rw [← key, ← again] at absent
    exact processResult_unknown absent
  · intro s never
    have known := run_known ran
    have absent : p.tasks.pending.lookup (widen s.task_id) = none := by
      rw [Finmap.lookup_eq_none]
      intro member
      have submitted := known _ member
      rw [narrow_widen] at submitted
      exact never submitted
    exact processResult_unknown absent

def sanityRequest : QuantumTask :=
  { task_id := 1234, n_qbits := 5, n_shots := 1024, result_destination := "client.results", priority := 7 }

/-- A direct request of another client, and a control task. -/
def otherClients : List Op := [.forwardDirectTask { task_id := 7, result_destination := "other" }, .createControlTask {}]

/-- Their results come back, and the other client sends a second request. -/
def meanwhile : List Op :=
  [.processResult { task_id := 10011, execution_status := true }, .forwardDirectTask { result_destination := "other" },
    .processResult { task_id := 11 }]

theorem sanityRequest_returned : ∃ p t,
    run (step makeDefaultConfig) (.new 11) otherClients = some p ∧
    (forwarded makeDefaultConfig p sanityRequest).task_id = 20011 ∧
    run (step makeDefaultConfig) (p.forwardDirectTask makeDefaultConfig sanityRequest) meanwhile = some t ∧
    (t.processResult { task_id := 20011 }).1 = returnedTo sanityRequest { task_id := 20011 } ∧
    (∀ u, run (step makeDefaultConfig) (t.processResult { task_id := 20011 }).2 meanwhile = some u →
      u.processResult { task_id := 20011 } = ({}, u)) ∧
    p.processResult { task_id := 20011 } = ({}, p) := by
  obtain ⟨p, before, fits, id⟩ : ∃ p, run (step makeDefaultConfig) (.new 11) otherClients = some p ∧
      Fits p.forwarder.nextTaskId.1 ∧ (forwarded makeDefaultConfig p sanityRequest).task_id = 20011 :=
    ⟨_, rfl, by decide, by decide⟩
  obtain ⟨t, between⟩ : ∃ t, run (step makeDefaultConfig) (p.forwardDirectTask makeDefaultConfig sanityRequest)
    meanwhile = some t := ⟨_, rfl⟩
  obtain ⟨_, returned, unknown⟩ := direct_tasks_are_transparent before sanityRequest
  obtain ⟨first, later⟩ := returned fits meanwhile t between (by simp [id, meanwhile, Op.answers]) (by decide)
    { task_id := 20011 } id.symm
  refine ⟨p, t, before, id, between, first, fun u after => later meanwhile u after (by decide) { task_id := 20011 } rfl, ?_⟩
  exact unknown _ (by decide)

/-- An instance whose first id is 2^31 does not know the result of its first task. -/
theorem large_uid_task_unknown :
    (forwarded makeDefaultConfig (.new 2147483648) sanityRequest).task_id = -2147483648 ∧
      (((Relay.new 2147483648).forwardDirectTask makeDefaultConfig sanityRequest).processResult
        { task_id := -2147483648 }).1 = {} ∧
      returnedTo sanityRequest { task_id := -2147483648 } ≠ {} := by
  refine ⟨by decide, by decide, by decide⟩

end Relay
end Mqss.QOffload
