import Mqss.JobHandle

/-!
The results of a control task on their way to its client. Counts are copied three
times, entry by entry: into the store, and into the response of one of the two
protocols. Nothing between a result and the query for it alters what was stored.
-/

namespace Mqss
open Mqss.FiniteMap

theorem Struct.find_cons (field : String × Value) (data : Struct) (key : String) :
    Struct.find (field :: data) key = if field.1 = key then some field.2 else Struct.find data key := by
  unfold Struct.find
  by_cases here : field.1 = key
  · simp [here]
  · rw [List.find?_cons_of_neg (by simpa using here), if_neg here]

theorem Struct.find_replaced (data : Struct) (key other : String) (value : Value) :
    Struct.find (data.map (fun field => if field.1 == key then (key, value) else field)) other =
      if other = key then (if data.any (fun field => field.1 == key) then some value else none)
      else data.find other := by
  induction data with
  | nil => simp [Struct.find]
  | cons field data ih =>
    rw [List.map_cons, Struct.find_cons, Struct.find_cons, ih, List.any_cons]
    by_cases here : field.1 = key
    · by_cases same : other = key
      · simp [here, same]
      · simp [here, same, Ne.symm same]
    · have off : (field.1 == key) = false := beq_eq_false_iff_ne.mpr here
      rw [off, Bool.false_or]
      by_cases same : other = key
      · simp [here, same]
      · simp [same]

/-- The fields of a structure after an assignment. -/
theorem Struct.find_set (data : Struct) (key other : String) (value : Value) :
    (data.set key value).find other = if other = key then some value else data.find other := by
  unfold Struct.set
  split
  · rename_i there
    rw [Struct.find_replaced, if_pos there]
  · rename_i absent
    induction data with
    | nil => simp [Struct.find_cons, eq_comm]
    | cons field data ih =>
      rw [List.any_cons, Bool.or_eq_true, not_or] at absent
      have apart : field.1 ≠ key := by simpa using absent.1
      rw [List.cons_append, Struct.find_cons, Struct.find_cons, ih absent.2]
      by_cases same : other = key
      · subst same
        simp [apart]
      · simp [same]
namespace QOffload
open Mqss.Words Mqss.Machine

/-! ### What a response says -/

/-- A circuit of a typed response has the counts. -/
def Typed.Shows (circuit : CircuitResult) (counts : Counts) : Prop :=
  ∀ state, circuit.counts.lookup state = counts.lookup state

/-- An entry of a REST-like result list has the counts, as numbers. -/
def Rest.Shows (entry : Value) (counts : Counts) : Prop :=
  ∃ fields : Struct, entry = .struct fields ∧
    ∀ state, fields.find state = (counts.lookup state).map (fun count => .number (.finite count.toInt))

/-- A response of the protocol has one entry for each circuit, in their order, with its counts. -/
def Delivers (response : APIResponse) (results : List CircuitResult) : Protocol → Prop
  | .typed => ∃ answer, response.typed_response = some (.task_result answer) ∧
      List.Forall₂ Typed.Shows answer.result (results.map CircuitResult.counts)
  | .rest => ∃ body entries, response.response_body = some body ∧ body.find "result" = some (.list entries) ∧
      List.Forall₂ Rest.Shows entries (results.map CircuitResult.counts)

/-! ### Copying -/

theorem storedCounts_lookup (counts : Counts) (state : String) :
    (Forward.storedCounts counts).lookup state = counts.lookup state := lookup_emplaced counts state

theorem circuitResult_shows (counts : Counts) : Typed.Shows (Typed.circuitResult counts) counts :=
  fun state => lookup_assigned counts state

theorem setCounts_find (counts : Counts) (state : String) :
    Struct.find (Rest.setCounts counts) state =
      (counts.lookup state).map (fun count => .number (.finite count.toInt)) := by
  have written := @lookup_written _ _ _ _ _ Struct.find
    (fun entry state (count : Int32) => Rest.setNumber entry state count.toInt)
    (fun count => some (.number (.finite count.toInt))) (by simp [Rest.setNumber, Struct.find_set])
    (by intro table key value other apart; simp [Rest.setNumber, Struct.find_set, apart]) _ counts.nodupKeys []
    (fun _ _ => rfl) state
  have nothing : Struct.find [] state = none := rfl
  rw [nothing, Option.or_none] at written
  rw [Option.map_eq_bind]
  exact written

/-- What both protocols make of the record of a task. -/
theorem encode_delivers {record : CompletedControlTask} {results : List CircuitResult}
    (stored : record.result_counts = results.map (fun circuit => Forward.storedCounts circuit.counts))
    (protocol : Protocol) (queue : String) :
    Delivers (protocol.encode (.TaskResult record) queue) results protocol := by
  cases protocol with
  | typed =>
    refine ⟨Typed.taskResult record, rfl, ?_⟩
    rw [Typed.taskResult, stored, List.map_map, List.forall₂_map_left_iff, List.forall₂_map_right_iff, List.forall₂_same]
    intro circuit _ state
    exact (circuitResult_shows _ state).trans (storedCounts_lookup circuit.counts state)
  | rest =>
    let entries : List Value := record.result_counts.map (fun counts => .struct (Rest.setCounts counts))
    refine ⟨_, entries, rfl, ?_, ?_⟩
    · show Struct.find (Rest.setTaskResult [] record) "result" = some (.list entries)
      simp [Rest.setTaskResult, Rest.setString, Struct.find_set, entries]
    · simp only [entries]
      rw [stored, List.map_map, List.forall₂_map_left_iff, List.forall₂_map_right_iff, List.forall₂_same]
      intro circuit _
      refine ⟨_, rfl, ?_⟩
      intro state
      rw [setCounts_find, storedCounts_lookup]

namespace Relay

/-- An id without entry and record stays without a record. -/
theorem step_absent {config : Config} {s t : Relay} {op : Op} {id : UInt64} (own : s.Own) (idle : id ∉ s.tasks.pending)
    (absent : s.tasks.completed_control_tasks.lookup id = none) (stepped : step config s op = some t) :
    t.tasks.completed_control_tasks.lookup id = none := by
  cases step_change stepped with
  | entered => exact absent
  | processed result =>
    cases found : (s.processResult result).2.tasks.completed_control_tasks.lookup id with
    | none => rfl
    | some record =>
      rcases processResult_stored own found with old | ⟨_, here, _⟩
      · rw [absent] at old
        cases old
      · exact absurd here idle
  | answered query completed fewer =>
    rcases fewer with rfl | ⟨task_id, _, _, rfl⟩
    · exact absent
    · cases found : (s.tasks.completed_control_tasks.erase task_id).lookup id with
      | none => rfl
      | some record =>
        rw [(FiniteMap.lookup_of_erase found).2] at absent
        cases absent

/-- A result query answers with the record of a task and takes it. -/
theorem query_takes (config : Config) {s : Relay} {request : APIRequest} {id : UInt64}
    (asks : Control.command request = .GetTaskResult id) (idle : id ∉ s.tasks.pending) :
    (s.process config request).1.response = (controlProtocolFor request).encode
        (Control.answerTaken .TaskResult (s.tasks.completed_control_tasks.lookup id)) request.response_queue ∧
      (s.process config request).2.tasks.completed_control_tasks.lookup id = none := by
  rw [process_response, process_tasks, asks, Control.executeControlCommand, Control.getTaskResult]
  cases found : s.tasks.completed_control_tasks.lookup id with
  | none =>
    have missing : Control.takeCompleted .TaskResult s.tasks id = (.ControlError "JOB NOT FOUND", s.tasks) := by
      rw [Control.takeCompleted_spec, if_neg idle]
      simp only [found]
    rw [missing]
    exact ⟨rfl, found⟩
  | some record =>
    rw [takeCompleted_stored idle found]
    exact ⟨rfl, Finmap.lookup_erase _ _⟩

/-- The result of a control task reaches the client that queries it through either protocol,
    whatever else is called in between, and reaches it once. -/
theorem results_reach_client {uid : UInt64} {config : Config} {before between : List Op} {s u : Relay}
    {id : UInt64} {entry : PendingTask} {result : QuantumResult} {request : APIRequest}
    (reached : run (step config) (.new uid) before = some s) (waiting : s.tasks.pending.lookup id = some entry)
    (control : entry.kind = .ControlTask) (key : widen result.task_id = id)
    (ran : run (step config) (s.processResult result).2 between = some u) (untaken : ∀ op ∈ between, ¬ op.takes id)
    (few : submissions before + submissions between ≤ 2 ^ 60) (asks : Control.command request = .GetTaskResult id) :
    Delivers (u.process config request).1.response result.results (controlProtocolFor request) ∧
    ∀ after v other, run (step config) (u.process config request).2 after = some v →
      submissions before + submissions between + submissions after ≤ 2 ^ 60 →
      Control.command other = .GetTaskResult id →
      (v.process config other).1.response =
        (controlProtocolFor other).encode (.ControlError "JOB NOT FOUND") other.response_queue := by
  have ok := run_ok (new_ok uid) (by omega) reached
  rw [Nat.zero_add] at ok
  obtain ⟨k, earlier, rfl⟩ := ok.pendingIds id (Finmap.mem_iff.mpr ⟨entry, waiting⟩)
  have processed : step config s (.processResult result) = some (s.processResult result).2 := rfl
  have counted := step_counted ok.counted processed
  have own := step_own ok.own processed
  obtain ⟨idle, stored⟩ := processResult_leaves ok.own waiting control key
  have none : submissions [.processResult result] = 0 := rfl
  rw [none, Nat.add_zero] at counted
  obtain ⟨kept, still⟩ := run_keeps_record own counted earlier (by omega) idle untaken stored ran
  obtain ⟨answer, taken⟩ := query_takes config asks still
  rw [kept] at answer
  refine ⟨?_, ?_⟩
  · rw [answer]
    exact encode_delivers rfl _ _
  · intro after v other later fewer again
    have queried : step config u (.process request) = some (u.process config request).2 := rfl
    have ownLater : u.Own := invariant (fun _ _ _ own stepped => step_own own stepped) own ran
    have countedLater := step_counted (run_counted counted ran) queried
    have query : submissions [.process request] = 0 := by simp [submissions, Op.submits, asks, Control.creates]
    rw [query, Nat.add_zero] at countedLater
    have idleLater : stride uid k ∉ (u.process config request).2.tasks.pending := by
      rw [← Finmap.lookup_eq_none] at still ⊢
      have one : run (step config) u [.process request] = some (u.process config request).2 := queried
      exact run_keeps_lookup (run_counted counted ran) (by omega) (by omega) (.inl rfl) still one
    obtain ⟨absent, idleThen⟩ := run_idle
      (fun _ _ _ own idle absent (_ : True) stepped => step_absent own idle absent stepped)
      (step_own ownLater queried) countedLater (by omega) (by omega) idleLater (fun _ _ => trivial) taken later
    obtain ⟨missing, _⟩ := query_takes config again idleThen
    rw [missing, absent]
    rfl

/-- The result of a task with two circuits, one of them without counts. -/
def bellResult : QuantumResult where
  task_id := 11
  results := [⟨(AList.insert "00" 512 ∅).insert "11" (-1)⟩, ⟨∅⟩]

def bellSubmitted : List Op := [.process { typed_request := some (.create_task {}) }]

/-- The result is queried after a later one with the same id came back. -/
theorem bellResult_delivered : ∃ s u, run (step makeDefaultConfig) (.new 11) bellSubmitted = some s ∧
    run (step makeDefaultConfig) (s.processResult bellResult).2 [.processResult { task_id := 11 }] = some u ∧
    Delivers (u.process makeDefaultConfig { method := "GET", request := "job/11/result" }).1.response
      bellResult.results .rest := by
  refine ⟨_, _, rfl, rfl, ?_⟩
  have asks : Control.command { method := "GET", request := "job/11/result" } = .GetTaskResult 11 := by decide
  have waiting : (((Relay.new 11).process makeDefaultConfig
      { typed_request := some (.create_task {}) }).2.tasks.pending.lookup 11) =
      some ⟨.ControlTask, 11, 11, ""⟩ := by decide
  exact (@results_reach_client 11 makeDefaultConfig bellSubmitted [.processResult { task_id := 11 }] _ _ 11 _ bellResult
    _ rfl waiting rfl (by decide) rfl (by simp [Op.takes]) (by decide) asks).1

end Relay
end QOffload
end Mqss
