import Mqss.Workers
import Mqss.FiniteMap

/-!
Pending entries and the sends to QRM. A task is registered before it is sent and
its client is answered whether or not the send succeeds, so the pending map is
right as long as every send is accepted and every result finds its entry.
-/

namespace Mqss.QOffload
open Mqss.Words Mqss.Machine Mqss.FiniteMap

namespace Service

/-- The send to the QRM queue in this step, if any, is accepted. -/
def SendsToQrm (config : Config) : Event → Prop
  | .sendTask fault => accepted config.qrm_task fault = true
  | .sendOutboundTask fault => accepted config.qrm_task fault = true
  | _ => True

/-- A result that is processed finds the entry of every pending task whose id it carries. -/
def Correlates (s : Service) (e : Event) : Prop :=
  ∀ result, e = .takePending → s.resultWorker = .received result →
    ∀ id ∈ s.tasks.pending, narrow id = result.task_id → Fits id

/-- A task was registered, and no result with its id was processed since. -/
def Waits (id : UInt64) (after : List Seen) : Prop :=
  ∀ result found, .processed result found ∈ after → result.task_id ≠ narrow id

def Forwarded (id : UInt64) (trace : List Seen) : Prop := ∃ task, .forwarded id task true ∈ trace

/-- Every pending task was sent to QRM since it was registered, and its result was not
    processed since. -/
def PendingForwarded (trace : List Seen) (s : Service) : Prop :=
  ∀ id ∈ s.tasks.pending, ∃ before entry after, trace = before ++ .entered entry :: after ∧
    entry.forwarded_task_id = id ∧ Forwarded id after ∧ Waits id after

/-- Every create response was preceded by the accepted send of its task. -/
def AnnouncedForwarded (trace : List Seen) : Prop :=
  ∀ before id response accepted after, trace = before ++ .announced id response accepted :: after →
    Forwarded id before

/-- A worker has registered the task and not sent it yet. -/
def Registered (id : UInt64) (s : Service) : Prop :=
  (∃ request, s.taskWorker = .registered request id) ∨
    ∃ request command, s.controlWorker = .registered request command id

/-- What the trace says of the workers and of the pending map. -/
structure Traced (trace : List Seen) (s : Service) : Prop where
  pending : ∀ id ∈ s.tasks.pending, ∃ before entry after, trace = before ++ .entered entry :: after ∧
    entry.forwarded_task_id = id ∧ (Forwarded id after ∨ Registered id s) ∧ Waits id after
  announcing : ∀ request id, s.controlWorker = .announcing request id → Forwarded id trace
  announced : AnnouncedForwarded trace

theorem Forwarded.mono {id : UInt64} {trace : List Seen} (sent : Forwarded id trace) (more : List Seen) :
    Forwarded id (trace ++ more) := by
  obtain ⟨task, member⟩ := sent
  exact ⟨task, List.mem_append_left _ member⟩

theorem Waits.append {id : UInt64} {after more : List Seen} (waits : Waits id after) (still : Waits id more) :
    Waits id (after ++ more) := by
  intro result found member
  rcases List.mem_append.mp member with old | new
  · exact waits result found old
  · exact still result found new

/-- A step that announces no task leaves the announcements as they are. -/
theorem announced_append {trace more : List Seen} (announced : AnnouncedForwarded trace)
    (new : ∀ id response accepted, .announced id response accepted ∈ more → Forwarded id trace) :
    AnnouncedForwarded (trace ++ more) := by
  intro before id response accepted after split
  rcases split_append split with ⟨rest, same, _⟩ | ⟨first, same, rest⟩
  · exact announced before id response accepted rest same
  · rw [same]
    exact (new id response accepted (by rw [rest]; simp)).mono first

variable {config : Config} {s t : Service} {e : Event} {seen trace : List Seen}

/-- An entry that was pending before a step keeps its place in the trace. -/
theorem Traced.carry (traced : Traced trace s) {id : UInt64} (old : id ∈ s.tasks.pending) (still : Waits id seen)
    (kept : Registered id s → Forwarded id seen ∨ Registered id t) :
    ∃ before entry after, trace ++ seen = before ++ .entered entry :: after ∧ entry.forwarded_task_id = id ∧
      (Forwarded id after ∨ Registered id t) ∧ Waits id after := by
  obtain ⟨before, entry, after, same, key, sent, waits⟩ := traced.pending id old
  refine ⟨before, entry, after ++ seen, by rw [same, List.append_assoc, List.cons_append], key, ?_, waits.append still⟩
  rcases sent with sent | registered
  · exact .inl (sent.mono seen)
  · rcases kept registered with ⟨task, member⟩ | registered
    · exact .inl ⟨task, List.mem_append_right _ member⟩
    · exact .inr registered

/-- A step that registers, sends, announces and processes nothing. -/
theorem Traced.quiet_step (traced : Traced trace s) (fewer : ∀ id ∈ t.tasks.pending, id ∈ s.tasks.pending)
    (task : t.taskWorker = s.taskWorker ∨ ∀ request id, s.taskWorker ≠ .registered request id)
    (control : t.controlWorker = s.controlWorker ∨
      (∀ request command id, s.controlWorker ≠ .registered request command id) ∧
        ∀ request id, t.controlWorker ≠ .announcing request id)
    (unprocessed : ∀ result found, .processed result found ∉ seen)
    (unannounced : ∀ id response accepted, .announced id response accepted ∉ seen) : Traced (trace ++ seen) t := by
  refine ⟨?_, ?_, ?_⟩
  · intro id member
    refine traced.carry (fewer id member) (fun result found processed => absurd processed (unprocessed result found)) ?_
    rintro (⟨request, at_task⟩ | ⟨request, command, at_control⟩)
    · rcases task with same | other
      · exact .inr (.inl ⟨request, same.trans at_task⟩)
      · exact absurd at_task (other request id)
    · rcases control with same | ⟨other, _⟩
      · exact .inr (.inr ⟨request, command, same.trans at_control⟩)
      · exact absurd at_control (other request command id)
  · intro request id loc
    rcases control with same | ⟨_, other⟩
    · exact (traced.announcing request id (same.symm.trans loc)).mono seen
    · exact absurd loc (other request id)
  · exact announced_append traced.announced fun id response accepted member =>
      absurd member (unannounced id response accepted)

theorem step_traced (traced : Traced trace s) (sends : SendsToQrm config e) (correlates : Correlates s e)
    (change : Change config s e t seen) : Traced (trace ++ seen) t := by
  have announcing : ∀ request id, s.controlWorker = .announcing request id → Forwarded id (trace ++ seen) :=
    fun request id loc => (traced.announcing request id loc).mono seen
  have quiet : (∀ id response accepted, .announced id response accepted ∉ seen) → AnnouncedForwarded (trace ++ seen) :=
    fun silent => announced_append traced.announced fun id response accepted member =>
      absurd member (silent id response accepted)
  cases change with
  | @registerTask request other loc =>
    refine ⟨?_, announcing, quiet (by simp)⟩
    intro id member
    rcases Finmap.mem_insert.mp member with rfl | old
    · exact ⟨trace, _, [], rfl, rfl, .inr (.inl ⟨request, rfl⟩), by simp [Waits]⟩
    · refine traced.carry old (by simp [Waits]) fun registered => .inr ?_
      rcases registered with ⟨_, at_task⟩ | at_control
      · rw [loc] at at_task
        cases at_task
      · exact .inr at_control
  | @registerRequest request command other loc =>
    refine ⟨?_, nofun, quiet (by simp)⟩
    intro id member
    rcases Finmap.mem_insert.mp member with rfl | old
    · exact ⟨trace, _, [], rfl, rfl, .inr (.inr ⟨request, command, rfl⟩), by simp [Waits]⟩
    · refine traced.carry old (by simp [Waits]) fun registered => .inr ?_
      rcases registered with at_task | ⟨_, _, at_control⟩
      · exact .inl at_task
      · rw [loc] at at_control
        cases at_control
  | @sendTask request other fault loc =>
    refine ⟨?_, announcing, quiet (by simp)⟩
    intro id member
    apply traced.carry member (by simp [Waits])
    intro registered
    rcases registered with ⟨_, at_task⟩ | at_control
    · rw [loc] at at_task
      obtain ⟨_, rfl⟩ := TaskWorker.registered.inj at_task
      have accepted : Service.accepted config.qrm_task fault = true := sends
      exact .inl ⟨_, by rw [accepted]; exact List.mem_cons_self⟩
    · exact .inr (.inr at_control)
  | @sendOutboundTask request command other fault loc =>
    have accepted : Service.accepted config.qrm_task fault = true := sends
    refine ⟨?_, ?_, quiet (by simp)⟩
    · intro id member
      apply traced.carry member (by simp [Waits])
      intro registered
      rcases registered with at_task | ⟨_, _, at_control⟩
      · exact .inr (.inl at_task)
      · rw [loc] at at_control
        obtain ⟨_, _, rfl⟩ := ControlWorker.registered.inj at_control
        exact .inl ⟨_, by rw [accepted]; exact List.mem_cons_self⟩
    · intro _ id at_control
      obtain ⟨_, rfl⟩ := ControlWorker.announcing.inj at_control
      exact ⟨_, List.mem_append_right _ (by rw [accepted]; exact List.mem_cons_self)⟩
  | @announce request other fault loc =>
    refine ⟨?_, nofun, ?_⟩
    · intro id member
      refine traced.carry member (by simp [Waits]) fun registered => .inr ?_
      rcases registered with at_task | ⟨_, _, at_control⟩
      · exact .inl at_task
      · rw [loc] at at_control
        cases at_control
    · apply announced_append traced.announced
      intro id response accepted member
      rw [List.mem_singleton] at member
      obtain ⟨rfl, _⟩ := Seen.announced.inj member
      exact traced.announcing request _ loc
  | @ignore result loc missing =>
    refine ⟨?_, announcing, quiet (by simp)⟩
    intro id member
    refine traced.carry member ?_ .inr
    rintro other found processed named
    rw [List.mem_singleton] at processed
    obtain ⟨rfl, _⟩ := Seen.processed.inj processed
    have fits := correlates _ rfl loc id member named.symm
    rw [← fits.eq_widen named.symm] at missing
    exact Finmap.lookup_eq_none.mp missing member
  | @correlate result entry loc found =>
    refine ⟨?_, announcing, quiet (by simp)⟩
    intro id member
    obtain ⟨apart, old⟩ := Finmap.mem_erase.mp member
    refine traced.carry old ?_ .inr
    rintro other taken processed named
    rw [List.mem_singleton] at processed
    obtain ⟨rfl, _⟩ := Seen.processed.inj processed
    exact apart ((correlates _ rfl loc id old named.symm).eq_widen named.symm)
  | receiveTask loc => exact traced.quiet_step (fun _ => id) (.inr (by simp [loc])) (.inl rfl) (by simp) (by simp)
  | numberTask loc => exact traced.quiet_step (fun _ => id) (.inr (by simp [loc])) (.inl rfl) (by simp) (by simp)
  | @take request other loc =>
    rw [takeCompleted_erases]
    exact traced.quiet_step (fun _ => id) (.inl rfl) (.inr (by simp [loc])) (by simp) (by simp)
  | receiveResult => exact traced.quiet_step (fun _ => id) (.inl rfl) (.inl rfl) (by simp) (by simp)
  | store => exact traced.quiet_step (fun _ => id) (.inl rfl) (.inl rfl) (by simp) (by simp)
  | deliver => exact traced.quiet_step (fun _ => id) (.inl rfl) (.inl rfl) (by simp) (by simp)
  | receiveRequest loc => exact traced.quiet_step (fun _ => id) (.inl rfl) (.inr (by simp [loc])) (by simp) (by simp)
  | numberRequest loc => exact traced.quiet_step (fun _ => id) (.inl rfl) (.inr (by simp [loc])) (by simp) (by simp)
  | status loc => exact traced.quiet_step (fun _ => id) (.inl rfl) (.inr (by simp [loc])) (by simp) (by simp)
  | refuse loc => exact traced.quiet_step (fun _ => id) (.inl rfl) (.inr (by simp [loc])) (by simp) (by simp)
  | look loc => exact traced.quiet_step (fun _ => id) (.inl rfl) (.inr (by simp [loc])) (by simp) (by simp)
  | inform loc => exact traced.quiet_step (fun _ => id) (.inl rfl) (.inr (by simp [loc])) (by simp) (by simp)
  | answer loc => exact traced.quiet_step (fun _ => id) (.inl rfl) (.inr (by simp [loc])) (by simp) (by simp)

/-- In every state of a run whose sends to QRM are all accepted and whose results all find
    the pending tasks they name, the create responses sent are those of tasks that QRM
    has, and so are the pending tasks whenever no worker is inside its loop. -/
theorem pending_tasks_forwarded {uid : UInt64} {es : List Event} (ran : run step (new uid) es = some t)
    (met : Along step (fun s e => SendsToQrm config e ∧ Correlates s e) (new uid) es) :
    (t.Idle → PendingForwarded (history step (Service.seen config) (new uid) es) t) ∧
      AnnouncedForwarded (history step (Service.seen config) (new uid) es) := by
  have start : Traced [] (new uid) := by
    refine ⟨?_, nofun, ?_⟩
    · intro id member
      cases member
    · intro before id response accepted after same
      cases before <;> cases same
  have keeps : ∀ trace s e next, Traced trace s → SendsToQrm config e ∧ Correlates s e → step s e = some next →
      Traced (trace ++ Service.seen config s e) next :=
    fun trace s e next traced condition stepped => step_traced traced condition.1 condition.2 (step_change stepped)
  have traced := history_invariant keeps start met ran
  refine ⟨?_, traced.announced⟩
  intro idle id member
  obtain ⟨before, entry, after, same, key, sent, waits⟩ := traced.pending id member
  rcases sent with sent | ⟨request, loc⟩ | ⟨request, command, loc⟩
  · exact ⟨before, entry, after, same, key, sent, waits⟩
  · rw [idle.1] at loc
    cases loc
  · rw [idle.2.1] at loc
    cases loc

/-- The task worker's loop for one direct request, and the control worker's for one create request. -/
def directLoop (fault : Bool) : List Event := [.receiveTask {}, .numberTask, .registerTask, .sendTask fault]

def createLoop (fault : Bool) : List Event :=
  [.receiveRequest { typed_request := some (.create_task {}), response_queue := "client" }, .executeRequest,
    .completeRequest, .sendOutboundTask fault, .sendResponse false]

theorem forwardedTasks_pending : ∃ t, run step (new 11) (directLoop false ++ createLoop false) = some t ∧
    PendingForwarded (history step (Service.seen makeDefaultConfig) (new 11) (directLoop false ++ createLoop false)) t ∧
    AnnouncedForwarded (history step (Service.seen makeDefaultConfig) (new 11) (directLoop false ++ createLoop false)) := by
  have events : ∀ e ∈ directLoop false ++ createLoop false, SendsToQrm makeDefaultConfig e ∧ e ≠ .takePending := by
    simp [directLoop, createLoop, SendsToQrm, accepted, makeDefaultConfig]
  have met : Along step (fun s e => SendsToQrm makeDefaultConfig e ∧ Correlates s e) (new 11)
      (directLoop false ++ createLoop false) :=
    along_mono (fun _ _ condition => ⟨condition.1, fun _ event => absurd event condition.2⟩) (along_of_events events _)
  have traced := @pending_tasks_forwarded makeDefaultConfig _ 11 (directLoop false ++ createLoop false) rfl met
  exact ⟨_, rfl, traced.1 ⟨rfl, rfl, rfl⟩, traced.2⟩

/-- A refused send leaves a direct task pending, and a control task pending and announced. -/
theorem refused_task_pending_and_announced : ∃ s t, run step (new 11) (directLoop true) = some s ∧ s.Idle ∧
    11 ∈ s.tasks.pending ∧
    ¬ PendingForwarded (history step (Service.seen makeDefaultConfig) (new 11) (directLoop true)) s ∧
    run step (new 11) (createLoop true) = some t ∧ t.Idle ∧ t.tasks.pendingCount = 1 ∧
    ¬ AnnouncedForwarded (history step (Service.seen makeDefaultConfig) (new 11) (createLoop true)) := by
  refine ⟨_, _, rfl, ⟨rfl, rfl, rfl⟩, by decide, ?_, rfl, ⟨rfl, rfl, rfl⟩, rfl, ?_⟩
  · intro holds
    obtain ⟨before, entry, after, same, _, ⟨task, sent⟩, _⟩ := holds 11 (by decide)
    have trace : history step (Service.seen makeDefaultConfig) (new 11) (directLoop true) =
        [.entered (Forward.directEntry {} 11), .forwarded 11 (Forward.readdressed {} 11 makeDefaultConfig) false] := rfl
    have member : Seen.forwarded 11 task true ∈ history step (Service.seen makeDefaultConfig) (new 11) (directLoop true) := by
      rw [same]
      exact List.mem_append_right _ (List.mem_cons_of_mem _ sent)
    rw [trace] at member
    simp at member
  · intro holds
    have trace : history step (Service.seen makeDefaultConfig) (new 11) (createLoop true) =
        [.entered ⟨.ControlTask, 11, 11, ""⟩,
          .forwarded 11 (Forward.readdressed (Control.applyCreateTaskCommand {}) 11 makeDefaultConfig) false] ++
        .announced 11 (Typed.encode (.TaskCreated 11) "client") true :: [] := rfl
    obtain ⟨task, sent⟩ := holds _ _ _ _ _ trace
    simp at sent

end Service
end Mqss.QOffload
