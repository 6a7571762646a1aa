import Mqss.DirectOrder
import Mqss.TaskIds

/-!
Results and their entries. An entry stays until a result is looked up under its id, and the
workflow sends one result a task, so a result that comes back to the service finds the entry
that was filed for its task, as long as the ids fit.
-/

namespace Mqss.QOffload
open Mqss.Words Mqss.Machine Mqss.Conveyor List
open QrmWorkflow (Site Serves)

/-- An entry that is not pending any more was found for a result. -/
theorem Service.Traces.found {uid : UInt64} {n : Nat} {trace : List Service.Seen} {s : Service}
    (traces : s.Traces uid n trace) {entry : PendingTask} (entered : .entered entry ∈ trace)
    (missing : s.tasks.pending.lookup entry.forwarded_task_id = none) :
    ∃ result other, .processed result (some other) ∈ trace ∧ other.forwarded_task_id = entry.forwarded_task_id := by
  have born : .enter entry ∈ trace.flatMap (Service.deeds entry.forwarded_task_id) :=
    mem_flatMap.mpr ⟨_, entered, by simp [Service.deeds]⟩
  have correlated : ∃ result, .correlate result ∈ trace.flatMap (Service.deeds entry.forwarded_task_id) := by
    have course := traces.course entry.forwarded_task_id
    have spec := Service.life_spec s entry.forwarded_task_id
    generalize trace.flatMap (Service.deeds entry.forwarded_task_id) = deeds, s.life entry.forwarded_task_id = life at *
    cases course with
    | unborn => cases born
    | waiting =>
      rw [missing] at spec
      cases spec
    | @held _ result | @stored _ result | @sent _ result | @fetched _ result => exact ⟨result, by simp⟩
  obtain ⟨result, done⟩ := correlated
  obtain ⟨seen, member, deed⟩ := mem_flatMap.mp done
  unfold Service.deeds at deed
  split at deed
  case h_2 other found =>
    split at deed
    · rename_i key
      exact ⟨other, found, member, key⟩
    · cases deed
  all_goals first | cases deed | (split at deed <;> simp at deed)

namespace Installation

variable {config : Config} {site : Site} {crossed : Crossed} {uid : UInt64} {n : Nat} {trace more : List Seen}
  {s t : Installation} {e : Event} {lossless : Prop} {bound : Nat}

/-- The ids in the messages to the workflow and those of the tasks still to be sent are the
    first ids of the instance. -/
def Outbound (uid : UInt64) (n : Nat) (trace : List Seen) (s : Installation) : Prop :=
  ((served trace).filterMap Service.Seen.submission ++ s.service.outbound).Perm ((range n).map (stride uid))

theorem step_outbound (outbound : Outbound uid n trace s) (dealt : Dealt config uid n trace s)
    (stepped : step config site crossed s e = some t) :
    Outbound uid (n + (numbers s e).length) (trace ++ seen config site s e) t := by
  have move := step_move stepped
  generalize seen config site s e = more at move
  unfold Outbound at outbound ⊢
  cases move with
  | @work act service shown change other =>
    have given : s.service.numbers act = (range' n (s.service.numbers act).length).map (stride uid) := by
      rcases change.counts.2 with ⟨none, _⟩ | ⟨one, _⟩
      · simp [none]
      · simp [one, dealt.traces.ok.next]
    have all : (range (n + (s.service.numbers act).length)).map (stride uid) =
        (range n).map (stride uid) ++ s.service.numbers act := by
      rw [range_add, map_append, ← range'_eq_map_range, ← given]
    show Perm _ ((range (n + (s.service.numbers act).length)).map (stride uid))
    rw [served_append, served_service, filterMap_append, append_assoc, all]
    refine (change.outbound.append_left _).trans ?_
    rw [← append_assoc]
    exact outbound.append_right _
  | received | unread | discarded =>
    rw [append_nil]
    exact outbound
  | qrm =>
    rw [served_append, served_qrm, append_nil]
    exact outbound

theorem forwarded_submitted (trace : List Seen) :
    ((forwarded trace).map Prod.fst).Sublist ((served trace).filterMap Service.Seen.submission) := by
  induction trace with
  | nil => exact .slnil
  | cons seen trace ih =>
    rcases seen with request | request | shown | shown
    · exact ih
    · exact ih
    · cases shown with
      | forwarded id task accepted =>
        cases accepted with
        | true => exact ih.cons_cons id
        | false => exact ih.cons id
      | _ => exact ih
    · exact ih

/-- The forwarded tasks have different ids, each of them one that was given out. -/
theorem Outbound.distinct (outbound : Outbound uid n trace s) (few : n ≤ 2 ^ 60) :
    ((forwarded trace).map Prod.fst).Nodup ∧ ∀ task ∈ forwarded trace, ∃ k < n, stride uid k = task.1 := by
  have among := (forwarded_submitted trace).trans (sublist_append_left _ s.service.outbound)
  constructor
  · refine among.nodup (outbound.nodup_iff.mpr (nodup_range.map_on ?_))
    intro i first j second same
    have below := mem_range.mp first
    have under := mem_range.mp second
    rw [stride_again, Int.ModEq] at same
    omega
  · intro task member
    obtain ⟨k, earlier, same⟩ := mem_map.mp (outbound.subset (among.subset (mem_map_of_mem member)))
    exact ⟨k, mem_range.mp earlier, same⟩

/-! ### The ids that a run uses -/

/-- The requests of clients that the service receives. -/
def Event.requests : Event → Bool
  | .work (.receiveTask _) | .work (.receiveRequest _) => true
  | _ => false

/-- The request that a worker may still give an id. -/
def TaskWorker.unnumbered : TaskWorker → Nat
  | .received _ => 1
  | _ => 0

def ControlWorker.unnumbered : ControlWorker → Nat
  | .received _ => 1
  | _ => 0

def unnumbered (s : Service) : Nat := TaskWorker.unnumbered s.taskWorker + ControlWorker.unnumbered s.controlWorker

theorem work_numbers {service next : Service} {act : Service.Event} {shown : List Service.Seen}
    (change : Service.Change config service act next shown) :
    (service.numbers act).length + unnumbered next ≤ unnumbered service + if Event.requests (.work act) then 1 else 0 := by
  cases change with
  | numberRequest loc creates =>
    simp [Service.numbers, unnumbered, TaskWorker.unnumbered, ControlWorker.unnumbered, Event.requests, loc, creates,
      Control.creates]
    omega
  | status loc asks =>
    simp [Service.numbers, unnumbered, ControlWorker.unnumbered, Event.requests, loc, asks, Control.creates]
  | refuse loc asks | look loc asks =>
    rcases asks with asks | asks <;>
      simp [Service.numbers, unnumbered, ControlWorker.unnumbered, Event.requests, loc, asks, Control.creates]
  | inform loc creates =>
    simp [Service.numbers, unnumbered, ControlWorker.unnumbered, Event.requests, loc, creates]
  | receiveTask loc =>
    simp [Service.numbers, unnumbered, TaskWorker.unnumbered, Event.requests, loc]
    omega
  | _ =>
    rename_i loc
    simp [Service.numbers, unnumbered, TaskWorker.unnumbered, ControlWorker.unnumbered, Event.requests, loc]

/-- A run gives out no more ids than it receives requests. -/
theorem numbered_le {es : List Event} (ran : run (step config site crossed) s es = some t) :
    numbered config site crossed s es + unnumbered t.service ≤ unnumbered s.service + es.countP Event.requests := by
  induction es generalizing s with
  | nil =>
    obtain rfl := Option.some.inj ran
    simp [numbered]
  | cons e es ih =>
    obtain ⟨next, stepped, rest⟩ := run_cons.mp ran
    have later := ih rest
    have now : (numbers s e).length + unnumbered next.service ≤ unnumbered s.service + if e.requests then 1 else 0 := by
      have move := step_move stepped
      generalize seen config site s e = more at move
      cases move with
      | work change => exact work_numbers change
      | received | unread | discarded | qrm => exact Nat.le_of_eq (Nat.zero_add _)
    rw [numbered, history_cons stepped, length_append, ← numbered, countP_cons]
    omega

theorem new_numbered_le {es : List Event} (ran : run (step config site crossed) (new uid) es = some s) :
    numbered config site crossed (new uid) es ≤ es.countP Event.requests := by
  have bound := numbered_le ran
  have none : unnumbered (new uid).service = 0 := rfl
  omega

theorem few_of_fit {offset : UInt64} (fit : ∀ k < bound, Fits (stride offset k)) : bound ≤ 2 ^ 60 := by
  by_contra many
  have first := (fits_iff _).mp (fit 0 (by omega))
  have later := (fits_iff _).mp (fit (2 ^ 20) (by omega))
  rw [toNat_stride] at first later
  have word := offset.toNat_lt
  omega

/-- The ids of the forwarded tasks fit as those that were given out do. -/
theorem Outbound.fits (outbound : Outbound uid n trace s) (fit : ∀ k < n, Fits (stride uid k)) :
    ∀ task ∈ forwarded trace, Fits task.1 := by
  intro task member
  obtain ⟨k, earlier, same⟩ := (outbound.distinct (few_of_fit fit)).2 task member
  exact same ▸ fit k earlier

/-! ### What a result finds -/

/-- Where every result that was looked up had an entry, and the ids are known of the tasks. -/
structure Tracked (config : Config) (site : Site) (uid : UInt64) (lossless : Prop) (n : Nat) (trace : List Seen)
    (s : Installation) : Prop where
  connected : Connected config site trace s
  dealt : Dealt config uid n trace s
  ordered : Ordered config lossless trace s
  outbound : Outbound uid n trace s
  found : ∀ result, (result, none) ∉ looked trace

/-- A result that comes back finds the entry of its task. -/
theorem result_finds (tracked : Tracked config site uid lossless n trace s) (fit : ∀ k < n, Fits (stride uid k))
    {result : QuantumResult} (loc : s.service.resultWorker = .received result) :
    s.service.tasks.pending.lookup (widen result.task_id) ≠ none := by
  obtain ⟨connected, dealt, ordered, outbound, _⟩ := tracked
  obtain ⟨distinct, _⟩ := outbound.distinct (few_of_fit fit)
  obtain ⟨queued, _, order⟩ := connected.order
  rw [loc, inHand, ← append_assoc] at order
  have image := image_lose connected.results ((sublist_append_left _ _).trans order)
  have named : ∀ result task, task ∈ forwarded trace → Serves site config.result result task.2 →
      widen result.task_id = task.1 :=
    fun result task member serves => connected.key member (outbound.fits fit task member) serves
  -- Every result that was looked up and the one in hand are those of different tasks.
  have keys : SublistForall₂ Eq ((processed trace ++ [result]).filterMap fun result => some (widen result.task_id))
      ((forwarded trace).filterMap fun task => some task.1) := by
    refine image_filterMap image fun result _ task member serves key same => ⟨task.1, rfl, ?_⟩
    rw [← Option.some.inj same, named result task member serves]
  have once : ((processed trace ++ [result]).map fun result => widen result.task_id).Nodup := by
    rw [filterMap_eq_map', filterMap_eq_map'] at keys
    obtain ⟨own, same, among⟩ := sublistForall₂_iff.mp keys
    rw [forall₂_eq_eq_eq] at same
    rw [same]
    exact among.nodup distinct
  obtain ⟨task, member, serves⟩ := image_stems image (mem_append_right _ mem_cons_self)
  obtain ⟨entry, entered, submitted⟩ := dealt.forwarded task member
  have key : entry.forwarded_task_id = widen result.task_id := by rw [submitted.key, named result task member serves]
  intro missing
  rw [← key] at missing
  obtain ⟨earlier, other, told, again⟩ := dealt.traces.found entered missing
  have seen : (earlier, some other) ∈ looked trace := mem_looked.mpr told
  have before : earlier ∈ processed trace := by
    rw [processed_looked]
    exact mem_map_of_mem seen
  have same : widen earlier.task_id = widen result.task_id := by rw [← (ordered.found _ _ seen).2, again, key]
  rw [map_append, nodup_append] at once
  exact once.2.2 _ (mem_map_of_mem before) _ (mem_singleton_self _) same

theorem new_tracked (joined : Joined config site) (uid : UInt64) (lossless : Prop) :
    Tracked config site uid lossless 0 [] (new uid) where
  connected := new_connected joined uid
  dealt := new_dealt config uid
  ordered := new_ordered config lossless uid
  outbound := .refl _
  found := by simp [looked]

theorem step_tracked (joined : Joined config site) (tracked : Tracked config site uid lossless n trace s)
    (names : NamesOther config site e) (fit : ∀ k < n + (numbers s e).length, Fits (stride uid k))
    (safe : lossless → ∀ act, e = .work act → ¬ Drops config s.service act)
    (stepped : step config site crossed s e = some t) :
    Tracked config site uid lossless (n + (numbers s e).length) (trace ++ seen config site s e) t where
  connected := step_connected joined tracked.connected names stepped
  dealt := step_dealt tracked.dealt (few_of_fit fit) stepped
  ordered := step_ordered tracked.ordered tracked.dealt safe stepped
  outbound := step_outbound tracked.outbound tracked.dealt stepped
  found := by
    have move := step_move stepped
    generalize seen config site s e = more at move
    intro result member
    rw [looked_append] at member
    rcases mem_append.mp member with old | new
    · exact tracked.found result old
    cases move with
    | @work act service shown change other =>
      rw [(requests_told act shown).2.1] at new
      cases change with
      | ignore loc missing => exact result_finds tracked (fun k earlier => fit k (by omega)) loc missing
      | correlate =>
        obtain ⟨_, same⟩ := Prod.mk.inj (mem_singleton.mp new)
        cases same
      | _ => cases new
    | qrm =>
      rw [(qrm_told _).2.1] at new
      cases new
    | _ => cases new

theorem run_tracked {es : List Event} (joined : Joined config site) (names : ∀ e ∈ es, NamesOther config site e)
    (fit : ∀ k < es.countP Event.requests, Fits (stride uid k))
    (ran : run (step config site crossed) (new uid) es = some s) :
    ∃ n ≤ es.countP Event.requests,
      Tracked config site uid False n (history (step config site crossed) (seen config site) (new uid) es) s := by
  have few := new_numbered_le ran
  have all := run_counted (es.countP Event.requests)
    (fun _ _ _ _ _ tracked within other stepped =>
      step_tracked joined tracked other (fun k earlier => fit k (by omega)) False.elim stepped)
    (new_tracked joined uid False) (by rwa [Nat.zero_add]) (along_of_events names _) ran
  rw [nil_append, Nat.zero_add] at all
  exact ⟨_, few, all⟩

/-- In every run of the service and the workflow, whatever fails in it, as long as there are
    ids that fit for all the requests, each result that comes back finds the entry that was
    filed for the request whose task it was computed for. -/
theorem results_find_their_entries {es : List Event} (joined : Joined config site)
    (names : ∀ e ∈ es, NamesOther config site e) (fit : ∀ k < es.countP Event.requests, Fits (stride uid k))
    (ran : run (step config site crossed) (new uid) es = some s) :
    ∀ x ∈ looked (history (step config site crossed) (seen config site) (new uid) es), ∃ entry id task, x.2 = some entry ∧
      Submitted config (history (step config site crossed) (seen config site) (new uid) es) id entry task ∧
        Serves site config.result x.1 task := by
  obtain ⟨n, within, connected, dealt, ordered, outbound, found⟩ := run_tracked joined names fit ran
  have results := connected.processed_serves
  generalize history (step config site crossed) (seen config site) (new uid) es = trace at *
  rw [processed_looked] at results
  rintro ⟨result, known⟩ member
  cases known with
  | none => exact absurd member (found result)
  | some entry =>
    obtain ⟨task, among, serves⟩ := image_stems (sublistForall₂_map_left_iff.mp results) member
    obtain ⟨entered, key⟩ := ordered.found result entry member
    obtain ⟨filed, told, submitted⟩ := dealt.forwarded task among
    have fits := outbound.fits (fun k earlier => fit k (by omega)) task among
    have same : entry.forwarded_task_id = filed.forwarded_task_id := by
      rw [key, connected.key among fits serves, submitted.key]
    exact ⟨filed, task.1, task.2, congrArg some (dealt.entered_unique entered told same), submitted, serves⟩

theorem relayedRun_found : ∃ s, run (step makeDefaultConfig gateway uncrossed) (new 11) relayedRun = some s ∧
    (looked (history (step makeDefaultConfig gateway uncrossed) (seen makeDefaultConfig gateway) (new 11)
      relayedRun)).length = 1 ∧
    ∀ x ∈ looked (history (step makeDefaultConfig gateway uncrossed) (seen makeDefaultConfig gateway) (new 11) relayedRun),
      ∃ entry id task, x.2 = some entry ∧ Submitted makeDefaultConfig (history (step makeDefaultConfig gateway uncrossed)
        (seen makeDefaultConfig gateway) (new 11) relayedRun) id entry task ∧
          Serves gateway makeDefaultConfig.result x.1 task :=
  ⟨_, rfl, rfl, results_find_their_entries gateway_joined relayedRun_names (by decide) rfl⟩

end Installation
end Mqss.QOffload
