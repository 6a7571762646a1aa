import Mqss.Pipeline
import Mqss.Progress

/-!
The workflow gets its work done. A task takes eight steps at most, whatever the order in
which the programs take them. Where no step loses a task, the results that were sent and
everything under way are of all the accepted tasks, so when the programs have nothing
left to do every task has got its result.
-/

namespace Mqss.QrmWorkflow
open Mqss.Machine Mqss.Conveyor Mqss.Progress Mqss.Traversals List
open QOffload.Service (accepted)

/-- The steps of the programs, and those of the broker that take a task from them. -/
def Event.works : Event → Bool
  | .submit _ _ => false
  | _ => true

def Compiler.left : Compiler → Nat
  | .idle => 0
  | .received _ => 5
  | .compiled _ => 4

def Submitter.left : Submitter → Nat
  | .idle | .crashed => 0
  | .received _ => 2
  | .executed _ _ => 1

/-- The steps that everything under way takes at most. -/
def Workflow.left (queues : QueueConfig) (s : Workflow) : Nat :=
  8 * (s.queues queues.scheduler).length + (s.scheduler.elim 0 fun _ => 7) + 6 * (s.queues queues.compiler).length +
    s.compiler.left + 3 * (s.queues queues.submitter).length + s.submitter.left

variable {site : Site} {s t : Workflow} {e : Event} {trace more : List Seen}

/-- A client submits a task that has a circuit file and names a queue other than the three. -/
def Sound (queues : QueueConfig) : Event → Prop
  | .submit task _ => task.circuit_files ≠ [] ∧ task.result_destination ≠ "" ∧ task.result_destination ∉ queues.own
  | _ => True

theorem Sound.names {queues : QueueConfig} (sound : Sound queues e) : NamesOther queues e := by
  cases e with
  | submit task fault => exact sound.2.2
  | _ => trivial

/-- The results sent and everything under way are of all the accepted tasks, in their order. -/
structure Keeps (site : Site) (trace : List Seen) (s : Workflow) : Prop where
  conveys : Conveys site trace s
  pairs : Forall₂ (Stems site) (results trace ++ s.belt site.queues) (tasks trace)
  up : s.submitter ≠ .crashed
  sound : ∀ task ∈ tasks trace, task.circuit_files ≠ [] ∧ task.result_destination ≠ ""

/-- A step that loses nothing does not end the submitter. -/
theorem step_up (up : s.submitter ≠ .crashed) (safe : ¬ Loses site s e) (change : Change site s e t more) :
    t.submitter ≠ .crashed := by
  cases change with
  | @received program => cases program <;> simp [Workflow.load, up]
  | crashed hand ran => exact absurd ⟨_, hand, ran⟩ safe
  | executed | reported | unreported => simp
  | _ => exact up

theorem step_keeps (keeps : Keeps site trace s) (sound : Sound site.queues e) (safe : ¬ Loses site s e)
    (stepped : step site s e = some t) : Keeps site (trace ++ seen site s e) t := by
  have change := step_change stepped
  have conveys := step_conveys keeps.conveys sound.names change
  have moves := step_moves keeps.conveys.plain keeps.conveys.sendsElsewhere change
  refine ⟨conveys, ?_, step_up keeps.up safe change, ?_⟩
  · have pairs := keeps.pairs
    rw [tasks_append, results_append]
    cases moves with
    | loaded task shown belt =>
      have none : results [.accepted task] = [] := rfl
      have one : tasks [.accepted task] = [task] := rfl
      rw [shown, belt, none, one, append_nil, ← append_assoc]
      exact forall₂_load pairs rfl
    | kept none belt =>
      rw [none, append_nil, append_assoc, belt]
      exact pairs
    | worked before after item made silent belt now works =>
      rw [silent, now]
      rw [belt, ← append_assoc] at pairs
      simpa [results, reports, tasks] using forall₂_work pairs works
    | lost loses => exact absurd loses safe
  · intro task member
    rw [tasks_append, mem_append] at member
    rcases member with old | new
    · exact keeps.sound task old
    · generalize seen site s e = more at change new
      cases change with
      | submitted =>
        obtain rfl := mem_singleton.mp new
        exact ⟨sound.1, sound.2.1⟩
      | _ => cases new

/-- Queues with names, passes that never throw, a second device whose histograms fit, and
    shots that have four bytes behind them that may be read. -/
structure Healthy (site : Site) : Prop where
  apart : site.queues.own.Nodup
  named : "" ∉ site.queues.own
  passes : ∀ added module, ∃ made, site.library.run added module = .ok made
  device : ∃ device, site.devices[1]? = some device ∧ ∀ submitted job, (device.execute submitted job).Fits
  shots : ∀ submitted, (site.behind submitted).isSome = true

/-- What the submitter has in hand comes of an accepted task. -/
theorem Keeps.circuits (keeps : Keeps site trace s) {task : QuantumTask} (hand : s.submitter = .received task) :
    ∃ circuit others, task.circuit_files = circuit :: others := by
  have onBelt : Item.compiled task ∈ results trace ++ s.belt site.queues := by
    simp [Workflow.belt, hand, Submitter.items]
  obtain ⟨origin, among, fd, compiled⟩ := image_stems keeps.conveys.image onBelt
  have same := compiled.length
  have files := length_pos_iff.mpr (keeps.sound origin among).1
  exact exists_cons_of_length_pos (by omega)

theorem Keeps.destination (keeps : Keeps site trace s) {task : QuantumTask} {result : QuantumResult}
    (hand : s.submitter = .executed task result) : accepted task.result_destination false = true := by
  have onBelt : Item.result task.result_destination result ∈ results trace ++ s.belt site.queues := by
    simp [Workflow.belt, hand, Submitter.items]
  obtain ⟨origin, among, serves⟩ := image_stems keeps.conveys.image onBelt
  have named := (keeps.sound origin among).2
  rw [← serves.1] at named
  simp [accepted, named]

/-- A run that lost nothing keeps every task. -/
theorem run_keeps {es : List Event} (healthy : Healthy site) (sound : ∀ e ∈ es, Sound site.queues e)
    (lossless : Along (step site) (fun s e => ¬ Loses site s e) {} es) (ran : run (step site) {} es = some s) :
    Keeps site (history (step site) (seen site) {} es) s := by
  have plain : Plain site.queues fun _ => [] := ⟨healthy.apart, by simp⟩
  have start : Keeps site [] {} := ⟨⟨plain, .nil, by simp [tasks]⟩, .nil, by simp, by simp [tasks]⟩
  have met := along_and.mpr ⟨along_of_events sound _, lossless⟩
  refine history_invariant ?_ start met ran
  intro trace s e next keeps condition stepped
  exact step_keeps keeps condition.1 condition.2 stepped

end Mqss.QrmWorkflow
