import Mqss.PipelineProgress
import Mqss.ResultMatching

/-!
Every direct request is answered. Where nothing is lost on the way, and the workers and the
programs have nothing left to do, each request has got its answer. However the work is
scheduled, it comes to an end.
-/

namespace Mqss.QOffload
open Mqss.Words Mqss.Machine Mqss.Conveyor Mqss.Progress List
open QrmWorkflow (Site Workflow Serves Healthy Keeps)

namespace Installation

variable {config : Config} {site : Site} {crossed : Crossed} {uid : UInt64} {n : Nat} {trace : List Seen}
  {s t : Installation} {e : Event}

/-! ### Runs that lose nothing -/

/-- A step that loses a task or its result. -/
def Loses (config : Config) (site : Site) (s : Installation) : Event → Prop
  | .work act => Drops config s.service act
  | .discardResult => True
  | .qrm e => QrmWorkflow.Loses site s.workflow e
  | .receiveResult => False

/-- A client names no reserved queue, and the task that it sends has a circuit file and, if it
    is not a control request's, a destination. -/
def Sound (config : Config) (site : Site) : Event → Prop
  | .work (.receiveTask request) => request.circuit_files ≠ [] ∧ request.result_destination ≠ "" ∧
      request.result_destination ∉ reserved config site
  | .work (.receiveRequest request) => request.response_queue ∉ reserved config site ∧
      ∀ command, Control.command request = .CreateQuantumTask command → command.circuit_files ≠ []
  | .qrm (.submit task _) => task.circuit_files ≠ [] ∧ task.result_destination ≠ "" ∧
      task.result_destination ∉ reserved config site
  | _ => True

theorem Sound.names (sound : Sound config site e) : NamesOther config site e := by
  cases e with
  | work act =>
    intro queue member
    cases act with
    | receiveTask request => exact fun same => sound.2.2 (same ▸ member)
    | receiveRequest request => exact fun same => sound.1 (same ▸ member)
    | _ => trivial
  | qrm act =>
    cases act with
    | submit task fault => exact sound.2.2
    | _ => trivial
  | _ => trivial

/-- The requests that were received and the entries that were filed for them are sound. -/
structure Requests (trace : List Seen) : Prop where
  direct : ∀ request ∈ asked trace, request.circuit_files ≠ [] ∧ request.result_destination ≠ ""
  control : ∀ request command, .control request ∈ trace → Control.command request = .CreateQuantumTask command →
    command.circuit_files ≠ []
  entries : ∀ entry, .entered entry ∈ served trace → entry.kind = .DirectTask → entry.original_result_destination ≠ ""

/-- Every task that is sent is forwarded, every forwarded task is under way in the workflow,
    and every result that comes back is looked up. -/
structure Whole (config : Config) (site : Site) (trace : List Seen) (s : Installation) : Prop where
  sends : (served trace).filterMap Service.Seen.submission = (forwarded trace).map Prod.fst
  keeps : Keeps site (qrmTrace trace) s.workflow
  order : ∃ queued, s.workflow.queues config.result = queued.map .result ∧
    processed trace ++ (inHand s.service.resultWorker ++ queued) = returned config (qrmTrace trace)

theorem mem_asked {request : QuantumTask} : request ∈ asked trace ↔ .task request ∈ trace := by
  constructor
  · intro member
    obtain ⟨seen, among, same⟩ := mem_filterMap.mp member
    cases seen with
    | task other =>
      obtain rfl := Option.some.inj same
      exact among
    | _ => cases same
  · exact fun member => mem_filterMap.mpr ⟨_, member, rfl⟩

theorem Submitted.circuits {id : UInt64} {entry : PendingTask} {task : QuantumTask}
    (submitted : Submitted config trace id entry task) (requests : Requests trace) : task.circuit_files ≠ [] := by
  cases submitted with
  | direct asked => exact (requests.direct _ (mem_asked.mpr asked)).1
  | control asked creates => exact requests.control _ _ asked creates

section
variable {told : List QrmWorkflow.Seen} {w v : Workflow}

theorem Agrees.keeps (agrees : Agrees site.queues.own w v) (keeps : Keeps site told w) : Keeps site told v :=
  ⟨agrees.conveys keeps.conveys, by rw [agrees.belt]; exact keeps.pairs, by rw [agrees.submitter]; exact keeps.up, keeps.sound⟩

end

/-- What is known of a run that lost nothing so far. -/
structure Lossless (config : Config) (site : Site) (uid : UInt64) (n : Nat) (trace : List Seen) (s : Installation) : Prop
    extends Tracked config site uid True n trace s where
  requests : Requests trace
  whole : Whole config site trace s

/-- Nothing is under way, and no worker is inside its loop. -/
structure Still (config : Config) (site : Site) (s : Installation) : Prop where
  idle : s.service.Idle
  belt : s.workflow.belt site.queues = []
  received : s.workflow.queues config.result = []

/-- Where nothing is under way, the results that were looked up are those of all the tasks
    that were forwarded. -/
theorem Lossless.serves (lossless : Lossless config site uid n trace s) (still : Still config site s) :
    Forall₂ (fun found task => Serves site config.result found.1 task.2) (looked trace) (forwarded trace) := by
  obtain ⟨⟨connected, _, _, _, _⟩, _, _, keeps, queued, held, order⟩ := lossless
  obtain ⟨⟨_, _, result⟩, empty, received⟩ := still
  rw [result] at order
  obtain rfl := map_eq_nil_iff.mp (held.symm.trans received)
  have reported : Forall₂ (fun report task => Serves site report.1 report.2 task)
      (QrmWorkflow.reports (qrmTrace trace)) (QrmWorkflow.tasks (qrmTrace trace)) := by
    have pairs := keeps.pairs
    rw [empty, append_nil] at pairs
    exact forall₂_map_left_iff.mp pairs
  have picked := @forall₂_filter _ _ _ (fun report => decide (report.1 = config.result))
    (fun task => decide (task.result_destination = config.result)) _ _ reported (fun report task serves => by rw [serves.1])
  rw [connected.tasks] at picked
  have own := forall₂_map_right_iff.mp (picked.imp fun report task both => of_decide_eq_true both.2 ▸ both.1)
  have all : processed trace = returned config (qrmTrace trace) := (append_nil _).symm.trans order
  have results : Forall₂ (fun result task => Serves site config.result result task.2) (processed trace) (forwarded trace) := by
    rw [all]
    exact forall₂_map_left_iff.mpr own
  rw [processed_looked] at results
  exact forall₂_map_left_iff.mp results

/-- Every direct request has been answered then. -/
theorem Lossless.answers (lossless : Lossless config site uid n trace s) (fit : ∀ k < n, Fits (stride uid k))
    (still : Still config site s) : Forall₂ (Relays site) (sent trace) (asked trace) := by
  have own := lossless.serves still
  obtain ⟨⟨connected, dealt, ordered, outbound, found⟩, _, _⟩ := lossless
  obtain ⟨made, told, filed, forwards⟩ := ordered.forwards
  have requests := forwards.all trivial
  have sends := ordered.sends.all trivial
  obtain ⟨task, _, result⟩ := still.idle
  rw [task] at requests
  rw [result] at sends
  rw [← told] at own
  have pairs := forall₂_map_right_iff.mp own
  have sentAll : sent trace = (looked trace).filterMap remap? := (append_nil _).symm.trans sends
  have askedAll : made.filterMap Dispatch.request = asked trace := (append_nil _).symm.trans requests
  rw [sentAll, ← askedAll]
  refine forall₂_filterMap pairs ?_
  rintro ⟨result, entry⟩ member task among serves
  have here : task.forwarded ∈ forwarded trace := told ▸ mem_map_of_mem among
  cases entry with
  | none => exact absurd member (found result)
  | some entry => exact remap_relays connected dealt ordered (outbound.fits fit) member here (filed task among) serves

/-- The steps of the workers, the programs and the broker; the others are the clients'. -/
def Event.works : Event → Bool
  | .work act => !Event.requests (.work act)
  | .qrm e => e.works
  | _ => true

def TaskWorker.left : TaskWorker → Nat
  | .idle => 0
  | .received _ => 35
  | .numbered _ _ => 34
  | .registered _ _ => 33

def ControlWorker.left : ControlWorker → Nat
  | .idle => 0
  | .received _ => 36
  | .numbered _ _ _ => 35
  | .registered _ _ _ => 34
  | .looked _ _ => 2
  | .announcing _ _ | .answering _ _ => 1

def ResultWorker.left : ResultWorker → Nat
  | .idle => 0
  | .received _ => 2
  | .taken _ _ => 1

def workersLeft (s : Service) : Nat :=
  TaskWorker.left s.taskWorker + ControlWorker.left s.controlWorker + ResultWorker.left s.resultWorker

/-- A bound on the steps until everything rests. A task in the workflow takes eight steps
    there, and its result three more; a worker that sends it on makes up for these. -/
def left (config : Config) (site : Site) (s : Installation) : Nat :=
  workersLeft s.service + 3 * (s.workflow.queues config.result).length + 4 * s.workflow.left site.queues

theorem Agrees.left {w v : Workflow} (agrees : Agrees site.queues.own w v) : v.left site.queues = w.left site.queues := by
  have held : ∀ program : QrmWorkflow.Program, v.queues (program.queue site.queues) = w.queues (program.queue site.queues) :=
    fun program => agrees.held _ (QrmWorkflow.program_own site.queues program)
  have atScheduler := held .scheduler
  have atCompiler := held .compiler
  have atSubmitter := held .submitter
  simp only [QrmWorkflow.Program.queue] at atScheduler atCompiler atSubmitter
  simp only [Workflow.left, agrees.scheduler, agrees.compiler, agrees.submitter, atScheduler, atCompiler, atSubmitter]

section
variable {service next : Service} {act : Service.Event} {shown : List Service.Seen}

end

end Installation
end Mqss.QOffload
