import Mqss.Workflow
import Mqss.Workers
import Mqss.Conveyor

/-!
The workflow example as a system. Clients send tasks to the scheduler, which forwards
them to the compiler, and this one to the submitter; each program is a loop that receives
in automatic mode from a queue of its own and goes on to its next message when something
fails. The result of a task is sent to the destination that the task names. A task is
lost when a send fails, when it does not compile, or when the broker pushed it to a
receive that returned another one; but none is doubled, mixed up or overtaken.
-/

namespace Mqss.QrmWorkflow
open Mqss.Machine Mqss.Conveyor List
open QOffload.Service (accepted)

/-- The names of the queues. -/
structure QueueConfig where
  scheduler : String
  compiler : String
  results : String
  submitter : String
  deriving DecidableEq

/-- The queues that the programs receive from. -/
def QueueConfig.own (queues : QueueConfig) : List String := [queues.scheduler, queues.compiler, queues.submitter]

/-- What the programs run with. `behind` is what stands behind the variable of the shots at
    each job, and `misread` what a receive of a task makes of a result that was sent to its
    queue. -/
structure Site where
  queues : QueueConfig
  library : CompilerLibrary
  devices : List Device
  behind : Nat → Option UInt32
  misread : QuantumResult → Option QuantumTask

/-- A message in a queue. -/
inductive Payload
  | task (task : QuantumTask)
  | result (result : QuantumResult)

def Payload.task? : Payload → Option QuantumTask
  | .task sent => some sent
  | .result _ => none

/-- `receive<QuantumTask>` on the next message. -/
def Payload.decode (misread : QuantumResult → Option QuantumTask) : Payload → Option QuantumTask
  | .task sent => some sent
  | .result sent => misread sent

/-- The loop of the compiler. -/
inductive Compiler
  | idle
  | received (task : QuantumTask)
  | compiled (task : QuantumTask)

/-- The loop of the submitter; the process ends when it reads outside of a container. -/
inductive Submitter
  | idle
  | received (task : QuantumTask)
  | executed (task : QuantumTask) (result : QuantumResult)
  | crashed

/-- The queues, the loops of the three programs, and the number of jobs submitted so far. -/
structure Workflow where
  queues : String → List Payload := fun _ => []
  scheduler : Option QuantumTask := none
  compiler : Compiler := .idle
  submitter : Submitter := .idle
  submitted : Nat := 0

inductive Program
  | scheduler | compiler | submitter
  deriving DecidableEq

def Program.queue (queues : QueueConfig) : Program → String
  | .scheduler => queues.scheduler
  | .compiler => queues.compiler
  | .submitter => queues.submitter

namespace Workflow

def put (s : Workflow) (queue : String) (message : Payload) : Workflow :=
  { s with queues := Function.update s.queues queue (s.queues queue ++ [message]) }

/-- The transport accepts a message, or refuses it. -/
def send (s : Workflow) (queue : String) (message : Payload) (fault : Bool) : Workflow :=
  if accepted queue fault then s.put queue message else s

/-- A program is at the head of its loop. -/
def waits (s : Workflow) : Program → Bool
  | .scheduler => s.scheduler.isNone
  | .compiler =>
    match s.compiler with
    | .idle => true
    | _ => false
  | .submitter =>
    match s.submitter with
    | .idle => true
    | _ => false

/-- A program still receives. -/
def runs (s : Workflow) : Program → Bool
  | .submitter =>
    match s.submitter with
    | .crashed => false
    | _ => true
  | _ => true

/-- A program has received a task. -/
def load (s : Workflow) (task : QuantumTask) : Program → Workflow
  | .scheduler => { s with scheduler := some task }
  | .compiler => { s with compiler := .received task }
  | .submitter => { s with submitter := .received task }

/-- A message leaves its queue. -/
def take (s : Workflow) (queue : String) (rest : List Payload) : Workflow :=
  { s with queues := Function.update s.queues queue rest }

end Workflow

/-- A receive that times out or fails leaves its program idle and is no step; a send says
    whether the transport fails. -/
inductive Event
  /-- A client, such as the daemon, sends a task to the scheduler. -/
  | submit (task : QuantumTask) (fault : Bool)
  | receive (program : Program)
  /-- The broker pushes a message to a receive that returns another one, or none. -/
  | discard (program : Program)
  | forward (fault : Bool)
  | compile (fd : Nat → Int) (iteration : Iteration)
  | forwardCompiled (fault : Bool)
  | execute (rounds : Nat)
  | report (fault : Bool)

def step (site : Site) (s : Workflow) : Event → Option Workflow
  | .submit task fault => some (s.send site.queues.scheduler (.task task) fault)
  | .receive program =>
    if s.waits program then
      match s.queues (program.queue site.queues) with
      | [] => none
      | message :: rest =>
        match message.decode site.misread with
        | none => some (s.take (program.queue site.queues) rest)
        | some task => some ((s.take (program.queue site.queues) rest).load task program)
    else none
  | .discard program =>
    if s.runs program then
      match s.queues (program.queue site.queues) with
      | [] => none
      | _ :: rest => some (s.take (program.queue site.queues) rest)
    else none
  | .forward fault =>
    match s.scheduler with
    | none => none
    | some task => some ({ s with scheduler := none }.send site.queues.compiler (.task task) fault)
  | .compile fd iteration =>
    match s.compiler with
    | .received task =>
      match applyOptimizationPasses site.library fd iteration task with
      | .ok compiled => some { s with compiler := .compiled compiled }
      | .error _ => some { s with compiler := .idle }
    | _ => none
  | .forwardCompiled fault =>
    match s.compiler with
    | .compiled task => some ({ s with compiler := .idle }.send site.queues.submitter (.task task) fault)
    | _ => none
  | .execute rounds =>
    match s.submitter with
    | .received task =>
      match createAndSubmitQDMIJobToQDMIDevice site.devices site.behind s.submitted task rounds with
      | .returned result => some { s with submitter := .executed task result, submitted := s.submitted + 1 }
      | .outOfBounds => some { s with submitter := .crashed }
      | .running => none
    | _ => none
  | .report fault =>
    match s.submitter with
    | .executed task result => some ({ s with submitter := .idle }.send task.result_destination (.result result) fault)
    | _ => none

/-- The tasks accepted from clients and the results sent to their destinations. -/
inductive Seen
  | accepted (task : QuantumTask)
  | reported (destination : String) (result : QuantumResult)

def seen (site : Site) (s : Workflow) : Event → List Seen
  | .submit task fault => if accepted site.queues.scheduler fault then [.accepted task] else []
  | .report fault =>
    match s.submitter with
    | .executed task result =>
      if accepted task.result_destination fault then [.reported task.result_destination result] else []
    | _ => []
  | _ => []

/-- Everything a step can do, with what it found and what is seen of it. -/
inductive Change (site : Site) (s : Workflow) : Event → Workflow → List Seen → Prop
  | submitted {task fault} :
      Change site s (.submit task fault) (s.put site.queues.scheduler (.task task)) [.accepted task]
  | refused {task fault} : Change site s (.submit task fault) s []
  | received {program message rest task} (idle : s.waits program = true)
      (front : s.queues (program.queue site.queues) = message :: rest) (read : message.decode site.misread = some task) :
      Change site s (.receive program) ((s.take (program.queue site.queues) rest).load task program) []
  | unread {program message rest} (front : s.queues (program.queue site.queues) = message :: rest)
      (unread : message.decode site.misread = none) :
      Change site s (.receive program) (s.take (program.queue site.queues) rest) []
  | discarded {program message rest} (front : s.queues (program.queue site.queues) = message :: rest) :
      Change site s (.discard program) (s.take (program.queue site.queues) rest) []
  | forwarded {task fault} (hand : s.scheduler = some task) :
      Change site s (.forward fault) ({ s with scheduler := none }.put site.queues.compiler (.task task)) []
  | unforwarded {task fault} (hand : s.scheduler = some task) (refused : accepted site.queues.compiler fault = false) :
      Change site s (.forward fault) { s with scheduler := none } []
  | compiled {fd iteration task compiled} (hand : s.compiler = .received task)
      (ran : applyOptimizationPasses site.library fd iteration task = .ok compiled) :
      Change site s (.compile fd iteration) { s with compiler := .compiled compiled } []
  | threw {fd iteration task what} (hand : s.compiler = .received task)
      (ran : applyOptimizationPasses site.library fd iteration task = .error what) :
      Change site s (.compile fd iteration) { s with compiler := .idle } []
  | submittedOn {task fault} (hand : s.compiler = .compiled task) :
      Change site s (.forwardCompiled fault) ({ s with compiler := .idle }.put site.queues.submitter (.task task)) []
  | unsubmitted {task fault} (hand : s.compiler = .compiled task)
      (refused : accepted site.queues.submitter fault = false) :
      Change site s (.forwardCompiled fault) { s with compiler := .idle } []
  | executed {rounds task result} (hand : s.submitter = .received task)
      (ran : createAndSubmitQDMIJobToQDMIDevice site.devices site.behind s.submitted task rounds = .returned result) :
      Change site s (.execute rounds) { s with submitter := .executed task result, submitted := s.submitted + 1 } []
  | crashed {rounds task} (hand : s.submitter = .received task)
      (ran : createAndSubmitQDMIJobToQDMIDevice site.devices site.behind s.submitted task rounds = .outOfBounds) :
      Change site s (.execute rounds) { s with submitter := .crashed } []
  | reported {task result fault} (hand : s.submitter = .executed task result) :
      Change site s (.report fault) ({ s with submitter := .idle }.put task.result_destination (.result result))
        [.reported task.result_destination result]
  | unreported {task result fault} (hand : s.submitter = .executed task result)
      (refused : accepted task.result_destination fault = false) :
      Change site s (.report fault) { s with submitter := .idle } []

theorem step_change {site : Site} {s t : Workflow} {e : Event} (stepped : step site s e = some t) :
    Change site s e t (seen site s e) := by
  cases e with
  | submit task fault =>
    obtain rfl := Option.some.inj stepped
    simp only [seen, Workflow.send]
    split
    · exact .submitted
    · exact .refused
  | receive program =>
    simp only [step] at stepped
    split at stepped
    · rename_i idle
      split at stepped
      · cases stepped
      · rename_i message rest front
        split at stepped
        · rename_i unread
          obtain rfl := Option.some.inj stepped
          exact .unread front unread
        · rename_i task read
          obtain rfl := Option.some.inj stepped
          exact .received idle front read
    · cases stepped
  | discard program =>
    simp only [step] at stepped
    split at stepped
    · split at stepped
      · cases stepped
      · rename_i message rest front
        obtain rfl := Option.some.inj stepped
        exact .discarded front
    · cases stepped
  | forward fault =>
    cases hand : s.scheduler with
    | none => simp [step, hand] at stepped
    | some task =>
      simp only [step, hand, Option.some.injEq] at stepped
      subst stepped
      unfold Workflow.send
      split
      · exact .forwarded hand
      · rename_i refused
        exact .unforwarded hand (by simpa using refused)
  | compile fd iteration =>
    cases hand : s.compiler with
    | received task =>
      simp only [step, hand] at stepped
      split at stepped
      · rename_i compiled ran
        obtain rfl := Option.some.inj stepped
        exact .compiled hand ran
      · rename_i what ran
        obtain rfl := Option.some.inj stepped
        exact .threw hand ran
    | _ => simp [step, hand] at stepped
  | forwardCompiled fault =>
    cases hand : s.compiler with
    | compiled task =>
      simp only [step, hand, Option.some.injEq] at stepped
      subst stepped
      unfold Workflow.send
      split
      · exact .submittedOn hand
      · rename_i refused
        exact .unsubmitted hand (by simpa using refused)
    | _ => simp [step, hand] at stepped
  | execute rounds =>
    cases hand : s.submitter with
    | received task =>
      simp only [step, hand] at stepped
      split at stepped
      · rename_i result ran
        obtain rfl := Option.some.inj stepped
        exact .executed hand ran
      · rename_i ran
        obtain rfl := Option.some.inj stepped
        exact .crashed hand ran
      · cases stepped
    | _ => simp [step, hand] at stepped
  | report fault =>
    cases hand : s.submitter with
    | executed task result =>
      simp only [step, hand, Option.some.injEq] at stepped
      subst stepped
      simp only [seen, hand, Workflow.send]
      split
      · exact .reported hand
      · rename_i refused
        exact .unreported hand (by simpa using refused)
    | _ => simp [step, hand] at stepped

/-! ### The belt -/

/-- A task as its client sent it, a task that was compiled, and a result for a destination. -/
inductive Item
  | raw (task : QuantumTask)
  | compiled (task : QuantumTask)
  | result (destination : String) (result : QuantumResult)

/-- A result is that of a task: for its destination, of a job that the submitter ran for
    what the compiler made of the task. -/
def Serves (site : Site) (destination : String) (result : QuantumResult) (task : QuantumTask) : Prop :=
  destination = task.result_destination ∧ ∃ fd compiled submitted rounds,
    Compiled site.library fd task compiled ∧
      createAndSubmitQDMIJobToQDMIDevice site.devices site.behind submitted compiled rounds = .returned result

/-- What an item was made of. -/
def Stems (site : Site) : Item → QuantumTask → Prop
  | .raw task, origin => task = origin
  | .compiled task, origin => ∃ fd, Compiled site.library fd origin task
  | .result destination result, origin => Serves site destination result origin

def Seen.task? : Seen → Option QuantumTask
  | .accepted task => some task
  | .reported _ _ => none

def Seen.report? : Seen → Option (String × QuantumResult)
  | .accepted _ => none
  | .reported destination result => some (destination, result)

/-- The tasks that the clients' sends got accepted, in order. -/
def tasks (trace : List Seen) : List QuantumTask := trace.filterMap Seen.task?

/-- The results that were sent, in order, with their destinations. -/
def reports (trace : List Seen) : List (String × QuantumResult) := trace.filterMap Seen.report?

def results (trace : List Seen) : List Item := (reports trace).map fun report => .result report.1 report.2

def Compiler.items : Compiler → List Item
  | .idle => []
  | .received task => [.raw task]
  | .compiled task => [.compiled task]

def Submitter.items : Submitter → List Item
  | .idle | .crashed => []
  | .received task => [.compiled task]
  | .executed task result => [.result task.result_destination result]

namespace Workflow

/-- The tasks that wait in a queue. -/
def waiting (queues : String → List Payload) (queue : String) : List QuantumTask :=
  (queues queue).filterMap Payload.task?

/-- Everything that is under way, from the submitter back to the scheduler. -/
def belt (queues : QueueConfig) (s : Workflow) : List Item :=
  s.submitter.items ++ ((waiting s.queues queues.submitter).map .compiled ++ (s.compiler.items ++
    ((waiting s.queues queues.compiler).map .raw ++ (s.scheduler.toList.map .raw ++
      (waiting s.queues queues.scheduler).map .raw))))

@[simp] theorem put_queues (s : Workflow) (queue : String) (message : Payload) :
    (s.put queue message).queues = Function.update s.queues queue (s.queues queue ++ [message]) := rfl
@[simp] theorem put_scheduler (s : Workflow) (queue : String) (message : Payload) :
    (s.put queue message).scheduler = s.scheduler := rfl
@[simp] theorem put_compiler (s : Workflow) (queue : String) (message : Payload) :
    (s.put queue message).compiler = s.compiler := rfl
@[simp] theorem put_submitter (s : Workflow) (queue : String) (message : Payload) :
    (s.put queue message).submitter = s.submitter := rfl
@[simp] theorem take_queues (s : Workflow) (queue : String) (rest : List Payload) :
    (s.take queue rest).queues = Function.update s.queues queue rest := rfl
@[simp] theorem take_scheduler (s : Workflow) (queue : String) (rest : List Payload) :
    (s.take queue rest).scheduler = s.scheduler := rfl
@[simp] theorem take_compiler (s : Workflow) (queue : String) (rest : List Payload) :
    (s.take queue rest).compiler = s.compiler := rfl
@[simp] theorem take_submitter (s : Workflow) (queue : String) (rest : List Payload) :
    (s.take queue rest).submitter = s.submitter := rfl

theorem waiting_put (queues : String → List Payload) (queue : String) (task : QuantumTask) :
    waiting (Function.update queues queue (queues queue ++ [.task task])) queue = waiting queues queue ++ [task] := by
  simp [waiting, Payload.task?]

theorem waiting_take (queues : String → List Payload) (queue : String) (rest : List Payload) :
    waiting (Function.update queues queue rest) queue = rest.filterMap Payload.task? := by
  simp [waiting]

theorem waiting_other (queues : String → List Payload) {queue other : String} (apart : other ≠ queue)
    (messages : List Payload) : waiting (Function.update queues queue messages) other = waiting queues other := by
  simp [waiting, apart]

end Workflow

/-- A step that loses a task. -/
def Loses (site : Site) (s : Workflow) : Event → Prop
  | .discard _ => True
  | .forward fault => accepted site.queues.compiler fault = false
  | .compile fd iteration => ∃ task what, s.compiler = .received task ∧
      applyOptimizationPasses site.library fd iteration task = .error what
  | .forwardCompiled fault => accepted site.queues.submitter fault = false
  | .execute rounds => ∃ task, s.submitter = .received task ∧
      createAndSubmitQDMIJobToQDMIDevice site.devices site.behind s.submitted task rounds = .outOfBounds
  | .report fault => ∃ task result, s.submitter = .executed task result ∧ accepted task.result_destination fault = false
  | _ => False

/-- What a step does to the belt. -/
inductive Moves (site : Site) (s : Workflow) (e : Event) (t : Workflow) (trace : List Seen) : Prop
  | loaded (task : QuantumTask) (shown : trace = [.accepted task])
      (belt : t.belt site.queues = s.belt site.queues ++ [.raw task])
  | kept (none : tasks trace = []) (belt : results trace ++ t.belt site.queues = s.belt site.queues)
  | worked (before after : List Item) (item made : Item) (silent : trace = [])
      (belt : s.belt site.queues = before ++ item :: after) (now : t.belt site.queues = before ++ made :: after)
      (works : ∀ origin, Stems site item origin → Stems site made origin)
  | lost (loses : Loses site s e) (silent : trace = []) (fewer : (t.belt site.queues).Sublist (s.belt site.queues))

/-- The three queues are different ones, and hold tasks only. -/
structure Plain (queues : QueueConfig) (held : String → List Payload) : Prop where
  apart : queues.own.Nodup
  tasks : ∀ queue ∈ queues.own, ∀ message ∈ held queue, ∃ task, message = .task task

/-- What the submitter has executed goes to none of the three queues. -/
def SendsElsewhere (queues : QueueConfig) (s : Workflow) : Prop :=
  ∀ task result, s.submitter = .executed task result → task.result_destination ∉ queues.own

theorem own_apart {queues : QueueConfig} (apart : queues.own.Nodup) :
    queues.scheduler ≠ queues.compiler ∧ queues.scheduler ≠ queues.submitter ∧ queues.compiler ≠ queues.submitter := by
  simp only [QueueConfig.own, nodup_cons, mem_cons, not_or] at apart
  exact ⟨apart.1.1, apart.1.2.1, apart.2.1.1⟩

/-- A queue that holds tasks only is what waits in it. -/
theorem waiting_cons {queues : QueueConfig} {held : String → List Payload} (plain : Plain queues held) {queue : String}
    (own : queue ∈ queues.own) {message : Payload} {rest : List Payload} (front : held queue = message :: rest) :
    ∃ task, message = .task task ∧ Workflow.waiting held queue = task :: rest.filterMap Payload.task? := by
  obtain ⟨task, rfl⟩ := plain.tasks queue own message (by rw [front]; exact mem_cons_self)
  exact ⟨task, rfl, by simp [Workflow.waiting, front, Payload.task?]⟩

theorem program_own (queues : QueueConfig) (program : Program) : program.queue queues ∈ queues.own := by
  cases program <;> simp [Program.queue, QueueConfig.own]

theorem destination_apart {queues : QueueConfig} {destination : String} (elsewhere : destination ∉ queues.own) :
    queues.scheduler ≠ destination ∧ queues.compiler ≠ destination ∧ queues.submitter ≠ destination := by
  simp only [QueueConfig.own, mem_cons, not_mem_nil, or_false, not_or] at elsewhere
  exact ⟨Ne.symm elsewhere.1, Ne.symm elsewhere.2.1, Ne.symm elsewhere.2.2⟩

/-- A program that waits has nothing in hand. -/
theorem waits_hand {s : Workflow} {program : Program} (idle : s.waits program = true) :
    match program with
    | .scheduler => s.scheduler = none
    | .compiler => s.compiler = .idle
    | .submitter => s.submitter = .idle := by
  cases program with
  | scheduler => simpa [Workflow.waits] using idle
  | compiler => cases hand : s.compiler <;> simp [Workflow.waits, hand] at idle ⊢
  | submitter => cases hand : s.submitter <;> simp [Workflow.waits, hand] at idle ⊢

open Workflow in
theorem step_moves {site : Site} {s t : Workflow} {e : Event} {trace : List Seen} (plain : Plain site.queues s.queues)
    (elsewhere : SendsElsewhere site.queues s) (change : Change site s e t trace) : Moves site s e t trace := by
  obtain ⟨sc, ss, cs⟩ := own_apart plain.apart
  cases change with
  | @submitted task fault =>
    refine .loaded task rfl ?_
    simp [belt, waiting_put, waiting_other _ sc.symm, waiting_other _ ss.symm]
  | refused => exact .kept rfl rfl
  | @received program message rest task idle front read =>
    obtain ⟨_, rfl, here⟩ := waiting_cons plain (program_own site.queues program) front
    obtain rfl := Option.some.inj read
    have hand := waits_hand idle
    refine .kept rfl ?_
    cases program with
    | scheduler =>
      simp only [Program.queue] at here hand ⊢
      simp [belt, results, reports, load, waiting_take, waiting_other _ sc.symm, waiting_other _ ss.symm, hand, here]
    | compiler =>
      simp only [Program.queue] at here hand ⊢
      simp [belt, results, reports, load, waiting_take, waiting_other _ sc, waiting_other _ cs.symm, hand, here,
        Compiler.items]
    | submitter =>
      simp only [Program.queue] at here hand ⊢
      simp [belt, results, reports, load, waiting_take, waiting_other _ ss, waiting_other _ cs, hand, here,
        Submitter.items]
  | @unread program message rest front unread =>
    obtain ⟨_, rfl, _⟩ := waiting_cons plain (program_own site.queues program) front
    cases unread
  | @discarded program message rest front =>
    obtain ⟨task, rfl, here⟩ := waiting_cons plain (program_own site.queues program) front
    refine .lost trivial rfl ?_
    cases program with
    | scheduler =>
      simp only [Program.queue] at here ⊢
      simp [belt, waiting_take, waiting_other _ sc.symm, waiting_other _ ss.symm, here]
    | compiler =>
      simp only [Program.queue] at here ⊢
      simp [belt, waiting_take, waiting_other _ sc, waiting_other _ cs.symm, here]
    | submitter =>
      simp only [Program.queue] at here ⊢
      simp [belt, waiting_take, waiting_other _ ss, waiting_other _ cs, here]
  | forwarded hand =>
    refine .kept rfl ?_
    simp [belt, results, reports, waiting_put, waiting_other _ sc, waiting_other _ cs.symm, hand]
  | unforwarded hand refused => exact .lost refused rfl (by simp [belt, hand])
  | @compiled fd iteration task compiled hand ran =>
    refine .worked (s.submitter.items ++ (waiting s.queues site.queues.submitter).map .compiled)
      ((waiting s.queues site.queues.compiler).map .raw ++ (s.scheduler.toList.map .raw ++
        (waiting s.queues site.queues.scheduler).map .raw)) (.raw task) (.compiled compiled) rfl ?_ ?_ ?_
    · simp [belt, hand, Compiler.items]
    · simp [belt, Compiler.items]
    · rintro origin rfl
      exact ⟨fd, compiled_in_place ran⟩
  | threw hand ran => exact .lost ⟨_, _, hand, ran⟩ rfl (by simp [belt, hand, Compiler.items])
  | submittedOn hand =>
    refine .kept rfl ?_
    simp [belt, results, reports, waiting_put, waiting_other _ ss, waiting_other _ cs, hand, Compiler.items]
  | unsubmitted hand refused => exact .lost refused rfl (by simp [belt, hand, Compiler.items])
  | @executed rounds task result hand ran =>
    refine .worked [] ((waiting s.queues site.queues.submitter).map .compiled ++ (s.compiler.items ++
      ((waiting s.queues site.queues.compiler).map .raw ++ (s.scheduler.toList.map .raw ++
        (waiting s.queues site.queues.scheduler).map .raw)))) (.compiled task)
      (.result task.result_destination result) rfl ?_ ?_ ?_
    · simp [belt, hand, Submitter.items]
    · simp [belt, Submitter.items]
    · rintro origin ⟨fd, compiled⟩
      refine ⟨?_, fd, task, s.submitted, rounds, compiled, ran⟩
      rw [compiled.others]
  | crashed hand ran => exact .lost ⟨_, hand, ran⟩ rfl (by simp [belt, hand, Submitter.items])
  | @reported task result fault hand =>
    obtain ⟨ds, dc, du⟩ := destination_apart (elsewhere task result hand)
    refine .kept rfl ?_
    simp [belt, results, reports, Seen.report?, waiting_other _ ds, waiting_other _ dc, waiting_other _ du, hand,
      Submitter.items]
  | unreported hand refused => exact .lost ⟨_, _, hand, refused⟩ rfl (by simp [belt, hand, Submitter.items])

/-! ### The three queues -/

variable {queues : QueueConfig} {held : String → List Payload}

theorem plain_put (plain : Plain queues held) (queue : String) (task : QuantumTask) :
    Plain queues (Function.update held queue (held queue ++ [.task task])) := by
  refine ⟨plain.apart, fun other own message member => ?_⟩
  by_cases same : other = queue
  · subst same
    rw [Function.update_self, mem_append] at member
    rcases member with old | new
    · exact plain.tasks other own message old
    · exact ⟨task, mem_singleton.mp new⟩
  · rw [Function.update_of_ne same] at member
    exact plain.tasks other own message member

theorem plain_elsewhere (plain : Plain queues held) {queue : String} (elsewhere : queue ∉ queues.own)
    (messages : List Payload) : Plain queues (Function.update held queue messages) := by
  refine ⟨plain.apart, fun other own message member => ?_⟩
  have apart : other ≠ queue := by
    rintro rfl
    exact elsewhere own
  rw [Function.update_of_ne apart] at member
  exact plain.tasks other own message member

theorem plain_take (plain : Plain queues held) {queue : String} {message : Payload} {rest : List Payload}
    (front : held queue = message :: rest) : Plain queues (Function.update held queue rest) := by
  refine ⟨plain.apart, fun other own left member => ?_⟩
  by_cases same : other = queue
  · subst same
    rw [Function.update_self] at member
    exact plain.tasks other own left (by rw [front]; exact mem_cons_of_mem _ member)
  · rw [Function.update_of_ne same] at member
    exact plain.tasks other own left member

theorem step_plain {site : Site} {s t : Workflow} {e : Event} {trace : List Seen} (plain : Plain site.queues s.queues)
    (elsewhere : SendsElsewhere site.queues s) (change : Change site s e t trace) : Plain site.queues t.queues := by
  cases change with
  | submitted => exact plain_put plain _ _
  | @received program message rest task idle front =>
    have taken := plain_take plain front
    cases program <;> exact taken
  | unread front | discarded front => exact plain_take plain front
  | forwarded | submittedOn => exact plain_put plain _ _
  | reported hand => exact plain_elsewhere plain (elsewhere _ _ hand) _
  | _ => exact plain

/-! ### What comes of the tasks -/

/-- A task that a client submits names none of the three queues. -/
def NamesOther (queues : QueueConfig) : Event → Prop
  | .submit task _ => task.result_destination ∉ queues.own
  | _ => True

/-- The results sent and everything under way are made of accepted tasks, in their order. -/
structure Conveys (site : Site) (trace : List Seen) (s : Workflow) : Prop where
  plain : Plain site.queues s.queues
  image : SublistForall₂ (Stems site) (results trace ++ s.belt site.queues) (tasks trace)
  elsewhere : ∀ task ∈ tasks trace, task.result_destination ∉ site.queues.own

variable {site : Site} {s t : Workflow} {trace : List Seen} {e : Event}

theorem tasks_append (trace more : List Seen) : tasks (trace ++ more) = tasks trace ++ tasks more :=
  filterMap_append
theorem results_append (trace more : List Seen) : results (trace ++ more) = results trace ++ results more := by
  simp [results, reports]

theorem Conveys.sendsElsewhere (conveys : Conveys site trace s) : SendsElsewhere site.queues s := by
  intro task result hand
  have onBelt : Item.result task.result_destination result ∈ results trace ++ s.belt site.queues := by
    simp [Workflow.belt, hand, Submitter.items]
  obtain ⟨origin, among, serves⟩ := image_stems conveys.image onBelt
  rw [serves.1]
  exact conveys.elsewhere origin among

theorem step_conveys {more : List Seen} (conveys : Conveys site trace s) (names : NamesOther site.queues e)
    (change : Change site s e t more) : Conveys site (trace ++ more) t := by
  have sends := conveys.sendsElsewhere
  have image := conveys.image
  have elsewhere : ∀ task ∈ tasks (trace ++ more), task.result_destination ∉ site.queues.own := by
    intro task member
    rw [tasks_append, mem_append] at member
    rcases member with old | new
    · exact conveys.elsewhere task old
    · cases change with
      | submitted =>
        obtain rfl := mem_singleton.mp new
        exact names
      | _ => cases new
  refine ⟨step_plain conveys.plain sends change, ?_, elsewhere⟩
  rw [tasks_append, results_append]
  cases step_moves conveys.plain sends change with
  | loaded task shown belt =>
    have none : results [.accepted task] = [] := rfl
    have one : tasks [.accepted task] = [task] := rfl
    rw [shown, belt, none, one, append_nil, ← append_assoc]
    exact image_load image rfl
  | kept none belt =>
    rw [none, append_nil, append_assoc, belt]
    exact image
  | worked before after item made silent belt now works =>
    rw [silent, now]
    rw [belt, ← append_assoc] at image
    simpa [results, reports, tasks] using image_work image works
  | lost _ silent fewer =>
    rw [silent]
    simpa [results, reports, tasks] using image_lose image (fewer.append_left (results trace))

theorem Serves.task_id {destination : String} {result : QuantumResult} {task : QuantumTask}
    (serves : Serves site destination result task) : result.task_id = task.task_id := by
  obtain ⟨_, _, compiled, _, _, made, ran⟩ := serves
  obtain ⟨_, _, _, _, _, _, _, _, _, rfl⟩ := createAndSubmit_returned.mp ran
  rw [made.others]

/-- In every run, whatever fails in it, as long as the three queues are different and no task
    names one of them, the results that were sent are those of some of the accepted tasks,
    in the order in which the tasks were accepted and of each task once. -/
theorem results_follow_tasks {es : List Event} (apart : site.queues.own.Nodup)
    (names : ∀ e ∈ es, NamesOther site.queues e) (ran : run (step site) {} es = some s) :
    SublistForall₂ (fun report task => Serves site report.1 report.2 task) (reports (history (step site) (seen site) {} es))
      (tasks (history (step site) (seen site) {} es)) := by
  have start : Conveys site [] {} := ⟨⟨apart, by simp⟩, .nil, by simp [tasks]⟩
  have keeps : ∀ trace s e next, Conveys site trace s → NamesOther site.queues e → step site s e = some next →
      Conveys site (trace ++ seen site s e) next :=
    fun _ _ _ _ conveys other stepped => step_conveys conveys other (step_change stepped)
  have conveys := history_invariant keeps start (along_of_events names _) ran
  have sent := image_lose conveys.image (sublist_append_left _ _)
  exact sublistForall₂_map_left_iff.mp sent

/-- The queues of the example's default configuration. -/
def defaultQueues : QueueConfig where
  scheduler := "scheduler.tasks.queue"
  compiler := "compiler.tasks.queue"
  results := "test.results.queue"
  submitter := "submitter.tasks.queue"

/-- Where modules are their paths, and every job sees both states once. -/
def bench : Site where
  queues := defaultQueues
  library := pathLibrary
  devices := [evenDevice, evenDevice, evenDevice]
  behind := zeroBehind
  misread _ := none

/-- The task of the daemon. -/
def daemonTask (queues : QueueConfig) (benchmark : String) : QuantumTask where
  task_id := 111
  n_qbits := 2
  n_shots := 0
  optimisation_level := 1
  result_destination := queues.results
  preferred_qpu := "planqc"
  circuit_files := [benchmark]
  circuit_file_type := "cpp"

/-- A task goes all the way. -/
def throughput (task : QuantumTask) : List Event :=
  [.submit task false, .receive .scheduler, .forward false, .receive .compiler, .compile (fun _ => 3) backwards,
    .forwardCompiled false, .receive .submitter, .execute 3, .report false]

def daemonRun : List Event := throughput (daemonTask defaultQueues "bell_state.mlir")

theorem daemonRun_answered : ∃ s, run (step bench) {} daemonRun = some s ∧
    (reports (history (step bench) (seen bench) {} daemonRun)).length = 1 ∧
    SublistForall₂ (fun report task => Serves bench report.1 report.2 task)
      (reports (history (step bench) (seen bench) {} daemonRun)) [daemonTask defaultQueues "bell_state.mlir"] := by
  have names : ∀ e ∈ daemonRun, NamesOther bench.queues e := by
    simp [daemonRun, throughput, NamesOther, daemonTask, defaultQueues, bench, QueueConfig.own]
  exact ⟨_, rfl, rfl, @results_follow_tasks bench _ daemonRun (by decide) names rfl⟩

end Mqss.QrmWorkflow
