import Mqss.GateDefs
import Mqss.Histogram
import Mqss.Traversals

/-!
A task on its way through the workflow example. The compiler lowers every circuit file of
the task and puts the outcome in the place of the file; the submitter takes the task that
the compiler forwards, runs a job for its first circuit on the second device of the
session, and reports that one.
-/

namespace Mqss.QrmWorkflow
open Mqss.Traversals

/-! ### The compiler -/

/-- The passes that are added to the pass manager. -/
inductive Pass
  | O1
  | BasisConversion (gates : String)
  | QuakeToQASM2
  deriving DecidableEq

/-- The compiler library: parsed modules, null ones included, and the runs of a pass manager,
    which change a module and write a text, or throw. -/
structure CompilerLibrary where
  Module : Type
  parseSourceFile : String → Module
  run : List Pass → Module → Except String (Module × String)

/-- `fd` is what `mkstemp` returned. The second run of the pass manager has the passes of
    the first one still in it. -/
def lowerToOutputFormat (library : CompilerLibrary) (fd : Int) (src_path : String) (_opt_level : Int32)
    (target_qpu result_type : String) : Except String String :=
  if fd < 0 then .error "mkstemp failed"
  else do
    let (module, _) ← library.run [.O1] (library.parseSourceFile src_path)
    let gates := if target_qpu = "planqc" then "rx,cz,rz" else "phased_rx, cz"
    let output := if result_type = "OpenQasm2" then [Pass.QuakeToQASM2] else []
    let (_, result) ← library.run ([.O1, .BasisConversion gates] ++ output) module
    return result

/-- The order in which the entries of an unordered map are visited. -/
structure Iteration where
  visit : List (Nat × String) → List (Nat × String)
  all : ∀ entries, (visit entries).Perm entries

/-- One circuit file at its index, compiled. -/
def compileCircuit (library : CompilerLibrary) (fd : Nat → Int) (task : QuantumTask) (circuit : String × Nat) :
    Except String (Nat × String) := do
  let out_res ←
    lowerToOutputFormat library (fd circuit.2) circuit.1 task.optimisation_level task.preferred_qpu "OpenQasm2"
  return (circuit.2, stripSpuriousGateDefs out_res)

/-- The loop that fills `updated_circuit_files`. -/
def updatedCircuitFiles (library : CompilerLibrary) (fd : Nat → Int) (task : QuantumTask) :
    Except String (List (Nat × String)) :=
  task.circuit_files.zipIdx.mapM (compileCircuit library fd task)

def applyOptimizationPasses (library : CompilerLibrary) (fd : Nat → Int) (iteration : Iteration) (task : QuantumTask) :
    Except String QuantumTask := do
  let updated_circuit_files ← updatedCircuitFiles library fd task
  return { task with circuit_files := assign (iteration.visit updated_circuit_files) task.circuit_files }

/-! ### The submitter -/

/-- The histogram of a job: distinct states, each with a count. -/
structure Histogram where
  keys : List String
  counts : List UInt64
  distinct : keys.Nodup
  named : ∀ key ∈ keys, key ≠ ""
  plain : ∀ key ∈ keys, ',' ∉ key.toList
  paired : counts.length = keys.length

namespace Histogram

/-- The text of the result `QDMI_JOB_RESULT_HIST_KEYS`. -/
def key_list (histogram : Histogram) : String := ",".intercalate histogram.keys

/-- The index of the assembly passes the last state, and the counts fit into their field. -/
def Fits (histogram : Histogram) : Prop :=
  histogram.keys.length < 2 ^ 32 ∧ ∀ count ∈ histogram.counts, count.toNat < 2 ^ 31

/-- A result entry has the states of the histogram with their counts. -/
def IsIn (histogram : Histogram) (entry : CircuitResult) : Prop :=
  Shows entry.counts histogram.keys histogram.counts

end Histogram

inductive ProgramFormat
  | QASM2
  deriving DecidableEq

/-- The parameters of a job; a device reads the number of shots as a `size_t`. -/
structure Job where
  program_format : ProgramFormat
  program : String
  shotsnum : Option UInt64
  deriving DecidableEq

/-- A device: the histogram of every job submitted to it, by the number of the job. -/
structure Device where
  execute : Nat → Job → Histogram

/-- The eight bytes at a variable of four, its value first and what stands behind it after. -/
def eightBytes (num_shots : Int32) (behind : UInt32) : UInt64 :=
  behind.toUInt64 <<< 32 ||| num_shots.toUInt32.toUInt64

example : eightBytes 1024 0 = 1024 ∧ eightBytes 1024 1 = 4294968320 := by decide

/-- The job for a circuit. The number of shots is set when it is positive, as a parameter of
    `sizeof(size_t)` bytes at an `int`; the read goes past the end of the variable, into
    four bytes behind it, unless there are none that may be read. -/
def createJob (behind : Option UInt32) (task : QuantumTask) (circuit : String) : Option Job :=
  let num_shots := task.n_shots
  if 0 < num_shots then
    behind.map fun upper => { program_format := .QASM2, program := circuit, shotsnum := some (eightBytes num_shots upper) }
  else some { program_format := .QASM2, program := circuit, shotsnum := none }

/-- `submitted` is the number of jobs submitted before, and `behind` says for each job what
    stands behind the variable of the shots. -/
def createAndSubmitQDMIJobToQDMIDevice (devices : List Device) (behind : Nat → Option UInt32) (submitted : Nat)
    (task : QuantumTask) (rounds : Nat) : Outcome QuantumResult :=
  match devices[1]?, task.circuit_files[0]? with
  | some device, some circuit =>
    match createJob (behind submitted) task circuit with
    | some job =>
      let histogram := device.execute submitted job
      match assemble histogram.key_list histogram.counts rounds with
      | .returned counts =>
        .returned
          { task_id := task.task_id
            executed_circuits := [circuit]
            execution_status := false
            results := [⟨counts⟩] }
      | .outOfBounds => .outOfBounds
      | .running => .running
    | none => .outOfBounds
  | _, _ => .outOfBounds

/-! ### What is asked of them -/

/-- The forwarded task is the received one with every circuit file compiled in its place. -/
structure Compiled (library : CompilerLibrary) (fd : Nat → Int) (task forwarded : QuantumTask) : Prop where
  others : forwarded = { task with circuit_files := forwarded.circuit_files }
  circuits : List.Forall₂ (fun circuit compiled => ∃ out_res,
    lowerToOutputFormat library (fd circuit.2) circuit.1 task.optimisation_level task.preferred_qpu "OpenQasm2" =
      .ok out_res ∧ compiled = stripSpuriousGateDefs out_res) task.circuit_files.zipIdx forwarded.circuit_files

/-- The histogram of a job for a circuit, by the number of the job, on the second device. -/
def Measured (devices : List Device) (behind : Nat → Option UInt32) (task : QuantumTask) (circuit : String × Nat)
    (entry : CircuitResult) : Prop :=
  ∃ device job, devices[1]? = some device ∧ createJob (behind circuit.2) task circuit.1 = some job ∧
    (device.execute circuit.2 job).IsIn entry

/-- The result has every circuit of the task and the histogram of a job for each, in the
    order of the circuits. -/
structure Reports (devices : List Device) (behind : Nat → Option UInt32) (submitted : Nat) (task : QuantumTask)
    (result : QuantumResult) : Prop where
  task_id : result.task_id = task.task_id
  executed : result.executed_circuits = task.circuit_files
  results : List.Forall₂ (Measured devices behind task) (task.circuit_files.zipIdx submitted) result.results

/-- The session has a second device, the bytes behind the shots may be read if there are any
    shots, and the histogram of the job for a circuit fits. -/
def Measurable (devices : List Device) (behind : Nat → Option UInt32) (submitted : Nat) (task : QuantumTask)
    (circuit : String) : Prop :=
  ∃ device, devices[1]? = some device ∧ (0 < task.n_shots → (behind submitted).isSome) ∧
    ∀ job, createJob (behind submitted) task circuit = some job → (device.execute submitted job).Fits

/-- The task has one circuit file, and the job for what it is compiled to can be measured. -/
def OneCircuit (library : CompilerLibrary) (fd : Nat → Int) (devices : List Device) (behind : Nat → Option UInt32)
    (submitted : Nat) (task : QuantumTask) : Prop :=
  ∃ file, task.circuit_files = [file] ∧ ∀ out_res,
    lowerToOutputFormat library (fd 0) file task.optimisation_level task.preferred_qpu "OpenQasm2" = .ok out_res →
      Measurable devices behind submitted task (stripSpuriousGateDefs out_res)

/-! ### The compiled task -/

section
variable {library : CompilerLibrary} {fd : Nat → Int} {iteration : Iteration} {task forwarded : QuantumTask}

theorem compileCircuit_eq_ok {circuit : String × Nat} {entry : Nat × String} :
    compileCircuit library fd task circuit = .ok entry ↔ ∃ out_res,
      lowerToOutputFormat library (fd circuit.2) circuit.1 task.optimisation_level task.preferred_qpu "OpenQasm2" =
        .ok out_res ∧ entry = (circuit.2, stripSpuriousGateDefs out_res) := by
  rw [compileCircuit, bind_eq_ok]
  constructor
  · rintro ⟨out_res, lowered, made⟩
    exact ⟨out_res, lowered, (Except.ok.inj made).symm⟩
  · rintro ⟨out_res, lowered, rfl⟩
    exact ⟨out_res, lowered, rfl⟩

/-- Whatever the order of the updates, the compiled circuits stand where their files stood. -/
theorem compiled_in_place (ran : applyOptimizationPasses library fd iteration task = .ok forwarded) :
    Compiled library fd task forwarded := by
  obtain ⟨updated, updates, made⟩ := bind_eq_ok.mp ran
  obtain rfl := Except.ok.inj made
  have each := mapM_eq_ok.mp updates
  have numbered : updated.map Prod.fst = List.range task.circuit_files.length := by
    have indices : task.circuit_files.zipIdx.map Prod.snd = updated.map Prod.fst := by
      rw [← List.forall₂_eq_eq_eq, List.forall₂_map_left_iff, List.forall₂_map_right_iff]
      refine each.imp ?_
      intro circuit entry made
      obtain ⟨_, _, rfl⟩ := compileCircuit_eq_ok.mp made
      rfl
    rw [← indices, List.zipIdx_map_snd, List.range_eq_range']
  have placed := assign_all (iteration.all updated) numbered
  refine ⟨rfl, ?_⟩
  rw [placed, List.forall₂_map_right_iff]
  refine each.imp ?_
  intro circuit entry made
  obtain ⟨out_res, lowered, rfl⟩ := compileCircuit_eq_ok.mp made
  exact ⟨out_res, lowered, rfl⟩

theorem Compiled.length (compiled : Compiled library fd task forwarded) :
    forwarded.circuit_files.length = task.circuit_files.length := by
  rw [← compiled.circuits.length_eq, List.length_zipIdx]

theorem Compiled.measurable (compiled : Compiled library fd task forwarded) {devices : List Device}
    {behind : Nat → Option UInt32} {submitted : Nat} {circuit : String} :
    Measurable devices behind submitted forwarded circuit ↔ Measurable devices behind submitted task circuit := by
  rw [compiled.others]
  rfl
end

/-! ### The reported result -/

theorem Histogram.joins (histogram : Histogram) (small : ∀ count ∈ histogram.counts, count.toNat < 2 ^ 31) :
    Joins histogram.key_list histogram.counts histogram.keys :=
  ⟨rfl, histogram.distinct, histogram.named, histogram.plain, histogram.paired, small⟩

/-- The assembly returns a map that has the histogram if and only if the histogram fits. -/
theorem Histogram.assembled_iff (histogram : Histogram) :
    (∃ rounds counts, assemble histogram.key_list histogram.counts rounds = .returned counts ∧ histogram.IsIn ⟨counts⟩) ↔
      histogram.Fits := by
  have split : splitKeys histogram.key_list = histogram.keys :=
    splitKeys_intercalate histogram.named histogram.plain
  constructor
  · rintro ⟨rounds, counts, returned, shown⟩
    refine ⟨?_, Shows.small shown histogram.paired⟩
    by_contra many
    rw [assemble, split] at returned
    exact gather_endless (by omega) _ rounds 0 ∅ counts returned
  · rintro ⟨few, small⟩
    have passed : keyCount histogram.key_list < 2 ^ 32 := by rwa [← length_splitKeys, split]
    exact (exact_iff _ _).mpr (fun _ => passed) histogram.keys (histogram.joins small)

section
variable {devices : List Device} {behind : Nat → Option UInt32} {task : QuantumTask} {submitted : Nat} {circuit : String}

theorem createJob_isSome (upper : Option UInt32) :
    (createJob upper task circuit).isSome = true ↔ (0 < task.n_shots → upper.isSome = true) := by
  by_cases shots : 0 < task.n_shots <;> simp [createJob, shots]

/-- A job that can be measured is created, and its histogram fits. -/
theorem measurable_iff : Measurable devices behind submitted task circuit ↔ ∃ device job, devices[1]? = some device ∧
    createJob (behind submitted) task circuit = some job ∧ (device.execute submitted job).Fits := by
  constructor
  · rintro ⟨device, selected, readable, fits⟩
    obtain ⟨job, created⟩ := Option.isSome_iff_exists.mp ((createJob_isSome _).mpr readable)
    exact ⟨device, job, selected, created, fits job created⟩
  · rintro ⟨device, job, selected, created, fits⟩
    refine ⟨device, selected, (createJob_isSome _).mp (Option.isSome_iff_exists.mpr ⟨job, created⟩), ?_⟩
    intro other again
    obtain rfl := Option.some.inj (created.symm.trans again)
    exact fits

theorem createAndSubmit_returned {rounds : Nat} {result : QuantumResult} :
    createAndSubmitQDMIJobToQDMIDevice devices behind submitted task rounds = .returned result ↔
      ∃ device circuit others job counts, devices[1]? = some device ∧ task.circuit_files = circuit :: others ∧
        createJob (behind submitted) task circuit = some job ∧
        assemble (device.execute submitted job).key_list (device.execute submitted job).counts rounds = .returned counts ∧
        result = { task_id := task.task_id, executed_circuits := [circuit], results := [⟨counts⟩] } := by
  constructor
  · intro returned
    unfold createAndSubmitQDMIJobToQDMIDevice at returned
    split at returned
    · rename_i device circuit selected first
      split at returned
      · rename_i job created
        obtain ⟨others, files⟩ : ∃ others, task.circuit_files = circuit :: others := by
          cases files : task.circuit_files with
          | nil => simp [files] at first
          | cons file others => exact ⟨others, by simpa [files] using first⟩
        simp only at returned
        split at returned
        · rename_i counts assembled
          exact ⟨device, circuit, others, job, counts, selected, files, created, assembled,
            (Outcome.returned.inj returned).symm⟩
        · cases returned
        · cases returned
      · cases returned
    · cases returned
  · rintro ⟨device, circuit, others, job, counts, selected, files, created, assembled, rfl⟩
    simp [createAndSubmitQDMIJobToQDMIDevice, selected, files, created, assembled]

/-- Whatever the number of circuits, the first one alone is executed and reported. -/
theorem first_circuit_reported {others : List String} (files : task.circuit_files = circuit :: others)
    (measurable : Measurable devices behind submitted task circuit) :
    ∃ rounds result, createAndSubmitQDMIJobToQDMIDevice devices behind submitted task rounds = .returned result ∧
      result.executed_circuits = [circuit] ∧ ∃ entry, result.results = [entry] ∧
        Measured devices behind task (circuit, submitted) entry := by
  obtain ⟨device, job, selected, created, fits⟩ := measurable_iff.mp measurable
  obtain ⟨rounds, counts, assembled, shown⟩ := (Histogram.assembled_iff _).mpr fits
  exact ⟨rounds, _, createAndSubmit_returned.mpr ⟨device, circuit, others, job, counts, selected, files, created, assembled, rfl⟩,
    rfl, _, rfl, device, job, selected, created, shown⟩

/-- The submitter reports a task if and only if the task has one circuit, and the job for it
    can be measured. -/
theorem reported_iff :
    (∃ rounds result, createAndSubmitQDMIJobToQDMIDevice devices behind submitted task rounds = .returned result ∧
      Reports devices behind submitted task result) ↔
      ∃ circuit, task.circuit_files = [circuit] ∧ Measurable devices behind submitted task circuit := by
  constructor
  · rintro ⟨rounds, result, returned, reports⟩
    obtain ⟨device, circuit, others, job, counts, selected, files, created, assembled, rfl⟩ :=
      createAndSubmit_returned.mp returned
    obtain rfl : others = [] := by
      have executed : [circuit] = task.circuit_files := reports.executed
      rw [files, List.cons.injEq] at executed
      exact executed.2.symm
    have entries := reports.results
    rw [files] at entries
    obtain ⟨other, same, chosen, made, shown⟩ := (List.forall₂_cons.mp entries).1
    obtain rfl := Option.some.inj (selected.symm.trans chosen)
    obtain rfl := Option.some.inj (created.symm.trans made)
    exact ⟨circuit, files, measurable_iff.mpr ⟨device, job, selected, created,
      (Histogram.assembled_iff _).mp ⟨rounds, counts, assembled, shown⟩⟩⟩
  · rintro ⟨circuit, files, measurable⟩
    obtain ⟨device, job, selected, created, fits⟩ := measurable_iff.mp measurable
    obtain ⟨rounds, counts, assembled, shown⟩ := (Histogram.assembled_iff _).mpr fits
    refine ⟨rounds, _, createAndSubmit_returned.mpr ⟨device, circuit, [], job, counts, selected, files, created, assembled, rfl⟩,
      rfl, files.symm, ?_⟩
    rw [files]
    exact .cons ⟨device, job, selected, created, shown⟩ .nil
end

/-- A compiled task has every circuit in its place; the submitter reports every circuit of it
    if and only if there is one, with a job that can be measured. -/
theorem every_circuit_reported_iff {library : CompilerLibrary} {fd : Nat → Int} {iteration : Iteration}
    {task forwarded : QuantumTask} (devices : List Device) (behind : Nat → Option UInt32) (submitted : Nat)
    (compiled : applyOptimizationPasses library fd iteration task = .ok forwarded) :
    Compiled library fd task forwarded ∧
      ((∃ rounds result, createAndSubmitQDMIJobToQDMIDevice devices behind submitted forwarded rounds = .returned result ∧
        Reports devices behind submitted forwarded result) ↔ OneCircuit library fd devices behind submitted task) := by
  have placed := compiled_in_place compiled
  refine ⟨placed, ?_⟩
  rw [reported_iff]
  constructor
  · rintro ⟨circuit, files, measurable⟩
    have one := placed.length
    rw [files] at one
    obtain ⟨file, same⟩ := List.length_eq_one_iff.mp one.symm
    have circuits := placed.circuits
    rw [same, files] at circuits
    obtain ⟨out_res, lowered, rfl⟩ := (List.forall₂_cons.mp circuits).1
    refine ⟨file, same, ?_⟩
    intro other again
    rw [lowered] at again
    obtain rfl := Except.ok.inj again
    exact placed.measurable.mp measurable
  · rintro ⟨file, same, measurable⟩
    have circuits := placed.circuits
    rw [same] at circuits
    obtain ⟨circuit, others, ⟨out_res, lowered, rfl⟩, none, files⟩ := List.forall₂_cons_left_iff.mp circuits
    obtain rfl := List.forall₂_nil_left_iff.mp none
    exact ⟨_, files, placed.measurable.mpr (measurable out_res lowered)⟩

/-- A library whose modules are their paths, and that lowers a module to a comment. -/
def pathLibrary : CompilerLibrary where
  Module := String
  parseSourceFile := id
  run passes module :=
    .ok (module, if .QuakeToQASM2 ∈ passes then "OPENQASM 2.0;\n// " ++ module ++ "\n" else "")

def backwards : Iteration := ⟨List.reverse, List.reverse_perm⟩

/-- A device that sees both states of every job once. -/
def evenDevice : Device where
  execute _ _ :=
    { keys := ["00", "11"], counts := [1, 1], distinct := by decide, named := by decide, plain := by decide +kernel,
      paired := rfl }

theorem evenDevice_fits (submitted : Nat) (job : Job) : (evenDevice.execute submitted job).Fits := by
  refine ⟨show 2 < 2 ^ 32 by decide, ?_⟩
  intro count member
  obtain rfl : count = 1 := by simpa [evenDevice] using member
  decide

/-- The shots of every job are followed by four zero bytes. -/
def zeroBehind (_ : Nat) : Option UInt32 := some 0

theorem evenDevice_measures (task : QuantumTask) (submitted : Nat) (circuit : String) :
    Measurable [evenDevice, evenDevice, evenDevice] zeroBehind submitted task circuit :=
  ⟨evenDevice, rfl, fun _ => rfl, fun job _ => evenDevice_fits submitted job⟩

theorem bellState_reported : ∃ forwarded,
    applyOptimizationPasses pathLibrary (fun _ => 3) backwards
        { task_id := 5, n_shots := 1024, circuit_files := ["bell_state.mlir"] } = .ok forwarded ∧
      ∃ rounds result,
        createAndSubmitQDMIJobToQDMIDevice [evenDevice, evenDevice, evenDevice] zeroBehind 0 forwarded rounds =
            .returned result ∧
          Reports [evenDevice, evenDevice, evenDevice] zeroBehind 0 forwarded result := by
  refine ⟨_, rfl, ?_⟩
  have reported := (@every_circuit_reported_iff pathLibrary (fun _ => 3) backwards
    { task_id := 5, n_shots := 1024, circuit_files := ["bell_state.mlir"] } _ [evenDevice, evenDevice, evenDevice]
      zeroBehind 0 rfl).2
  exact reported.mpr ⟨"bell_state.mlir", rfl, fun _ _ => evenDevice_measures _ 0 _⟩

/-- Of two circuits that are compiled and forwarded, only one is in the result. -/
theorem second_circuit_unreported : ∃ forwarded,
    applyOptimizationPasses pathLibrary (fun _ => 3) backwards { circuit_files := ["first.mlir", "second.mlir"] } =
      .ok forwarded ∧ forwarded.circuit_files.length = 2 ∧
    (∃ rounds result,
      createAndSubmitQDMIJobToQDMIDevice [evenDevice, evenDevice, evenDevice] zeroBehind 0 forwarded rounds =
          .returned result ∧
        result.executed_circuits.length = 1 ∧ result.results.length = 1) ∧
    ¬ ∃ rounds result,
      createAndSubmitQDMIJobToQDMIDevice [evenDevice, evenDevice, evenDevice] zeroBehind 0 forwarded rounds =
          .returned result ∧
        Reports [evenDevice, evenDevice, evenDevice] zeroBehind 0 forwarded result := by
  obtain ⟨forwarded, ran⟩ : ∃ forwarded, applyOptimizationPasses pathLibrary (fun _ => 3) backwards
      { circuit_files := ["first.mlir", "second.mlir"] } = .ok forwarded := ⟨_, rfl⟩
  have two : forwarded.circuit_files.length = 2 := (compiled_in_place ran).length
  obtain ⟨first, second, files⟩ := List.length_eq_two.mp two
  refine ⟨forwarded, ran, two, ?_, ?_⟩
  · obtain ⟨rounds, result, returned, executed, entry, entries, _⟩ :=
      first_circuit_reported files (evenDevice_measures forwarded 0 first)
    exact ⟨rounds, result, returned, congrArg List.length executed, congrArg List.length entries⟩
  · rw [reported_iff, files]
    rintro ⟨circuit, one, _⟩
    cases one

end Mqss.QrmWorkflow
