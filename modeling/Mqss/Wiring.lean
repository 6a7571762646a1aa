import Mqss.Configuration
import Mqss.Installation

/-!
The service and the workflow in one environment. Each of the two loads a configuration of
its own, with defaults that differ and names that differ, and the workflow connects with
less than it has loaded. Which environments make one installation of the two is said here
by their variables alone.
-/

namespace Mqss.RabbitMq

/-- Configuration options for the RabbitMQ transport. -/
structure TransportOptions where
  host : String := "127.0.0.1"
  port : Int32 := 5672
  username : String := "guest"
  password : String := "guest"
  vhost : String := "/"
  deriving DecidableEq

/-- Where a connection goes; the credentials do not matter for it. -/
structure Broker (Host : Type) where
  host : Host
  port : Int32
  vhost : String

/-- `resolve` is what the names of hosts stand for. -/
def TransportOptions.broker {Host : Type} (resolve : String → Host) (options : TransportOptions) : Broker Host :=
  ⟨resolve options.host, options.port, options.vhost⟩

end Mqss.RabbitMq

namespace Mqss.QrmWorkflow
open Mqss.Settings Mqss.RabbitMq

/-! ### The workflow's configuration -/

structure RabbitMqConfig where
  host : String
  port : Int32
  user : String
  password : String
  vhost : String

structure LoggingConfig where
  log_dir : String
  daemon_logger : String
  scheduler_logger : String
  compiler_logger : String
  submitter_logger : String
  daemon_log : String
  scheduler_log : String
  compiler_log : String
  submitter_log : String

structure PathConfig where
  benchmark_dir : String
  qdmi_device_objs_dir : String := ""

structure QDMIDevices where
  qdmi_device_obj : String := ""
  qdmi_device_prefix : String := ""

structure Config where
  rabbitmq : RabbitMqConfig
  queues : QueueConfig
  logging : LoggingConfig
  paths : PathConfig
  devices : QDMIDevices := {}

/-- The paths of the build. -/
structure Defaults where
  log_dir : String
  benchmark_dir : String

def getEnvOr (env : Env) (name fallback : String) : String :=
  match env name with
  | some value => value
  | none => fallback

/-- A value that cannot be read is passed over. -/
def getEnvOrInteger (env : Env) (name : String) (fallback : Int32) : Int32 :=
  match env name with
  | some value =>
    match Mqss.Config.fromCharsInt32 value with
    | some result => result
    | none => fallback
  | none => fallback

/-- The path of a file in a directory. -/
def logPath (log_dir file_name : String) : String :=
  if log_dir = "" ∨ log_dir.toList.getLast? = some '/' then log_dir ++ file_name else log_dir ++ "/" ++ file_name

def loadConfig (defaults : Defaults) (env : Env) : Config :=
  let log_dir := getEnvOr env "QRM_LOG_DIR" defaults.log_dir
  { rabbitmq :=
      { host := getEnvOr env "QRM_AMQP_HOST" "localhost"
        port := getEnvOrInteger env "QRM_AMQP_PORT" 5672
        user := getEnvOr env "QRM_AMQP_USER" "myuser"
        password := getEnvOr env "QRM_AMQP_PASSWORD" "mypassword"
        vhost := getEnvOr env "QRM_AMQP_VHOST" "/" }
    queues :=
      { scheduler := getEnvOr env "QRM_SCHEDULER_QUEUE" "scheduler.tasks.queue"
        compiler := getEnvOr env "QRM_COMPILER_QUEUE" "compiler.tasks.queue"
        results := getEnvOr env "QRM_RESULTS_QUEUE" "test.results.queue"
        submitter := getEnvOr env "QRM_SUBMITTER_QUEUE" "submitter.tasks.queue" }
    logging :=
      { log_dir := log_dir
        daemon_logger := "mqss::Daemon"
        scheduler_logger := "mqss::Scheduler"
        compiler_logger := "mqss::Compiler"
        submitter_logger := "mqss::Submitter"
        daemon_log := logPath log_dir "daemon.log"
        scheduler_log := logPath log_dir "scheduler.log"
        compiler_log := logPath log_dir "compiler.log"
        submitter_log := logPath log_dir "submitter.log" }
    paths := { benchmark_dir := getEnvOr env "QRM_BENCHMARK_DIR" defaults.benchmark_dir } }

/-- The options that each of the four programs connects with; the virtual host stays the
    default one. -/
def opts (config : Config) : TransportOptions where
  host := config.rabbitmq.host
  port := config.rabbitmq.port
  username := config.rabbitmq.user
  password := config.rabbitmq.password

end Mqss.QrmWorkflow

namespace Mqss.QOffload.Configuration
open Mqss.Settings Mqss.Config Mqss.RabbitMq
open QrmWorkflow (Site)

def makeTransportOptions (config : RabbitMqConfig) : TransportOptions where
  host := config.host
  port := config.port
  username := config.user
  password := config.password
  vhost := config.vhost

/-- The part of the configuration that forwarding uses. -/
def Config.forwarding (config : Config) : QOffload.Config where
  request := config.queues.request
  control_request := config.queues.control_request
  qrm_task := config.queues.qrm_task
  result := config.queues.result
  hpc_node := config.policy.hpc_node

theorem forwarding_default (paths : PathConfig) : (makeDefaultConfig paths).forwarding = QOffload.makeDefaultConfig := rfl

/-- The tasks of the service reach the scheduler, and the results of the workflow reach
    the service: both directions go through one broker, and the queues are joined. -/
structure Reaches {Host : Type} (resolve : String → Host) (config : Config) (workflow : QrmWorkflow.Config)
    (site : Site) : Prop where
  tasks : (makeTransportOptions config.qrm_rabbitmq).broker resolve = (QrmWorkflow.opts workflow).broker resolve
  results : (makeTransportOptions config.rabbitmq).broker resolve = (QrmWorkflow.opts workflow).broker resolve
  joined : Installation.Joined config.forwarding { site with queues := workflow.queues }

/-- What the variables of an environment have to be: the programs' defaults differ in a host
    and in the queue of the tasks, and only the service looks at a virtual host. -/
structure Joins {Host : Type} (resolve : String → Host) (env : Env) : Prop where
  qrm_host : resolve ((env "QRM_AMQP_HOST").getD "127.0.0.1") = resolve ((env "QRM_AMQP_HOST").getD "localhost")
  host : resolve ((env "QOFFLOAD_AMQP_HOST").getD "localhost") = resolve ((env "QRM_AMQP_HOST").getD "localhost")
  port : QrmWorkflow.getEnvOrInteger env "QOFFLOAD_AMQP_PORT" 5672 = QrmWorkflow.getEnvOrInteger env "QRM_AMQP_PORT" 5672
  qrm_vhost : (env "QRM_AMQP_VHOST").getD "/" = "/"
  vhost : (env "QOFFLOAD_AMQP_VHOST").getD "/" = "/"
  queue : (env "QRM_TASK_QUEUE").getD "quantum_task_collection_queue" =
    (env "QRM_SCHEDULER_QUEUE").getD "scheduler.tasks.queue"
  apart : [(env "QOFFLOAD_RESULT_QUEUE").getD "qoffload_result_reception_queue",
    (env "QRM_SCHEDULER_QUEUE").getD "scheduler.tasks.queue", (env "QRM_COMPILER_QUEUE").getD "compiler.tasks.queue",
    (env "QRM_SUBMITTER_QUEUE").getD "submitter.tasks.queue"].Nodup

theorem getEnvOr_single (env : Env) (name fallback : String) : getEnvOr env [name] fallback = (env name).getD fallback := by
  unfold getEnvOr getEnv getEnv
  cases env name <;> rfl

theorem workflow_getEnvOr (env : Env) (name fallback : String) :
    QrmWorkflow.getEnvOr env name fallback = (env name).getD fallback := by
  unfold QrmWorkflow.getEnvOr
  cases env name <;> rfl

/-- What the service can read, the workflow reads as well. -/
theorem workflow_reads {env : Env} {name : String} {fallback value : Int32}
    (read : getEnvOrInteger env [name] fallback = .ok value) : QrmWorkflow.getEnvOrInteger env name fallback = value := by
  unfold getEnvOrInteger getEnv getEnv at read
  unfold QrmWorkflow.getEnvOrInteger
  cases given : env name with
  | none =>
    rw [given] at read
    exact Except.ok.inj read
  | some text =>
    rw [given] at read
    simp only [Integral.fromChars] at read ⊢
    cases parsed : fromCharsInt32 text with
    | none => simp [parsed] at read
    | some result => simpa [parsed] using read

/-- What a loaded configuration says about brokers and queues. -/
structure Loaded (env : Env) (config : Config) : Prop where
  host : config.rabbitmq.host = (env "QOFFLOAD_AMQP_HOST").getD "localhost"
  port : config.rabbitmq.port = QrmWorkflow.getEnvOrInteger env "QOFFLOAD_AMQP_PORT" 5672
  vhost : config.rabbitmq.vhost = (env "QOFFLOAD_AMQP_VHOST").getD "/"
  qrm_host : config.qrm_rabbitmq.host = (env "QRM_AMQP_HOST").getD "127.0.0.1"
  qrm_port : config.qrm_rabbitmq.port = QrmWorkflow.getEnvOrInteger env "QRM_AMQP_PORT" 5672
  qrm_vhost : config.qrm_rabbitmq.vhost = (env "QRM_AMQP_VHOST").getD "/"
  result : config.queues.result = (env "QOFFLOAD_RESULT_QUEUE").getD "qoffload_result_reception_queue"
  qrm_task : config.queues.qrm_task = (env "QRM_TASK_QUEUE").getD "quantum_task_collection_queue"

theorem string_loaded {env : Env} {config loaded : Config} {name : String} {field : Field Config String}
    (agrees : (stringSetting [name] field).value env config = .ok (field.get loaded)) :
    field.get loaded = (env name).getD (field.get config) := by
  rw [string_value, getEnvOr_single] at agrees
  exact (Except.ok.inj agrees).symm

theorem integer_loaded {env : Env} {config loaded : Config} {name : String} {field : Field Config Int32}
    (agrees : (integerSetting [name] field).value env config = .ok (field.get loaded)) :
    field.get loaded = QrmWorkflow.getEnvOrInteger env name (field.get config) := by
  rw [integer_value] at agrees
  exact (workflow_reads agrees).symm

theorem loaded_of_loadConfig {paths : PathConfig} {env : Env} {arguments : List String} {config : Config}
    (loads : loadConfig paths env arguments = .ok config) : Loaded env config := by
  rw [loadConfig_eq] at loads
  have agrees := agrees_of_load settings_apart loads
  simp only [settings, List.forall_mem_cons] at agrees
  obtain ⟨host, port, _, _, vhost, qrm_host, qrm_port, _, _, qrm_vhost, _, _, result, qrm_task, _⟩ := agrees
  exact ⟨string_loaded host, integer_loaded port, string_loaded vhost, string_loaded qrm_host, integer_loaded qrm_port,
    string_loaded qrm_vhost, string_loaded result, string_loaded qrm_task⟩

/-- The service and the workflow that are started in one environment work together if and
    only if its variables join them. -/
theorem reaches_iff {Host : Type} (resolve : String → Host) {paths : PathConfig} (defaults : QrmWorkflow.Defaults)
    {env : Env} {arguments : List String} {config : Config} (site : Site)
    (loads : loadConfig paths env arguments = .ok config) :
    Reaches resolve config (QrmWorkflow.loadConfig defaults env) site ↔ Joins resolve env := by
  have loaded := loaded_of_loadConfig loads
  have reserved : Installation.reserved config.forwarding
      { site with queues := (QrmWorkflow.loadConfig defaults env).queues } =
        [(env "QOFFLOAD_RESULT_QUEUE").getD "qoffload_result_reception_queue",
          (env "QRM_SCHEDULER_QUEUE").getD "scheduler.tasks.queue",
          (env "QRM_COMPILER_QUEUE").getD "compiler.tasks.queue",
          (env "QRM_SUBMITTER_QUEUE").getD "submitter.tasks.queue"] := by
    simp only [Installation.reserved, Config.forwarding, loaded.result, QrmWorkflow.QueueConfig.own,
      QrmWorkflow.loadConfig, workflow_getEnvOr]
  have tasks : (makeTransportOptions config.qrm_rabbitmq).broker resolve =
      ⟨resolve ((env "QRM_AMQP_HOST").getD "127.0.0.1"), QrmWorkflow.getEnvOrInteger env "QRM_AMQP_PORT" 5672,
        (env "QRM_AMQP_VHOST").getD "/"⟩ := by
    simp only [TransportOptions.broker, makeTransportOptions, loaded.qrm_host, loaded.qrm_port, loaded.qrm_vhost]
  have results : (makeTransportOptions config.rabbitmq).broker resolve =
      ⟨resolve ((env "QOFFLOAD_AMQP_HOST").getD "localhost"), QrmWorkflow.getEnvOrInteger env "QOFFLOAD_AMQP_PORT" 5672,
        (env "QOFFLOAD_AMQP_VHOST").getD "/"⟩ := by
    simp only [TransportOptions.broker, makeTransportOptions, loaded.host, loaded.port, loaded.vhost]
  have workflow : (QrmWorkflow.opts (QrmWorkflow.loadConfig defaults env)).broker resolve =
      ⟨resolve ((env "QRM_AMQP_HOST").getD "localhost"), QrmWorkflow.getEnvOrInteger env "QRM_AMQP_PORT" 5672, "/"⟩ := by
    simp only [TransportOptions.broker, QrmWorkflow.opts, QrmWorkflow.loadConfig, workflow_getEnvOr]
  have queue : (config.forwarding.qrm_task = (QrmWorkflow.loadConfig defaults env).queues.scheduler) =
      ((env "QRM_TASK_QUEUE").getD "quantum_task_collection_queue" =
        (env "QRM_SCHEDULER_QUEUE").getD "scheduler.tasks.queue") := by
    simp only [Config.forwarding, loaded.qrm_task, QrmWorkflow.loadConfig, workflow_getEnvOr]
  constructor
  · rintro ⟨sent, answered, joined, apart⟩
    rw [tasks, workflow, Broker.mk.injEq] at sent
    rw [results, workflow, Broker.mk.injEq] at answered
    rw [reserved] at apart
    exact ⟨sent.1, answered.1, answered.2.1, sent.2.2, answered.2.2, queue ▸ joined, apart⟩
  · rintro ⟨qrm_host, host, port, qrm_vhost, vhost, same, apart⟩
    refine ⟨?_, ?_, queue ▸ same, reserved ▸ apart⟩
    · rw [tasks, workflow, qrm_host, qrm_vhost]
    · rw [results, workflow, host, port, vhost]

/-- The only variable is the queue that the service forwards to. -/
def forwardsToScheduler : Env := fun name => if name = "QRM_TASK_QUEUE" then some "scheduler.tasks.queue" else none

/-- A host's own name for itself is an address; other names stand for themselves. -/
def loopback (host : String) : String := if host = "localhost" then "127.0.0.1" else host

/-- On one machine that is enough: the programs name it differently. -/
theorem forwardsToScheduler_reaches :
    Reaches loopback { makeDefaultConfig buildPaths with queues.qrm_task := "scheduler.tasks.queue" }
      (QrmWorkflow.loadConfig ⟨"logs", "benchmarks"⟩ forwardsToScheduler) QrmWorkflow.bench :=
  have loads : loadConfig buildPaths forwardsToScheduler [] =
    .ok { makeDefaultConfig buildPaths with queues.qrm_task := "scheduler.tasks.queue" } := rfl
  (reaches_iff loopback ⟨"logs", "benchmarks"⟩ QrmWorkflow.bench loads).mpr
    ⟨by decide, by decide, rfl, rfl, rfl, rfl, by decide⟩

end Mqss.QOffload.Configuration
