import Mqss.Config
import Mqss.Forward

/-!
The configuration of the service. Defaults are overridden by environment variables, one
after the other, and the first value that cannot be read ends the loading with an error
that names the variable. The code's sequence of overrides is a list of settings, one for
each field, so it can be said without the sequence what is loaded and what is refused.
-/

namespace Mqss.QOffload.Configuration
open Mqss.Settings Mqss.Config

/-- RabbitMQ connection settings. -/
@[ext] structure RabbitMqConfig where
  host : String
  port : Int32
  user : String
  password : String
  vhost : String
  deriving DecidableEq

/-- Queue names used by the Task, Control, and QRM interfaces. -/
@[ext] structure QueueConfig where
  request : String
  control_request : String
  result : String
  qrm_task : String
  deriving DecidableEq

@[ext] structure IdentityConfig where
  instance_uid : UInt64
  user_identity : String
  deriving DecidableEq

inductive LogLevel
  | Trace | Debug | Info | Warning | Error | Critical | Off
  deriving DecidableEq

inductive LogFileMode
  | Append | Truncate | Rotate
  deriving DecidableEq

@[ext] structure LoggingConfig where
  enabled : Bool
  console_enabled : Bool
  file_enabled : Bool
  level : LogLevel
  file_mode : LogFileMode
  rotation_size : UInt64
  rotation_files : UInt64
  deriving DecidableEq

@[ext] structure PathConfig where
  runtime_dir : String
  log_dir : String
  state_file : String
  deriving DecidableEq

@[ext] structure PolicyConfig where
  hpc_node : Bool
  resume_state : Bool
  deriving DecidableEq

/-- Complete process configuration. -/
@[ext] structure Config where
  rabbitmq : RabbitMqConfig
  qrm_rabbitmq : RabbitMqConfig
  queues : QueueConfig
  identity : IdentityConfig
  logging : LoggingConfig
  paths : PathConfig
  policy : PolicyConfig
  deriving DecidableEq

/-! ### The code -/

/-- The configuration from the generated defaults; the paths are those of the build. -/
def makeDefaultConfig (paths : PathConfig) : Config where
  rabbitmq :=
    { host := "localhost"
      port := 5672
      user := "guest"
      password := "guest"
      vhost := "/" }
  qrm_rabbitmq :=
    { host := "127.0.0.1"
      port := 5672
      user := "guest"
      password := "guest"
      vhost := "/" }
  queues :=
    { request := "qoffload_request_reception_queue"
      control_request := "qoffload_api_request_reception_queue"
      result := "qoffload_result_reception_queue"
      qrm_task := "quantum_task_collection_queue" }
  identity :=
    { instance_uid := 0
      user_identity := "qoffload_user" }
  logging :=
    { enabled := true
      console_enabled := true
      file_enabled := false
      level := .Info
      file_mode := .Rotate
      rotation_size := 10 * 1024 * 1024
      rotation_files := 3 }
  paths := paths
  policy :=
    { hpc_node := false
      resume_state := false }

/-- Parses a configured log level. -/
def parseLogLevel (value : String) : Result LogLevel :=
  if value = "trace" then .ok .Trace
  else if value = "debug" then .ok .Debug
  else if value = "info" then .ok .Info
  else if value = "warning" ∨ value = "warn" then .ok .Warning
  else if value = "error" then .ok .Error
  else if value = "critical" then .ok .Critical
  else if value = "off" then .ok .Off
  else .error (.configuration "Invalid value for QOFFLOAD_LOG_LEVEL")

/-- Parses a configured file logging mode. -/
def parseLogFileMode (value : String) : Result LogFileMode :=
  if value = "append" then .ok .Append
  else if value = "truncate" then .ok .Truncate
  else if value = "rotate" then .ok .Rotate
  else .error (.configuration "Invalid value for QOFFLOAD_LOG_FILE_MODE")

def overrideLogLevel (env : Env) (config : Config) : Result Config :=
  match getEnv env ["QOFFLOAD_LOG_LEVEL"] with
  | some value => (parseLogLevel value).map ({ config with logging.level := · })
  | none => .ok config

def overrideLogFileMode (env : Env) (config : Config) : Result Config :=
  match getEnv env ["QOFFLOAD_LOG_FILE_MODE"] with
  | some value => (parseLogFileMode value).map ({ config with logging.file_mode := · })
  | none => .ok config

/-- Applies the environment-variable overrides; a failed one ends them. -/
def applyEnvironment (env : Env) (config : Config) : Result Config := do
  let config ← .ok { config with rabbitmq.host := getEnvOr env ["QOFFLOAD_AMQP_HOST"] config.rabbitmq.host }
  let config ← (getEnvOrInteger env ["QOFFLOAD_AMQP_PORT"] config.rabbitmq.port).map
    ({ config with rabbitmq.port := · })
  let config ← .ok { config with rabbitmq.user := getEnvOr env ["QOFFLOAD_AMQP_USER"] config.rabbitmq.user }
  let config ← .ok { config with rabbitmq.password := getEnvOr env ["QOFFLOAD_AMQP_PASSWORD"] config.rabbitmq.password }
  let config ← .ok { config with rabbitmq.vhost := getEnvOr env ["QOFFLOAD_AMQP_VHOST"] config.rabbitmq.vhost }
  let config ← .ok { config with qrm_rabbitmq.host := getEnvOr env ["QRM_AMQP_HOST"] config.qrm_rabbitmq.host }
  let config ← (getEnvOrInteger env ["QRM_AMQP_PORT"] config.qrm_rabbitmq.port).map
    ({ config with qrm_rabbitmq.port := · })
  let config ← .ok { config with qrm_rabbitmq.user := getEnvOr env ["QRM_AMQP_USER"] config.qrm_rabbitmq.user }
  let config ← .ok { config with
    qrm_rabbitmq.password := getEnvOr env ["QRM_AMQP_PASSWORD"] config.qrm_rabbitmq.password }
  let config ← .ok { config with qrm_rabbitmq.vhost := getEnvOr env ["QRM_AMQP_VHOST"] config.qrm_rabbitmq.vhost }
  let config ← .ok { config with queues.request := getEnvOr env ["QOFFLOAD_REQUEST_QUEUE"] config.queues.request }
  let control_request :=
    getEnvOr env ["QOFFLOAD_CONTROL_REQUEST_QUEUE", "QOFFLOAD_API_REQUEST_QUEUE"] config.queues.control_request
  let config ← .ok { config with queues.control_request := control_request }
  let config ← .ok { config with queues.result := getEnvOr env ["QOFFLOAD_RESULT_QUEUE"] config.queues.result }
  let config ← .ok { config with queues.qrm_task := getEnvOr env ["QRM_TASK_QUEUE"] config.queues.qrm_task }
  let config ← (getEnvOrInteger env ["QOFFLOAD_INSTANCE_UID", "QOFFLOAD_DAEMON_UID"] config.identity.instance_uid).map
    ({ config with identity.instance_uid := · })
  let config ← .ok { config with
    identity.user_identity := getEnvOr env ["QOFFLOAD_USER_IDENTITY"] config.identity.user_identity }
  let config ← (getEnvOrBool env ["QOFFLOAD_LOG_ENABLED"] config.logging.enabled).map
    ({ config with logging.enabled := · })
  let config ← (getEnvOrBool env ["QOFFLOAD_LOG_CONSOLE_ENABLED"] config.logging.console_enabled).map
    ({ config with logging.console_enabled := · })
  let config ← (getEnvOrBool env ["QOFFLOAD_LOG_FILE_ENABLED"] config.logging.file_enabled).map
    ({ config with logging.file_enabled := · })
  let config ← overrideLogLevel env config
  let config ← overrideLogFileMode env config
  let config ← (getEnvOrInteger env ["QOFFLOAD_LOG_ROTATION_SIZE"] config.logging.rotation_size).map
    ({ config with logging.rotation_size := · })
  let config ← (getEnvOrInteger env ["QOFFLOAD_LOG_ROTATION_FILES"] config.logging.rotation_files).map
    ({ config with logging.rotation_files := · })
  let config ← .ok { config with paths.runtime_dir := getEnvOr env ["QOFFLOAD_RUNTIME_DIR"] config.paths.runtime_dir }
  let config ← .ok { config with paths.log_dir := getEnvOr env ["QOFFLOAD_LOG_DIR"] config.paths.log_dir }
  let config ← .ok { config with paths.state_file := getEnvOr env ["QOFFLOAD_STATE_FILE"] config.paths.state_file }
  let config ← (getEnvOrBool env ["QOFFLOAD_HPC_NODE"] config.policy.hpc_node).map
    ({ config with policy.hpc_node := · })
  let config ← (getEnvOrBool env ["QOFFLOAD_RESUME_STATE"] config.policy.resume_state).map
    ({ config with policy.resume_state := · })
  return config

/-- Command-line overrides: none. -/
def applyCommandLine (config : Config) (_arguments : List String) : Result Config := .ok config

/-- Loads the configuration from defaults, environment, then command-line options. -/
def loadConfig (paths : PathConfig) (env : Env) (arguments : List String) : Result Config := do
  let config ← applyEnvironment env (makeDefaultConfig paths)
  applyCommandLine config arguments

/-! ### The settings -/

theorem getEnv_eq (env : Env) (names : List String) : getEnv env names = names.findSome? env := by
  induction names with
  | nil => rfl
  | cons name names ih =>
    rw [getEnv, List.findSome?_cons, ih]
    cases env name <;> rfl

/-- A setting whose value is its text. -/
def stringSetting (names : List String) (field : Field Config String) : Setting Config Status where
  Value := String
  field := field
  names := names
  read := .ok
  text := id
  read_text _ := rfl

def integerSetting {Integer : Type} [Integral Integer] (names : List String) (field : Field Config Integer) :
    Setting Config Status where
  Value := Integer
  field := field
  names := names
  read text :=
    match Integral.fromChars text with
    | some result => .ok result
    | none => .error (invalidInteger names)
  text := Integral.text
  read_text value := by rw [Integral.fromChars_text]

def boolSetting (names : List String) (field : Field Config Bool) : Setting Config Status where
  Value := Bool
  field := field
  names := names
  read text :=
    if text ∈ truths then .ok true
    else if text ∈ falsehoods then .ok false
    else .error (invalidBoolean names)
  text value := if value then "true" else "false"
  read_text value := by cases value <;> rfl

def LogLevel.text : LogLevel → String
  | .Trace => "trace"
  | .Debug => "debug"
  | .Info => "info"
  | .Warning => "warning"
  | .Error => "error"
  | .Critical => "critical"
  | .Off => "off"

def LogFileMode.text : LogFileMode → String
  | .Append => "append"
  | .Truncate => "truncate"
  | .Rotate => "rotate"

def levelSetting : Setting Config Status where
  Value := LogLevel
  field := ⟨(·.logging.level), fun level config => { config with logging.level := level }, fun _ _ => rfl⟩
  names := ["QOFFLOAD_LOG_LEVEL"]
  read := parseLogLevel
  text := LogLevel.text
  read_text level := by cases level <;> rfl

def modeSetting : Setting Config Status where
  Value := LogFileMode
  field := ⟨(·.logging.file_mode), fun mode config => { config with logging.file_mode := mode }, fun _ _ => rfl⟩
  names := ["QOFFLOAD_LOG_FILE_MODE"]
  read := parseLogFileMode
  text := LogFileMode.text
  read_text mode := by cases mode <;> rfl

/-- The settings in the order of their overrides. -/
def settings : List (Setting Config Status) :=
  [stringSetting ["QOFFLOAD_AMQP_HOST"]
      ⟨(·.rabbitmq.host), fun host config => { config with rabbitmq.host := host }, fun _ _ => rfl⟩,
    integerSetting ["QOFFLOAD_AMQP_PORT"]
      ⟨(·.rabbitmq.port), fun port config => { config with rabbitmq.port := port }, fun _ _ => rfl⟩,
    stringSetting ["QOFFLOAD_AMQP_USER"]
      ⟨(·.rabbitmq.user), fun user config => { config with rabbitmq.user := user }, fun _ _ => rfl⟩,
    stringSetting ["QOFFLOAD_AMQP_PASSWORD"]
      ⟨(·.rabbitmq.password), fun word config => { config with rabbitmq.password := word }, fun _ _ => rfl⟩,
    stringSetting ["QOFFLOAD_AMQP_VHOST"]
      ⟨(·.rabbitmq.vhost), fun vhost config => { config with rabbitmq.vhost := vhost }, fun _ _ => rfl⟩,
    stringSetting ["QRM_AMQP_HOST"]
      ⟨(·.qrm_rabbitmq.host), fun host config => { config with qrm_rabbitmq.host := host }, fun _ _ => rfl⟩,
    integerSetting ["QRM_AMQP_PORT"]
      ⟨(·.qrm_rabbitmq.port), fun port config => { config with qrm_rabbitmq.port := port }, fun _ _ => rfl⟩,
    stringSetting ["QRM_AMQP_USER"]
      ⟨(·.qrm_rabbitmq.user), fun user config => { config with qrm_rabbitmq.user := user }, fun _ _ => rfl⟩,
    stringSetting ["QRM_AMQP_PASSWORD"]
      ⟨(·.qrm_rabbitmq.password), fun word config => { config with qrm_rabbitmq.password := word }, fun _ _ => rfl⟩,
    stringSetting ["QRM_AMQP_VHOST"]
      ⟨(·.qrm_rabbitmq.vhost), fun vhost config => { config with qrm_rabbitmq.vhost := vhost }, fun _ _ => rfl⟩,
    stringSetting ["QOFFLOAD_REQUEST_QUEUE"]
      ⟨(·.queues.request), fun queue config => { config with queues.request := queue }, fun _ _ => rfl⟩,
    stringSetting ["QOFFLOAD_CONTROL_REQUEST_QUEUE", "QOFFLOAD_API_REQUEST_QUEUE"]
      ⟨(·.queues.control_request), fun queue config => { config with queues.control_request := queue }, fun _ _ => rfl⟩,
    stringSetting ["QOFFLOAD_RESULT_QUEUE"]
      ⟨(·.queues.result), fun queue config => { config with queues.result := queue }, fun _ _ => rfl⟩,
    stringSetting ["QRM_TASK_QUEUE"]
      ⟨(·.queues.qrm_task), fun queue config => { config with queues.qrm_task := queue }, fun _ _ => rfl⟩,
    integerSetting ["QOFFLOAD_INSTANCE_UID", "QOFFLOAD_DAEMON_UID"]
      ⟨(·.identity.instance_uid), fun uid config => { config with identity.instance_uid := uid }, fun _ _ => rfl⟩,
    stringSetting ["QOFFLOAD_USER_IDENTITY"]
      ⟨(·.identity.user_identity), fun user config => { config with identity.user_identity := user }, fun _ _ => rfl⟩,
    boolSetting ["QOFFLOAD_LOG_ENABLED"]
      ⟨(·.logging.enabled), fun on config => { config with logging.enabled := on }, fun _ _ => rfl⟩,
    boolSetting ["QOFFLOAD_LOG_CONSOLE_ENABLED"]
      ⟨(·.logging.console_enabled), fun on config => { config with logging.console_enabled := on }, fun _ _ => rfl⟩,
    boolSetting ["QOFFLOAD_LOG_FILE_ENABLED"]
      ⟨(·.logging.file_enabled), fun on config => { config with logging.file_enabled := on }, fun _ _ => rfl⟩,
    levelSetting,
    modeSetting,
    integerSetting ["QOFFLOAD_LOG_ROTATION_SIZE"]
      ⟨(·.logging.rotation_size), fun size config => { config with logging.rotation_size := size }, fun _ _ => rfl⟩,
    integerSetting ["QOFFLOAD_LOG_ROTATION_FILES"]
      ⟨(·.logging.rotation_files), fun files config => { config with logging.rotation_files := files }, fun _ _ => rfl⟩,
    stringSetting ["QOFFLOAD_RUNTIME_DIR"]
      ⟨(·.paths.runtime_dir), fun dir config => { config with paths.runtime_dir := dir }, fun _ _ => rfl⟩,
    stringSetting ["QOFFLOAD_LOG_DIR"]
      ⟨(·.paths.log_dir), fun dir config => { config with paths.log_dir := dir }, fun _ _ => rfl⟩,
    stringSetting ["QOFFLOAD_STATE_FILE"]
      ⟨(·.paths.state_file), fun file config => { config with paths.state_file := file }, fun _ _ => rfl⟩,
    boolSetting ["QOFFLOAD_HPC_NODE"]
      ⟨(·.policy.hpc_node), fun node config => { config with policy.hpc_node := node }, fun _ _ => rfl⟩,
    boolSetting ["QOFFLOAD_RESUME_STATE"]
      ⟨(·.policy.resume_state), fun resume config => { config with policy.resume_state := resume }, fun _ _ => rfl⟩]

/-- Each setting leaves the fields of the others. -/
theorem settings_apart : settings.Pairwise Setting.Apart := by
  unfold settings
  repeat' first
    | exact List.Pairwise.nil
    | exact List.forall_mem_nil _
    | refine List.Pairwise.cons ?_ ?_
    | refine List.forall_mem_cons.mpr ⟨⟨fun _ _ => rfl, fun _ _ => rfl⟩, ?_⟩

theorem settings_whole : Whole settings := by
  intro one other same
  simp only [settings, List.forall_mem_cons] at same
  obtain ⟨host, port, user, password, vhost, qrm_host, qrm_port, qrm_user, qrm_password, qrm_vhost, request,
    control_request, result, qrm_task, uid, identity, enabled, console, file, level, mode, size, files, runtime, log,
    state, node, resume, _⟩ := same
  exact Config.ext (RabbitMqConfig.ext host port user password vhost)
    (RabbitMqConfig.ext qrm_host qrm_port qrm_user qrm_password qrm_vhost)
    (QueueConfig.ext request control_request result qrm_task) (IdentityConfig.ext uid identity)
    (LoggingConfig.ext enabled console file level mode size files) (PathConfig.ext runtime log state)
    (PolicyConfig.ext node resume)

theorem settings_distinct : Distinct settings := by
  constructor
  · decide +kernel
  · unfold settings
    repeat' first
      | exact List.forall_mem_nil _
      | refine List.forall_mem_cons.mpr ⟨List.cons_ne_nil _ _, ?_⟩

/-- The error of a value that cannot be read: it ends with the first one of the variables. -/
def NamesVariable (names : List String) (status : Status) : Prop :=
  ∃ what ∈ ["Invalid integer value for ", "Invalid boolean value for ", "Invalid value for "],
    status = .configuration (what ++ first names)

theorem string_refuses (names : List String) (field : Field Config String) (text : String) (status : Status)
    (unread : (stringSetting names field).read text = .error status) : NamesVariable names status := by
  cases unread

theorem integer_refuses {Integer : Type} [Integral Integer] (names : List String) (field : Field Config Integer)
    (text : String) (status : Status) (unread : (integerSetting names field).read text = .error status) :
    NamesVariable names status := by
  simp only [integerSetting] at unread
  split at unread
  · cases unread
  · obtain rfl := Except.error.inj unread
    exact ⟨_, by simp, rfl⟩

theorem bool_refuses (names : List String) (field : Field Config Bool) (text : String) (status : Status)
    (unread : (boolSetting names field).read text = .error status) : NamesVariable names status := by
  simp only [boolSetting] at unread
  split at unread
  · cases unread
  · split at unread
    · cases unread
    · obtain rfl := Except.error.inj unread
      exact ⟨"Invalid boolean value for ", by simp, rfl⟩

theorem level_refuses (text : String) (status : Status) (unread : levelSetting.read text = .error status) :
    NamesVariable levelSetting.names status := by
  simp only [levelSetting, parseLogLevel] at unread
  repeat' split at unread
  all_goals cases unread
  exact ⟨"Invalid value for ", by simp, rfl⟩

theorem mode_refuses (text : String) (status : Status) (unread : modeSetting.read text = .error status) :
    NamesVariable modeSetting.names status := by
  simp only [modeSetting, parseLogFileMode] at unread
  repeat' split at unread
  all_goals cases unread
  exact ⟨"Invalid value for ", by simp, rfl⟩

/-- Every error names the variable that it is about. -/
theorem settings_refuse : ∀ setting ∈ settings, ∀ text status,
    setting.read text = .error status → NamesVariable setting.names status := by
  unfold settings
  repeat' first
    | exact List.forall_mem_nil _
    | refine List.forall_mem_cons.mpr ⟨string_refuses _ _, ?_⟩
    | refine List.forall_mem_cons.mpr ⟨integer_refuses _ _, ?_⟩
    | refine List.forall_mem_cons.mpr ⟨bool_refuses _ _, ?_⟩
    | refine List.forall_mem_cons.mpr ⟨level_refuses, ?_⟩
    | refine List.forall_mem_cons.mpr ⟨mode_refuses, ?_⟩

section
variable {env : Env} {config : Config}

theorem string_value (names : List String) (field : Field Config String) :
    (stringSetting names field).value env config = .ok (getEnvOr env names (field.get config)) := by
  have given : (stringSetting names field).given env = names.findSome? env := rfl
  rw [Setting.value, given, getEnvOr, getEnv_eq]
  cases names.findSome? env <;> rfl

theorem integer_value {Integer : Type} [Integral Integer] (names : List String) (field : Field Config Integer) :
    (integerSetting names field).value env config = getEnvOrInteger env names (field.get config) := by
  have given : (integerSetting names field).given env = names.findSome? env := rfl
  rw [Setting.value, given, getEnvOrInteger, getEnv_eq]
  cases names.findSome? env <;> rfl

theorem string_step (names : List String) (field : Field Config String) :
    (stringSetting names field).apply env config = .ok (field.set (getEnvOr env names (field.get config)) config) :=
  congrArg (Except.map fun value => field.set value config) (string_value names field)

theorem integer_step {Integer : Type} [Integral Integer] (names : List String) (field : Field Config Integer) :
    (integerSetting names field).apply env config =
      (getEnvOrInteger env names (field.get config)).map (field.set · config) :=
  congrArg (Except.map fun value => field.set value config) (integer_value names field)

theorem bool_step (names : List String) (field : Field Config Bool) :
    (boolSetting names field).apply env config = (getEnvOrBool env names (field.get config)).map (field.set · config) := by
  have given : (boolSetting names field).given env = names.findSome? env := rfl
  rw [Setting.apply, Setting.value, given, getEnvOrBool, getEnv_eq]
  cases names.findSome? env <;> rfl

/-- One override after another. -/
theorem load_step {setting : Setting Config Status} {rest : List (Setting Config Status)} {first : Result Config}
    {later : Config → Result Config} (here : setting.apply env config = first)
    (after : ∀ config, later config = load env rest config) : (first >>= later) = load env (setting :: rest) config := by
  rw [load_cons, here]
  congr 1
  exact funext after

theorem load_last {setting : Setting Config Status} {first : Result Config}
    (here : setting.apply env config = first) : first = load env [setting] config := by
  rw [load_cons, here]
  cases first <;> rfl

theorem level_step : levelSetting.apply env config = overrideLogLevel env config := by
  have given : levelSetting.given env = List.findSome? env ["QOFFLOAD_LOG_LEVEL"] := rfl
  rw [Setting.apply, Setting.value, given, overrideLogLevel, getEnv_eq]
  cases List.findSome? env ["QOFFLOAD_LOG_LEVEL"] <;> rfl

theorem mode_step : modeSetting.apply env config = overrideLogFileMode env config := by
  have given : modeSetting.given env = List.findSome? env ["QOFFLOAD_LOG_FILE_MODE"] := rfl
  rw [Setting.apply, Setting.value, given, overrideLogFileMode, getEnv_eq]
  cases List.findSome? env ["QOFFLOAD_LOG_FILE_MODE"] <;> rfl
end

/-- The overrides are the settings. -/
theorem applyEnvironment_eq (env : Env) (config : Config) : applyEnvironment env config = load env settings config := by
  unfold applyEnvironment settings
  repeat' first
    | refine load_step (string_step _ _) fun config => ?_
    | refine load_step (integer_step _ _) fun config => ?_
    | refine load_step (bool_step _ _) fun config => ?_
    | refine load_step level_step fun config => ?_
    | refine load_step mode_step fun config => ?_
    | exact load_last (bool_step _ _)

theorem loadConfig_eq (paths : PathConfig) (env : Env) (arguments : List String) :
    loadConfig paths env arguments = load env settings (makeDefaultConfig paths) := by
  rw [loadConfig, applyEnvironment_eq]
  cases load env settings (makeDefaultConfig paths) <;> rfl

/-! ### What is loaded -/

/-- A configuration is loaded if and only if each of its fields is what its setting says: the
    value of the first defined variable of the setting, or the default where none is. -/
theorem loadConfig_eq_ok_iff (paths : PathConfig) (env : Env) (arguments : List String) (config : Config) :
    loadConfig paths env arguments = .ok config ↔
      ∀ setting ∈ settings, setting.value env (makeDefaultConfig paths) = .ok (setting.field.get config) := by
  rw [loadConfig_eq]
  exact load_eq_ok_iff settings_apart settings_whole

/-- Loading is refused because of the first override whose value cannot be read, and the
    error names the override's own variable. -/
theorem loadConfig_eq_error_iff (paths : PathConfig) (env : Env) (arguments : List String) (status : Status) :
    loadConfig paths env arguments = .error status ↔ ∃ before setting after text,
      settings = before ++ setting :: after ∧ (∀ earlier ∈ before, earlier.Reads env) ∧
        setting.given env = some text ∧ setting.read text = .error status ∧ NamesVariable setting.names status := by
  rw [loadConfig_eq, load_eq_error_iff]
  constructor
  · rintro ⟨before, setting, after, text, split, reads, given, unread⟩
    have member : setting ∈ settings := by
      rw [split]
      simp
    exact ⟨before, setting, after, text, split, reads, given, unread, settings_refuse setting member text status unread⟩
  · rintro ⟨before, setting, after, text, split, reads, given, unread, _⟩
    exact ⟨before, setting, after, text, split, reads, given, unread⟩

/-- A variable has no effect where every setting that it is an alias of is given by an
    earlier variable. -/
theorem hidden_variable_ignored (paths : PathConfig) (env : Env) (arguments : List String) (name : String)
    (value : Option String) (hidden : ∀ setting ∈ settings, setting.Hides env name) :
    loadConfig paths (Function.update env name value) arguments = loadConfig paths env arguments := by
  rw [loadConfig_eq, loadConfig_eq]
  exact load_update hidden

/-- Paths of a build. -/
def buildPaths : PathConfig := ⟨"run", "logs", "state.json"⟩

/-- An environment with the primary variable of the instance's uid. -/
def numbered : Env := fun name => if name = "QOFFLOAD_INSTANCE_UID" then some "7" else none

theorem numbered_alias_ignored : loadConfig buildPaths
    (Function.update numbered "QOFFLOAD_DAEMON_UID" (some "none")) [] = loadConfig buildPaths numbered [] :=
  hidden_variable_ignored buildPaths numbered [] "QOFFLOAD_DAEMON_UID" (some "none") (by decide +kernel)

/-- Every configuration can be loaded, whatever the paths of the build: from the environment
    in which each variable is the text of its field. -/
theorem every_config_loads (paths : PathConfig) (arguments : List String) (config : Config) :
    loadConfig paths (environment settings config) arguments = .ok config := by
  rw [loadConfig_eq]
  exact load_environment settings_apart settings_whole settings_distinct

end Mqss.QOffload.Configuration
