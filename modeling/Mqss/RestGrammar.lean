import Mqss.ControlProtocol
import Mqss.Segments

/-!
The requests of the REST-like protocol. The grammar says which commands a request
writes, by its path without outer slashes, its method and its data; the decoder
accepts what the grammar derives, but for create requests with a negative number
of shots.
-/

namespace Mqss.QOffload
open Mqss.Segments

/-! ### The grammar -/

/-- The path of a request without its leading and trailing slashes. -/
def Rest.path (request : APIRequest) : String := String.ofList (trim '/' request.request.toList)

/-- The data of a create request: each field has the type and the value of the command's. -/
structure CreateData (data : Struct) (command : CreateQuantumTaskCommand) : Prop where
  shots : data.find "shots" = some (.number (.finite command.shots.toInt))
  circuit : data.find "circuit" = some (.list (command.circuit_files.map Value.string))
  circuit_format : data.find "circuit_format" = some (.string command.circuit_format)
  resource_name : data.find "resource_name" = some (.string command.resource_name)
  no_modify : data.find "no_modify" = some (.boolean command.no_modify)

/-- The text is a decimal numeral of the id. -/
structure Names (text : String) (id : UInt64) : Prop where
  nonempty : text ≠ ""
  digits : ∀ c ∈ text.toList, c.isDigit = true
  value : Nat.ofDigitChars 10 text.toList 0 = id.toNat

theorem Names.plain {text : String} {id : UInt64} (names : Names text id) : '/' ∉ text.toList := by
  intro slash
  exact absurd (names.digits '/' slash) (by decide)

/-- A name that can be a part of a path. -/
structure PathName (name : String) : Prop where
  nonempty : name ≠ ""
  plain : '/' ∉ name.toList

/-- The request writes the command. -/
inductive Writes (request : APIRequest) : ControlCommand → Prop
  | create {command : CreateQuantumTaskCommand} (method : request.method = "POST") (path : Rest.path request = "job")
      (data : CreateData request.data command) : Writes request (.CreateQuantumTask command)
  | status {text : String} {id : UInt64} (method : request.method = "GET") (names : Names text id)
      (path : Rest.path request = "job" ++ "/" ++ text ++ "/" ++ "status") : Writes request (.GetTaskStatus id)
  | result {text : String} {id : UInt64} (method : request.method = "GET") (names : Names text id)
      (path : Rest.path request = "job" ++ "/" ++ text ++ "/" ++ "result") : Writes request (.GetTaskResult id)
  | cancelReason {text : String} {id : UInt64} (method : request.method = "GET") (names : Names text id)
      (path : Rest.path request = "job" ++ "/" ++ text ++ "/" ++ "cancel_reason") : Writes request (.GetCancelReason id)
  | resources (method : request.method = "GET") (path : Rest.path request = "resources") : Writes request .ListResources
  | resource {name : String} (method : request.method = "GET") (named : PathName name)
      (path : Rest.path request = "resources" ++ "/" ++ name) : Writes request (.GetResourceInfo name)
  | pendingTasks {name : String} (method : request.method = "GET") (named : PathName name)
      (path : Rest.path request = "resources" ++ "/" ++ name ++ "/" ++ "num_pending_jobs") : Writes request (.QueryPendingTasks name)

/-- A create command has no negative number of shots. -/
def ControlCommand.ShotsCount : ControlCommand → Prop
  | .CreateQuantumTask command => 0 ≤ command.shots.toInt
  | _ => True

def ControlCommand.invalid : ControlCommand → Bool
  | .InvalidControl _ => true
  | _ => false

namespace Rest

/-! ### Fields -/

/-- A number is taken when it is the exact value of a 32-bit integer. -/
theorem requiredInt_eq_some {data : Struct} {key : String} {number : Int32} :
    requiredInt data key = some number ↔ data.find key = some (.number (.finite number.toInt)) := by
  unfold requiredInt
  split
  · rename_i value found
    rw [found, Option.some.injEq, Value.number.injEq, Double.finite.injEq]
    constructor
    · intro taken
      split_ifs at taken with range
      obtain ⟨whole, low, high⟩ := range
      obtain rfl := Option.some.inj taken
      rw [Int32.toInt_ofInt_of_le (by omega) (by omega)]
      exact (Rat.den_eq_one_iff value).mp whole |>.symm
    · rintro rfl
      have low := number.le_toInt
      have high := number.toInt_lt
      rw [Rat.num_intCast, if_pos ⟨Rat.den_intCast _, by omega, by omega⟩, Int32.ofInt_toInt]
  · rename_i other
    exact iff_of_false (by simp) fun found => other _ found

theorem requiredString_eq_some {data : Struct} {key value : String} :
    requiredString data key = some value ↔ data.find key = some (.string value) := by
  unfold requiredString
  split
  · rename_i found
    simp [found]
  · rename_i other
    refine iff_of_false (by simp) fun found => other value found

theorem requiredBool_eq_some {data : Struct} {key : String} {value : Bool} :
    requiredBool data key = some value ↔ data.find key = some (.boolean value) := by
  unfold requiredBool
  split
  · rename_i found
    simp [found]
  · rename_i other
    refine iff_of_false (by simp) fun found => other value found

theorem mapM_stringValue {values : List Value} {texts : List String} :
    values.mapM stringValue = some texts ↔ values = texts.map Value.string := by
  induction values generalizing texts with
  | nil => cases texts <;> simp
  | cons value values ih =>
    rw [List.mapM_cons]
    cases value with
    | string text =>
      cases texts with
      | nil => simp [stringValue, Option.bind_eq_some_iff]
      | cons first texts =>
        simp [stringValue, Option.bind_eq_some_iff, ih, and_comm]
    | _ => cases texts <;> simp [stringValue]

theorem requiredStringList_eq_some {data : Struct} {key : String} {texts : List String} :
    requiredStringList data key = some texts ↔ data.find key = some (.list (texts.map Value.string)) := by
  unfold requiredStringList
  split
  · rename_i values found
    rw [mapM_stringValue, found, Option.some.injEq, Value.list.injEq]
  · rename_i other
    refine iff_of_false (by simp) fun found => other _ found

theorem createTaskCommand_create {request : APIRequest} {create : CreateQuantumTaskCommand} :
    createTaskCommand request = .CreateQuantumTask create ↔
      request.method = "POST" ∧ CreateData request.data create ∧ 0 ≤ create.shots.toInt := by
  have sign : ∀ shots : Int32, shots < 0 ↔ ¬ 0 ≤ shots.toInt := by
    intro shots
    rw [Int32.lt_iff_toInt_lt, Int.not_le]
    rfl
  constructor
  · intro decoded
    unfold createTaskCommand at decoded
    split_ifs at decoded with method
    split at decoded
    · rename_i shots circuit format name modify hasShots hasCircuit hasFormat hasName hasModify
      split_ifs at decoded with negative
      obtain rfl := ControlCommand.CreateQuantumTask.inj decoded
      refine ⟨not_not.mp method, ?_, not_not.mp (mt (sign shots).mpr negative)⟩
      exact ⟨requiredInt_eq_some.mp hasShots, requiredStringList_eq_some.mp hasCircuit,
        requiredString_eq_some.mp hasFormat, requiredString_eq_some.mp hasName, requiredBool_eq_some.mp hasModify⟩
    · cases decoded
  · rintro ⟨method, data, counts⟩
    have natural : ¬ create.shots < 0 := fun negative => (sign create.shots).mp negative counts
    simp [createTaskCommand, method, requiredInt_eq_some.mpr data.shots, requiredStringList_eq_some.mpr data.circuit,
      requiredString_eq_some.mpr data.circuit_format, requiredString_eq_some.mpr data.resource_name,
      requiredBool_eq_some.mpr data.no_modify, natural]

/-- A request for a new task is a create command or invalid. -/
theorem createTaskCommand_cases (request : APIRequest) :
    (∃ create, createTaskCommand request = .CreateQuantumTask create) ∨ (createTaskCommand request).invalid = true := by
  unfold createTaskCommand
  split
  · exact .inr rfl
  · split
    · split
      · exact .inr rfl
      · exact .inl ⟨_, rfl⟩
    · exact .inr rfl

/-! ### Paths -/

theorem parts_eq_cut (path : List Char) : parts path = cut '/' path := by
  induction path with
  | nil => rfl
  | cons c rest ih =>
    rw [parts, cut, ih]
    cases cut '/' rest with
    | nil => rfl
    | cons first others => rfl

theorem splitPath_eq (request : APIRequest) : splitPath request.request.toList = cut '/' (path request).toList := by
  rw [splitPath, parts_eq_cut, path, String.toList_ofList, trim]

/-- The path has these parts when they join to it and make a path. -/
theorem splitPath_eq_iff {request : APIRequest} {segments : List (List Char)} :
    splitPath request.request.toList = segments ↔
      (path request).toList = join '/' segments ∧ (∀ segment ∈ segments, '/' ∉ segment) ∧
        segments.getLast? ≠ some [] := by
  have ends : (path request).toList.getLast? ≠ some '/' := by
    rw [path, String.toList_ofList]
    exact trim_ends _
  rw [splitPath_eq]
  constructor
  · rintro rfl
    exact ⟨(join_cut ends).symm, fun _ member => plain_of_mem_cut member, cut_ends ends⟩
  · rintro ⟨same, plain, last⟩
    rw [same, cut_join plain last]

theorem path_one {request : APIRequest} {part : String} (named : PathName part) :
    path request = part ↔ splitPath request.request.toList = [part.toList] := by
  rw [splitPath_eq_iff, ← String.toList_inj]
  have nonempty : part.toList ≠ [] := by simpa using named.nonempty
  simp [join, named.plain, nonempty]

theorem path_two {request : APIRequest} {first second : String} (plain : '/' ∉ first.toList) (named : PathName second) :
    path request = first ++ "/" ++ second ↔
      splitPath request.request.toList = [first.toList, second.toList] := by
  rw [splitPath_eq_iff, ← String.toList_inj]
  have nonempty : second.toList ≠ [] := by simpa using named.nonempty
  simp [join, plain, named.plain, nonempty]

theorem path_three {request : APIRequest} {first second third : String} (plain : '/' ∉ first.toList)
    (plain' : '/' ∉ second.toList) (named : PathName third) :
    path request = first ++ "/" ++ second ++ "/" ++ third ↔
      splitPath request.request.toList = [first.toList, second.toList, third.toList] := by
  rw [splitPath_eq_iff, ← String.toList_inj]
  have nonempty : third.toList ≠ [] := by simpa using named.nonempty
  simp [join, plain, plain', named.plain, nonempty]

/-! ### Routes -/

theorem parseTaskId_eq_some {text : List Char} {id : UInt64} :
    parseTaskId text = some id ↔ Names (String.ofList text) id := by
  rw [parseTaskId, Option.map_eq_some_iff]
  constructor
  · rintro ⟨n, value, rfl⟩
    obtain ⟨nonempty, digits, same, range⟩ := Decimal.fromChars_eq_some.mp value
    refine ⟨by simpa using nonempty, by simpa using digits, ?_⟩
    rw [String.toList_ofList, same, UInt64.toNat_ofNat_of_lt' range]
  · rintro ⟨nonempty, digits, value⟩
    rw [String.toList_ofList] at digits value
    refine ⟨id.toNat, Decimal.fromChars_eq_some.mpr ⟨by simpa using nonempty, digits, value, id.toNat_lt⟩, ?_⟩
    exact UInt64.ofNat_toNat

/-- The decimal text of an id names it. -/
theorem parseTaskId_toString (id : UInt64) : parseTaskId (toString id.toNat).toList = some id := by
  rw [parseTaskId, Decimal.toList_toString, Decimal.fromChars_toChars id.toNat_lt, Option.map_some,
    UInt64.ofNat_toNat]

/-- Everything that the parts of a path can stand for in a `GET` request. -/
inductive Route : List (List Char) → ControlCommand → Prop
  | status {text id} (names : parseTaskId text = some id) :
      Route ["job".toList, text, "status".toList] (.GetTaskStatus id)
  | result {text id} (names : parseTaskId text = some id) :
      Route ["job".toList, text, "result".toList] (.GetTaskResult id)
  | cancelReason {text id} (names : parseTaskId text = some id) :
      Route ["job".toList, text, "cancel_reason".toList] (.GetCancelReason id)
  | resources : Route ["resources".toList] .ListResources
  | resource {name} (nonempty : name ≠ []) :
      Route ["resources".toList, name] (.GetResourceInfo (String.ofList name))
  | pendingTasks {name} (nonempty : name ≠ []) :
      Route ["resources".toList, name, "num_pending_jobs".toList] (.QueryPendingTasks (String.ofList name))
  | invalid {path} (message : String) : Route path (.InvalidControl message)

theorem Route.counts {path : List (List Char)} {command : ControlCommand} (route : Route path command) :
    command.ShotsCount := by
  cases route <;> trivial

theorem taskQuery_route {text query : List Char} {id : UInt64} (names : parseTaskId text = some id) :
    Route ["job".toList, text, query] (taskQuery id query) := by
  unfold taskQuery
  split_ifs with status result reason
  · rw [status]
    exact .status names
  · rw [result]
    exact .result names
  · rw [reason]
    exact .cancelReason names
  · exact .invalid _

theorem getCommand_route (path : List (List Char)) : Route path (getCommand path) := by
  unfold getCommand
  split
  · rename_i first
    split_ifs with same
    · rw [same]
      exact .resources
    · exact .invalid _
  · rename_i first name
    split_ifs with same
    · rw [same.1]
      exact .resource same.2
    · exact .invalid _
  · rename_i first name query
    split_ifs with job resources
    · rw [job]
      cases names : parseTaskId name with
      | none => exact .invalid _
      | some id => exact taskQuery_route names
    · obtain ⟨same, nonempty, last⟩ := resources
      rw [same, last]
      exact .pendingTasks nonempty
    · exact .invalid _
  · exact .invalid _

/-- The parts of a path stand for one command. -/
theorem getCommand_of_route {path : List (List Char)} {command : ControlCommand} (route : Route path command)
    (accepted : command.invalid = false) : getCommand path = command := by
  cases route with
  | status names => simp [getCommand, names, taskQuery]
  | result names =>
    simp only [getCommand, ↓reduceIte, names, taskQuery]
    rfl
  | cancelReason names =>
    simp only [getCommand, ↓reduceIte, names, taskQuery]
    rfl
  | resources => rfl
  | resource nonempty => simp [getCommand, nonempty]
  | pendingTasks nonempty => simp [getCommand, nonempty]
  | invalid message => cases accepted

/-! ### The decoder -/

theorem decode_create {request : APIRequest} (job : splitPath request.request.toList = ["job".toList]) :
    decode request = createTaskCommand request := if_pos job

theorem decode_get {request : APIRequest} (other : splitPath request.request.toList ≠ ["job".toList])
    (method : request.method = "GET") : decode request = getCommand (splitPath request.request.toList) :=
  (if_neg other).trans (if_neg (not_not.mpr method))

theorem decode_refused {request : APIRequest} (other : splitPath request.request.toList ≠ ["job".toList])
    (method : request.method ≠ "GET") : decode request = .InvalidControl "INVALID METHOD" :=
  (if_neg other).trans (if_pos method)

/-- What the parts of a path stand for is written by the path. -/
theorem writes_of_route {request : APIRequest} {command : ControlCommand} (method : request.method = "GET")
    (route : Route (splitPath request.request.toList) command) (accepted : command.invalid = false) :
    Writes request command := by
  have plain : ∀ segment ∈ splitPath request.request.toList, '/' ∉ segment := by
    intro segment member
    rw [splitPath_eq] at member
    exact plain_of_mem_cut member
  generalize parts : splitPath request.request.toList = segments at plain route
  have task : ∀ {text : List Char} {query : String}, segments = ["job".toList, text, query.toList] → PathName query →
      Rest.path request = "job" ++ "/" ++ String.ofList text ++ "/" ++ query := by
    rintro text query rfl named
    have inner : '/' ∉ (String.ofList text).toList := by simpa using plain text (by simp)
    apply (path_three (by decide) inner named).mpr
    rw [parts, @String.toList_ofList text]
  cases route with
  | status names => exact .status method (parseTaskId_eq_some.mp names) (task rfl ⟨by decide, by decide⟩)
  | result names => exact .result method (parseTaskId_eq_some.mp names) (task rfl ⟨by decide, by decide⟩)
  | cancelReason names => exact .cancelReason method (parseTaskId_eq_some.mp names) (task rfl ⟨by decide, by decide⟩)
  | resources => exact .resources method ((path_one ⟨by decide, by decide⟩).mpr parts)
  | @resource name nonempty =>
    have named : PathName (String.ofList name) := ⟨by simpa using nonempty, by simpa using plain name (by simp)⟩
    refine .resource method named ((path_two (by decide) named).mpr ?_)
    rw [parts, @String.toList_ofList name]
  | @pendingTasks name nonempty =>
    have named : PathName (String.ofList name) := ⟨by simpa using nonempty, by simpa using plain name (by simp)⟩
    refine .pendingTasks method named ((path_three (by decide) named.plain ⟨by decide, by decide⟩).mpr ?_)
    rw [parts, @String.toList_ofList name]
  | invalid message => cases accepted

/-- What the decoder accepts is written. -/
theorem decode_sound {request : APIRequest} (accepted : (decode request).invalid = false) :
    Writes request (decode request) ∧ (decode request).ShotsCount := by
  by_cases job : splitPath request.request.toList = ["job".toList]
  · rw [decode_create job] at accepted ⊢
    rcases createTaskCommand_cases request with ⟨create, decoded⟩ | invalid
    · obtain ⟨method, data, counts⟩ := createTaskCommand_create.mp decoded
      rw [decoded]
      exact ⟨.create method ((path_one ⟨by decide, by decide⟩).mpr job) data, counts⟩
    · rw [invalid] at accepted
      cases accepted
  · by_cases method : request.method = "GET"
    · rw [decode_get job method] at accepted ⊢
      have route := getCommand_route (splitPath request.request.toList)
      exact ⟨writes_of_route method route accepted, route.counts⟩
    · rw [decode_refused job method] at accepted
      cases accepted

/-- A route of two or three parts is decoded to what it stands for. -/
theorem decode_route {request : APIRequest} {segments : List (List Char)} {command : ControlCommand}
    (method : request.method = "GET") (parts : splitPath request.request.toList = segments)
    (other : segments ≠ ["job".toList]) (route : Route segments command) (accepted : command.invalid = false) :
    decode request = command := by
  rw [decode_get (by rwa [parts]) method, parts]
  exact getCommand_of_route route accepted

/-- What is written is accepted. -/
theorem decode_complete {request : APIRequest} {command : ControlCommand} (writes : Writes request command)
    (counts : command.ShotsCount) : decode request = command := by
  have id_of : ∀ {text : String} {id : UInt64}, Names text id → parseTaskId text.toList = some id := by
    intro text id names
    rw [parseTaskId_eq_some, String.ofList_toList]
    exact names
  cases writes with
  | create method job data =>
    rw [decode_create ((path_one ⟨by decide, by decide⟩).mp job)]
    exact createTaskCommand_create.mpr ⟨method, data, counts⟩
  | status method names path =>
    have parts := (path_three (by decide) names.plain ⟨by decide, by decide⟩).mp path
    exact decode_route method parts (by simp) (.status (id_of names)) rfl
  | result method names path =>
    have parts := (path_three (by decide) names.plain ⟨by decide, by decide⟩).mp path
    exact decode_route method parts (by simp) (.result (id_of names)) rfl
  | cancelReason method names path =>
    have parts := (path_three (by decide) names.plain ⟨by decide, by decide⟩).mp path
    exact decode_route method parts (by simp) (.cancelReason (id_of names)) rfl
  | resources method path =>
    have parts := (path_one ⟨by decide, by decide⟩).mp path
    exact decode_route method parts (by decide) .resources rfl
  | @resource name method named path =>
    have parts := (path_two (by decide) named).mp path
    have decoded := decode_route method parts (by simp) (.resource (by simpa using named.nonempty)) rfl
    rwa [String.ofList_toList] at decoded
  | @pendingTasks name method named path =>
    have parts := (path_three (by decide) named.plain ⟨by decide, by decide⟩).mp path
    have decoded := decode_route method parts (by simp) (.pendingTasks (by simpa using named.nonempty)) rfl
    rwa [String.ofList_toList] at decoded

theorem decode_iff {request : APIRequest} {command : ControlCommand} :
    decode request = command ∧ command.invalid = false ↔ Writes request command ∧ command.ShotsCount := by
  constructor
  · rintro ⟨rfl, accepted⟩
    exact decode_sound accepted
  · rintro ⟨writes, counts⟩
    refine ⟨decode_complete writes counts, ?_⟩
    cases writes <;> rfl

end Rest

/-- The REST-like decoder yields a command if and only if the request writes it, with no
    negative number of shots; any other request is invalid. The response goes to the queue
    that the request names. -/
theorem rest_decoder_accepts_grammar (request : APIRequest) :
    (∀ command, (Protocol.rest.decoded request).command = command ∧ command.invalid = false ↔
      Writes request command ∧ command.ShotsCount) ∧
    ((∃ message, (Protocol.rest.decoded request).command = .InvalidControl message) ↔
      ¬ ∃ command, Writes request command ∧ command.ShotsCount) ∧
    (Protocol.rest.decoded request).response_queue = request.response_queue := by
  refine ⟨fun command => Rest.decode_iff, ?_, rfl⟩
  show (∃ message, Rest.decode request = .InvalidControl message) ↔ _
  constructor
  · rintro ⟨message, decoded⟩ ⟨command, written⟩
    obtain ⟨same, accepted⟩ := Rest.decode_iff.mpr written
    rw [← same, decoded] at accepted
    cases accepted
  · intro unwritten
    cases decoded : Rest.decode request with
    | InvalidControl message => exact ⟨message, rfl⟩
    | _ => exact absurd ⟨_, Rest.decode_iff.mp ⟨decoded, rfl⟩⟩ unwritten

example : Rest.decode { method := "GET", request := "//job/007/status/" } = .GetTaskStatus 7 := by decide

end Mqss.QOffload
