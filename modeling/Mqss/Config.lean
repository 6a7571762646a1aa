import Mqss.Transport
import Mqss.Decimal
import Mqss.Settings
import Mqss.Machine

/-!
The configuration library: values from environment variables, and the storage of the
process-wide configurations, each under its tag.
-/

namespace Mqss.Config
open Mqss.Settings Mqss.Machine

/-- The value of the first defined environment variable. -/
def getEnv (env : Env) : List String → Option String
  | [] => none
  | name :: names =>
    match env name with
    | some value => some value
    | none => getEnv env names

/-- An environment string or the fallback. -/
def getEnvOr (env : Env) (names : List String) (fallback : String) : String :=
  match getEnv env names with
  | some value => value
  | none => fallback

/-- The integral types: `std::from_chars` on a whole text, and the text of a value. -/
class Integral (Integer : Type) where
  fromChars : String → Option Integer
  text : Integer → String
  fromChars_text : ∀ value, fromChars (text value) = some value

/-- `names.begin()`. -/
def first (names : List String) : String := names.headD ""

def invalidInteger (names : List String) : Status := .configuration ("Invalid integer value for " ++ first names)

def invalidBoolean (names : List String) : Status := .configuration ("Invalid boolean value for " ++ first names)

/-- An integer environment value or the fallback. -/
def getEnvOrInteger {Integer : Type} [Integral Integer] (env : Env) (names : List String) (fallback : Integer) :
    Result Integer :=
  match getEnv env names with
  | none => .ok fallback
  | some text =>
    match Integral.fromChars text with
    | some result => .ok result
    | none => .error (invalidInteger names)

def truths : List String := ["1", "true", "TRUE", "t", "T", "yes", "YES", "on", "ON"]

def falsehoods : List String := ["0", "false", "FALSE", "f", "F", "no", "NO", "off", "OFF"]

/-- A Boolean environment value or the fallback. -/
def getEnvOrBool (env : Env) (names : List String) (fallback : Bool) : Result Bool :=
  match getEnv env names with
  | none => .ok fallback
  | some text =>
    if text ∈ truths then .ok true
    else if text ∈ falsehoods then .ok false
    else .error (invalidBoolean names)

/-! ### Integers -/

/-- Read a whole text as a 32-bit integer; a minus sign may stand before the digits. -/
def fromCharsInt32 (text : String) : Option Int32 :=
  match text.toList with
  | '-' :: digits => (Decimal.fromChars (2 ^ 31 + 1) digits).map fun (value : Nat) => Int32.ofInt (-value)
  | digits => (Decimal.fromChars (2 ^ 31) digits).map fun (value : Nat) => Int32.ofInt value

/-- Read a whole text as a 64-bit unsigned integer. -/
def fromCharsUInt64 (text : String) : Option UInt64 := (Decimal.fromChars (2 ^ 64) text.toList).map UInt64.ofNat

instance : Integral UInt64 where
  fromChars := fromCharsUInt64
  text value := toString value.toNat
  fromChars_text value := by
    rw [fromCharsUInt64, Decimal.toList_toString, Decimal.fromChars_toChars value.toNat_lt]
    simp

theorem fromCharsInt32_text (value : Int32) : fromCharsInt32 (toString value.toInt) = some value := by
  have low := value.le_toInt
  have high := value.toInt_lt
  unfold fromCharsInt32
  by_cases negative : value.toInt < 0
  · rw [Decimal.toList_toString_neg negative, Decimal.toList_toString]
    have range : value.toInt.natAbs < 2 ^ 31 + 1 := by omega
    have back : -(value.toInt.natAbs : Int) = value.toInt := by omega
    simp only [Decimal.fromChars_toChars range, Option.map_some, back, Int32.ofInt_toInt]
  · obtain ⟨n, same⟩ := Int.eq_ofNat_of_zero_le (Int.not_lt.mp negative)
    have range : n < 2 ^ 31 := by omega
    have text : (toString value.toInt).toList = Decimal.toChars n := by
      rw [same]
      exact Decimal.toList_toString n
    rw [text]
    split
    · rename_i digits signed
      have dash := Decimal.isDigit_of_mem_toChars (signed ▸ List.mem_cons_self : '-' ∈ Decimal.toChars n)
      exact absurd dash (by decide)
    · rw [Decimal.fromChars_toChars range, Option.map_some, ← same, Int32.ofInt_toInt]

instance : Integral Int32 where
  fromChars := fromCharsInt32
  text value := toString value.toInt
  fromChars_text := fromCharsInt32_text

/-! ### Storage -/

/-- `configStorage`: under each tag, the configuration once it is stored. -/
abbrev Storage (Tag Config : Type) := Tag → Option Config

section
variable {Tag Config : Type} [DecidableEq Tag]

def initConfig (storage : Storage Tag Config) (tag : Tag) (config : Config) : Status × Storage Tag Config :=
  match storage tag with
  | some _ => (.configuration "Configuration already initialized", storage)
  | none => (.success, Function.update storage tag (some config))

def getConfig (storage : Storage Tag Config) (tag : Tag) : Result Config :=
  match storage tag with
  | none => .error (.configuration "Configuration not initialized")
  | some config => .ok config

/-- A call, of any part of the process. -/
inductive Call (Tag Config : Type)
  | init (tag : Tag) (config : Config)
  | get (tag : Tag)

def step (storage : Storage Tag Config) : Call Tag Config → Option (Storage Tag Config)
  | .init tag config => some (initConfig storage tag config).2
  | .get _ => some storage

/-- The configuration that a call gives for a tag. -/
def Call.gives (tag : Tag) : Call Tag Config → Option Config
  | .init other config => if other = tag then some config else none
  | .get _ => none

/-- The first configuration that was given for a tag. -/
def firstGiven (tag : Tag) (calls : List (Call Tag Config)) : Option Config :=
  (calls.filterMap (Call.gives tag)).head?

theorem step_firstGiven {calls : List (Call Tag Config)} {storage next : Storage Tag Config} {call : Call Tag Config}
    (holds : ∀ tag, storage tag = firstGiven tag calls) (stepped : step storage call = some next) (tag : Tag) :
    next tag = firstGiven tag (calls ++ [call]) := by
  have before := holds tag
  unfold firstGiven at before ⊢
  rw [List.filterMap_append, List.head?_append, ← before]
  cases call with
  | get other =>
    obtain rfl := Option.some.inj stepped
    simp [Call.gives]
  | init other config =>
    obtain rfl := Option.some.inj stepped
    unfold initConfig
    by_cases same : other = tag
    · subst same
      cases stored : storage other <;> simp [stored, Call.gives]
    · cases stored : storage other with
      | some => simp [Call.gives, same]
      | none => simp [Call.gives, same, Function.update_of_ne (Ne.symm same)]

/-- Whatever the process calls, a tag's configuration is the first one that was given for it,
    and later ones are refused. -/
theorem first_configuration_stays {calls : List (Call Tag Config)} {storage : Storage Tag Config}
    (ran : run step (fun _ => none) calls = some storage) (tag : Tag) :
    getConfig storage tag = (match firstGiven tag calls with
      | none => .error (.configuration "Configuration not initialized")
      | some config => .ok config) ∧
    ∀ config, (initConfig storage tag config).1 = (if firstGiven tag calls = none then .success
      else .configuration "Configuration already initialized") := by
  have keeps : ∀ (calls : List (Call Tag Config)) storage call next, (∀ tag, storage tag = firstGiven tag calls) → True →
      step storage call = some next → ∀ tag, next tag = firstGiven tag (calls ++ [call]) :=
    fun _ _ _ _ holds _ stepped tag => step_firstGiven holds stepped tag
  have start : ∀ tag : Tag, (none : Option Config) = firstGiven tag [] := fun _ => rfl
  have holds := history_invariant keeps start (along_of_forall (fun _ _ => trivial) _ calls) ran
  rw [history_events ran] at holds
  rw [getConfig, ← holds tag]
  refine ⟨rfl, fun config => ?_⟩
  unfold initConfig
  cases storage tag <;> simp
end

/-- A tag is given two configurations, and another one in between. -/
def givenTwice : List (Call String Nat) := [.get "qoffload", .init "qoffload" 1, .init "other" 2, .init "qoffload" 3]

theorem givenTwice_stays : ∃ storage, run step (fun _ => none) givenTwice = some storage ∧
    getConfig storage "qoffload" = .ok 1 ∧
    ∀ config, (initConfig storage "qoffload" config).1 = .configuration "Configuration already initialized" := by
  obtain ⟨storage, ran⟩ : ∃ storage, run step (fun _ => none) givenTwice = some storage := ⟨_, rfl⟩
  exact ⟨storage, ran, first_configuration_stays ran "qoffload"⟩

end Mqss.Config
