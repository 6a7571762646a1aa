import Mathlib.Data.List.Basic

/-!
Configurations that are read from an environment. A setting is a field of the
configuration with the variables that it may be set by; it is read when one of them is
defined. Where the fields are apart and make up the configuration, loading the settings
one after the other gives the one configuration that every setting agrees with, or the
failure of the first setting that cannot be read.
-/

namespace Mqss.Settings
universe u v

/-- The values of the variables that are defined. -/
abbrev Env := String → Option String

/-- A field of a configuration. -/
structure Field (Config : Type u) (Value : Type v) where
  get : Config → Value
  set : Value → Config → Config
  get_set : ∀ value config, get (set value config) = value

/-- A field with the variables that set it, the first one its own, and the way its values are
    written and read. -/
structure Setting (Config : Type u) (Failure : Type v) where
  Value : Type
  field : Field Config Value
  names : List String
  read : String → Except Failure Value
  text : Value → String
  read_text : ∀ value, read (text value) = .ok value

variable {Config : Type u} {Failure : Type v}

namespace Setting

/-- The value of the first variable that is defined. -/
def given (setting : Setting Config Failure) (env : Env) : Option String := setting.names.findSome? env

/-- A variable that is none of the setting's, or that stands behind a defined one. -/
def Hides (setting : Setting Config Failure) (env : Env) (name : String) : Prop :=
  name ∈ setting.names → ∃ earlier ∈ setting.names.takeWhile (· ≠ name), env earlier ≠ none

instance (setting : Setting Config Failure) (env : Env) (name : String) : Decidable (setting.Hides env name) :=
  inferInstanceAs (Decidable (name ∈ setting.names → ∃ earlier ∈ setting.names.takeWhile (· ≠ name), env earlier ≠ none))

/-- What a setting makes of a configuration's value. -/
def value (setting : Setting Config Failure) (env : Env) (config : Config) : Except Failure setting.Value :=
  match setting.given env with
  | none => .ok (setting.field.get config)
  | some text => setting.read text

def apply (env : Env) (config : Config) (setting : Setting Config Failure) : Except Failure Config :=
  (setting.value env config).map fun value => setting.field.set value config

/-- The value that an environment gives, as long as it can be read. -/
def Reads (setting : Setting Config Failure) (env : Env) : Prop :=
  ∀ text, setting.given env = some text → ∃ value, setting.read text = .ok value

/-- Setting one field leaves the other. -/
def Apart (one other : Setting Config Failure) : Prop :=
  (∀ value config, one.field.get (other.field.set value config) = one.field.get config) ∧
    ∀ value config, other.field.get (one.field.set value config) = other.field.get config

end Setting

open Setting

/-- The settings are read in order. -/
def load (env : Env) (settings : List (Setting Config Failure)) (config : Config) : Except Failure Config :=
  settings.foldlM (apply env) config

/-- The fields make up the configuration. -/
def Whole (settings : List (Setting Config Failure)) : Prop :=
  ∀ one other : Config, (∀ setting ∈ settings, setting.field.get one = setting.field.get other) → one = other

variable {env : Env} {setting : Setting Config Failure} {settings : List (Setting Config Failure)}
  {config loaded : Config} {failure : Failure}

theorem load_cons : load env (setting :: settings) config = (apply env config setting >>= load env settings) :=
  List.foldlM_cons

theorem value_eq_error : setting.value env config = .error failure ↔
    ∃ text, setting.given env = some text ∧ setting.read text = .error failure := by
  unfold Setting.value
  cases setting.given env <;> simp

theorem reads_iff : setting.Reads env ↔ ∃ value, setting.value env config = .ok value := by
  unfold Setting.Reads Setting.value
  cases setting.given env <;> simp

/-- The value of a setting that is apart is not changed by another one. -/
theorem value_set {other : Setting Config Failure} (apart : setting.Apart other) (value : other.Value) :
    setting.value env (other.field.set value config) = setting.value env config := by
  unfold Setting.value
  cases setting.given env with
  | none => exact congrArg Except.ok (apart.1 value config)
  | some text => rfl

/-- Later settings leave the fields of the earlier ones. -/
theorem load_keeps (apart : ∀ other ∈ settings, setting.Apart other) (ran : load env settings config = .ok loaded) :
    setting.field.get loaded = setting.field.get config := by
  induction settings generalizing config with
  | nil =>
    obtain rfl := Except.ok.inj ran
    rfl
  | cons other settings ih =>
    rw [load_cons, apply] at ran
    cases read : other.value env config with
    | error failure =>
      rw [read] at ran
      cases ran
    | ok value =>
      rw [read] at ran
      rw [ih (fun later member => apart later (List.mem_cons_of_mem _ member)) ran]
      exact (apart other List.mem_cons_self).1 value config

/-- A loaded configuration agrees with every setting. -/
theorem agrees_of_load (apart : settings.Pairwise Apart) (ran : load env settings config = .ok loaded) :
    ∀ setting ∈ settings, setting.value env config = .ok (setting.field.get loaded) := by
  induction settings generalizing config with
  | nil => simp
  | cons first settings ih =>
    obtain ⟨others, apart⟩ := List.pairwise_cons.mp apart
    rw [load_cons, apply] at ran
    cases read : first.value env config with
    | error failure =>
      rw [read] at ran
      cases ran
    | ok value =>
      rw [read] at ran
      intro setting member
      rcases List.mem_cons.mp member with rfl | later
      · rw [read, load_keeps others ran, setting.field.get_set]
      · rw [← ih apart ran setting later]
        have swapped : setting.Apart first := ⟨(others setting later).2, (others setting later).1⟩
        exact (value_set swapped value).symm

/-- Settings that can all be read are loaded. -/
theorem load_of_reads (reads : ∀ setting ∈ settings, setting.Reads env) :
    ∃ loaded, load env settings config = .ok loaded := by
  induction settings generalizing config with
  | nil => exact ⟨config, rfl⟩
  | cons first settings ih =>
    obtain ⟨value, read⟩ := reads_iff.mp (reads first List.mem_cons_self)
    obtain ⟨loaded, ran⟩ := ih fun setting member => reads setting (List.mem_cons_of_mem _ member)
    refine ⟨loaded, ?_⟩
    rw [load_cons, apply, read]
    exact ran

/-- Loading gives the configuration that every setting agrees with. -/
theorem load_eq_ok_iff (apart : settings.Pairwise Apart) (whole : Whole settings) :
    load env settings config = .ok loaded ↔
      ∀ setting ∈ settings, setting.value env config = .ok (setting.field.get loaded) := by
  constructor
  · exact agrees_of_load apart
  · intro agrees
    obtain ⟨other, ran⟩ : ∃ other, load env settings config = .ok other :=
      load_of_reads fun setting member => reads_iff.mpr ⟨_, agrees setting member⟩
    have same : other = loaded := by
      refine whole _ _ fun setting member => ?_
      have here := agrees_of_load apart ran setting member
      rw [agrees setting member] at here
      exact (Except.ok.inj here).symm
    rw [ran, same]

/-- Loading fails with the failure of the first setting that cannot be read. -/
theorem load_eq_error_iff : load env settings config = .error failure ↔ ∃ before setting after text,
    settings = before ++ setting :: after ∧ (∀ earlier ∈ before, earlier.Reads env) ∧
      setting.given env = some text ∧ setting.read text = .error failure := by
  induction settings generalizing config with
  | nil =>
    constructor
    · intro ran
      cases ran
    · rintro ⟨before, setting, after, text, split, _⟩
      simp at split
  | cons first settings ih =>
    rw [load_cons, apply]
    cases read : first.value env config with
    | error other =>
      obtain ⟨text, given, unread⟩ := value_eq_error.mp read
      constructor
      · intro ran
        obtain rfl : other = failure := Except.error.inj ran
        exact ⟨[], first, settings, text, rfl, by simp, given, unread⟩
      · rintro ⟨before, setting, after, other_, split, reads, given_, unread_⟩
        cases before with
        | nil =>
          obtain ⟨rfl, rfl⟩ := List.cons.inj split
          obtain rfl := Option.some.inj (given.symm.trans given_)
          obtain rfl := Except.error.inj (unread.symm.trans unread_)
          rfl
        | cons _ before =>
          obtain ⟨rfl, rfl⟩ := List.cons.inj split
          obtain ⟨value, fine⟩ := reads _ List.mem_cons_self text given
          rw [unread] at fine
          cases fine
    | ok value =>
      refine Iff.trans (@ih (first.field.set value config)) ?_
      constructor
      · rintro ⟨before, setting, after, text, rfl, reads, given, unread⟩
        refine ⟨first :: before, setting, after, text, rfl, ?_, given, unread⟩
        exact List.forall_mem_cons.mpr ⟨reads_iff.mpr ⟨value, read⟩, reads⟩
      · rintro ⟨before, setting, after, text, split, reads, given, unread⟩
        cases before with
        | nil =>
          obtain ⟨rfl, rfl⟩ := List.cons.inj split
          obtain ⟨_, fine⟩ := reads_iff.mpr ⟨value, read⟩ text given
          rw [unread] at fine
          cases fine
        | cons _ before =>
          obtain ⟨rfl, rfl⟩ := List.cons.inj split
          exact ⟨before, setting, after, text, rfl, (List.forall_mem_cons.mp reads).2, given, unread⟩

/-- Only the values that are given to the settings matter. -/
theorem load_congr {other : Env} (same : ∀ setting ∈ settings, setting.given env = setting.given other) :
    load env settings config = load other settings config := by
  induction settings generalizing config with
  | nil => rfl
  | cons first settings ih =>
    have later := fun config => @ih config fun setting member => same setting (List.mem_cons_of_mem _ member)
    rw [load_cons, load_cons, funext later]
    unfold Setting.apply Setting.value
    rw [same first List.mem_cons_self]

/-- A hidden variable does not change what is given. -/
theorem given_update {name : String} {value : Option String} (hides : setting.Hides env name) :
    setting.given (Function.update env name value) = setting.given env := by
  unfold Setting.Hides at hides
  unfold Setting.given
  generalize setting.names = names at hides
  induction names with
  | nil => rfl
  | cons first names ih =>
    by_cases same : first = name
    · subst same
      obtain ⟨earlier, before, _⟩ := hides List.mem_cons_self
      simp at before
    · rw [List.findSome?_cons, List.findSome?_cons, Function.update_of_ne same]
      cases given : env first with
      | some text => rfl
      | none =>
        apply ih
        intro later
        obtain ⟨earlier, before, defined⟩ := hides (List.mem_cons_of_mem _ later)
        rw [List.takeWhile_cons_of_pos (by simpa using same)] at before
        rcases List.mem_cons.mp before with rfl | before
        · exact absurd given defined
        · exact ⟨earlier, before, defined⟩

/-- A variable that all settings hide has no effect. -/
theorem load_update {name : String} {value : Option String} (hides : ∀ setting ∈ settings, setting.Hides env name) :
    load (Function.update env name value) settings config = load env settings config :=
  load_congr fun setting member => given_update (hides setting member)

/-! ### Written configurations -/

/-- The environment in which every setting's own variable is its value in a configuration. -/
def environment (settings : List (Setting Config Failure)) (config : Config) : Env := fun name =>
  (settings.find? fun setting => setting.names.head? = some name).map fun setting =>
    setting.text (setting.field.get config)

/-- The variables of the settings are different ones, and every setting has one. -/
structure Distinct (settings : List (Setting Config Failure)) : Prop where
  different : (settings.flatMap Setting.names).Nodup
  named : ∀ setting ∈ settings, setting.names ≠ []

/-- A setting is found by its own variable. -/
theorem find_own (different : (settings.flatMap Setting.names).Nodup) (member : setting ∈ settings) {own : String}
    {aliases : List String} (names : setting.names = own :: aliases) :
    settings.find? (fun other => other.names.head? = some own) = some setting := by
  induction settings with
  | nil => cases member
  | cons first settings ih =>
    rw [List.flatMap_cons, List.nodup_append] at different
    obtain ⟨_, rest, disjoint⟩ := different
    rcases List.mem_cons.mp member with rfl | later
    · simp [names]
    · have here : own ∈ settings.flatMap Setting.names :=
        List.mem_flatMap.mpr ⟨setting, later, by rw [names]; exact List.mem_cons_self⟩
      have other : first.names.head? ≠ some own := by
        intro head
        exact disjoint own (List.mem_of_mem_head? head) own here rfl
      rw [List.find?_cons_of_neg (by simpa using other)]
      exact ih rest later

/-- Whatever the configuration before, a written configuration is read back. -/
theorem load_environment (apart : settings.Pairwise Apart) (whole : Whole settings) (distinct : Distinct settings) :
    load (environment settings loaded) settings config = .ok loaded := by
  refine (load_eq_ok_iff apart whole).mpr fun setting member => ?_
  obtain ⟨own, aliases, names⟩ := List.exists_cons_of_ne_nil (distinct.named setting member)
  have written : environment settings loaded own = some (setting.text (setting.field.get loaded)) := by
    rw [environment, find_own distinct.different member names, Option.map_some]
  have given : setting.given (environment settings loaded) = some (setting.text (setting.field.get loaded)) := by
    rw [Setting.given, names, List.findSome?_cons, written]
  rw [Setting.value, given]
  exact setting.read_text _

end Mqss.Settings
