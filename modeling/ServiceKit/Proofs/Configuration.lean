import ServiceKit.Config
import ServiceKit.Proofs.Env.Reader
import ServiceKit.Proofs.Logging.Names

/-!
# What decides a configuration

Six variables of the environment decide a configuration.  Each is good or bad by itself.  If all are
good, the configuration holds what they give; otherwise the first bad one, in a fixed order, is the
error.
-/

namespace ServiceKit
namespace ServiceConfig

open Environment Numeral Reading

/-- The variables of a configuration. -/
def variableNames : List String :=
  ["SERVICE_NAME", "LOG_LEVEL", "LOG_OUTPUT", "LOG_JSON", "SHUTDOWN_TIMEOUT", "READY_MAX_RETRIES"]

/-- What `LOG_JSON` gives: one of two words. -/
def LogJson (env : Environment) (value : Bool) : Prop :=
  env.Gives (Strict Flag) "LOG_JSON" false value

/-- What `SHUTDOWN_TIMEOUT` gives: a number of 64 bits. -/
def TimeoutSeconds (env : Environment) (n : Nat) : Prop :=
  env.Gives (Strict (NaturalUpTo 18446744073709551615)) "SHUTDOWN_TIMEOUT" 30 n

/-- What `READY_MAX_RETRIES` gives: a number of 32 bits. -/
def MaxRetries (env : Environment) (n : Nat) : Prop :=
  env.Gives (Strict (NaturalUpTo 4294967295)) "READY_MAX_RETRIES" 5 n

/-- What `SERVICE_NAME` gives, any bytes. -/
def Name (env : Environment) (s : String) : Prop :=
  env.Gives Lossy "SERVICE_NAME" "service" s

/-- A text has a character that is not blank. -/
def IsVisible (s : String) : Prop :=
  ∃ c ∈ s.toList, ¬ Text.isBlank c

/-- Every variable is good. -/
structure Loadable (env : Environment) : Prop where
  logJson : ∃ value, LogJson env value
  shutdownTimeout : ∃ n, TimeoutSeconds env n ∧ 0 < n
  readyMaxRetries : ∃ n, MaxRetries env n
  serviceName : ∃ s, Name env s ∧ IsVisible s

/-- A configuration holds what the variables give. -/
structure Holds (env : Environment) (config : ServiceConfig) : Prop where
  serviceName : Name env config.serviceName
  logLevel : env.Gives Lossy "LOG_LEVEL" "INFO" config.logLevel
  logOutput : ∃ s, env.Gives Lossy "LOG_OUTPUT" "stdout" s ∧ config.logOutput = .ofSetting s
  logJson : LogJson env config.logJson
  shutdownTimeout : ∃ n, TimeoutSeconds env n ∧ config.shutdownTimeout = .ofSeconds n
  readyMaxRetries : MaxRetries env config.readyMaxRetries

/-- The error of the first bad variable: those that cannot be read come before those that are refused
as values. -/
inductive Refusal (env : Environment) : ServiceError → Prop where
  | logJson {e : ServiceError} (hjson : ¬ ∃ value, LogJson env value)
      (he : env.Blames "LOG_JSON" e) : Refusal env e
  | shutdownTimeout {e : ServiceError} (hjson : ∃ value, LogJson env value)
      (hseconds : ¬ ∃ n, TimeoutSeconds env n) (he : env.Blames "SHUTDOWN_TIMEOUT" e) :
      Refusal env e
  | readyMaxRetries {e : ServiceError} (hjson : ∃ value, LogJson env value)
      (hseconds : ∃ n, TimeoutSeconds env n) (hretries : ¬ ∃ n, MaxRetries env n)
      (he : env.Blames "READY_MAX_RETRIES" e) : Refusal env e
  | serviceName (hjson : ∃ value, LogJson env value) (hseconds : ∃ n, TimeoutSeconds env n)
      (hretries : ∃ n, MaxRetries env n) (hname : ¬ ∃ s, Name env s ∧ IsVisible s) :
      Refusal env (.invalidConfig "service name must not be empty")
  | zeroTimeout (hjson : ∃ value, LogJson env value) (hseconds : TimeoutSeconds env 0)
      (hretries : ∃ n, MaxRetries env n) (hname : ∃ s, Name env s ∧ IsVisible s) :
      Refusal env (.invalidConfig "shutdown timeout must be greater than 0")

/-- The logging settings of a configuration: the level that is named, or the fallback with the name
to report. -/
structure Logs (config : ServiceConfig) (settings : Logging.Settings) : Prop where
  serviceName : settings.serviceName = config.serviceName
  output : settings.output = config.logOutput
  json : settings.json = config.logJson
  known : Logging.Level.IsName config.logLevel →
    Logging.Level.Named config.logLevel settings.level ∧ settings.unrecognized = none
  unknown : ¬ Logging.Level.IsName config.logLevel →
    settings.level = .error ∧ settings.unrecognized = some config.logLevel

variable {env other : Environment} {config : ServiceConfig} {e : ServiceError} {logJson : Bool}
  {seconds retries : Nat}

/-! ## Reading the variables -/

theorem readJson_eq_ok_iff :
    env.readOr flag "LOG_JSON" false = .ok logJson ↔ LogJson env logJson :=
  readOr_eq_ok_iff flag_reads

theorem readSeconds_eq_ok_iff {value : Int} :
    env.readOr (integer (.unsigned 64)) "SHUTDOWN_TIMEOUT" 30 = .ok value ↔
      ∃ n : Nat, TimeoutSeconds env n ∧ (n : Int) = value :=
  readOr_integer_eq_ok_iff rfl rfl 30

theorem readRetries_eq_ok_iff {value : Int} :
    env.readOr (integer (.unsigned 32)) "READY_MAX_RETRIES" 5 = .ok value ↔
      ∃ n : Nat, MaxRetries env n ∧ (n : Int) = value :=
  readOr_integer_eq_ok_iff rfl rfl 5

/-- The configuration before its values are checked. -/
def gathered (env : Environment) (logJson : Bool) (seconds retries : Nat) : ServiceConfig where
  serviceName := env.textOr "SERVICE_NAME" "service"
  logLevel := env.textOr "LOG_LEVEL" "INFO"
  logOutput := .ofSetting (env.textOr "LOG_OUTPUT" "stdout")
  logJson := logJson
  shutdownTimeout := .ofSeconds seconds
  readyMaxRetries := retries

theorem holds_gathered (hjson : LogJson env logJson) (hseconds : TimeoutSeconds env seconds)
    (hretries : MaxRetries env retries) : Holds env (gathered env logJson seconds retries) where
  serviceName := textOr_eq_iff.mp rfl
  logLevel := textOr_eq_iff.mp rfl
  logOutput := ⟨env.textOr "LOG_OUTPUT" "stdout", textOr_eq_iff.mp rfl, rfl⟩
  logJson := hjson
  shutdownTimeout := ⟨seconds, hseconds, rfl⟩
  readyMaxRetries := hretries

/-- Where all numbers and words can be read, only the values are left to be checked. -/
theorem load_eq_check (hjson : LogJson env logJson) (hseconds : TimeoutSeconds env seconds)
    (hretries : MaxRetries env retries) :
    load env = check (gathered env logJson seconds retries) := by
  have hreadSeconds := readSeconds_eq_ok_iff.mpr ⟨seconds, hseconds, rfl⟩
  have hreadRetries := readRetries_eq_ok_iff.mpr ⟨retries, hretries, rfl⟩
  rw [load, readJson_eq_ok_iff.mpr hjson, hreadSeconds, hreadRetries]
  rfl

/-! ## The first error -/

theorem isVisible_iff {s : String} : IsVisible s ↔ Text.trim s.toList ≠ [] := by
  rw [ne_eq, Text.trim_eq_nil_iff, IsVisible]
  simp

theorem exists_name_iff : (∃ s, Name env s ∧ IsVisible s) ↔
    IsVisible (env.textOr "SERVICE_NAME" "service") := by
  constructor
  · rintro ⟨s, hname, hs⟩
    rwa [textOr_eq_iff.mpr hname]
  · exact fun hs => ⟨_, textOr_eq_iff.mp rfl, hs⟩

theorem nanos_ofSeconds_eq_zero_iff : (Duration.ofSeconds seconds).nanos = 0 ↔ seconds = 0 := by
  simp only [Duration.ofSeconds]
  omega

theorem exists_blames_of_json (hjson : ¬ ∃ value, LogJson env value) :
    ∃ e, env.readOr flag "LOG_JSON" false = .error e ∧ env.Blames "LOG_JSON" e :=
  exists_blames_of_readOr fun value hread => hjson ⟨value, readJson_eq_ok_iff.mp hread⟩

theorem exists_blames_of_seconds (hseconds : ¬ ∃ n, TimeoutSeconds env n) :
    ∃ e, env.readOr (integer (.unsigned 64)) "SHUTDOWN_TIMEOUT" 30 = .error e ∧
      env.Blames "SHUTDOWN_TIMEOUT" e :=
  exists_blames_of_integer rfl rfl 30 hseconds

theorem exists_blames_of_retries (hretries : ¬ ∃ n, MaxRetries env n) :
    ∃ e, env.readOr (integer (.unsigned 32)) "READY_MAX_RETRIES" 5 = .error e ∧
      env.Blames "READY_MAX_RETRIES" e :=
  exists_blames_of_integer rfl rfl 5 hretries

/-- Either all words and numbers can be read, or the first that cannot is refused. -/
theorem readable_or_refused (env : Environment) :
    (∃ logJson seconds retries,
      LogJson env logJson ∧ TimeoutSeconds env seconds ∧ MaxRetries env retries) ∨
      ∃ e, load env = .error e ∧ Refusal env e := by
  -- in the order of reading: an error is reached only past the variables before it
  by_cases hjson : ∃ value, LogJson env value
  · obtain ⟨logJson, hlogJson⟩ := id hjson
    have hreadJson := readJson_eq_ok_iff.mpr hlogJson
    by_cases hseconds : ∃ n, TimeoutSeconds env n
    · obtain ⟨seconds, hn⟩ := id hseconds
      have hreadSeconds := readSeconds_eq_ok_iff.mpr ⟨seconds, hn, rfl⟩
      by_cases hretries : ∃ n, MaxRetries env n
      · obtain ⟨retries, hr⟩ := hretries
        exact .inl ⟨logJson, seconds, retries, hlogJson, hn, hr⟩
      · obtain ⟨e, hread, he⟩ := exists_blames_of_retries hretries
        refine .inr ⟨e, ?_, .readyMaxRetries hjson hseconds hretries he⟩
        rw [load, hreadJson, hreadSeconds, hread]
        rfl
    · obtain ⟨e, hread, he⟩ := exists_blames_of_seconds hseconds
      refine .inr ⟨e, ?_, .shutdownTimeout hjson hseconds he⟩
      rw [load, hreadJson, hread]
      rfl
  · obtain ⟨e, hread, he⟩ := exists_blames_of_json hjson
    refine .inr ⟨e, ?_, .logJson hjson he⟩
    rw [load, hread]
    rfl

/-- The error of a configuration that fails names the first bad variable. -/
theorem refusal_of_load (h : load env = .error e) : Refusal env e := by
  obtain ⟨logJson, seconds, retries, hjson, hseconds, hretries⟩ | ⟨e', he', hrefusal⟩ :=
    readable_or_refused env
  · rw [load_eq_check hjson hseconds hretries, check] at h
    split at h
    next hblank =>
      cases h
      refine .serviceName ⟨_, hjson⟩ ⟨_, hseconds⟩ ⟨_, hretries⟩ ?_
      rw [exists_name_iff, isVisible_iff]
      exact not_not_intro hblank
    next hvisible =>
      split at h
      next hzero =>
        cases h
        obtain rfl := nanos_ofSeconds_eq_zero_iff.mp hzero
        exact .zeroTimeout ⟨_, hjson⟩ hseconds ⟨_, hretries⟩
          (exists_name_iff.mpr (isVisible_iff.mpr hvisible))
      next => contradiction
  · rw [he'] at h
    cases h
    exact hrefusal

/-! ## Success -/

theorem check_eq_ok_iff {result : ServiceConfig} : check config = .ok result ↔
    config = result ∧ IsVisible config.serviceName ∧ config.shutdownTimeout.nanos ≠ 0 := by
  rw [isVisible_iff, check]
  split
  next hblank => simp [hblank]
  next hvisible => split <;> simp_all

theorem loaded (h : load env = .ok config) : Loadable env ∧ Holds env config := by
  obtain ⟨logJson, seconds, retries, hjson, hseconds, hretries⟩ | ⟨e, he, -⟩ :=
    readable_or_refused env
  · rw [load_eq_check hjson hseconds hretries, check_eq_ok_iff] at h
    obtain ⟨rfl, hvisible, hpositive⟩ := h
    have hne : seconds ≠ 0 := mt nanos_ofSeconds_eq_zero_iff.mpr hpositive
    exact ⟨⟨⟨logJson, hjson⟩, ⟨seconds, hseconds, Nat.pos_of_ne_zero hne⟩, ⟨retries, hretries⟩,
      exists_name_iff.mpr hvisible⟩, holds_gathered hjson hseconds hretries⟩
  · rw [he] at h
    contradiction

theorem TimeoutSeconds.unique {n : Nat} (h : TimeoutSeconds env seconds)
    (hn : TimeoutSeconds env n) : seconds = n := by
  have hread := readSeconds_eq_ok_iff.mpr ⟨seconds, h, rfl⟩
  rw [readSeconds_eq_ok_iff.mpr ⟨n, hn, rfl⟩] at hread
  cases hread
  rfl

/-- Where every variable is good, none is refused. -/
theorem Loadable.not_refusal (h : Loadable env) : ¬ Refusal env e := by
  rintro (⟨hjson, -⟩ | ⟨-, hseconds, -⟩ | ⟨-, -, hretries, -⟩ | ⟨-, -, -, hname⟩ | ⟨-, hzero, -, -⟩)
  · exact hjson h.logJson
  · exact hseconds (h.shutdownTimeout.imp fun _ hn => hn.1)
  · exact hretries h.readyMaxRetries
  · exact hname h.serviceName
  · obtain ⟨n, hn, hpositive⟩ := h.shutdownTimeout
    exact Nat.ne_of_lt hpositive (hzero.unique hn)

theorem exists_load_eq_ok_iff : (∃ config, load env = .ok config) ↔ Loadable env := by
  constructor
  · rintro ⟨config, h⟩
    exact (loaded h).1
  · intro h
    cases hload : load env with
    | ok config => exact ⟨config, rfl⟩
    | error e => exact absurd (refusal_of_load hload) h.not_refusal

/-- Only the variables of a configuration count. -/
theorem load_congr (h : ∀ name ∈ variableNames, other.get? name = env.get? name) :
    load other = load env := by
  simp only [variableNames, List.forall_mem_cons] at h
  obtain ⟨hname, hlevel, houtput, hjson, hseconds, hretries, -⟩ := h
  rw [load, readOr_congr hjson, readOr_congr hseconds, readOr_congr hretries,
    textOr_congr hname, textOr_congr hlevel, textOr_congr houtput, load]

theorem logging_eq (config : ServiceConfig) :
    config.logging = { Logging.Settings.default.withLevelName config.logLevel with
      serviceName := config.serviceName
      output := config.logOutput
      json := config.logJson } := by
  rw [logging, Logging.Settings.withLevelName, Logging.Settings.withLevelName]
  cases Logging.Level.ofName? config.logLevel <;> cases hjson : config.logJson <;> rfl

theorem logs_logging (config : ServiceConfig) : Logs config config.logging := by
  rw [logging_eq]
  by_cases hname : Logging.Level.IsName config.logLevel
  · obtain ⟨level, hnamed⟩ := id hname
    rw [Logging.Settings.withLevelName_of_named hnamed]
    exact ⟨rfl, rfl, rfl, fun _ => ⟨hnamed, rfl⟩, fun h => absurd hname h⟩
  · rw [Logging.Settings.withLevelName_of_not_isName hname]
    exact ⟨rfl, rfl, rfl, fun h => absurd h hname, fun _ => ⟨rfl, rfl⟩⟩

/-- The variables of an environment decide whether it has a configuration, which one, which error
otherwise, and what is logged with it. -/
theorem load_decides (env : Environment) :
    ((∃ config, load env = .ok config) ↔ Loadable env) ∧
      (∀ config, load env = .ok config → Holds env config ∧ Logs config config.logging) ∧
      (∀ e, load env = .error e → Refusal env e) ∧
      ∀ other : Environment, (∀ name ∈ variableNames, other.get? name = env.get? name) →
        load other = load env :=
  ⟨exists_load_eq_ok_iff, fun config h => ⟨(loaded h).2, logs_logging config⟩,
    fun _ => refusal_of_load, fun _ => load_congr⟩

/-- A level that is no name, and a timeout with a sign and a leading zero. -/
def chatty : Environment :=
  Variables.environment ⟨[("LOG_LEVEL", Text.Utf8.encode "CHATTY".toList),
    ("SHUTDOWN_TIMEOUT", Text.Utf8.encode "+05".toList)]⟩

/-- A service named by a blank. -/
def unnamed : Environment :=
  Variables.environment ⟨[("SERVICE_NAME", Text.Utf8.encode " ".toList)]⟩

theorem load_decides_chatty :
    (∃ config, load chatty = .ok config ∧ config.shutdownTimeout = .ofSeconds 5 ∧
        config.logging.unrecognized = some "CHATTY") ∧
      ∃ e, load unnamed = .error e ∧ Refusal unnamed e := by
  constructor
  · obtain ⟨hload, hholds, -⟩ := load_decides chatty
    have hdigits : IsDigits ['0', '5'] := ⟨by decide, by simp [IsDigit]⟩
    have hseconds : TimeoutSeconds chatty 5 :=
      .set rfl ⟨"+05".toList, rfl, .plus hdigits, by decide⟩
    obtain ⟨config, hconfig⟩ := hload.mpr
      ⟨⟨false, .unset rfl⟩, ⟨5, hseconds, by decide⟩, ⟨5, .unset rfl⟩,
        ⟨"service", .unset rfl, 's', by decide, by decide⟩⟩
    obtain ⟨hvalues, hlogs⟩ := hholds config hconfig
    refine ⟨config, hconfig, ?_, ?_⟩
    · obtain ⟨n, hn, htimeout⟩ := hvalues.shutdownTimeout
      rw [htimeout, hn.unique hseconds]
    · have hlevel : "CHATTY" = config.logLevel := by
        rw [← (gives_iff_of_set rfl).mp hvalues.logLevel, lossy_encode, String.ofList_toList]
      have hunknown : ¬ Logging.Level.IsName config.logLevel := by
        rw [← hlevel]
        exact Logging.Level.ofName?_eq_none_iff.mp (by decide)
      rw [(hlogs.unknown hunknown).2, hlevel]
  · obtain ⟨hload, -, hrefusal, -⟩ := load_decides unnamed
    cases hresult : load unnamed with
    | ok config =>
        obtain ⟨s, hname, hvisible⟩ := (hload.mp ⟨config, hresult⟩).serviceName
        have hs : " " = s := by
          rw [← (gives_iff_of_set rfl).mp hname, lossy_encode, String.ofList_toList]
        rw [← hs, isVisible_iff] at hvisible
        exact absurd (by decide) hvisible
    | error e => exact ⟨e, rfl, hrefusal e hresult⟩

end ServiceConfig
end ServiceKit
