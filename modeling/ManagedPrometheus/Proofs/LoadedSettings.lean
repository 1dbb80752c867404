import ManagedPrometheus.Proofs.NamedNumbers
import Mathlib.Data.List.Nodup
import Mathlib.Logic.Function.Basic

/-!
# Loading the settings

Each setting is read from a key of its own. The settings are listed here with their keys, limits and
defaults, apart from the loading, and `Settings.load_exact` holds what is loaded against this list:
a number is the one that the text under its key names, or else the default. As a setting depends on
its own key only (`Setting.valueIn_congr`), changing the value of one key changes one setting at most.
-/

namespace ManagedPrometheus

/-! ### The settings and their keys -/

inductive NumericSetting
  | requeueCreating
  | requeueUpdating
  | requeueDeleting
  | requeueDefault
  | resyncPeriod
  | backendCallTimeout
  | metricsPort
  | serverStartupTimeout
  | serverPollInterval
  deriving DecidableEq, Repr

namespace NumericSetting

def key : NumericSetting → String
  | .requeueCreating => "REQUEUE_CREATING_SECS"
  | .requeueUpdating => "REQUEUE_UPDATING_SECS"
  | .requeueDeleting => "REQUEUE_DELETING_SECS"
  | .requeueDefault => "REQUEUE_DEFAULT_SECS"
  | .resyncPeriod => "RESYNC_PERIOD_SECS"
  | .backendCallTimeout => "BACKEND_CALL_TIMEOUT_SECS"
  | .metricsPort => "METRICS_PORT"
  | .serverStartupTimeout => "SERVER_STARTUP_TIMEOUT_SECS"
  | .serverPollInterval => "SERVER_POLL_INTERVAL_MS"

/-- The largest number that the setting can be: 16 bits for the port, 64 bits for all others. -/
def limit : NumericSetting → Nat
  | .metricsPort => 2 ^ 16 - 1
  | _ => 2 ^ 64 - 1

def default : NumericSetting → Nat
  | .requeueCreating => 15
  | .requeueUpdating => 10
  | .requeueDeleting => 10
  | .requeueDefault => 30
  | .resyncPeriod => 36000
  | .backendCallTimeout => 60
  | .metricsPort => 8080
  | .serverStartupTimeout => 10
  | .serverPollInterval => 50

def valueIn (settings : Settings) : NumericSetting → Nat
  | .requeueCreating => settings.requeueCreatingSeconds
  | .requeueUpdating => settings.requeueUpdatingSeconds
  | .requeueDeleting => settings.requeueDeletingSeconds
  | .requeueDefault => settings.requeueDefaultSeconds
  | .resyncPeriod => settings.resyncPeriodSeconds
  | .backendCallTimeout => settings.backendCallTimeoutSeconds
  | .metricsPort => settings.metricsPort
  | .serverStartupTimeout => settings.serverStartupTimeoutSeconds
  | .serverPollInterval => settings.serverPollIntervalMilliseconds

/-- The span of time that follows from the setting, for those that one follows from. -/
def span? : NumericSetting → Option (Settings → Duration)
  | .requeueCreating => some fun settings => settings.requeuePolicy.creating
  | .requeueUpdating => some fun settings => settings.requeuePolicy.updating
  | .requeueDeleting => some fun settings => settings.requeuePolicy.deleting
  | .requeueDefault => some fun settings => settings.requeuePolicy.default
  | .resyncPeriod => some Settings.resyncPeriod
  | .backendCallTimeout => some Settings.callTimeout
  | .metricsPort | .serverStartupTimeout | .serverPollInterval => none

/-- The settings that the delays before a pass is repeated follow from. -/
def ofRequeue : List NumericSetting :=
  [.requeueCreating, .requeueUpdating, .requeueDeleting, .requeueDefault]

theorem default_le_limit (setting : NumericSetting) : setting.default ≤ setting.limit := by
  cases setting <;> decide

theorem limit_lt (setting : NumericSetting) : setting.limit < 2 ^ 64 := by
  cases setting <;> decide

theorem span_eq {setting : NumericSetting} {span : Settings → Duration}
    (h : setting.span? = some span) (settings : Settings) :
    span settings = .ofSeconds (setting.valueIn settings) := by
  cases setting <;> cases h <;> rfl

end NumericSetting

inductive TextSetting
  | region
  | watchNamespace
  deriving DecidableEq, Repr

namespace TextSetting

def key : TextSetting → String
  | .region => "AWS_REGION"
  | .watchNamespace => "WATCH_NAMESPACE"

def valueIn (settings : Settings) : TextSetting → Option String
  | .region => settings.region
  | .watchNamespace => settings.watchNamespace

end TextSetting

/-- A setting of any type. -/
inductive Setting
  | number (setting : NumericSetting)
  | text (setting : TextSetting)
  | logFormat
  deriving DecidableEq, Repr

namespace Setting

def key : Setting → String
  | .number setting => setting.key
  | .text setting => setting.key
  | .logFormat => "LOG_FORMAT"

def Value : Setting → Type
  | .number _ => Nat
  | .text _ => Option String
  | .logFormat => LogFormat

def valueIn (settings : Settings) : (setting : Setting) → setting.Value
  | .number setting => setting.valueIn settings
  | .text setting => setting.valueIn settings
  | .logFormat => settings.logFormat

def all : List Setting :=
  [.number .requeueCreating, .number .requeueUpdating, .number .requeueDeleting,
    .number .requeueDefault, .number .resyncPeriod, .number .backendCallTimeout,
    .number .metricsPort, .number .serverStartupTimeout, .number .serverPollInterval,
    .text .region, .text .watchNamespace, .logFormat]

theorem mem_all (setting : Setting) : setting ∈ all := by
  cases setting with
  | number setting => cases setting <;> decide
  | text setting => cases setting <;> decide
  | logFormat => decide

theorem key_injective : Function.Injective key := by
  intro a b h
  have hkeys : (all.map key).Nodup := by decide
  exact List.inj_on_of_nodup_map hkeys a.mem_all b.mem_all h

end Setting

/-! ### Reading one key -/

namespace Settings

variable {lookup : String → Option String} {limit default n : Nat} {key text : String}

theorem numberAt_of_named (hlookup : lookup key = some text) (h : NamesNumber limit text n) :
    numberAt limit default key lookup = n := by
  rw [numberAt, hlookup, Option.bind_some, number?_eq_some_iff.mpr h]
  rfl

theorem numberAt_of_unnamed
    (h : ∀ text n, lookup key = some text → ¬ NamesNumber limit text n) :
    numberAt limit default key lookup = default := by
  have hnone : (lookup key).bind (number? limit) = none := by
    apply Option.eq_none_iff_forall_ne_some.mpr
    intro n hn
    obtain ⟨text, hlookup, hnumber⟩ := Option.bind_eq_some_iff.mp hn
    exact h text n hlookup (number?_eq_some_iff.mp hnumber)
  rw [numberAt, hnone]
  rfl

theorem numberAt_le (h : default ≤ limit) (key : String) (lookup : String → Option String) :
    numberAt limit default key lookup ≤ limit := by
  rw [numberAt]
  rcases hnumber : (lookup key).bind (number? limit) with _ | n
  · exact h
  · obtain ⟨text, -, hn⟩ := Option.bind_eq_some_iff.mp hnumber
    exact (number?_eq_some_iff.mp hn).inRange

theorem textAt_eq_some_iff :
    textAt key lookup = some text ↔
      lookup key = some text ∧ ∃ c ∈ text.toList, isBlank c = false := by
  rw [textAt, Option.filter_eq_some_iff, isAllBlank]
  simp

end Settings

theorem NumericSetting.valueIn_load (setting : NumericSetting) (lookup : String → Option String) :
    setting.valueIn (Settings.load lookup)
      = Settings.numberAt setting.limit setting.default setting.key lookup := by
  cases setting <;> rfl

theorem TextSetting.valueIn_load (setting : TextSetting) (lookup : String → Option String) :
    setting.valueIn (Settings.load lookup) = Settings.textAt setting.key lookup := by
  cases setting <;> rfl

/-- A setting depends on what is under its own key. -/
theorem Setting.valueIn_congr (setting : Setting) {a b : String → Option String}
    (h : a setting.key = b setting.key) :
    setting.valueIn (Settings.load a) = setting.valueIn (Settings.load b) := by
  cases setting with
  | number setting =>
    have hkey : a setting.key = b setting.key := h
    change setting.valueIn (Settings.load a) = setting.valueIn (Settings.load b)
    rw [setting.valueIn_load, setting.valueIn_load, Settings.numberAt, Settings.numberAt, hkey]
  | text setting =>
    have hkey : a setting.key = b setting.key := h
    change setting.valueIn (Settings.load a) = setting.valueIn (Settings.load b)
    rw [setting.valueIn_load, setting.valueIn_load, Settings.textAt, Settings.textAt, hkey]
  | logFormat => exact congrArg (fun value => (value.map Settings.logFormatOf).getD .text) h

theorem NumericSetting.nanoseconds_span {setting : NumericSetting} {span : Settings → Duration}
    (h : setting.span? = some span) (lookup : String → Option String) :
    (span (Settings.load lookup)).nanoseconds
      = setting.valueIn (Settings.load lookup) * Duration.perSecond := by
  have hle : setting.valueIn (Settings.load lookup) ≤ setting.limit := by
    rw [setting.valueIn_load]
    exact Settings.numberAt_le setting.default_le_limit _ _
  have hlimit := setting.limit_lt
  rw [span_eq h, Duration.ofSeconds]
  apply Duration.nanoseconds_ofNanoseconds
  rw [Duration.perSecond, Duration.maxNanoseconds]
  omega

/-! ### All keys -/

namespace Settings

/-- The settings hold what a look-up says of their keys. -/
structure LoadedFrom (lookup : String → Option String) (settings : Settings) : Prop where
  named : ∀ (setting : NumericSetting) (text : String) (n : Nat), lookup setting.key = some text →
    NamesNumber setting.limit text n → setting.valueIn settings = n
  /-- Under the key there is nothing, or no text that names a number up to the limit. -/
  unnamed : ∀ setting : NumericSetting,
    (∀ text n, lookup setting.key = some text → ¬ NamesNumber setting.limit text n) →
      setting.valueIn settings = setting.default
  text : ∀ (setting : TextSetting) (text : String), setting.valueIn settings = some text ↔
    lookup setting.key = some text ∧ ∃ c ∈ text.toList, isBlank c = false
  span : ∀ (setting : NumericSetting) (span : Settings → Duration), setting.span? = some span →
    (span settings).nanoseconds = setting.valueIn settings * Duration.perSecond

theorem loadedFrom_load (lookup : String → Option String) : LoadedFrom lookup (load lookup) := by
  constructor
  case named =>
    intro setting text n hlookup h
    rw [setting.valueIn_load]
    exact numberAt_of_named hlookup h
  case unnamed =>
    intro setting h
    rw [setting.valueIn_load]
    exact numberAt_of_unnamed h
  case text =>
    intro setting text
    rw [setting.valueIn_load]
    exact textAt_eq_some_iff
  case span =>
    intro setting span h
    exact NumericSetting.nanoseconds_span h lookup

/-- The one setting that may differ is that of the key `changed`, and what follows from it. -/
structure DiffersOnlyAt (changed : String) (earlier later : Settings) : Prop where
  setting : ∀ setting : Setting, setting.key ≠ changed →
    setting.valueIn later = setting.valueIn earlier
  single : ∀ a b : Setting, a.valueIn later ≠ a.valueIn earlier →
    b.valueIn later ≠ b.valueIn earlier → a = b
  span : ∀ (setting : NumericSetting) (span : Settings → Duration), setting.span? = some span →
    setting.key ≠ changed → span later = span earlier
  requeue : (∀ setting ∈ NumericSetting.ofRequeue, setting.key ≠ changed) →
    later.requeuePolicy = earlier.requeuePolicy

theorem differsOnlyAt_of_settings {changed : String} {earlier later : Settings}
    (h : ∀ setting : Setting, setting.key ≠ changed →
      setting.valueIn later = setting.valueIn earlier) :
    DiffersOnlyAt changed earlier later := by
  have hnumber : ∀ setting : NumericSetting, setting.key ≠ changed →
      setting.valueIn later = setting.valueIn earlier := by
    intro setting hkey
    exact h (.number setting) hkey
  constructor
  case setting => exact h
  case single =>
    intro a b ha hb
    have hown : ∀ setting : Setting, setting.valueIn later ≠ setting.valueIn earlier →
        setting.key = changed := by
      intro setting hne
      by_contra hkey
      exact hne (h setting hkey)
    exact Setting.key_injective ((hown a ha).trans (hown b hb).symm)
  case span =>
    intro setting span hspan hkey
    rw [NumericSetting.span_eq hspan, NumericSetting.span_eq hspan, hnumber setting hkey]
  case requeue =>
    intro hkeys
    have hcreating := hnumber .requeueCreating (hkeys _ (by decide))
    have hupdating := hnumber .requeueUpdating (hkeys _ (by decide))
    have hdeleting := hnumber .requeueDeleting (hkeys _ (by decide))
    have hdefault := hnumber .requeueDefault (hkeys _ (by decide))
    simp only [NumericSetting.valueIn] at hcreating hupdating hdeleting hdefault
    rw [requeuePolicy, requeuePolicy, hcreating, hupdating, hdeleting, hdefault]

theorem differsOnlyAt_load (lookup : String → Option String) (changed : String)
    (value? : Option String) :
    DiffersOnlyAt changed (load lookup) (load (Function.update lookup changed value?)) := by
  apply differsOnlyAt_of_settings
  intro setting hkey
  apply setting.valueIn_congr
  exact Function.update_of_ne hkey value? lookup

/-- **Loading the settings.** Under every look-up each number is the one that the text under its own
key names, within the width of the setting, and in every other case the default. A text is taken as
it is written if it is more than blanks, and the spans of time are the loaded seconds. Giving one key
another value, or none, leaves every setting but that of the key as it was, and all that follows from
the others. -/
theorem load_exact (lookup : String → Option String) :
    LoadedFrom lookup (load lookup) ∧
      ∀ (changed : String) (value? : Option String),
        DiffersOnlyAt changed (load lookup) (load (Function.update lookup changed value?)) :=
  ⟨loadedFrom_load lookup, differsOnlyAt_load lookup⟩

/-- The largest port between blanks, a number of seconds that is one too large and a region with
blanks around it. Removing the port changes neither the region nor the delays. -/
theorem load_exact_widest_port :
    let texts : TextMap String := .ofList [
      ("METRICS_PORT", "\u3000+065535\t"), ("REQUEUE_CREATING_SECS", "18446744073709551616"),
      ("AWS_REGION", " eu-west-1 ")]
    let removed := load (Function.update texts.get? "METRICS_PORT" none)
    (NamesNumber (2 ^ 16 - 1) "\u3000+065535\t" 65535 ∧ (ofMap texts).metricsPort = 65535) ∧
      ((∀ n, ¬ NamesNumber (2 ^ 64 - 1) "18446744073709551616" n) ∧
        (ofMap texts).requeueCreatingSeconds = 15) ∧
      (ofMap texts).region = some " eu-west-1 " ∧ removed.region = some " eu-west-1 " ∧
      removed.requeuePolicy = (ofMap texts).requeuePolicy := by
  intro texts removed
  obtain ⟨hloaded, hkept⟩ := load_exact texts.get?
  have hremoved := hkept "METRICS_PORT" none
  have hport : NamesNumber (2 ^ 16 - 1) "\u3000+065535\t" 65535 := by
    refine ⟨⟨['+'], "065535".toList, ?_, .inr rfl, ?_⟩, by decide⟩
    · refine ⟨⟨['\u3000'], ['\t'], by decide, by simp [isBlank], by simp [isBlank]⟩, ?_, ?_⟩
      · rintro c ⟨⟩
        decide
      · rintro c ⟨⟩
        decide
    · exact ⟨by decide, List.all_eq_true.mp (by decide), by decide⟩
  have hlarge : ∀ n, ¬ NamesNumber (2 ^ 64 - 1) "18446744073709551616" n := by
    intro n hnames
    have hnone : number? (2 ^ 64 - 1) "18446744073709551616" = none := by decide
    cases hnone.symm.trans (number?_eq_some_iff.mpr hnames)
  have hregion : (ofMap texts).region = some " eu-west-1 " :=
    (hloaded.text .region " eu-west-1 ").mpr ⟨by decide, 'e', by decide, by decide⟩
  refine ⟨⟨hport, hloaded.named .metricsPort _ _ (by decide) hport⟩, ⟨hlarge, ?_⟩, hregion, ?_, ?_⟩
  · apply hloaded.unnamed .requeueCreating
    intro text n hlookup
    obtain rfl : "18446744073709551616" = text := Option.some.inj (Eq.trans (by decide) hlookup)
    exact hlarge n
  · exact (hremoved.setting (.text .region) (by decide)).trans hregion
  · exact hremoved.requeue (by decide)

end Settings

end ManagedPrometheus
