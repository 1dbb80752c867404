import ManagedPrometheus.Blank
import ManagedPrometheus.Outcome
import ManagedPrometheus.Snapshot

/-!
# Settings

The settings of the controller, read from a map of named texts. Each setting has a key of its own and
a default that holds when the key is absent or its text is no number in range; a text setting holds
only if it is more than blanks, and then as it is written.
-/

namespace ManagedPrometheus

/-- What a pass goes by. -/
structure PassSettings where
  requeue : RequeuePolicy
  /-- How long a call may take. -/
  callTimeout : Duration
  /-- Fills the status where the backend does not. -/
  identity : Identity

/-- How log lines are written. -/
inductive LogFormat
  | text
  | json
  deriving DecidableEq, Repr

/-- The settings of the controller. -/
structure Settings where
  requeueCreatingSeconds : Nat
  requeueUpdatingSeconds : Nat
  requeueDeletingSeconds : Nat
  requeueDefaultSeconds : Nat
  resyncPeriodSeconds : Nat
  backendCallTimeoutSeconds : Nat
  metricsPort : Nat
  serverStartupTimeoutSeconds : Nat
  serverPollIntervalMilliseconds : Nat
  logFormat : LogFormat
  region : Option String
  /-- The one namespace that is watched, all if none. -/
  watchNamespace : Option String
  deriving DecidableEq, Repr

namespace Settings

/-! ### Reading texts -/

/-- Adds a digit to a number, unless the sum passes `limit`. -/
def appendDigit (limit : Nat) (n? : Option Nat) (c : Char) : Option Nat :=
  match n? with
  | none => none
  | some n =>
    if c.isDigit then
      let sum := n * 10 + (c.toNat - '0'.toNat)
      if sum ≤ limit then some sum else none
    else none

/-- A text of one or more ASCII digits that names a number up to `limit`. -/
def digits? (limit : Nat) (digits : List Char) : Option Nat :=
  if digits.isEmpty then none else digits.foldl (appendDigit limit) (some 0)

/-- A number up to `limit`: an optional plus sign and digits, between blanks. -/
def number? (limit : Nat) (text : String) : Option Nat :=
  match trimBlanks text.toList with
  | '+' :: digits => digits? limit digits
  | digits => digits? limit digits

def max64 : Nat := 18446744073709551615

def max16 : Nat := 65535

/-- The number under a key, or a default. -/
def numberAt (limit default : Nat) (key : String) (lookup : String → Option String) : Nat :=
  ((lookup key).bind (number? limit)).getD default

/-- The text under a key, if it is more than blanks. -/
def textAt (key : String) (lookup : String → Option String) : Option String :=
  (lookup key).filter fun text => !isAllBlank text

/-- The log format that a text names, in any mix of cases. -/
def logFormatOf (text : String) : LogFormat :=
  if text.toList.map Char.toLower = "json".toList then .json else .text

/-! ### Loading -/

/-- The settings under a look-up. -/
def load (lookup : String → Option String) : Settings where
  requeueCreatingSeconds := numberAt max64 15 "REQUEUE_CREATING_SECS" lookup
  requeueUpdatingSeconds := numberAt max64 10 "REQUEUE_UPDATING_SECS" lookup
  requeueDeletingSeconds := numberAt max64 10 "REQUEUE_DELETING_SECS" lookup
  requeueDefaultSeconds := numberAt max64 30 "REQUEUE_DEFAULT_SECS" lookup
  resyncPeriodSeconds := numberAt max64 36000 "RESYNC_PERIOD_SECS" lookup
  backendCallTimeoutSeconds := numberAt max64 60 "BACKEND_CALL_TIMEOUT_SECS" lookup
  metricsPort := numberAt max16 8080 "METRICS_PORT" lookup
  serverStartupTimeoutSeconds := numberAt max64 10 "SERVER_STARTUP_TIMEOUT_SECS" lookup
  serverPollIntervalMilliseconds := numberAt max64 50 "SERVER_POLL_INTERVAL_MS" lookup
  logFormat := ((lookup "LOG_FORMAT").map logFormatOf).getD .text
  region := textAt "AWS_REGION" lookup
  watchNamespace := textAt "WATCH_NAMESPACE" lookup

/-- The settings of a map of named texts. -/
def ofMap (texts : TextMap String) : Settings := load texts.get?

def default : Settings := load fun _ => none

/-! ### What follows from them -/

/-- The delays before a pass is repeated. -/
def requeuePolicy (settings : Settings) : RequeuePolicy where
  creating := .ofSeconds settings.requeueCreatingSeconds
  updating := .ofSeconds settings.requeueUpdatingSeconds
  deleting := .ofSeconds settings.requeueDeletingSeconds
  default := .ofSeconds settings.requeueDefaultSeconds

/-- How long a resource with nothing pending is left alone. -/
def resyncPeriod (settings : Settings) : Duration := .ofSeconds settings.resyncPeriodSeconds

def callTimeout (settings : Settings) : Duration := .ofSeconds settings.backendCallTimeoutSeconds

/-- What a pass goes by. -/
def passSettings (settings : Settings) (identity : Identity) : PassSettings :=
  ⟨settings.requeuePolicy, settings.callTimeout, identity⟩

end Settings

end ManagedPrometheus
