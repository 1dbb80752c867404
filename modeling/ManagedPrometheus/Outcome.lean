import ManagedPrometheus.Backend
import ManagedPrometheus.Duration
import ManagedPrometheus.Phase
import ManagedPrometheus.Policy

/-!
# Outcomes

How a pass ends: in agreement with the backend, waiting for it, with the resource gone, or with a
failure. A failure's severity says whether it is retried, and the outcome decides both when the next
pass comes and what the scheduler does.
-/

namespace ManagedPrometheus

/-! ### Failures -/

/-- Why a pass failed. -/
inductive Failure
  | backend (api : String) (cause : BackendError)
  | timeout (api : String) (limit : Duration)
  | cancelled
  /-- The resource is in a failed phase from which it is not updated. -/
  | failedPhase (reason : String)
  | immutableFieldsChanged (paths : List String)
  | missingArn
  | invalidSpec (problem : String)
  deriving DecidableEq

def Failure.message : Failure → String
  | .backend api cause => api ++ " failed: " ++ cause.message
  | .timeout api limit => api ++ " timed out after " ++ toString limit.seconds ++ "s"
  | .cancelled => "reconciliation cancelled"
  | .failedPhase reason => reason
  | .immutableFieldsChanged paths =>
    "immutable field(s) changed: " ++ String.intercalate ", " paths
  | .missingArn => "resource ARN is not known yet"
  | .invalidSpec problem => "invalid spec: " ++ problem

/-- How a failure is retried. -/
inductive Severity
  /-- Again after the default delay. -/
  | recoverable
  /-- Not before the resource changes or is looked at again. -/
  | terminal
  /-- Not before the resource changes. -/
  | fatal
  deriving DecidableEq, Repr

def Severity.name : Severity → String
  | .recoverable => "recoverable"
  | .terminal => "terminal"
  | .fatal => "fatal"

/-- The severity of a failure, where the given error codes of the service are terminal. -/
def Failure.severity (terminalCodes : List String) : Failure → Severity
  | .backend _ cause =>
    match cause.code? with
    | some code => if terminalCodes.contains code then .terminal else .recoverable
    | none => .recoverable
  | .failedPhase _ | .immutableFieldsChanged _ => .terminal
  | .invalidSpec _ => .fatal
  | .timeout _ _ | .cancelled | .missingArn => .recoverable

/-! ### Outcomes -/

/-- Why a pass waits for the backend. -/
inductive WaitReason
  /-- The resource is in progress, or in a phase that is not known. -/
  | inProgress (phase : Phase)
  /-- The resource accepts changes only while it is active. -/
  | notActive (phase : Phase)
  /-- The resource cannot be deleted from its phase. -/
  | deleteBlocked (phase : Phase)
  deriving DecidableEq, Repr

namespace WaitReason

/-- The phase that is waited out. -/
def phase : WaitReason → Phase
  | .inProgress phase | .notActive phase | .deleteBlocked phase => phase

def name : WaitReason → String
  | .inProgress _ => "in-progress"
  | .notActive _ => "not-active"
  | .deleteBlocked _ => "delete-blocked"

def message (kind : Kind) (reason : WaitReason) : String :=
  kind.displayName ++ " is in '" ++ reason.phase.codeText ++
    match reason with
    | .inProgress _ => "' state, cannot be modified or deleted"
    | .notActive _ => "' state, updates are only applied while 'ACTIVE'"
    | .deleteBlocked _ => "' state, cannot be deleted yet"

end WaitReason

/-- How a pass ends. -/
inductive Outcome
  | synced
  | wait (reason : WaitReason)
  /-- The backend does not know the resource any more. -/
  | deleted
  | failed (failure : Failure)
  deriving DecidableEq

/-- The name of an outcome; a failure goes by its severity. -/
def Outcome.label (terminalCodes : List String) : Outcome → String
  | .synced => "synced"
  | .wait _ => "wait"
  | .deleted => "deleted"
  | .failed failure => (failure.severity terminalCodes).name

/-! ### When to come back -/

/-- When the next pass is due. -/
inductive Requeue
  /-- Nothing is pending. -/
  | done
  | retryAfter (delay : Duration)
  /-- Not before the resource changes. -/
  | fatal
  deriving DecidableEq

/-- Whether nothing is pending. -/
def Requeue.isSynced : Requeue → Bool
  | .retryAfter _ => false
  | _ => true

/-- The delays before a pass is repeated. -/
structure RequeuePolicy where
  creating : Duration
  updating : Duration
  deleting : Duration
  /-- For every other wait and every failure that is retried. -/
  default : Duration
  deriving DecidableEq

namespace RequeuePolicy

def waitDelay (policy : RequeuePolicy) : WaitReason → Duration
  | .inProgress .creating => policy.creating
  | .inProgress .updating => policy.updating
  | .inProgress .deleting => policy.deleting
  | _ => policy.default

/-- When the next pass is due after an outcome. -/
def requeue (policy : RequeuePolicy) (terminalCodes : List String) : Outcome → Requeue
  | .synced | .deleted => .done
  | .wait reason => .retryAfter (policy.waitDelay reason)
  | .failed failure =>
    match failure.severity terminalCodes with
    | .terminal => .done
    | .fatal => .fatal
    | .recoverable => .retryAfter policy.default

end RequeuePolicy

/-- What the scheduler does with a resource. -/
inductive Action
  | awaitChange
  | requeueAfter (delay : Duration)
  deriving DecidableEq

/-- What the scheduler does after a pass, and the label under which a requeue is counted. A resource
that is gone or that no retry can mend waits for a change; one with nothing pending is looked at
again after the resync period. -/
def nextAction (resync : Duration) (outcome : Outcome) (requeue : Requeue) :
    Action × Option String :=
  match outcome, requeue with
  | .deleted, _ => (.awaitChange, none)
  | _, .fatal => (.awaitChange, none)
  | _, .done => (.requeueAfter resync, some "resync")
  | .wait reason, .retryAfter delay => (.requeueAfter delay, some reason.name)
  | _, .retryAfter delay => (.requeueAfter delay, some "recoverable-error")

end ManagedPrometheus
