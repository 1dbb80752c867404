import ManagedPrometheus.Backend

/-!
# Metrics

What the controller counts. An `Event` is something worth counting; it adds one to each of its
series. A `Series` is a family together with one value for each of the family's labels.
-/

namespace ManagedPrometheus

/-! ### Families -/

/-- A family of counters or of histograms. -/
inductive Family
  | passes
  | passDuration
  | brokenPasses
  | calls
  | callDuration
  | requeues
  deriving DecidableEq, Repr

namespace Family

/-- All families, ascending by name. -/
def all : List Family :=
  [.callDuration, .calls, .passDuration, .brokenPasses, .passes, .requeues]

/-- What the names of all families begin with. -/
def namespaceName : String := "prometheus_service_controller_"

/-- The name of a family among those of the controller. -/
def shortName : Family → String
  | .passes => "reconciliations_total"
  | .passDuration => "reconciliation_duration_seconds"
  | .brokenPasses => "reconciliation_errors_total"
  | .calls => "api_calls_total"
  | .callDuration => "api_call_duration_seconds"
  | .requeues => "requeues_total"

def name (family : Family) : String := namespaceName ++ family.shortName

/-- What a family counts. -/
def help : Family → String
  | .passes => "Total number of reconciliation passes by kind and outcome"
  | .passDuration => "Duration of reconciliation passes in seconds"
  | .brokenPasses => "Total number of Kubernetes API failures during reconciliation"
  | .calls => "Total number of backend API calls"
  | .callDuration => "Duration of backend API calls in seconds"
  | .requeues => "Total number of requeues by reason"

/-- The labels of a family, ascending. -/
def labels : Family → List String
  | .passes => ["kind", "outcome"]
  | .passDuration | .brokenPasses => ["kind"]
  | .calls => ["api", "op_type", "result"]
  | .callDuration => ["api"]
  | .requeues => ["reason"]

/-- The upper bounds of a histogram's buckets, ascending; none for a counter. -/
def buckets : Family → Option (List Float)
  | .passDuration => some [0.1, 0.5, 1.0, 2.0, 5.0, 10.0, 30.0]
  | .callDuration => some [0.05, 0.1, 0.5, 1.0, 2.0, 5.0]
  | _ => none

def isHistogram : Family → Bool
  | .passDuration | .callDuration => true
  | _ => false

end Family

/-! ### Series and events -/

/-- One member of a family: a value for each label, in the order of the labels. -/
structure Series where
  family : Family
  values : List String
  deriving DecidableEq, Repr

/-- What a call does to the backend. -/
inductive Operation
  | readOne
  | create
  | update
  | delete
  deriving DecidableEq, Repr

def Operation.name : Operation → String
  | .readOne => "READ_ONE"
  | .create => "CREATE"
  | .update => "UPDATE"
  | .delete => "DELETE"

/-- What a call does. -/
def Call.operation : Call → Operation
  | .describe _ => .readOne
  | .create _ => .create
  | .update _ => .update
  | .delete _ => .delete

/-- Something that is counted. -/
inductive Event
  /-- A call of the backend ended. -/
  | called (operation : Operation) (api : String) (succeeded : Bool)
  /-- A pass ended with an outcome. -/
  | passEnded (kind outcome : String)
  /-- The duration of a pass was taken. -/
  | passTimed (kind : String)
  /-- A pass was broken off, as the cluster refused a write. -/
  | passBroken (kind : String)
  /-- A pass was put off, for a reason. -/
  | requeued (reason : String)
  deriving DecidableEq, Repr

def resultLabel (succeeded : Bool) : String := if succeeded then "success" else "error"

/-- The series to which an event adds one. -/
def Event.series : Event → List Series
  | .called operation api succeeded =>
    [⟨.calls, [api, operation.name, resultLabel succeeded]⟩, ⟨.callDuration, [api]⟩]
  | .passEnded kind outcome => [⟨.passes, [kind, outcome]⟩]
  | .passTimed kind => [⟨.passDuration, [kind]⟩]
  | .passBroken kind => [⟨.brokenPasses, [kind]⟩]
  | .requeued reason => [⟨.requeues, [reason]⟩]

/-- How often a series grows over a list of events. -/
def growth (events : List Event) (series : Series) : Nat :=
  (events.flatMap Event.series).count series

end ManagedPrometheus
