import ManagedPrometheus.Backoff
import ManagedPrometheus.MergePatch
import ManagedPrometheus.Reconcile

/-!
# Visits

A visit is what the controller does when the cluster points it at a resource. Before anything is
asked of the backend for a resource that is to exist, the resource carries the finalizer; the
finalizer is removed only once the backend does not know the resource any more. In between the visit
runs a pass and stores the status that the pass returned, if it differs from the one that was read.
A visit is broken off when the cluster refuses a write.
-/

namespace ManagedPrometheus

/-! ### Writes to the cluster -/

/-- The finalizer that keeps a resource in the cluster until the backend has let it go. -/
def finalizerName : String := apiGroup ++ "/finalizer"

/-- The name under which the controller writes. -/
def fieldManager : String := "prometheus-service-controller"

/-- What a write changes. -/
inductive WriteTarget
  | object
  | status
  deriving DecidableEq, Repr

/-- A merge patch of an object in the cluster. -/
structure Write where
  namespaceName : String
  name : String
  target : WriteTarget
  body : Json
  deriving DecidableEq

/-- The path of a kind's objects, in all namespaces or in one. -/
def Kind.path (kind : Kind) (namespaceName? : Option String) : String :=
  "/apis/" ++ apiGroup ++ "/" ++ apiVersion ++ "/"
    ++ (match namespaceName? with
      | some namespaceName => "namespaces/" ++ namespaceName ++ "/"
      | none => "")
    ++ kind.plural

/-- The path of what a write changes. -/
def Write.path (kind : Kind) (write : Write) : String :=
  kind.path (some write.namespaceName) ++ "/" ++ write.name
    ++ match write.target with
      | .object => ""
      | .status => "/status"

namespace Resource

variable {kind : Kind}

/-- Whether the user has asked for the resource to be deleted. -/
def isMarkedForDeletion (resource : Resource kind) : Bool :=
  resource.metadata.deletionTimestamp.isSome

/-- Whether a resource carries the finalizer. -/
def isGuarded (resource : Resource kind) : Bool :=
  resource.metadata.finalizerList.contains finalizerName

def writeTo (resource : Resource kind) (target : WriteTarget) (body : Json) : Write :=
  ⟨resource.metadata.namespaceAny, resource.metadata.nameAny, target, body⟩

/-- The write that sets the finalizers of a resource. -/
def finalizersWrite (resource : Resource kind) (finalizers : List String) : Write :=
  resource.writeTo .object <|
    Json.record [("metadata", Json.record [("finalizers", Json.ofTexts finalizers)])]

/-- The write that adds the finalizer behind those that are there. -/
def guardWrite (resource : Resource kind) : Write :=
  resource.finalizersWrite (resource.metadata.finalizerList ++ [finalizerName])

/-- The write that removes the finalizer and keeps the others. -/
def releaseWrite (resource : Resource kind) : Write :=
  resource.finalizersWrite (resource.metadata.finalizerList.filter fun name => name ≠ finalizerName)

/-- The write that stores a status, none if it is the one that was read. -/
def statusWrite? (resource : Resource kind) (status? : Option Status) : Option Write :=
  if resource.status = status? then none
  else some (resource.writeTo .status (Status.patch resource.status status?))

end Resource

/-! ### The plan of a visit -/

/-- What a visit asks for: a call of the backend or a write to the cluster. -/
inductive Errand
  | call (call : Call)
  | write (write : Write)

/-- What answers an errand; a write is accepted or refused. -/
abbrev Errand.Answer : Errand → Type
  | .call asked => asked.Result
  | .write _ => Bool

/-- How a visit ends. -/
inductive Visit (kind : Kind)
  /-- A resource that is marked for deletion and does not carry the finalizer is left alone. -/
  | skipped
  /-- A pass ran to its end. -/
  | ended (result : PassResult kind)
  /-- The cluster refused a write. -/
  | broken
  deriving DecidableEq

namespace Visit

variable {kind : Kind}

/-- Runs a pass as part of a visit. -/
def ofPass {α : Type} (pass : Pass α) : Plan Errand.Answer α :=
  Plan.within Errand.call (fun _ result => result) pass

/-- Sends a write. One to an object without a name is refused without being sent. -/
def send (write : Write) : Plan Errand.Answer Bool :=
  if write.name.isEmpty then .done false else .question (Errand.write write)

/-- Ends a visit with a write, if there is one to make. -/
def closeWith (result : PassResult kind) : Option Write → Plan Errand.Answer (Visit kind)
  | none => .done (.ended result)
  | some write => (send write).bind fun accepted =>
      .done (if accepted then .ended result else .broken)

/-- What a visit writes at its end: after a deletion that is through the finalizer goes, else the
status is stored. -/
def closingWrite? (resource : Resource kind) (result : PassResult kind) : Option Write :=
  if resource.isMarkedForDeletion && result.outcome = .deleted then some resource.releaseWrite
  else resource.statusWrite? result.resource.status

/-- Runs a pass and writes what follows from it. -/
def runPass (resource : Resource kind) (pass : Pass (PassResult kind)) :
    Plan Errand.Answer (Visit kind) :=
  (ofPass pass).bind fun result => closeWith result (closingWrite? resource result)

/-- A visit of a resource. -/
def plan (settings : PassSettings) (now : String) (resource : Resource kind) :
    Plan Errand.Answer (Visit kind) :=
  if resource.isMarkedForDeletion then
    if resource.isGuarded then runPass resource (resource.finalize settings now)
    else .done .skipped
  else
    let pass := runPass resource (resource.sync settings now)
    if resource.isGuarded then pass
    else (send resource.guardWrite).bind fun accepted => if accepted then pass else .done .broken

end Visit

/-! ### What follows from a visit -/

/-- The shortest and longest delay after broken visits, in minutes. -/
def breakdownMinutes : Nat × Nat := (1, 10)

/-- The registry of a controller that has just started. -/
def BackoffRegistry.ofController : BackoffRegistry :=
  .fresh (.ofMinutes breakdownMinutes.1) (.ofMinutes breakdownMinutes.2)

/-- The key under which the delays of a resource are kept. -/
def backoffKey (kind : Kind) (namespaceName name : String) : String :=
  kind.name ++ "/" ++ namespaceName ++ "/" ++ name

/-- The key of a resource's delays. -/
def Resource.backoffKey {kind : Kind} (resource : Resource kind) : String :=
  ManagedPrometheus.backoffKey kind resource.metadata.namespaceAny resource.metadata.nameAny

/-- What follows from a visit: what the scheduler does, what is counted, and the delays that are
kept. -/
structure Aftermath where
  action : Action
  events : List Event
  backoffs : BackoffRegistry

/-- What follows from a visit. A pass that ended is counted, and the delays of its resource begin
anew; a visit that was broken off is counted as such and repeated after the next delay. -/
def Visit.aftermath {kind : Kind} (resync : Duration) (resource : Resource kind)
    (backoffs : BackoffRegistry) : Visit kind → Aftermath
  | .skipped => ⟨.awaitChange, [], backoffs⟩
  | .ended result =>
    let next := nextAction resync result.outcome result.requeue
    let label := result.outcome.label kind.policy.terminalCodes
    ⟨next.1,
      [.passEnded kind.name label, .passTimed kind.name] ++ next.2.toList.map .requeued,
      (backoffs.reset resource.backoffKey).2⟩
  | .broken =>
    let next := backoffs.next resource.backoffKey
    ⟨.requeueAfter next.1.1, [.passBroken kind.name, .requeued "error-backoff"], next.2⟩

end ManagedPrometheus
