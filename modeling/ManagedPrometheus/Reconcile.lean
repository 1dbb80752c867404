import ManagedPrometheus.Session
import ManagedPrometheus.Settings
import ManagedPrometheus.Snapshot

/-!
# Passes

One pass over a resource. `sync` reads the backend and creates what is missing or changes what
differs; `finalize` deletes. Either first decides, calling the backend as needed, and then sums up the
decision: conditions, identifiers that are filled in, and when to come back. A cancelled pass hands
its resource back as it was.
-/

namespace ManagedPrometheus

/-- What a pass decided: the resource with the answers folded in, and the outcome. -/
structure Decision (kind : Kind) where
  resource : Resource kind
  outcome : Outcome
  deriving DecidableEq

/-- How a pass ended. -/
structure PassResult (kind : Kind) where
  resource : Resource kind
  outcome : Outcome
  requeue : Requeue
  deriving DecidableEq

namespace Resource

variable {kind : Kind}

/-! ### Reading -/

/-- Reads the latest state of a resource, none if the backend has none or there is no address to ask
for. -/
def readLatest (now : String) (desired : Resource kind) :
    Pass (Except Failure (Option (Resource kind))) :=
  match desired.key? with
  | none => .done (.ok none)
  | some key =>
    .ask (.describe key) fun result =>
      .done (result.map fun object? => object?.map (desired.snapshot now key))

/-! ### Creating -/

/-- The decision once the backend has accepted a create or every change: to wait while it is at
work. -/
def settled (resource : Resource kind) : Decision kind :=
  if resource.phase.isTransient then ⟨resource, .wait (.inProgress resource.phase)⟩
  else ⟨resource, .synced⟩

/-- Folds the answer to a create into a resource; an address that the request named is recorded. -/
def adoptCreated (desired : Resource kind) (object : WireObject) : Resource kind :=
  let created := desired.foldResponse object
  match desired.createRequest.key with
  | some key => created.mapStatus (·.bind key)
  | none => created

/-- Creates a resource that the backend does not have. -/
def create (desired : Resource kind) : Pass (Decision kind) :=
  match desired.spec.problem? with
  | some problem => .done ⟨desired, .failed (.invalidSpec problem.message)⟩
  | none =>
    .ask (.create desired.createRequest) fun
      | .error failure => .done ⟨desired, .failed failure⟩
      | .ok object => .done (desired.adoptCreated object).settled

/-! ### Changing -/

/-- The desired resource with the latest status. -/
def withStatusOf (desired latest : Resource kind) : Resource kind :=
  { desired with status := some latest.statusOrEmpty }

/-- The text of a failed phase for which the backend gives no reason. -/
def failedPhaseText (kind : Kind) (phase : Phase) : String :=
  kind.displayName ++ " is in '" ++ phase.codeText ++ "' status"

/-- The decision that a phase alone takes, none if the states have to be compared. -/
def decideByPhase (desired latest : Resource kind) : Option (Decision kind) :=
  let phase := latest.phase
  if phase.isTransient || phase == .unrecognized then
    some ⟨desired, .wait (.inProgress phase)⟩
  else match kind.policy.failure with
    | .latch =>
      if phase.isFailed then
        some ⟨desired.withStatusOf latest, .failed (.failedPhase (failedPhaseText kind phase))⟩
      else none
    | .awaitActive =>
      if phase = .active then none else some ⟨desired, .wait (.notActive phase)⟩
    | .allowUpdate => none

/-- The paths of the immutable fields that differ, in the order of the policy. -/
def immutablePaths (kind : Kind) (delta : Delta) : List String :=
  (kind.policy.immutable.map Field.path).filter delta.differentAt

/-- The decision that the differences take, none if there is something to change. -/
def decideByDelta (desired latest : Resource kind) : Option (Decision kind) :=
  let delta := desired.compare latest
  let resource := desired.withStatusOf latest
  let immutable := immutablePaths kind delta
  if immutable ≠ [] then some ⟨resource, .failed (.immutableFieldsChanged immutable)⟩
  else if delta.isEmpty then
    if latest.phase.isFailed then
      let reason := resource.statusOrEmpty.statusReason
      some ⟨resource, .failed (.failedPhase (reason.getD (failedPhaseText kind latest.phase)))⟩
    else some ⟨resource, .synced⟩
  else none

/-- The changes that bring the latest tags to the desired ones: first the keys to remove, then the
tags to set. They need the backend's identifier of the resource. -/
def tagMutations (desired latest : Resource kind) : Except Failure (List Mutation) :=
  match latest.spec.tags?, desired.spec.tags? with
  | some current, some wanted =>
    let change := TagChange.between current wanted
    if change.isEmpty then .ok []
    else match latest.statusOrEmpty.arn? with
      | none => .error .missingArn
      | some arn =>
        .ok ((if change.removals.isEmpty then [] else [.untag arn change.removals])
          ++ (if change.upserts.isEmpty then [] else [.tag arn change.upserts]))
  | _, _ => .ok []

/-- The changes that one concern calls for. -/
def concernMutations (desired latest : Resource kind) : Concern → Except Failure (List Mutation)
  | .tags => tagMutations desired latest
  | .configuration | .workspaceAlias | .logGroup => .ok [.put desired.request]

/-- All changes that bring the latest state to the desired one, in the order of their calls. -/
def mutations (desired latest : Resource kind) : Except Failure (List Mutation) :=
  let delta := desired.compare latest
  ((kind.policy.concerns.filter fun concern => delta.differentAt concern.path).mapM
    (concernMutations desired latest)).map List.flatten

/-- Makes the changes one after the other, folding each answer in, up to the first that fails. -/
def applyAll (resource : Resource kind) : List Mutation → Pass (Decision kind)
  | [] => .done resource.settled
  | mutation :: rest =>
    .ask (.update mutation) fun
      | .error failure => .done ⟨resource, .failed failure⟩
      | .ok none => applyAll resource rest
      | .ok (some object) => applyAll (resource.foldResponse object) rest

/-- Brings the latest state to the desired one. -/
def update (desired latest : Resource kind) : Pass (Decision kind) :=
  match decideByPhase desired latest <|> decideByDelta desired latest with
  | some decision => .done decision
  | none =>
    let resource := desired.withStatusOf latest
    match mutations desired latest with
    | .error failure => .done ⟨resource, .failed failure⟩
    | .ok changes => applyAll resource changes

/-! ### Deleting -/

/-- Deletes a resource, if its latest phase allows it. One without an address was never created. -/
def delete (now : String) (resource : Resource kind) : Pass (Decision kind) :=
  match resource.key? with
  | none => .done ⟨resource, .deleted⟩
  | some key =>
    (resource.readLatest now).bind fun
      | .error failure => .done ⟨resource, .failed failure⟩
      | .ok none => .done ⟨resource, .deleted⟩
      | .ok (some latest) =>
        if kind.policy.deletable latest.phase then
          .ask (.delete key) fun
            | .error failure => .done ⟨latest, .failed failure⟩
            | .ok _ => .done ⟨latest, .wait (.inProgress .deleting)⟩
        else .done ⟨resource, .wait (.deleteBlocked latest.phase)⟩

/-! ### Summing up -/

/-- What an outcome says of the conditions, none for a wait. -/
def verdict? (kind : Kind) : Outcome → Option Verdict
  | .synced => some .success
  | .failed failure =>
    match failure.severity kind.policy.terminalCodes with
    | .recoverable => some (.recoverable failure.message)
    | .terminal | .fatal => some (.terminal failure.message)
  | .wait _ | .deleted => none

/-- The message of the `Synced` condition. -/
def syncedMessage? (kind : Kind) : Outcome → Option String
  | .wait reason => some (reason.message kind)
  | _ => none

/-- The status in which an outcome is entered. -/
def concludeStatus (kind : Kind) (settings : PassSettings) (now : String) (outcome : Outcome)
    (requeue : Requeue) (status : Status) : Status :=
  let entered :=
    match verdict? kind outcome with
    | some verdict => (status.fold now verdict).1
    | none => status
  (entered.foldSynced now requeue.isSynced (syncedMessage? kind outcome)).1.withDefaults
    settings.identity

/-- Sums up a decision. A cancelled pass hands the input back untouched, and nothing is entered in a
resource that is gone. -/
def conclude (settings : PassSettings) (now : String) (input : Resource kind)
    (decision : Decision kind) : PassResult kind :=
  let outcome := decision.outcome
  let requeue := settings.requeue.requeue kind.policy.terminalCodes outcome
  match outcome with
  | .failed .cancelled => ⟨input, outcome, requeue⟩
  | .deleted => ⟨decision.resource, outcome, requeue⟩
  | _ =>
    ⟨{ decision.resource with
        status := some
          (concludeStatus kind settings now outcome requeue decision.resource.statusOrEmpty) },
      outcome, requeue⟩

/-! ### Passes -/

/-- Reconciles a resource with a latest state that is known already; none creates it. -/
def reconcile (settings : PassSettings) (now : String) (desired : Resource kind)
    (latest? : Option (Resource kind)) : Pass (PassResult kind) :=
  (match latest? with
    | none => desired.create
    | some latest => desired.update latest).bind fun decision =>
      .done (desired.conclude settings now decision)

/-- A pass over a resource that is to exist: reads the backend, then reconciles. -/
def sync (settings : PassSettings) (now : String) (desired : Resource kind) :
    Pass (PassResult kind) :=
  (desired.readLatest now).bind fun
    | .error failure => .done (desired.conclude settings now ⟨desired, .failed failure⟩)
    | .ok latest? => desired.reconcile settings now latest?

/-- A pass over a resource that is to be gone. -/
def finalize (settings : PassSettings) (now : String) (resource : Resource kind) :
    Pass (PassResult kind) :=
  (resource.delete now).bind fun decision => .done (resource.conclude settings now decision)

end Resource

end ManagedPrometheus
