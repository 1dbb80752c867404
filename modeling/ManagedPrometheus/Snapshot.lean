import ManagedPrometheus.Resource

/-!
# Folding what the backend reports into a resource

A report reaches a resource in two ways. The answer to a create or a change is folded into the
resource itself: fields it carries replace those of spec and status, the payload excepted. A
description instead makes a snapshot, the latest state of the resource: spec fields that the
description does not report are cleared, so that they show as differences.
-/

namespace ManagedPrometheus

/-- The region and account that a status names where the backend does not. -/
structure Identity where
  region : Option String
  accountId : Option String
  deriving DecidableEq, Repr

/-! ### Status -/

namespace Status

/-- Copies the fields of a report that belong to the status. A code comes with its reason, and a
report of a code without one clears the reason. -/
def observe (status : Status) (object : WireObject) : Status :=
  { status with
    resourceMetadata :=
      match object.arn with
      | some arn => some { status.resourceMetadata.getD .empty with arn := some arn }
      | none => status.resourceMetadata
    statusCode :=
      match object.status with
      | some wire => some (StatusCode.ofWire wire.code)
      | none => status.statusCode
    statusReason :=
      match object.status with
      | some wire => wire.reason
      | none => status.statusReason
    workspaceId := object.workspaceId <|> status.workspaceId
    prometheusEndpoint := object.prometheusEndpoint <|> status.prometheusEndpoint }

/-- Records the address that a resource is bound to. -/
def bind (status : Status) (key : ResourceKey) : Status :=
  { status with workspaceId := some key.workspaceId, name := key.name <|> status.name }

/-- Fills in region and account where they are unset. -/
def withDefaults (status : Status) (identity : Identity) : Status :=
  let metadata := status.resourceMetadata.getD .empty
  { status with
    resourceMetadata := some { metadata with
      region := metadata.region <|> identity.region
      ownerAccountId := metadata.ownerAccountId <|> identity.accountId } }

end Status

/-! ### Spec -/

namespace Spec

/-- Sets the identity fields to an address. -/
def rekey (key : ResourceKey) : {kind : Kind} → Spec kind → Spec kind
  | .workspace, spec => spec
  | .ruleGroupsNamespace, spec =>
    { spec with workspaceId := key.workspaceId, name := key.name.getD spec.name }
  | .alertManagerDefinition, spec => { spec with workspaceId := key.workspaceId }
  | .loggingConfiguration, spec => { spec with workspaceId := key.workspaceId }

/-- Copies the fields that a report carries, the payload excepted. -/
def adopt (object : WireObject) : {kind : Kind} → Spec kind → Spec kind
  | .workspace, spec =>
    { workspaceAlias := object.workspaceAlias <|> spec.workspaceAlias
      kmsKeyArn := object.kmsKeyArn <|> spec.kmsKeyArn
      tags := object.tags.getD spec.tags }
  | .ruleGroupsNamespace, spec =>
    { spec with name := object.name.getD spec.name, tags := object.tags.getD spec.tags }
  | .alertManagerDefinition, spec => spec
  | .loggingConfiguration, spec =>
    { spec with logGroupArn := object.logGroupArn.getD spec.logGroupArn }

/-- Replaces the fields by those of a description; what it does not report is cleared. A name that
it does not report stays, as it is known from the address. -/
def replace (object : WireObject) : {kind : Kind} → Spec kind → Spec kind
  | .workspace, _ =>
    { workspaceAlias := object.workspaceAlias
      kmsKeyArn := object.kmsKeyArn
      tags := object.tags.getD .empty }
  | .ruleGroupsNamespace, spec =>
    { spec with name := object.name.getD spec.name, tags := object.tags.getD .empty }
  | .alertManagerDefinition, spec => spec
  | .loggingConfiguration, spec => { spec with logGroupArn := object.logGroupArn.getD "" }

end Spec

/-! ### Resources -/

namespace Resource

variable {kind : Kind}

/-- Applies a function to the status, or to one in which nothing is set. -/
def mapStatus (resource : Resource kind) (f : Status → Status) : Resource kind :=
  { resource with status := some (f resource.statusOrEmpty) }

/-- Folds the answer to a create or a change into a resource. -/
def foldResponse (resource : Resource kind) (object : WireObject) : Resource kind :=
  { resource with
    spec := resource.spec.adopt object
    status := some (resource.statusOrEmpty.observe object) }

/-- The reason of a validation that failed since the last pass, for a kind that keeps what was
submitted then. -/
def validationFailure? (kind : Kind) (wasFailed : Bool) (status : Status) : Option String :=
  if kind.policy.preservesOnValidationFailure && !wasFailed && status.phase.isFailed then
    status.statusReason.filter isValidationFailure
  else none

/-- The configuration of a snapshot: the payload's text, with two exceptions for a kind that keeps
what was submitted. If the resource was failed before, the configuration counts as absent, so that
the same text is submitted again; if its validation has failed since, the text in place stays. -/
def snapshotConfiguration (kind : Kind) (wasFailed : Bool) (failure? : Option String)
    (decoded : Option String) (current : Option String) : Option String :=
  if kind.policy.preservesOnValidationFailure && wasFailed then none
  else if failure?.isNone then decoded
  else current

/-- The latest state of a resource: `desired` brought to what the description of `key` reports. A
validation that has failed since the last pass raises `Terminal` with the backend's reason. -/
def snapshot (now : String) (desired : Resource kind) (key : ResourceKey) (object : WireObject) :
    Resource kind :=
  let wasFailed := desired.phase.isFailed
  let status := (desired.statusOrEmpty.observe object).bind key
  let spec := (desired.spec.rekey key).replace object
  let failure? := validationFailure? kind wasFailed status
  { desired with
    spec :=
      match spec.configuration? with
      | some current =>
        spec.setConfiguration
          (snapshotConfiguration kind wasFailed failure? (object.data.map Utf8.decode) current)
      | none => spec
    status := some <|
      match failure? with
      | some reason => (status.fold now (.terminal reason)).1
      | none => status }

end Resource

end ManagedPrometheus
