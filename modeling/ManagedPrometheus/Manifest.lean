import ManagedPrometheus.JsonText
import ManagedPrometheus.Resource

/-!
# Manifests

The written form of resources. Reading is strict about the fields of a manifest, its spec and its
status: a repeated field, a missing required one or one of the wrong type makes the manifest
malformed. Fields that are not known are ignored. In metadata and in maps the last of repeated fields
counts. A record may also be written as the list of its fields' values, in their order, except a
manifest as a whole and its metadata, which are objects.

Writing leaves out what is not set, except the conditions of a status, which are always written.
-/

namespace ManagedPrometheus

/-! ### Reading parts -/

namespace Json

variable {α : Type}

def text? : Json → Option String
  | .text value => some value
  | _ => none

/-- An integer of 64 bits. -/
def int64? : Json → Option Int
  | .int n => if -9223372036854775808 ≤ n ∧ n ≤ 9223372036854775807 then some n else none
  | _ => none

/-- The name of one of several alternatives: a text, or an object that gives it no contents. -/
def alternative? : Json → Option String
  | .text name => some name
  | .object [(name, .null)] => some name
  | _ => none

def texts? : Json → Option (List String)
  | .list items => items.mapM text?
  | _ => none

/-- A map from text to text; of repeated members the last counts. -/
def textMap? : Json → Option (TextMap String)
  | .object members =>
    (members.mapM fun m => (text? m.2).map fun value => (m.1, value)).map TextMap.ofList
  | _ => none

/-- The known fields of a record with their values. -/
def fields? (names : List String) : Json → Option (List (String × Json))
  | .object members =>
    let known := members.filter fun m => names.contains m.1
    if (known.map (·.1)).Nodup then some known else none
  | .list items => if items.length ≤ names.length then some (names.zip items) else none
  | _ => none

/-- A field that has to be there. -/
def required (read : Json → Option α) (name : String) (fields : List (String × Json)) : Option α :=
  (findEntry name fields).bind read

/-- A value that may be null. -/
def nullable (read : Json → Option α) : Json → Option (Option α)
  | .null => some none
  | value => (read value).map some

/-- A field that may be absent or null. -/
def optional (read : Json → Option α) (name : String) (fields : List (String × Json)) :
    Option (Option α) :=
  match findEntry name fields with
  | none => some none
  | some value => nullable read value

/-- A field that may be absent, but not null. -/
def withDefault (read : Json → Option α) (default : α) (name : String)
    (fields : List (String × Json)) : Option α :=
  match findEntry name fields with
  | none => some default
  | some value => read value

/-- A field that may be absent or null and may be repeated: all its values have to be readable, and
the last counts. -/
def lastOptional (read : Json → Option α) (name : String) (members : List (String × Json)) :
    Option (Option α) :=
  ((members.filter fun m => m.1 = name).mapM fun m => nullable read m.2).map fun values =>
    values.getLast?.join

end Json

/-! ### Metadata -/

namespace Metadata

def ofJson? : Json → Option Metadata
  | .object members => do
    return {
      name := ← Json.lastOptional Json.text? "name" members
      generateName := ← Json.lastOptional Json.text? "generateName" members
      namespaceName := ← Json.lastOptional Json.text? "namespace" members
      uid := ← Json.lastOptional Json.text? "uid" members
      resourceVersion := ← Json.lastOptional Json.text? "resourceVersion" members
      generation := ← Json.lastOptional Json.int64? "generation" members
      creationTimestamp :=
        ← Json.lastOptional (Json.text? · >>= Timestamp.ofText?) "creationTimestamp" members
      deletionTimestamp :=
        ← Json.lastOptional (Json.text? · >>= Timestamp.ofText?) "deletionTimestamp" members
      labels := ← Json.lastOptional Json.textMap? "labels" members
      annotations := ← Json.lastOptional Json.textMap? "annotations" members
      finalizers := ← Json.lastOptional Json.texts? "finalizers" members }
  | _ => none

def toJson (metadata : Metadata) : Json :=
  Json.recordSome [
    ("annotations", metadata.annotations.map Json.ofMap),
    ("creationTimestamp", metadata.creationTimestamp.map fun time => .text time.text),
    ("deletionTimestamp", metadata.deletionTimestamp.map fun time => .text time.text),
    ("finalizers", metadata.finalizers.map Json.ofTexts),
    ("generateName", metadata.generateName.map .text),
    ("generation", metadata.generation.map .int),
    ("labels", metadata.labels.map Json.ofMap),
    ("name", metadata.name.map .text),
    ("namespace", metadata.namespaceName.map .text),
    ("resourceVersion", metadata.resourceVersion.map .text),
    ("uid", metadata.uid.map .text)]

end Metadata

/-! ### Spec -/

namespace Spec

/-- The fields of a kind's spec, in their order. -/
def fieldNames : Kind → List String
  | .workspace => ["alias", "kmsKeyARN", "tags"]
  | .ruleGroupsNamespace => ["name", "workspaceID", "configuration", "tags"]
  | .alertManagerDefinition => ["workspaceID", "configuration"]
  | .loggingConfiguration => ["workspaceID", "logGroupARN"]

def ofFields? : (kind : Kind) → List (String × Json) → Option (Spec kind)
  | .workspace, fields => do
    let workspaceAlias ← Json.optional Json.text? "alias" fields
    let kmsKeyArn ← Json.optional Json.text? "kmsKeyARN" fields
    let tags ← Json.withDefault Json.textMap? .empty "tags" fields
    return { workspaceAlias, kmsKeyArn, tags }
  | .ruleGroupsNamespace, fields => do
    let name ← Json.required Json.text? "name" fields
    let workspaceId ← Json.required Json.text? "workspaceID" fields
    let configuration ← Json.optional Json.text? "configuration" fields
    let tags ← Json.withDefault Json.textMap? .empty "tags" fields
    return { name, workspaceId, configuration, tags }
  | .alertManagerDefinition, fields => do
    let workspaceId ← Json.required Json.text? "workspaceID" fields
    let configuration ← Json.optional Json.text? "configuration" fields
    return { workspaceId, configuration }
  | .loggingConfiguration, fields => do
    let workspaceId ← Json.required Json.text? "workspaceID" fields
    let logGroupArn ← Json.required Json.text? "logGroupARN" fields
    return { workspaceId, logGroupArn }

def ofJson? (kind : Kind) (value : Json) : Option (Spec kind) :=
  (value.fields? (fieldNames kind)).bind (ofFields? kind)

/-- Tags that are written: none if there are none. -/
def writtenTags (tags : Tags) : Option Json :=
  if tags.isEmpty then none else some (Json.ofMap tags)

def toJson : {kind : Kind} → Spec kind → Json
  | .workspace, spec =>
    Json.recordSome [
      ("alias", spec.workspaceAlias.map .text),
      ("kmsKeyARN", spec.kmsKeyArn.map .text),
      ("tags", writtenTags spec.tags)]
  | .ruleGroupsNamespace, spec =>
    Json.recordSome [
      ("configuration", spec.configuration.map .text),
      ("name", some (.text spec.name)),
      ("tags", writtenTags spec.tags),
      ("workspaceID", some (.text spec.workspaceId))]
  | .alertManagerDefinition, spec =>
    Json.recordSome [
      ("configuration", spec.configuration.map .text),
      ("workspaceID", some (.text spec.workspaceId))]
  | .loggingConfiguration, spec =>
    Json.recordSome [
      ("logGroupARN", some (.text spec.logGroupArn)),
      ("workspaceID", some (.text spec.workspaceId))]

end Spec

/-! ### Status -/

/-- Reads the code of a stored status. -/
def StatusCode.ofJson? (value : Json) : Option StatusCode :=
  (Json.alternative? value).map StatusCode.ofStored

def StatusCode.toJson (code : StatusCode) : Json := .text code.storedText

namespace ResourceMetadata

/-- Reads the identifiers that the backend assigned. -/
def ofJson? (value : Json) : Option ResourceMetadata := do
  let fields ← value.fields? ["arn", "ownerAccountID", "region"]
  let arn ← Json.optional Json.text? "arn" fields
  let ownerAccountId ← Json.optional Json.text? "ownerAccountID" fields
  let region ← Json.optional Json.text? "region" fields
  return { arn, ownerAccountId, region }

def toJson (metadata : ResourceMetadata) : Json :=
  Json.recordSome [
    ("arn", metadata.arn.map .text),
    ("ownerAccountID", metadata.ownerAccountId.map .text),
    ("region", metadata.region.map .text)]

end ResourceMetadata

namespace Condition

def ofJson? (value : Json) : Option Condition := do
  let fields ← value.fields? ["type", "status", "lastTransitionTime", "message"]
  let type ← Json.required (Json.alternative? · >>= ConditionType.ofName?) "type" fields
  let value ← Json.required (Json.alternative? · >>= ConditionValue.ofName?) "status" fields
  let lastTransitionTime ← Json.optional Json.text? "lastTransitionTime" fields
  let message ← Json.optional Json.text? "message" fields
  return { type, value, lastTransitionTime, message }

/-- Writes a condition with its own type. -/
def toJson (condition : Condition) : Json :=
  Json.recordSome [
    ("lastTransitionTime", condition.lastTransitionTime.map .text),
    ("message", condition.message.map .text),
    ("status", some (.text condition.value.name)),
    ("type", some (.text condition.type.name))]

end Condition

namespace Conditions

/-- The conditions of a list, each under its own type; of two with one type the last counts. -/
def ofList (list : List Condition) : Conditions :=
  list.foldl (fun conditions condition => conditions.put condition.type condition) .empty

def ofJson? : Json → Option Conditions
  | .list items => (items.mapM Condition.ofJson?).map ofList
  | _ => none

/-- Writes the list of conditions. The types that they are stored under are not written. -/
def toJson (conditions : Conditions) : Json := .list (conditions.values.map Condition.toJson)

end Conditions

namespace Status

/-- The fields of a status, in their order. -/
def fieldNames : List String :=
  ["resourceMetadata", "statusCode", "statusReason", "conditions", "workspaceID", "name",
    "prometheusEndpoint"]

def ofJson? (value : Json) : Option Status := do
  let fields ← value.fields? fieldNames
  let resourceMetadata ← Json.optional ResourceMetadata.ofJson? "resourceMetadata" fields
  let statusCode ← Json.optional StatusCode.ofJson? "statusCode" fields
  let statusReason ← Json.optional Json.text? "statusReason" fields
  let conditions ← Json.withDefault Conditions.ofJson? .empty "conditions" fields
  let workspaceId ← Json.optional Json.text? "workspaceID" fields
  let name ← Json.optional Json.text? "name" fields
  let prometheusEndpoint ← Json.optional Json.text? "prometheusEndpoint" fields
  return { resourceMetadata, statusCode, statusReason, conditions, workspaceId, name,
           prometheusEndpoint }

/-- Writes a status: what is set, and the conditions. -/
def toJson (status : Status) : Json :=
  Json.recordSome [
    ("conditions", some status.conditions.toJson),
    ("name", status.name.map .text),
    ("prometheusEndpoint", status.prometheusEndpoint.map .text),
    ("resourceMetadata", status.resourceMetadata.map (·.toJson)),
    ("statusCode", status.statusCode.map (·.toJson)),
    ("statusReason", status.statusReason.map .text),
    ("workspaceID", status.workspaceId.map .text)]

end Status

/-! ### Resources -/

namespace Resource

variable {kind : Kind}

/-- Reads the manifest of a resource, none if it is malformed. What it says of its version and kind
is ignored. -/
def ofJson? (kind : Kind) : Json → Option (Resource kind)
  | .object members => do
    let fields ← (Json.object members).fields? ["metadata", "spec", "status"]
    let metadata ← Json.required Metadata.ofJson? "metadata" fields
    let spec ← Json.required (Spec.ofJson? kind) "spec" fields
    let status ← Json.optional Status.ofJson? "status" fields
    return { metadata, spec, status }
  | _ => none

def ofText? (kind : Kind) (text : String) : Option (Resource kind) :=
  (Json.read? text).bind (ofJson? kind)

def toJson (resource : Resource kind) : Json :=
  Json.recordSome [
    ("apiVersion", some (.text (apiGroup ++ "/" ++ ManagedPrometheus.apiVersion))),
    ("kind", some (.text kind.name)),
    ("metadata", some resource.metadata.toJson),
    ("spec", some resource.spec.toJson),
    ("status", resource.status.map (·.toJson))]

end Resource

end ManagedPrometheus
