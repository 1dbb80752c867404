import ManagedPrometheus.Manifest
import ManagedPrometheus.Yaml

/-!
# Definitions of the kinds

How the cluster is told of the four kinds: names, the columns of listings, and the schema of specs and
of the status that all kinds share.
-/

namespace ManagedPrometheus

/-! ### Schemas -/

/-- The schema of a value, with what is said about it. -/
inductive Schema
  | text (about : Option String) (nullable : Bool)
  /-- One of several texts. -/
  | choice (about : Option String) (nullable : Bool) (options : List String)
  /-- A map from text to text. -/
  | textMap (about : Option String)
  /-- A list, empty if it is absent. -/
  | list (about : Option String) (items : Schema)
  | record (about : Option String) (nullable : Bool) (required : List String)
    (fields : List (String × Schema))

namespace Schema

/-- The parts that every schema has: its type, what is said about it, and whether it may be null. -/
def header (type : String) (about : Option String) (nullable : Bool) :
    List (String × Option Json) :=
  [("type", some (.text type)), ("description", about.map .text),
    ("nullable", if nullable then some (.bool true) else none)]

/-- The texts of a choice, and null if it may be null. -/
def choices (nullable : Bool) (options : List String) : Json :=
  .list (options.map .text ++ if nullable then [.null] else [])

mutual

def toJson : Schema → Json
  | .text about nullable => Json.recordSome (header "string" about nullable)
  | .choice about nullable options =>
    Json.recordSome (("enum", some (choices nullable options)) :: header "string" about nullable)
  | .textMap about =>
    Json.recordSome (("additionalProperties", some (Json.record [("type", .text "string")]))
      :: header "object" about false)
  | .list about items =>
    Json.recordSome (("default", some (.list [])) :: ("items", some items.toJson)
      :: header "array" about false)
  | .record about nullable required fields =>
    Json.recordSome (("properties", some (Json.record (fieldsToJson fields)))
      :: ("required", if required.isEmpty then none else some (Json.ofTexts required))
      :: header "object" about nullable)

def fieldsToJson : List (String × Schema) → List (String × Json)
  | [] => []
  | (name, schema) :: rest => (name, schema.toJson) :: fieldsToJson rest

end

end Schema

def joinLines (lines : List String) : String := String.intercalate "\n" lines

/-! ### The schema of the status -/

def conditionSchema : Schema :=
  .record "Condition represents a condition of a resource" false ["status", "type"] [
    ("lastTransitionTime", .text "Last transition time (RFC3339)" true),
    ("message", .text "Message describing the condition" true),
    ("status", .choice "Status of the condition" false
      ([ConditionValue.yes, .no, .unknown].map ConditionValue.name)),
    ("type", .choice "Type of condition" false (ConditionType.all.map ConditionType.name))]

/-- The schema of the identifiers that the backend assigns. -/
def resourceMetadataSchema : Schema :=
  .record "Backend-assigned identifiers" true [] [
    ("arn", .text "Amazon Resource Name of the backend resource" true),
    ("ownerAccountID", .text "AWS account that owns the backend resource" true),
    ("region", .text "Region the backend resource lives in" true)]

def statusSchema : Schema :=
  .record "Status of every managed resource" true [] [
    ("conditions", .list "Synced, Terminal and Recoverable conditions" conditionSchema),
    ("name", .text "Backend name the resource is bound to (RuleGroupsNamespace)" true),
    ("prometheusEndpoint",
      .text "Remote write/query endpoint assigned by the backend (Workspace kind)" true),
    ("resourceMetadata", resourceMetadataSchema),
    ("statusCode", .choice "Last observed backend lifecycle code" true
      (StatusCode.all.map StatusCode.storedText)),
    ("statusReason", .text "Free-text reason reported alongside the status code" true),
    ("workspaceID", .text (joinLines [
      "Workspace the backend resource is bound to. For the Workspace kind this",
      "is the ID the backend assigned on create."]) true)]

/-! ### The schemas of specs -/

/-- The schema of the workspace that a resource belongs to. -/
def owningWorkspace : String × Schema :=
  ("workspaceID", .text "Owning workspace. Immutable." false)

/-- What is said about a kind: its name and a manifest of it. -/
def aboutKind (kind : Kind) (name : String) (spec : List String) : String :=
  joinLines ([
    kind.name ++ " Custom Resource Definition",
    "",
    "# Example",
    "",
    "```yaml",
    "apiVersion: " ++ apiGroup ++ "/" ++ apiVersion,
    "kind: " ++ kind.name,
    "metadata:",
    "  name: " ++ name,
    "spec:"] ++ spec.map ("  " ++ ·) ++ ["```"])

/-- The workspace of example manifests. -/
def exampleWorkspace : String := "workspaceID: ws-0123abcd-4567-89ef-0123-456789abcdef"

def specSchema : Kind → Schema
  | .workspace =>
    .record
      (aboutKind .workspace "metrics" ["alias: metrics-prod", "tags:", "  team: observability"])
      false [] [
      ("alias", .text "Human readable alias; need not be unique" true),
      ("kmsKeyARN", .text (joinLines [
        "ARN of the customer managed KMS key used to encrypt workspace data.",
        "Set at creation only."]) true),
      ("tags", .textMap "Tags applied to the workspace")]
  | .ruleGroupsNamespace =>
    .record
      (aboutKind .ruleGroupsNamespace "recording-rules" [
        "name: recording-rules",
        exampleWorkspace,
        "configuration: |",
        "  groups:",
        "    - name: example",
        "      rules:",
        "        - record: job:up:sum",
        "          expr: sum by (job) (up)"])
      false ["name", "workspaceID"] [
      ("configuration", .text "Rules file contents (YAML)" true),
      ("name", .text "Namespace name, unique within the workspace. Immutable." false),
      ("tags", .textMap none),
      owningWorkspace]
  | .alertManagerDefinition =>
    .record
      (aboutKind .alertManagerDefinition "alerting" [
        exampleWorkspace,
        "configuration: |",
        "  alertmanager_config: |",
        "    route:",
        "      receiver: default",
        "    receivers:",
        "      - name: default"])
      false ["workspaceID"] [
      ("configuration", .text "Alert manager configuration (YAML)" true),
      owningWorkspace]
  | .loggingConfiguration =>
    .record none false ["logGroupARN", "workspaceID"] [
      ("logGroupARN", .text "ARN of the CloudWatch log group receiving the workspace logs" false),
      owningWorkspace]

/-! ### Definitions -/

namespace Kind

def shortName : Kind → String
  | .workspace => "ampws"
  | .ruleGroupsNamespace => "amprgn"
  | .alertManagerDefinition => "ampamd"
  | .loggingConfiguration => "amplog"

/-- The columns of a kind's listings: their names and the paths of what they show. -/
def columns (kind : Kind) : List (String × String) :=
  let workspace := ("Workspace", ".spec.workspaceID")
  let status := ("Status", ".status.statusCode")
  let synced := ("Synced", ".status.conditions[?(@.type==\"ResourceSynced\")].status")
  match kind with
  | .workspace =>
    [("Alias", ".spec.alias"), ("WorkspaceID", ".status.workspaceID"), status, synced]
  | .ruleGroupsNamespace | .alertManagerDefinition => [workspace, status, synced]
  | .loggingConfiguration => [workspace, status]

def schema (kind : Kind) : Json :=
  Json.record [
    ("description",
      .text ("Auto-generated derived type for " ++ kind.name ++ "Spec via `CustomResource`")),
    ("properties", Json.record [("spec", (specSchema kind).toJson), ("status", statusSchema.toJson)]),
    ("required", Json.ofTexts ["spec"]),
    ("title", .text kind.name),
    ("type", .text "object")]

/-- The one version of a kind. -/
def versionDefinition (kind : Kind) : Json :=
  let column (c : String × String) : Json :=
    Json.record [("name", .text c.1), ("type", .text "string"), ("jsonPath", .text c.2)]
  Json.record [
    ("additionalPrinterColumns", .list (kind.columns.map column)),
    ("name", .text ManagedPrometheus.apiVersion),
    ("schema", Json.record [("openAPIV3Schema", kind.schema)]),
    ("served", .bool true),
    ("storage", .bool true),
    ("subresources", Json.record [("status", .object [])])]

def definition (kind : Kind) : Json :=
  Json.record [
    ("apiVersion", .text "apiextensions.k8s.io/v1"),
    ("kind", .text "CustomResourceDefinition"),
    ("metadata", Json.record [("name", .text (kind.plural ++ "." ++ apiGroup))]),
    ("spec", Json.record [
      ("group", .text apiGroup),
      ("names", Json.record [
        ("categories", .list []),
        ("kind", .text kind.name),
        ("plural", .text kind.plural),
        ("shortNames", Json.ofTexts [kind.shortName]),
        ("singular", .text kind.singular)]),
      ("scope", .text "Namespaced"),
      ("versions", .list [kind.versionDefinition])])]

end Kind

/-- The definitions of all kinds as one stream of documents. -/
def definitionsText : String :=
  String.join (Kind.all.map fun kind => "---\n" ++ Yaml.text kind.definition ++ "\n")

end ManagedPrometheus
