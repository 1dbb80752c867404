import ManagedPrometheus.Blank
import ManagedPrometheus.Delta
import ManagedPrometheus.Policy

/-!
# Specs

What a user asks of each kind of resource. `Spec kind` is the record of a kind; `Spec.value` looks at
it field by field, which is all that differences need: two specs of a kind are equal when they agree
at every field of the kind.
-/

namespace ManagedPrometheus

/-- What is asked of a workspace. -/
structure WorkspaceSpec where
  workspaceAlias : Option String
  kmsKeyArn : Option String
  tags : Tags
  deriving DecidableEq

/-- What is asked of a rule groups namespace. -/
structure RuleGroupsNamespaceSpec where
  name : String
  workspaceId : String
  configuration : Option String
  tags : Tags
  deriving DecidableEq

/-- What is asked of an alert manager definition. -/
structure AlertManagerDefinitionSpec where
  workspaceId : String
  configuration : Option String
  deriving DecidableEq

/-- What is asked of a logging configuration. -/
structure LoggingConfigurationSpec where
  workspaceId : String
  logGroupArn : String
  deriving DecidableEq

/-- The spec of a kind. -/
@[reducible]
def Spec : Kind → Type
  | .workspace => WorkspaceSpec
  | .ruleGroupsNamespace => RuleGroupsNamespaceSpec
  | .alertManagerDefinition => AlertManagerDefinitionSpec
  | .loggingConfiguration => LoggingConfigurationSpec

instance instDecidableEqSpec : (kind : Kind) → DecidableEq (Spec kind)
  | .workspace => inferInstanceAs (DecidableEq WorkspaceSpec)
  | .ruleGroupsNamespace => inferInstanceAs (DecidableEq RuleGroupsNamespaceSpec)
  | .alertManagerDefinition => inferInstanceAs (DecidableEq AlertManagerDefinitionSpec)
  | .loggingConfiguration => inferInstanceAs (DecidableEq LoggingConfigurationSpec)

/-! ### Fields -/

/-- What a field holds. -/
inductive FieldValue
  | text (value : Option String)
  | tags (value : Tags)
  deriving DecidableEq

namespace FieldValue

/-- A value in differences. -/
def toJson : FieldValue → Json
  | .text value => Json.ofText? value
  | .tags value => Json.ofMap value

/-- Whether two values differ; tags are compared by looking up. -/
def differ : FieldValue → FieldValue → Bool
  | .tags desired, .tags latest => desired.differ latest
  | desired, latest => desired ≠ latest

end FieldValue

/-- The fields of a kind, in the order in which they are compared. -/
def Kind.fields : Kind → List Field
  | .workspace => [.tags, .workspaceAlias, .kmsKeyArn]
  | .ruleGroupsNamespace => [.tags, .configuration, .name, .workspaceId]
  | .alertManagerDefinition => [.configuration, .workspaceId]
  | .loggingConfiguration => [.logGroupArn, .workspaceId]

namespace Spec

variable {kind : Kind}

/-- What a field of a spec holds; a field of another kind holds nothing. -/
def value : {kind : Kind} → Spec kind → Field → FieldValue
  | .workspace, spec, .tags => .tags spec.tags
  | .workspace, spec, .workspaceAlias => .text spec.workspaceAlias
  | .workspace, spec, .kmsKeyArn => .text spec.kmsKeyArn
  | .ruleGroupsNamespace, spec, .tags => .tags spec.tags
  | .ruleGroupsNamespace, spec, .configuration => .text spec.configuration
  | .ruleGroupsNamespace, spec, .name => .text (some spec.name)
  | .ruleGroupsNamespace, spec, .workspaceId => .text (some spec.workspaceId)
  | .alertManagerDefinition, spec, .configuration => .text spec.configuration
  | .alertManagerDefinition, spec, .workspaceId => .text (some spec.workspaceId)
  | .loggingConfiguration, spec, .logGroupArn => .text (some spec.logGroupArn)
  | .loggingConfiguration, spec, .workspaceId => .text (some spec.workspaceId)
  | _, _, _ => .text none

/-- The fields at which two specs differ, with both values. -/
def compare (desired latest : Spec kind) : Delta :=
  ⟨kind.fields.filterMap fun field =>
    if (desired.value field).differ (latest.value field) then
      some ⟨field.path, (desired.value field).toJson, (latest.value field).toJson⟩
    else none⟩

def tags? : {kind : Kind} → Spec kind → Option Tags
  | .workspace, spec => some spec.tags
  | .ruleGroupsNamespace, spec => some spec.tags
  | .alertManagerDefinition, _ => none
  | .loggingConfiguration, _ => none

/-- The configuration, for kinds that have one. -/
def configuration? : {kind : Kind} → Spec kind → Option (Option String)
  | .workspace, _ => none
  | .ruleGroupsNamespace, spec => some spec.configuration
  | .alertManagerDefinition, spec => some spec.configuration
  | .loggingConfiguration, _ => none

/-- Replaces the configuration, for kinds that have one. -/
def setConfiguration : {kind : Kind} → Spec kind → Option String → Spec kind
  | .workspace, spec, _ => spec
  | .ruleGroupsNamespace, spec, configuration => { spec with configuration }
  | .alertManagerDefinition, spec, configuration => { spec with configuration }
  | .loggingConfiguration, spec, _ => spec

end Spec

/-! ### Local checks -/

/-- Why a spec cannot be created. -/
inductive SpecProblem
  | aliasTooLong
  | blank (field : String)
  | noConfiguration
  deriving DecidableEq, Repr

def SpecProblem.message : SpecProblem → String
  | .aliasTooLong => "alias must be at most 100 characters"
  | .blank field => field ++ " must not be empty"
  | .noConfiguration => "configuration is required"

/-- A text that has to hold more than blanks. -/
def requireText (text field : String) : Option SpecProblem :=
  if isAllBlank text then some (.blank field) else none

/-- A configuration that has to be there. -/
def requireConfiguration (configuration : Option String) : Option SpecProblem :=
  if configuration.isNone then some .noConfiguration else none

def Spec.problem? : {kind : Kind} → Spec kind → Option SpecProblem
  | .workspace, spec =>
    match spec.workspaceAlias with
    | some text => if 100 < text.length then some .aliasTooLong else none
    | none => none
  | .ruleGroupsNamespace, spec =>
    requireText spec.name "name" <|> requireText spec.workspaceId "workspaceID"
      <|> requireConfiguration spec.configuration
  | .alertManagerDefinition, spec =>
    requireText spec.workspaceId "workspaceID" <|> requireConfiguration spec.configuration
  | .loggingConfiguration, spec =>
    requireText spec.workspaceId "workspaceID" <|> requireText spec.logGroupArn "logGroupARN"

end ManagedPrometheus
