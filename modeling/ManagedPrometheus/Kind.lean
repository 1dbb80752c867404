/-!
# Kinds of managed resources

The four kinds of resource that the backend manages, with the names they go by: in manifests, in
messages and as calls of the backend.
-/

namespace ManagedPrometheus

/-- A kind of managed resource. -/
inductive Kind
  | workspace
  | ruleGroupsNamespace
  | alertManagerDefinition
  | loggingConfiguration
  deriving DecidableEq, Repr

namespace Kind

/-- All kinds, in the order in which their definitions are printed. -/
def all : List Kind :=
  [.workspace, .ruleGroupsNamespace, .alertManagerDefinition, .loggingConfiguration]

/-- The name in manifests. -/
def name : Kind → String
  | .workspace => "Workspace"
  | .ruleGroupsNamespace => "RuleGroupsNamespace"
  | .alertManagerDefinition => "AlertManagerDefinition"
  | .loggingConfiguration => "LoggingConfiguration"

/-- The name in messages. -/
def displayName : Kind → String
  | .workspace => "Workspace"
  | .ruleGroupsNamespace => "Rule Groups Namespace"
  | .alertManagerDefinition => "Alert Manager Definition"
  | .loggingConfiguration => "Logging Configuration"

/-- The name in lower case, one resource. -/
def singular : Kind → String
  | .workspace => "workspace"
  | .ruleGroupsNamespace => "rulegroupsnamespace"
  | .alertManagerDefinition => "alertmanagerdefinition"
  | .loggingConfiguration => "loggingconfiguration"

def plural (kind : Kind) : String := kind.singular ++ "s"

/-- The call that reads a resource. -/
def describeApi (kind : Kind) : String := "Describe" ++ kind.name

/-- The call that makes a resource. -/
def createApi (kind : Kind) : String := "Create" ++ kind.name

/-- The call that removes a resource. -/
def deleteApi (kind : Kind) : String := "Delete" ++ kind.name

/-- The call that replaces the attribute of a resource that can be replaced. -/
def putApi : Kind → String
  | .workspace => "UpdateWorkspaceAlias"
  | .ruleGroupsNamespace => "PutRuleGroupsNamespace"
  | .alertManagerDefinition => "PutAlertManagerDefinition"
  | .loggingConfiguration => "UpdateLoggingConfiguration"

end Kind

def apiGroup : String := "prometheusservice.amp.dev"

/-- The version of the kinds' definitions. -/
def apiVersion : String := "v1alpha1"

end ManagedPrometheus
