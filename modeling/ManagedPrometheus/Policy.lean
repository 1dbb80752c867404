import ManagedPrometheus.Kind
import ManagedPrometheus.Phase

/-!
# Fields and policies

The fields of the four specs, the parts of a resource that can be changed, and for each kind the
policy that a pass follows: which fields stay as they were created, which parts are changed in which
order, what a failed resource means and when it may be deleted.
-/

namespace ManagedPrometheus

/-- A field of a spec. -/
inductive Field
  | tags
  | workspaceAlias
  | kmsKeyArn
  | configuration
  | name
  | workspaceId
  | logGroupArn
  deriving DecidableEq, Repr

def Field.path : Field → String
  | .tags => "Spec.Tags"
  | .workspaceAlias => "Spec.Alias"
  | .kmsKeyArn => "Spec.KMSKeyARN"
  | .configuration => "Spec.Configuration"
  | .name => "Spec.Name"
  | .workspaceId => "Spec.WorkspaceID"
  | .logGroupArn => "Spec.LogGroupARN"

/-- A part of a resource that is changed by a call of its own. -/
inductive Concern
  | tags
  | configuration
  | workspaceAlias
  | logGroup
  deriving DecidableEq, Repr

namespace Concern

def field : Concern → Field
  | .tags => .tags
  | .configuration => .configuration
  | .workspaceAlias => .workspaceAlias
  | .logGroup => .logGroupArn

/-- The path at which a difference calls for a change. -/
def path (concern : Concern) : String := concern.field.path

end Concern

/-- What a failed resource means for an update. -/
inductive FailurePolicy
  /-- The failure is final. -/
  | latch
  /-- The backend accepts changes of a failed resource. -/
  | allowUpdate
  /-- Changes are asked for only while the resource is active. -/
  | awaitActive
  deriving DecidableEq, Repr

/-- What a pass of a kind follows. -/
structure KindPolicy where
  failure : FailurePolicy
  /-- Error codes that no retry can mend. -/
  terminalCodes : List String
  /-- Fields that stay as they were created. -/
  immutable : List Field
  /-- The parts that can be changed, in the order of their calls. -/
  concerns : List Concern
  /-- The submitted configuration is kept when the backend fails to validate it. -/
  preservesOnValidationFailure : Bool
  /-- The phases from which a resource may be deleted. -/
  deletable : Phase → Bool

/-- The error code of a request that the service will never accept. -/
def validationException : String := "ValidationException"

/-- The error code of a resource that does not exist. -/
def resourceNotFoundException : String := "ResourceNotFoundException"

/-- What the reason of a failed validation contains. -/
def validationFailureReason : String := "error validating"

/-- Whether `part` occurs in a text. -/
def occursIn (part : List Char) : List Char → Bool
  | [] => part.isEmpty
  | c :: rest => part.isPrefixOf (c :: rest) || occursIn part rest

/-- Whether the reason of a failure is that the backend could not validate what was submitted. -/
def isValidationFailure (reason : String) : Bool :=
  occursIn validationFailureReason.toList reason.toList

def Kind.policy : Kind → KindPolicy
  | .workspace =>
    ⟨.awaitActive, [validationException], [.kmsKeyArn], [.tags, .workspaceAlias], false,
      Phase.allowsDelete⟩
  | .ruleGroupsNamespace =>
    ⟨.latch, [validationException], [.name, .workspaceId], [.tags, .configuration], false,
      Phase.allowsDelete⟩
  | .alertManagerDefinition =>
    ⟨.allowUpdate, [validationException], [.workspaceId], [.configuration], true,
      Phase.allowsDelete⟩
  | .loggingConfiguration =>
    ⟨.allowUpdate, [validationException], [.workspaceId], [.logGroup], false, Phase.allowsDelete⟩

end ManagedPrometheus
