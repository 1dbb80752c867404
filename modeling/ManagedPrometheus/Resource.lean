import ManagedPrometheus.Backend
import ManagedPrometheus.Spec
import ManagedPrometheus.Status
import ManagedPrometheus.Timestamp
import ManagedPrometheus.Utf8

/-!
# Resources

A resource as the cluster stores it: metadata, spec and status. Its `key` is the address in the
backend: the one recorded in the status, else the one that the spec declares. `request` is what a
create or put call carries.
-/

namespace ManagedPrometheus

/-- What the cluster keeps of every object. -/
structure Metadata where
  name : Option String
  generateName : Option String
  namespaceName : Option String
  uid : Option String
  resourceVersion : Option String
  generation : Option Int
  creationTimestamp : Option Timestamp
  deletionTimestamp : Option Timestamp
  labels : Option (TextMap String)
  annotations : Option (TextMap String)
  finalizers : Option (List String)
  deriving DecidableEq

namespace Metadata

def empty : Metadata := ⟨none, none, none, none, none, none, none, none, none, none, none⟩

/-- The name of an object, or what its name was to begin with. -/
def nameAny (metadata : Metadata) : String :=
  (metadata.name <|> metadata.generateName).getD ""

/-- The namespace of an object. -/
def namespaceAny (metadata : Metadata) : String := metadata.namespaceName.getD ""

def finalizerList (metadata : Metadata) : List String := metadata.finalizers.getD []

end Metadata

/-- A resource of a kind. -/
structure Resource (kind : Kind) where
  metadata : Metadata
  spec : Spec kind
  status : Option Status
  deriving DecidableEq

/-- The address of a resource whose status records `bound?` and whose spec is `spec`: recorded parts
come before declared ones. Only the backend names a workspace. An address with an empty part is
none. -/
def Spec.key? (bound? : Option Status) : {kind : Kind} → Spec kind → Option ResourceKey
  | .workspace, _ => (bound?.bind (·.workspaceId)).map fun id => ⟨id, none⟩
  | .ruleGroupsNamespace, spec =>
    let workspaceId := (bound?.bind (·.workspaceId)).getD spec.workspaceId
    let name := (bound?.bind (·.name)).getD spec.name
    if workspaceId.isEmpty || name.isEmpty then none else some ⟨workspaceId, some name⟩
  | .alertManagerDefinition, spec =>
    let workspaceId := (bound?.bind (·.workspaceId)).getD spec.workspaceId
    if workspaceId.isEmpty then none else some ⟨workspaceId, none⟩
  | .loggingConfiguration, spec =>
    let workspaceId := (bound?.bind (·.workspaceId)).getD spec.workspaceId
    if workspaceId.isEmpty then none else some ⟨workspaceId, none⟩

/-- What a create or put call to an address carries for a spec. -/
def Spec.request (key? : Option ResourceKey) : {kind : Kind} → Spec kind → Request
  | .workspace, spec =>
    { Request.empty with
      key := key?
      workspaceAlias := spec.workspaceAlias
      kmsKeyArn := spec.kmsKeyArn
      tags := spec.tags }
  | .ruleGroupsNamespace, spec =>
    { Request.empty with
      key := key?, data := spec.configuration.map Utf8.encode, tags := spec.tags }
  | .alertManagerDefinition, spec =>
    { Request.empty with key := key?, data := spec.configuration.map Utf8.encode }
  | .loggingConfiguration, spec =>
    { Request.empty with key := key?, logGroupArn := some spec.logGroupArn }

namespace Resource

variable {kind : Kind}

/-- The address of a resource in the backend, none while it cannot be addressed. -/
def key? (resource : Resource kind) : Option ResourceKey := resource.spec.key? resource.status

/-- The status, or one in which nothing is set. -/
def statusOrEmpty (resource : Resource kind) : Status := resource.status.getD .empty

/-- Every condition of the status is stored under its own type. -/
def Keyed (resource : Resource kind) : Prop := resource.statusOrEmpty.conditions.Keyed

instance (resource : Resource kind) : Decidable resource.Keyed :=
  inferInstanceAs (Decidable resource.statusOrEmpty.conditions.Keyed)

/-- The phase of the last code that the backend reported. -/
def phase (resource : Resource kind) : Phase := phaseOf resource.status

/-- What a put call carries for a resource. -/
def request (resource : Resource kind) : Request := resource.spec.request resource.key?

/-- What a create call carries: also the uid of the resource, by which the backend tells a repeated
create. -/
def createRequest (resource : Resource kind) : Request :=
  { resource.request with clientToken := resource.metadata.uid }

/-- The differences between the specs of two resources. -/
def compare (desired latest : Resource kind) : Delta := desired.spec.compare latest.spec

end Resource

end ManagedPrometheus
