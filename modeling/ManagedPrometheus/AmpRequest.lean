import ManagedPrometheus.Backend
import ManagedPrometheus.Base64
import ManagedPrometheus.Http

/-!
# Requests to the service

The HTTP request of each call. Every kind has its place below its workspace, payloads travel in
base64, and calls that change a resource carry a token by which the service tells repeated requests:
the one that a create was given, else a fresh one.
-/

namespace ManagedPrometheus

namespace Amp

/-- The text of a call that needs an address and has none. -/
def noKey : String := "request carries no resource key"

/-- The text of a rule groups namespace whose address has no name. -/
def noName : String := "rule groups namespace key carries no name"

/-- The text of a request that cannot be sent, as a part of its path is empty. -/
def emptyPart : String := "an identifier in the path is empty"

/-- The address that a request has to carry. -/
def requireKey (request : Request) : Except BackendError ResourceKey :=
  match request.key with
  | some key => .ok key
  | none => .error (.transport noKey)

/-- The name that the address of a rule groups namespace has to carry. -/
def requireName (key : ResourceKey) : Except BackendError String :=
  match key.name with
  | some name => .ok name
  | none => .error (.transport noName)

/-- A request, unless a part of its path is empty. -/
def send (method : Method) (path : List String) (query : List (String × String))
    (body : Option Json) : Except BackendError HttpRequest :=
  if path.any (·.isEmpty) then .error (.transport emptyPart) else .ok ⟨method, path, query, body⟩

def path (kind : Kind) (key : ResourceKey) : Except BackendError (List String) :=
  match kind with
  | .workspace => .ok ["workspaces", key.workspaceId]
  | .ruleGroupsNamespace =>
    (requireName key).map fun name => ["workspaces", key.workspaceId, "rulegroupsnamespaces", name]
  | .alertManagerDefinition => .ok ["workspaces", key.workspaceId, "alertmanager", "definition"]
  | .loggingConfiguration => .ok ["workspaces", key.workspaceId, "logging"]

/-- A payload in a body. -/
def dataField (request : Request) : String × Option Json :=
  ("data", request.data.map fun bytes => .text (Base64.encode bytes))

/-- Tags in a body; no tags are left out. -/
def tagsField (tags : Tags) : String × Option Json :=
  ("tags", if tags.isEmpty then none else some (Json.ofMap tags))

/-- A log group in a body. -/
def logGroupField (request : Request) : String × Option Json :=
  ("logGroupArn", request.logGroupArn.map .text)

/-- A token in a body. -/
def tokenField (token : String) : String × Option Json := ("clientToken", some (.text token))

def createRequest (freshToken : String) (kind : Kind) (request : Request) :
    Except BackendError HttpRequest := do
  let token := tokenField (request.clientToken.getD freshToken)
  match kind with
  | .workspace =>
    send .post ["workspaces"] [] <| some <| Json.recordSome [
      ("alias", request.workspaceAlias.map .text), ("kmsKeyArn", request.kmsKeyArn.map .text),
      tagsField request.tags, token]
  | .ruleGroupsNamespace =>
    let key ← requireKey request
    let name ← requireName key
    send .post ["workspaces", key.workspaceId, "rulegroupsnamespaces"] [] <| some <|
      Json.recordSome [("name", some (.text name)), dataField request, tagsField request.tags, token]
  | .alertManagerDefinition =>
    let key ← requireKey request
    send .post (← path kind key) [] <| some <| Json.recordSome [dataField request, token]
  | .loggingConfiguration =>
    let key ← requireKey request
    send .post (← path kind key) [] <| some <| Json.recordSome [logGroupField request, token]

/-- The request that replaces the attribute of a resource. -/
def putRequest (freshToken : String) (kind : Kind) (request : Request) :
    Except BackendError HttpRequest := do
  let token := tokenField freshToken
  let key ← requireKey request
  let path ← path kind key
  match kind with
  | .workspace =>
    send .post (path ++ ["alias"]) [] <| some <|
      Json.recordSome [("alias", request.workspaceAlias.map .text), token]
  | .ruleGroupsNamespace | .alertManagerDefinition =>
    send .put path [] <| some <| Json.recordSome [dataField request, token]
  | .loggingConfiguration =>
    send .put path [] <| some <| Json.recordSome [logGroupField request, token]

def request (freshToken : String) (kind : Kind) : Call → Except BackendError HttpRequest
  | .describe key => do send .get (← path kind key) [] none
  | .create request => createRequest freshToken kind request
  | .update (.tag arn tags) =>
    send .post ["tags", arn] [] (some (Json.recordSome [tagsField tags]))
  | .update (.untag arn keys) =>
    send .delete ["tags", arn] (keys.map fun key => ("tagKeys", key)) none
  | .update (.put request) => putRequest freshToken kind request
  | .delete key => do send .delete (← path kind key) [("clientToken", freshToken)] none

end Amp

end ManagedPrometheus
