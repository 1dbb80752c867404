import ManagedPrometheus.Kind
import ManagedPrometheus.TagChange

/-!
# The backend

What a pass says to the backend and hears from it, in a form that is the same for all kinds. A
`Call` is one request, `Call.Reply` the type of what it answers if it succeeds. A `Backend` answers
calls from a state of its own: a call may succeed, fail, or get no answer at all, and the pass may be
cancelled while the call is under way. Every claim about passes is made for all backends.
-/

namespace ManagedPrometheus

/-- Bytes on the wire. -/
abbrev Bytes := List UInt8

/-- The address of a resource: its workspace, and for rule groups namespaces its name. -/
structure ResourceKey where
  workspaceId : String
  name : Option String
  deriving DecidableEq, Repr

/-- A key in messages. -/
def ResourceKey.display (key : ResourceKey) : String :=
  match key.name with
  | some name => key.workspaceId ++ "/" ++ name
  | none => key.workspaceId

/-- What is asked of a create or put call. -/
structure Request where
  /-- Absent only when a workspace is created, as the backend assigns its address. -/
  key : Option ResourceKey
  data : Option Bytes
  workspaceAlias : Option String
  kmsKeyArn : Option String
  logGroupArn : Option String
  tags : Tags
  /-- What the backend tells a repeated create by. -/
  clientToken : Option String
  deriving DecidableEq

/-- A request that asks for nothing. -/
def Request.empty : Request := ⟨none, none, none, none, none, .empty, none⟩

/-- The state of a resource as the backend reports it. -/
structure WireStatus where
  code : String
  reason : Option String
  deriving DecidableEq, Repr

/-- What the backend reports of a resource. Each call reports some of the fields. -/
structure WireObject where
  arn : Option String
  workspaceId : Option String
  name : Option String
  workspaceAlias : Option String
  status : Option WireStatus
  data : Option Bytes
  tags : Option Tags
  prometheusEndpoint : Option String
  kmsKeyArn : Option String
  logGroupArn : Option String
  deriving DecidableEq

def WireObject.empty : WireObject := ⟨none, none, none, none, none, none, none, none, none, none⟩

/-- One change of an existing resource. -/
inductive Mutation
  | tag (arn : String) (tags : Tags)
  | untag (arn : String) (keys : List String)
  /-- Replaces the kind's attribute: payload, alias or log group. -/
  | put (request : Request)
  deriving DecidableEq

/-- The name of the call that makes a change. -/
def Mutation.api (kind : Kind) : Mutation → String
  | .tag _ _ => "TagResource"
  | .untag _ _ => "UntagResource"
  | .put _ => kind.putApi

/-- A call of the backend. -/
inductive Call
  | describe (key : ResourceKey)
  | create (request : Request)
  | update (mutation : Mutation)
  | delete (key : ResourceKey)
  deriving DecidableEq

namespace Call

/-- What a call answers if it succeeds. A description of what does not exist is none, and some
changes report nothing. -/
abbrev Reply : Call → Type
  | .describe _ => Option WireObject
  | .create _ => WireObject
  | .update _ => Option WireObject
  | .delete _ => Unit

def api (kind : Kind) : Call → String
  | .describe _ => kind.describeApi
  | .create _ => kind.createApi
  | .update mutation => mutation.api kind
  | .delete _ => kind.deleteApi

def mutates : Call → Bool
  | .describe _ => false
  | _ => true

end Call

/-- Why a call failed. -/
inductive BackendError
  /-- The service answered with an error code. -/
  | api (code message : String)
  /-- There was no service answer. -/
  | transport (message : String)
  deriving DecidableEq, Repr

namespace BackendError

def message : BackendError → String
  | .api code message => code ++ ": " ++ message
  | .transport message => message

/-- The error code of the service, if it gave one. -/
def code? : BackendError → Option String
  | .api code _ => some code
  | .transport _ => none

end BackendError

/-- How a call ends: what it answers, none if it never does, and whether the pass is cancelled while
it is under way. -/
structure Answer (α : Type) where
  reply : Option (Except BackendError α)
  cancels : Bool

/-- A backend with states `σ`: it answers a call and moves to its next state. -/
structure Backend (σ : Type) where
  answer : Kind → (call : Call) → σ → Answer call.Reply × σ

end ManagedPrometheus
