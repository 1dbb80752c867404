import ManagedPrometheus.Exposition

/-!
# Probes

What the controller answers over HTTP: its metrics, whether it is alive and whether it is ready. It
is alive as long as it answers, and ready once its address is bound.
-/

namespace ManagedPrometheus

/-- An answer to a request. -/
structure Response where
  status : Nat
  contentType : Option String
  /-- The methods that a path allows, where another was asked for. -/
  allow : Option String
  body : String
  deriving DecidableEq, Repr

namespace Response

/-- An answer that is only a status. -/
def ofStatus (status : Nat) : Response := ⟨status, none, none, ""⟩

/-- The answer to a method that a path does not have. -/
def methodNotAllowed : Response := ⟨405, none, some "GET,HEAD", ""⟩

end Response

/-- What is asked for at a path. -/
inductive Endpoint
  | metrics
  | liveness
  | readiness
  deriving DecidableEq, Repr

/-- The endpoint of a request target; a query or fragment after the path does not matter. -/
def Endpoint.ofTarget? (target : String) : Option Endpoint :=
  let path := String.ofList (target.toList.takeWhile fun c => c ≠ '?' && c ≠ '#')
  if path = "/metrics" then some .metrics
  else if path = "/healthz" then some .liveness
  else if path = "/readyz" then some .readiness
  else none

/-- The media type of the exposition of metrics. -/
def expositionType : String := "text/plain; version=0.0.4; charset=utf-8"

/-- Whether the controller is ready. -/
structure Server where
  ready : Bool
  deriving DecidableEq, Repr

namespace Server

/-- A server that has not been started. -/
def idle : Server := ⟨false⟩

/-- Binds the address of a server, which makes it ready. An address that is taken changes nothing. -/
def start (server : Server) (addressIsFree : Bool) : Bool × Server :=
  (addressIsFree, if addressIsFree then ⟨true⟩ else server)

def answer (server : Server) (registry : Registry) : Endpoint → Response
  | .metrics => ⟨200, some expositionType, none, registry.text⟩
  | .liveness => .ofStatus 200
  | .readiness => .ofStatus (if server.ready then 200 else 503)

/-- Answers a request. The head of an answer goes without its body. -/
def respond (server : Server) (registry : Registry) (method target : String) : Response :=
  match Endpoint.ofTarget? target with
  | none => .ofStatus 404
  | some endpoint =>
    if method = "GET" then server.answer registry endpoint
    else if method = "HEAD" then { server.answer registry endpoint with body := "" }
    else .methodNotAllowed

end Server

end ManagedPrometheus
