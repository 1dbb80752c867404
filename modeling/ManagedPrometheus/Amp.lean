import ManagedPrometheus.AmpReply
import ManagedPrometheus.AmpRequest
import ManagedPrometheus.Policy

/-!
# The service as a backend

A backend that talks to the managed service over HTTP. One error is no error: what a description asks
for may not exist, and what is to be deleted may be gone already. Every other error is passed on as
the service reported it.
-/

namespace ManagedPrometheus

namespace Amp

/-- Whether an error says that there is no such resource. -/
def isNotFound : BackendError → Bool
  | .api code _ => code = resourceNotFoundException
  | .transport _ => false

/-- Takes the absence of a resource as the answer to a description, and as success of a deletion. -/
def absorbNotFound : (call : Call) → Except BackendError call.Reply → Except BackendError call.Reply
  | .describe _, .error cause => if isNotFound cause then .ok none else .error cause
  | .delete _, .error cause => if isNotFound cause then .ok () else .error cause
  | _, result => result

/-- Makes a call through `exchange`, which sends a request and takes its reply, if there is one. -/
def call {σ : Type} (freshToken : String) (exchange : HttpRequest → σ → Option HttpReply × σ)
    (kind : Kind) (call : Call) (state : σ) : Except BackendError call.Reply × σ :=
  match request freshToken kind call with
  | .error cause => (absorbNotFound call (.error cause), state)
  | .ok request =>
    let (reply?, state) := exchange request state
    (absorbNotFound call (readReply kind call reply?), state)

def backend {σ : Type} (freshToken : String) (exchange : HttpRequest → σ → Option HttpReply × σ) :
    Backend σ where
  answer kind asked state :=
    let (result, state) := call freshToken exchange kind asked state
    (⟨some result, false⟩, state)

/-- A client of the service in messages. -/
def clientText (region? : Option String) : String :=
  "AmpBackend \x7b region: "
    ++ (match region? with
      | some region => "Some(" ++ Json.quote region ++ ")"
      | none => "None")
    ++ ", .. \x7d"

end Amp

end ManagedPrometheus
