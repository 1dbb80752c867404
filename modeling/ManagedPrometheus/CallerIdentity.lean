import ManagedPrometheus.Http
import ManagedPrometheus.Snapshot
import ManagedPrometheus.Xml

/-!
# The identity of the caller

The region that calls go to and the account that makes them. The account is asked of the service that
knows the caller; where there is no region, nobody is asked, and where there is no good answer, the
account stays unknown.
-/

namespace ManagedPrometheus

/-- The account that a reply names, if it names one. -/
def accountOf? (document : Xml) : Option String := do
  let response ← document.contentsOf? "GetCallerIdentityResponse"
  let result ← (← response.find? Xml.isElement).contentsOf? "GetCallerIdentityResult"
  let accounts ← (result.filterMap (Xml.contentsOf? "Account")).mapM Xml.firstText?
  accounts.getLast?

/-- The account that the reply to a question about the caller names. -/
def HttpReply.account? (reply : HttpReply) : Option String :=
  if reply.succeeded then (Xml.read? reply.body).bind accountOf? else none

/-- The identity of the caller; `ask` puts the question to the service. -/
def Identity.ofCaller {σ : Type} (ask : σ → Option HttpReply × σ) (region? : Option String)
    (state : σ) : Identity × σ :=
  match region? with
  | none => (⟨none, none⟩, state)
  | some region =>
    let (reply?, state) := ask state
    (⟨some region, reply?.bind HttpReply.account?⟩, state)

end ManagedPrometheus
