import ManagedPrometheus.Metrics
import ManagedPrometheus.Outcome
import ManagedPrometheus.Plan

/-!
# Sessions

How the calls of a pass are made. Each call has a time limit, and a pass can be cancelled: before a
call, which is then not made, or while a call is under way, which matters only if that call never
answers. A `Session` is the state of a backend together with what has happened so far: whether the
pass is cancelled, and each call that was made with its result.
-/

namespace ManagedPrometheus

/-- What a pass makes of a call: its answer, or why there is none. -/
abbrev Call.Result (call : Call) : Type := Except Failure call.Reply

/-- What a pass does: a plan whose questions are calls of the backend. -/
abbrev Pass (α : Type) : Type := Plan Call.Result α

/-- A call that was made and its result. -/
structure Exchange where
  call : Call
  result : call.Result

namespace Exchange

def succeeded (exchange : Exchange) : Bool :=
  match exchange.result with
  | .ok _ => true
  | .error _ => false

/-- What is counted of an exchange: nothing if the pass was cancelled during the call. -/
def event? (kind : Kind) (exchange : Exchange) : Option Event :=
  match exchange.result with
  | .error .cancelled => none
  | _ => some (.called exchange.call.operation (exchange.call.api kind) exchange.succeeded)

end Exchange

/-- The state of a backend and what has happened so far. -/
structure Session (σ : Type) where
  backend : σ
  cancelled : Bool
  exchanges : List Exchange

namespace Session

variable {σ : Type}

/-- A session in which no call has been made. -/
def start (backend : σ) (cancelled : Bool) : Session σ := ⟨backend, cancelled, []⟩

/-- The calls that were made, in their order. -/
def calls (session : Session σ) : List Call := session.exchanges.map (·.call)

/-- What is counted of the calls that were made. -/
def events (kind : Kind) (session : Session σ) : List Event :=
  session.exchanges.filterMap (·.event? kind)

/-- What a pass makes of how a call ends. -/
def resultOf (api : String) (limit : Duration) {α : Type} (answer : Answer α) : Except Failure α :=
  match answer.reply with
  | some (.ok value) => .ok value
  | some (.error cause) => .error (.backend api cause)
  | none => .error (if answer.cancels then .cancelled else .timeout api limit)

/-- Makes a call, unless the pass is cancelled. -/
def perform (backend : Backend σ) (kind : Kind) (limit : Duration) (call : Call)
    (session : Session σ) : call.Result × Session σ :=
  if session.cancelled then (.error .cancelled, session)
  else
    let (answer, state) := backend.answer kind call session.backend
    let result : call.Result := resultOf (call.api kind) limit answer
    (result, ⟨state, answer.cancels, session.exchanges ++ [⟨call, result⟩]⟩)

/-- Runs a pass. -/
def run {α : Type} (backend : Backend σ) (kind : Kind) (limit : Duration) (pass : Pass α)
    (session : Session σ) : α × Session σ :=
  Plan.run (perform backend kind limit) pass session

end Session

end ManagedPrometheus
