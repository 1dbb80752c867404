import ManagedPrometheus.Script
import ManagedPrometheus.Visit

/-!
# Runs on virtual time

The controller of one kind over one resource, against a scripted backend and a cluster that answers
writes from a list. Time passes only while a call does not answer and between visits. The cluster
shows the resource as it was given, whatever is written to it.
-/

namespace ManagedPrometheus

namespace Simulation

/-- What a run shows of the controller. -/
inductive Happening
  | listed
  | called (call : Call)
  | written (write : Write)

/-- A run as it is set up. Times are in nanoseconds from its start. -/
structure Setup (kind : Kind) where
  settings : Settings
  identity : Identity
  resource : Resource kind
  /-- The text for the time of every visit. -/
  now : String
  /-- When the controller is told to stop calling the backend. -/
  cancelAt : Option Nat
  /-- Nothing happens after this time. -/
  stopAt : Nat

/-- The state of a run: the time, the answers that are left, and what has happened and was counted
when. -/
structure World where
  clock : Nat
  script : Script
  /-- Whether the next writes are accepted; all are when the list has ended. -/
  verdicts : List Bool
  happenings : List (Nat × Happening)
  events : List (Nat × Event)

namespace World

/-- Notes what happens now. -/
def note (world : World) (happening : Happening) : World :=
  { world with happenings := world.happenings ++ [(world.clock, happening)] }

/-- Counts events now. -/
def count (world : World) (events : List Event) : World :=
  { world with events := world.events ++ events.map fun event => (world.clock, event) }

/-- Answers a write. -/
def accept (world : World) (write : Write) : Bool × World :=
  let (verdict, rest) := Script.next true world.verdicts
  (verdict, { world.note (.written write) with verdicts := rest })

/-- Lets a call that does not answer come to its end: at its time limit, or when the run is
cancelled, whichever is first. -/
def await (world : World) (limit : Duration) (cancelAt : Option Nat) (cancels : Bool) :
    Bool × World :=
  let deadline := world.clock + limit.nanoseconds
  if cancels then (true, world)
  else match cancelAt with
    | some time =>
      if time < deadline then (true, { world with clock := Nat.max world.clock time })
      else (false, { world with clock := deadline })
    | none => (false, { world with clock := deadline })

end World

/-- The scripted backend, on virtual time. -/
def backend (limit : Duration) (cancelAt : Option Nat) : Backend World where
  answer _ call world :=
    let (answer, script) := world.script.answer call
    let world := { world.note (.called call) with script }
    match answer.reply with
    | some _ => (answer, world)
    | none =>
      let (cancels, world) := world.await limit cancelAt answer.cancels
      (⟨none, cancels⟩, world)

variable {kind : Kind}

/-- The limits under which a run calls the backend. -/
def Setup.limit (setup : Setup kind) : Duration := setup.settings.callTimeout

/-- Answers what a visit asks for. -/
def answer (setup : Setup kind) :
    (errand : Errand) → Session World → errand.Answer × Session World
  | .call call, session =>
    let (result, session) :=
      Session.perform (backend setup.limit setup.cancelAt) kind setup.limit call session
    let event? := Exchange.event? kind ⟨call, result⟩
    (result, { session with backend := session.backend.count event?.toList })
  | .write write, session =>
    let (verdict, world) := session.backend.accept write
    (verdict, { session with backend := world })

/-- Cancels the run if its time has come. -/
def checkCancelled (setup : Setup kind) (session : Session World) : Session World :=
  match setup.cancelAt with
  | some time =>
    if time ≤ session.backend.clock then { session with cancelled := true } else session
  | none => session

/-- Visits the resource up to `fuel` times, each time when the visit before it has asked for. -/
def visits (setup : Setup kind) : Nat → BackoffRegistry → Session World → Session World
  | 0, _, session => session
  | fuel + 1, backoffs, session =>
    if setup.stopAt < session.backend.clock then session
    else
      let plan := Visit.plan (setup.settings.passSettings setup.identity) setup.now setup.resource
      let (visit, session) := plan.run (answer setup) (checkCancelled setup session)
      let after := visit.aftermath setup.settings.resyncPeriod setup.resource backoffs
      let world := session.backend.count after.events
      match after.action with
      | .awaitChange => { session with backend := world }
      | .requeueAfter delay =>
        visits setup fuel after.backoffs
          { session with backend := { world with clock := world.clock + delay.nanoseconds } }

/-- What a run shows and counts until it stops. -/
structure Report where
  happenings : List (Nat × Happening)
  events : List Event

/-- Runs the controller until the run stops. One visit for each second and two more are enough where
each visit asks for the next one at least a second later. -/
def run (setup : Setup kind) (script : Script) (verdicts : List Bool) : Report :=
  let start : World := ⟨0, script, verdicts, [(0, .listed)], []⟩
  let fuel := setup.stopAt / Duration.perSecond + 2
  let world := (visits setup fuel .ofController (Session.start start false)).backend
  { happenings := world.happenings.filter fun entry => entry.1 ≤ setup.stopAt
    events := (world.events.filter fun entry => entry.1 ≤ setup.stopAt).map (·.2) }

end Simulation

end ManagedPrometheus
