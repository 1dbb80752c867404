import ManagedPrometheus.Backend

/-!
# Scripted backends

A backend whose answers are laid out beforehand: a queue for each operation, and the numbers of the
calls that never answer and of those during which the pass is cancelled. A call that never answers
takes nothing from its queue. An empty queue answers that there is nothing, an empty report for a
create, and success for a delete.
-/

namespace ManagedPrometheus

/-- The answers that are left, and the calls that were made. -/
structure Script where
  describes : List (Except BackendError (Option WireObject))
  creates : List (Except BackendError WireObject)
  updates : List (Except BackendError (Option WireObject))
  deletes : List (Except BackendError Unit)
  /-- The number of calls so far. -/
  calls : Nat
  /-- The calls that never answer, counted from one. -/
  hanging : List Nat
  /-- The calls during which the pass is cancelled, counted from one. -/
  cancelling : List Nat

namespace Script

def empty : Script := ⟨[], [], [], [], 0, [], []⟩

/-- Takes the next of a queue, or what an empty one answers. -/
def next {α : Type} (default : α) : List α → α × List α
  | [] => (default, [])
  | answer :: rest => (answer, rest)

/-- Takes the next answer to a call. -/
def take (script : Script) : (call : Call) → Except BackendError call.Reply × Script
  | .describe _ =>
    let (answer, rest) := next (.ok none) script.describes
    (answer, { script with describes := rest })
  | .create _ =>
    let (answer, rest) := next (.ok .empty) script.creates
    (answer, { script with creates := rest })
  | .update _ =>
    let (answer, rest) := next (.ok none) script.updates
    (answer, { script with updates := rest })
  | .delete _ =>
    let (answer, rest) := next (.ok ()) script.deletes
    (answer, { script with deletes := rest })

def answer (call : Call) (script : Script) : Answer call.Reply × Script :=
  let number := script.calls + 1
  let script := { script with calls := number }
  let cancels := script.cancelling.contains number
  if script.hanging.contains number then (⟨none, cancels⟩, script)
  else
    let (reply, rest) := script.take call
    (⟨some reply, cancels⟩, rest)

end Script

def scripted : Backend Script := ⟨fun _ call script => script.answer call⟩

end ManagedPrometheus
