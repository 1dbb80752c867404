import ManagedPrometheus.Duration
import ManagedPrometheus.TextMap

/-!
# Fibonacci backoff

Delays after repeated failures: each is the sum of the two before it, held at an upper bound. A
registry keeps one backoff for each key, made when the key first fails and forgotten when the key
succeeds.
-/

namespace ManagedPrometheus

/-- The state of a backoff: its bounds, the last two delays and how many were handed out. -/
structure Backoff where
  least : Duration
  most : Duration
  previous : Duration
  current : Duration
  attempts : Nat
  deriving DecidableEq

namespace Backoff

/-- The largest count of attempts that is told apart. -/
def maxAttempts : Nat := 4294967295

/-- A backoff that has handed out no delay. -/
def fresh (least most : Duration) : Backoff := ⟨least, most, Duration.zero, least, 0⟩

/-- Hands out a delay and moves on to the next. -/
def next (b : Backoff) : Duration × Backoff :=
  (b.current,
    { b with
      previous := b.current
      current := (b.previous.add b.current).min b.most
      attempts := Nat.min (b.attempts + 1) maxAttempts })

/-- Begins anew. -/
def reset (b : Backoff) : Backoff := fresh b.least b.most

/-- Hands out `n` delays. -/
def take (b : Backoff) : Nat → List Duration × Backoff
  | 0 => ([], b)
  | n + 1 =>
    let (delay, after) := b.next
    let (delays, last) := after.take n
    (delay :: delays, last)

end Backoff

/-- One backoff for each key that has failed, with shared bounds. -/
structure BackoffRegistry where
  least : Duration
  most : Duration
  states : TextMap Backoff

namespace BackoffRegistry

/-- A registry in which no key has failed. -/
def fresh (least most : Duration) : BackoffRegistry := ⟨least, most, TextMap.empty⟩

/-- The backoff of a key: a fresh one if the key has not failed. -/
def stateOf (r : BackoffRegistry) (key : String) : Backoff :=
  (r.states.get? key).getD (Backoff.fresh r.least r.most)

/-- The next delay of a key and how many it was given since it last succeeded. -/
def next (r : BackoffRegistry) (key : String) : (Duration × Nat) × BackoffRegistry :=
  let (delay, after) := (r.stateOf key).next
  ((delay, after.attempts), { r with states := r.states.insert key after })

/-- Forgets the failures of a key and tells whether it had any. -/
def reset (r : BackoffRegistry) (key : String) : Bool × BackoffRegistry :=
  (match r.states.get? key with
    | some state => decide (0 < state.attempts)
    | none => false,
    { r with states := r.states.filterKeys fun k => k ≠ key })

end BackoffRegistry

end ManagedPrometheus
