import ManagedPrometheus.Backoff
import Mathlib.Data.Nat.Fib.Basic

/-!
# The delays of a backoff

The `n`-th delay of a backoff is the `n`-th Fibonacci multiple of the least one, held at the upper
bound. `Backoff.After` is the invariant: the last two delays are the multiples of two Fibonacci
numbers in a row. That sums stay at the largest span never shows, as the upper bound is below it.
-/

namespace ManagedPrometheus

namespace Backoff

variable {least most : Duration} {n : Nat} {b : Backoff}

/-- The `n`-th delay between two bounds, in nanoseconds. -/
def delayOf (least most : Duration) (n : Nat) : Nat :=
  Nat.min (Nat.fib n * least.nanoseconds) most.nanoseconds

/-- The backoff has handed out `n` delays since it began. -/
structure After (least most : Duration) (n : Nat) (b : Backoff) : Prop where
  bounds : b.least = least ∧ b.most = most
  previous : b.previous.nanoseconds = delayOf least most n
  current : b.current.nanoseconds = delayOf least most (n + 1)
  attempts : b.attempts = Nat.min n maxAttempts

theorem after_fresh (h : least.nanoseconds ≤ most.nanoseconds) :
    After least most 0 (fresh least most) where
  bounds := ⟨rfl, rfl⟩
  previous := by
    rw [delayOf, Nat.fib_zero, Nat.zero_mul]
    exact (Nat.zero_min most.nanoseconds).symm
  current := by
    rw [delayOf, Nat.fib_one, Nat.one_mul]
    exact (Nat.min_eq_left h).symm
  attempts := rfl

/-- The sum of two delays in a row, held at the upper bound, is the next one. -/
theorem delayOf_add_two (least most : Duration) (n : Nat) :
    Nat.min (Nat.min (delayOf least most n + delayOf least most (n + 1)) Duration.maxNanoseconds)
        most.nanoseconds = delayOf least most (n + 2) := by
  have hmost := most.le_max
  have hfib : Nat.fib (n + 2) * least.nanoseconds
      = Nat.fib n * least.nanoseconds + Nat.fib (n + 1) * least.nanoseconds := by
    rw [Nat.fib_add_two, Nat.add_mul]
  rw [delayOf, delayOf, delayOf, hfib]
  generalize Nat.fib n * least.nanoseconds = a
  generalize Nat.fib (n + 1) * least.nanoseconds = b
  change min (min (min a most.nanoseconds + min b most.nanoseconds) _) _
    = min (a + b) most.nanoseconds
  omega

theorem After.delay (h : After least most n b) :
    b.next.1.nanoseconds = delayOf least most (n + 1) := h.current

theorem After.next (h : After least most n b) : After least most (n + 1) b.next.2 where
  bounds := h.bounds
  previous := h.current
  current := by
    change ((b.previous.add b.current).min b.most).nanoseconds = _
    rw [Duration.nanoseconds_min, Duration.nanoseconds_add, h.previous, h.current, h.bounds.2,
      delayOf_add_two]
  attempts := by
    change Nat.min (b.attempts + 1) maxAttempts = _
    rw [h.attempts]
    change min (min n maxAttempts + 1) maxAttempts = min (n + 1) maxAttempts
    omega

theorem After.reset (hbounds : least.nanoseconds ≤ most.nanoseconds) (h : After least most n b) :
    After least most 0 b.reset := by
  rw [Backoff.reset, h.bounds.1, h.bounds.2]
  exact after_fresh hbounds

end Backoff

/-! ### Bounds in minutes -/

theorem Duration.nanoseconds_ofMinutes {n : Nat} (h : n * 60 < 18446744073709551616) :
    (ofMinutes n).nanoseconds = n * 60 * perSecond := by
  apply nanoseconds_ofNanoseconds
  rw [perSecond, maxNanoseconds]
  omega

/-- Between bounds in minutes, the delays are whole minutes too. -/
theorem Backoff.delayOf_ofMinutes {least most : Nat} (hbounds : least ≤ most)
    (hfits : most * 60 < 18446744073709551616) (n : Nat) :
    delayOf (.ofMinutes least) (.ofMinutes most) n
      = (Duration.ofMinutes (min (Nat.fib n * least) most)).nanoseconds := by
  have hleast : least * 60 < 18446744073709551616 := by omega
  have hdelay : min (Nat.fib n * least) most * 60 < 18446744073709551616 := by omega
  rw [delayOf, Duration.nanoseconds_ofMinutes hleast, Duration.nanoseconds_ofMinutes hfits,
    Duration.nanoseconds_ofMinutes hdelay]
  calc min (Nat.fib n * (least * 60 * Duration.perSecond)) (most * 60 * Duration.perSecond)
    _ = min (Nat.fib n * least * (60 * Duration.perSecond)) (most * (60 * Duration.perSecond)) := by
      rw [Nat.mul_assoc least, Nat.mul_assoc most, Nat.mul_assoc (Nat.fib n)]
    _ = min (Nat.fib n * least) most * (60 * Duration.perSecond) := Nat.mul_min_mul_right _ _ _
    _ = min (Nat.fib n * least) most * 60 * Duration.perSecond := (Nat.mul_assoc _ _ _).symm

/-! ### Registries -/

namespace BackoffRegistry

theorem stateOf_fresh (least most : Duration) (key : String) :
    (fresh least most).stateOf key = Backoff.fresh least most := by
  rw [stateOf, fresh, TextMap.get?_empty]
  rfl

/-- Handing out a delay moves on the backoff of its key, and of no other. -/
theorem stateOf_next (r : BackoffRegistry) (key other : String) :
    (r.next key).2.stateOf other
      = if other = key then (r.stateOf key).next.2 else r.stateOf other := by
  change ((r.states.insert key (r.stateOf key).next.2).get? other).getD
    (Backoff.fresh r.least r.most) = _
  rw [TextMap.get?_insert]
  split <;> rfl

/-- Forgetting the failures of a key starts its backoff anew, and no other. -/
theorem stateOf_reset (r : BackoffRegistry) (key other : String) :
    (r.reset key).2.stateOf other
      = if other = key then Backoff.fresh r.least r.most else r.stateOf other := by
  change ((r.states.filterKeys fun k => k ≠ key).get? other).getD (Backoff.fresh r.least r.most) = _
  rw [TextMap.get?_filterKeys]
  by_cases hother : other = key
  · simp [hother]
  · simp [hother, stateOf]

end BackoffRegistry

end ManagedPrometheus
