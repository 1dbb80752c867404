/-!
# Durations

Spans of time counted in nanoseconds, up to the largest whose seconds fit 64 bits. Sums that would
pass it stay at it.
-/

namespace ManagedPrometheus

/-- The nanoseconds in a second. -/
def Duration.perSecond : Nat := 1000000000

/-- The largest span: 2^64 - 1 seconds and one nanosecond less than a second. -/
def Duration.maxNanoseconds : Nat := 18446744073709551616 * 1000000000 - 1

/-- A span of time. -/
structure Duration where
  nanoseconds : Nat
  le_max : nanoseconds ≤ Duration.maxNanoseconds
  deriving DecidableEq

namespace Duration

/-- The span of `n` nanoseconds, or the largest one. -/
def ofNanoseconds (n : Nat) : Duration := ⟨min n maxNanoseconds, Nat.min_le_right _ _⟩

/-- The span of `n` seconds, or the largest one. -/
def ofSeconds (n : Nat) : Duration := ofNanoseconds (n * perSecond)

/-- The span of `n` minutes, or the largest one. -/
def ofMinutes (n : Nat) : Duration := ofSeconds (n * 60)

def zero : Duration := ofNanoseconds 0

instance : Inhabited Duration := ⟨zero⟩

def seconds (d : Duration) : Nat := d.nanoseconds / perSecond

def subsecond (d : Duration) : Nat := d.nanoseconds % perSecond

/-- The sum, or the largest span. -/
def add (a b : Duration) : Duration := ofNanoseconds (a.nanoseconds + b.nanoseconds)

def min (a b : Duration) : Duration := if a.nanoseconds ≤ b.nanoseconds then a else b

theorem ext_nanoseconds {a b : Duration} (h : a.nanoseconds = b.nanoseconds) : a = b := by
  cases a; cases b; simp_all

theorem nanoseconds_ofNanoseconds {n : Nat} (h : n ≤ maxNanoseconds) :
    (ofNanoseconds n).nanoseconds = n := Nat.min_eq_left h

theorem nanoseconds_add (a b : Duration) :
    (a.add b).nanoseconds = Nat.min (a.nanoseconds + b.nanoseconds) maxNanoseconds := rfl

theorem nanoseconds_min (a b : Duration) :
    (a.min b).nanoseconds = Nat.min a.nanoseconds b.nanoseconds := by
  unfold Duration.min
  split
  · rename_i h; exact (Nat.min_eq_left h).symm
  · rename_i h; exact (Nat.min_eq_right (Nat.le_of_lt (Nat.lt_of_not_le h))).symm

end Duration

end ManagedPrometheus
