import ManagedPrometheus.Proofs.FibonacciBackoff

/-!
# Backoffs under any calls

A backoff is asked for delays and started anew in any order, and a registry for each of its keys.
What a backoff answers depends on how many delays it has handed out since it was last started anew
(`Backoff.after_callAll`). For each of its keys a registry answers as a backoff of its own that gets
the calls for this key and no others: `BackoffRegistry.Holds` is what each call preserves.
-/

namespace ManagedPrometheus

/-- What a backoff is asked for: a delay, or to begin anew. -/
inductive BackoffCall
  | next
  | reset
  deriving DecidableEq, Repr

/-- What is answered: a delay and how many there were by then, or whether there had been any. -/
inductive BackoffAnswer
  | delayed (delay : Duration) (attempts : Nat)
  | forgotten (failed : Bool)
  deriving DecidableEq

/-- How many delays were asked for since the backoff was last to begin anew. -/
def delaysGiven (calls : List BackoffCall) : Nat :=
  (calls.reverse.takeWhile fun call => call ≠ .reset).length

theorem delaysGiven_next (calls : List BackoffCall) :
    delaysGiven (calls ++ [.next]) = delaysGiven calls + 1 := by
  simp [delaysGiven]

theorem delaysGiven_reset (calls : List BackoffCall) : delaysGiven (calls ++ [.reset]) = 0 := by
  simp [delaysGiven]

theorem delaysGiven_replicate (calls : List BackoffCall) (n : Nat) :
    delaysGiven (calls ++ List.replicate n .next) = delaysGiven calls + n := by
  induction n with
  | zero => simp
  | succ n ih => rw [List.replicate_succ', ← List.append_assoc, delaysGiven_next, ih, Nat.add_assoc]

namespace Backoff

variable {least most : Duration}

def answer (b : Backoff) : BackoffCall → BackoffAnswer × Backoff
  | .next => (.delayed b.next.1 b.next.2.attempts, b.next.2)
  | .reset => (.forgotten (0 < b.attempts), b.reset)

def answers : Backoff → List BackoffCall → List BackoffAnswer
  | _, [] => []
  | b, call :: rest => (b.answer call).1 :: answers (b.answer call).2 rest

def callAll (b : Backoff) (calls : List BackoffCall) : Backoff :=
  calls.foldl (fun b call => (b.answer call).2) b

theorem callAll_append (b : Backoff) (calls : List BackoffCall) (call : BackoffCall) :
    b.callAll (calls ++ [call]) = ((b.callAll calls).answer call).2 := by
  rw [callAll, List.foldl_append]
  rfl

/-! ### Delays -/

theorem delayOf_le_most (least most : Duration) (n : Nat) :
    delayOf least most n ≤ most.nanoseconds := Nat.min_le_right _ _

theorem delayOf_mono (least most : Duration) {n m : Nat} (h : n ≤ m) :
    delayOf least most n ≤ delayOf least most m :=
  min_le_min_right _ (Nat.mul_le_mul_right _ (Nat.fib_mono h))

/-- Whatever the calls, only those since the last one to begin anew count. -/
theorem after_callAll (hbounds : least.nanoseconds ≤ most.nanoseconds) (calls : List BackoffCall) :
    After least most (delaysGiven calls) ((fresh least most).callAll calls) := by
  induction calls using List.reverseRecOn with
  | nil => exact after_fresh hbounds
  | append_singleton calls call ih =>
    rw [callAll_append]
    cases call with
    | next =>
      rw [delaysGiven_next]
      exact ih.next
    | reset =>
      rw [delaysGiven_reset]
      exact ih.reset hbounds

/-- The delay that a backoff hands out next after a series of calls. -/
def delayAfter (least most : Duration) (calls : List BackoffCall) : Duration :=
  ((fresh least most).callAll calls).next.1

theorem nanoseconds_delayAfter (hbounds : least.nanoseconds ≤ most.nanoseconds)
    (calls : List BackoffCall) :
    (delayAfter least most calls).nanoseconds = delayOf least most (delaysGiven calls + 1) :=
  (after_callAll hbounds calls).delay

/-- The next delay after a series of calls, and those after it. -/
structure FollowsFibonacci (least most : Duration) (calls : List BackoffCall) : Prop where
  delay : (delayAfter least most calls).nanoseconds
    = min (Nat.fib (delaysGiven calls + 1) * least.nanoseconds) most.nanoseconds
  attempts : ((fresh least most).callAll calls).attempts = min (delaysGiven calls) 4294967295
  le_most : (delayAfter least most calls).nanoseconds ≤ most.nanoseconds
  grows : ∀ n, (delayAfter least most calls).nanoseconds
    ≤ (delayAfter least most (calls ++ List.replicate n .next)).nanoseconds
  stays : delayAfter least most calls = most →
    ∀ n, delayAfter least most (calls ++ List.replicate n .next) = most

theorem followsFibonacci (hbounds : least.nanoseconds ≤ most.nanoseconds)
    (calls : List BackoffCall) : FollowsFibonacci least most calls := by
  have hdelay := nanoseconds_delayAfter hbounds
  have hgrows : ∀ n, (delayAfter least most calls).nanoseconds
      ≤ (delayAfter least most (calls ++ List.replicate n .next)).nanoseconds := by
    intro n
    rw [hdelay, hdelay, delaysGiven_replicate]
    exact delayOf_mono least most (by omega)
  constructor
  case delay => exact hdelay calls
  case attempts => exact (after_callAll hbounds calls).attempts
  case le_most =>
    rw [hdelay]
    exact delayOf_le_most least most _
  case grows => exact hgrows
  case stays =>
    intro hmost n
    apply Duration.ext_nanoseconds
    apply Nat.le_antisymm
    · rw [hdelay]
      exact delayOf_le_most least most _
    · have hnot_less := hgrows n
      rwa [hmost] at hnot_less

end Backoff

/-! ### Registries -/

structure RegistryCall where
  key : String
  call : BackoffCall
  deriving DecidableEq, Repr

def ownCalls (key : String) (calls : List RegistryCall) : List BackoffCall :=
  (calls.filter fun made => made.key = key).map (·.call)

theorem ownCalls_cons (key : String) (made : RegistryCall) (rest : List RegistryCall) :
    ownCalls key (made :: rest)
      = if made.key = key then made.call :: ownCalls key rest else ownCalls key rest := by
  by_cases hkey : made.key = key
  · simp [ownCalls, hkey]
  · simp [ownCalls, hkey]

theorem ownCalls_append_self (key : String) (calls : List RegistryCall) (call : BackoffCall) :
    ownCalls key (calls ++ [⟨key, call⟩]) = ownCalls key calls ++ [call] := by
  simp [ownCalls]

/-- A delay was asked for since the key was last to begin anew. -/
def FailedSince (key : String) (calls : List RegistryCall) : Prop :=
  ∃ before since, calls = before ++ ⟨key, .next⟩ :: since ∧ ⟨key, .reset⟩ ∉ since

/-- The last call of a series decides, unless it is for another key. -/
theorem failedSince_append (key : String) (calls : List RegistryCall) (made : RegistryCall) :
    FailedSince key (calls ++ [made]) ↔
      made = ⟨key, .next⟩ ∨ made ≠ ⟨key, .reset⟩ ∧ FailedSince key calls := by
  constructor
  · rintro ⟨before, since, hcalls, hsince⟩
    rcases List.eq_nil_or_concat since with rfl | ⟨since, last, rfl⟩
    · exact .inl (List.singleton_inj.mp (List.append_inj' hcalls rfl).2)
    · rw [List.concat_eq_append, List.mem_append, not_or] at hsince
      rw [List.concat_eq_append, ← List.cons_append, ← List.append_assoc] at hcalls
      obtain ⟨hbefore, hlast⟩ := List.append_inj' hcalls rfl
      refine .inr ⟨fun hreset => hsince.2 ?_, before, since, hbefore, hsince.1⟩
      rw [← hlast, hreset]
      exact List.mem_singleton_self _
  · rintro (rfl | ⟨hreset, before, since, rfl, hsince⟩)
    · exact ⟨calls, [], rfl, by simp⟩
    · refine ⟨before, since ++ [made], by simp, ?_⟩
      simp [hsince, Ne.symm hreset]

theorem delaysGiven_ownCalls_pos_iff (key : String) (calls : List RegistryCall) :
    0 < delaysGiven (ownCalls key calls) ↔ FailedSince key calls := by
  induction calls using List.reverseRecOn with
  | nil => simp [delaysGiven, ownCalls, FailedSince]
  | append_singleton calls made ih =>
    obtain ⟨other, call⟩ := made
    rw [failedSince_append, ← ih]
    by_cases hkey : other = key
    · subst hkey
      cases call with
      | next => simp [ownCalls_append_self, delaysGiven_next]
      | reset => simp [ownCalls_append_self, delaysGiven_reset]
    · simp [ownCalls, hkey]

namespace BackoffRegistry

def answer (r : BackoffRegistry) (made : RegistryCall) : BackoffAnswer × BackoffRegistry :=
  match made.call with
  | .next => (.delayed (r.next made.key).1.1 (r.next made.key).1.2, (r.next made.key).2)
  | .reset => (.forgotten (r.reset made.key).1, (r.reset made.key).2)

/-- The answers to a series of calls, each with the key that it is for. -/
def answers : BackoffRegistry → List RegistryCall → List (String × BackoffAnswer)
  | _, [] => []
  | r, made :: rest => (made.key, (r.answer made).1) :: answers (r.answer made).2 rest

def callAll (r : BackoffRegistry) (calls : List RegistryCall) : BackoffRegistry :=
  calls.foldl (fun r made => (r.answer made).2) r

/-- For a key the registry stands as a backoff does. -/
structure Holds (r : BackoffRegistry) (key : String) (b : Backoff) : Prop where
  state : r.stateOf key = b
  least : b.least = r.least
  most : b.most = r.most

theorem holds_fresh (least most : Duration) (key : String) :
    (fresh least most).Holds key (Backoff.fresh least most) :=
  ⟨stateOf_fresh least most key, rfl, rfl⟩

theorem reset_fst (r : BackoffRegistry) (key : String) :
    (r.reset key).1 = decide (0 < (r.stateOf key).attempts) := by
  rw [reset, stateOf]
  rcases r.states.get? key with _ | state <;> rfl

namespace Holds

variable {r : BackoffRegistry} {key : String} {b : Backoff}

theorem answer_own (h : r.Holds key b) (call : BackoffCall) :
    (r.answer ⟨key, call⟩).1 = (b.answer call).1 ∧
      (r.answer ⟨key, call⟩).2.Holds key (b.answer call).2 := by
  obtain ⟨rfl, hleast, hmost⟩ := h
  cases call with
  | next =>
    refine ⟨rfl, ?_, hleast, hmost⟩
    exact (r.stateOf_next key key).trans (if_pos rfl)
  | reset =>
    refine ⟨congrArg BackoffAnswer.forgotten (r.reset_fst key), ?_, hleast, hmost⟩
    rw [Backoff.answer, Backoff.reset, hleast, hmost]
    exact (r.stateOf_reset key key).trans (if_pos rfl)

theorem answer_other (h : r.Holds key b) {made : RegistryCall} (hkey : made.key ≠ key) :
    (r.answer made).2.Holds key b := by
  obtain ⟨other, call⟩ := made
  cases call with
  | next =>
    refine ⟨?_, h.least, h.most⟩
    rw [← h.state]
    exact (r.stateOf_next other key).trans (if_neg (Ne.symm hkey))
  | reset =>
    refine ⟨?_, h.least, h.most⟩
    rw [← h.state]
    exact (r.stateOf_reset other key).trans (if_neg (Ne.symm hkey))

theorem callAll (h : r.Holds key b) (calls : List RegistryCall) :
    (r.callAll calls).Holds key (b.callAll (ownCalls key calls)) := by
  induction calls generalizing r b with
  | nil => exact h
  | cons made rest ih =>
    rw [ownCalls_cons]
    by_cases hkey : made.key = key
    · obtain rfl := hkey
      rw [if_pos rfl]
      exact ih (h.answer_own made.call).2
    · rw [if_neg hkey]
      exact ih (h.answer_other hkey)

/-- The answers for a key are those of a backoff that gets the calls for this key alone. -/
theorem answers (h : r.Holds key b) (calls : List RegistryCall) :
    ((r.answers calls).filter fun answered => answered.1 = key).map (·.2)
      = b.answers (ownCalls key calls) := by
  induction calls generalizing r b with
  | nil => rfl
  | cons made rest ih =>
    rw [ownCalls_cons]
    by_cases hkey : made.key = key
    · obtain rfl := hkey
      obtain ⟨hanswer, hholds⟩ := h.answer_own made.call
      rw [if_pos rfl, Backoff.answers, ← ih hholds, ← hanswer]
      simp [BackoffRegistry.answers]
    · rw [if_neg hkey, ← ih (h.answer_other hkey)]
      simp [BackoffRegistry.answers, hkey]

end Holds

/-- What a registry answers for a key after a series of calls, its bounds given in minutes. -/
structure ServesAlone (least most : Nat) (calls : List RegistryCall) (key : String) : Prop where
  own : (((fresh (.ofMinutes least) (.ofMinutes most)).answers calls).filter
      fun answered => answered.1 = key).map (·.2)
    = (Backoff.fresh (.ofMinutes least) (.ofMinutes most)).answers (ownCalls key calls)
  /-- The delay, in minutes, is the Fibonacci multiple that is next for this key. -/
  delay : (((fresh (.ofMinutes least) (.ofMinutes most)).callAll calls).answer ⟨key, .next⟩).1
    = .delayed (.ofMinutes (min (Nat.fib (delaysGiven (ownCalls key calls) + 1) * least) most))
        (min (delaysGiven (ownCalls key calls) + 1) 4294967295)
  forgets : (((fresh (.ofMinutes least) (.ofMinutes most)).callAll calls).answer ⟨key, .reset⟩).1
    = .forgotten true ↔ FailedSince key calls

theorem servesAlone {least most : Nat} (hbounds : least ≤ most)
    (hfits : most * 60 < 18446744073709551616) (calls : List RegistryCall) (key : String) :
    ServesAlone least most calls key := by
  let own := ownCalls key calls
  let kept := (Backoff.fresh (.ofMinutes least) (.ofMinutes most)).callAll own
  have hholds := (holds_fresh (.ofMinutes least) (.ofMinutes most) key).callAll calls
  have hafter : Backoff.After (.ofMinutes least) (.ofMinutes most) (delaysGiven own) kept := by
    apply Backoff.after_callAll
    rw [Duration.nanoseconds_ofMinutes (by omega), Duration.nanoseconds_ofMinutes hfits]
    exact Nat.mul_le_mul_right _ (Nat.mul_le_mul_right _ hbounds)
  constructor
  case own => exact (holds_fresh _ _ key).answers calls
  case delay =>
    have hdelay : kept.next.1 = .ofMinutes (min (Nat.fib (delaysGiven own + 1) * least) most) := by
      apply Duration.ext_nanoseconds
      rw [hafter.delay, Backoff.delayOf_ofMinutes hbounds hfits]
    rw [(hholds.answer_own .next).1, Backoff.answer, hafter.next.attempts, hdelay]
    rfl
  case forgets =>
    rw [(hholds.answer_own .reset).1, Backoff.answer, hafter.attempts,
      ← delaysGiven_ownCalls_pos_iff]
    simp [own, Backoff.maxAttempts]

end BackoffRegistry

/-- **The law of the backoffs.** For all bounds in order and any series of calls, the `n`-th delay
since a backoff began or was last started anew is the `n`-th Fibonacci multiple of the least one,
held at the upper bound: the delays do not decrease, do not pass the upper bound and stay at it, and
the attempts are counted up to the largest number that is told apart. A registry serves each key
with the delays and the count of this key alone, and tells of a key that is to begin anew whether it
was given a delay since it last did. -/
theorem backoffs_followFibonacci :
    (∀ least most : Duration, least.nanoseconds ≤ most.nanoseconds →
      ∀ calls, Backoff.FollowsFibonacci least most calls) ∧
    ∀ least most : Nat, least ≤ most → most * 60 < 18446744073709551616 →
      ∀ calls key, BackoffRegistry.ServesAlone least most calls key :=
  ⟨fun _ _ hbounds => Backoff.followsFibonacci hbounds,
    fun _ _ hbounds hfits => BackoffRegistry.servesAlone hbounds hfits⟩

/-- Two keys between one minute and two, and a backoff between one second and four. -/
theorem backoffs_followFibonacci_interleaved :
    let least := Duration.ofSeconds 1
    let most := Duration.ofSeconds 4
    let served : List RegistryCall := [⟨"a", .next⟩, ⟨"b", .next⟩, ⟨"a", .next⟩, ⟨"a", .next⟩,
      ⟨"b", .reset⟩, ⟨"a", .next⟩, ⟨"b", .reset⟩]
    least.nanoseconds ≤ most.nanoseconds ∧
      (Backoff.fresh least most).answers [.next, .next, .next, .next, .next, .reset, .next]
        = [.delayed least 1, .delayed least 2, .delayed (.ofSeconds 2) 3,
          .delayed (.ofSeconds 3) 4, .delayed most 5, .forgotten true, .delayed least 1] ∧
      Backoff.FollowsFibonacci least most [.next, .next, .next, .next] ∧
      (BackoffRegistry.fresh (.ofMinutes 1) (.ofMinutes 2)).answers served
        = [("a", .delayed (.ofMinutes 1) 1), ("b", .delayed (.ofMinutes 1) 1),
          ("a", .delayed (.ofMinutes 1) 2), ("a", .delayed (.ofMinutes 2) 3),
          ("b", .forgotten true), ("a", .delayed (.ofMinutes 2) 4), ("b", .forgotten false)] ∧
      BackoffRegistry.ServesAlone 1 2 served "a" := by
  intro least most served
  have hbounds : least.nanoseconds ≤ most.nanoseconds := by decide
  exact ⟨hbounds, by decide, backoffs_followFibonacci.1 least most hbounds _, by decide,
    backoffs_followFibonacci.2 1 2 (by decide) (by decide) served "a"⟩

end ManagedPrometheus
