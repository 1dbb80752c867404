import ManagedPrometheus.Proofs.FibonacciBackoff
import ManagedPrometheus.Proofs.Finalizers
import ManagedPrometheus.Script

/-!
# Accounting for visits

What a visit adds to the counters, and how long a visit that was broken off is put off. The visits
of all objects of all kinds share one registry of delays, in which each object has a key of its own
(`backoffKey_inj`), so the delay of an object depends on its own visits alone: on how many of them
were broken off since a pass over it ran to its end last (`visit_accounts`).
-/

namespace ManagedPrometheus

variable {kind : Kind}

/-! ### Keys -/

/-- Where a separator is in neither of two lists, it tells where they end. -/
theorem append_separator_inj {α : Type} {separator : α} {xs ys rest others : List α}
    (hx : separator ∉ xs) (hy : separator ∉ ys)
    (h : xs ++ separator :: rest = ys ++ separator :: others) : xs = ys ∧ rest = others := by
  induction xs generalizing ys with
  | nil =>
    rcases ys with _ | ⟨y, ys⟩
    · exact ⟨rfl, (List.cons.inj h).2⟩
    · obtain ⟨rfl, -⟩ := List.cons.inj h
      exact absurd List.mem_cons_self hy
  | cons x xs ih =>
    rcases ys with _ | ⟨y, ys⟩
    · obtain ⟨rfl, -⟩ := List.cons.inj h
      exact absurd List.mem_cons_self hx
    · obtain ⟨rfl, htail⟩ := List.cons.inj h
      rw [List.mem_cons, not_or] at hx hy
      obtain ⟨hsame, hrest⟩ := ih hx.2 hy.2 htail
      exact ⟨congrArg (x :: ·) hsame, hrest⟩

theorem Kind.slash_notMem_name (kind : Kind) : '/' ∉ kind.name.toList := by
  cases kind <;> decide

theorem Kind.name_inj {kind other : Kind} (h : kind.name = other.name) : kind = other := by
  cases kind <;> cases other <;> first | rfl | exact absurd h (by decide)

/-- Objects have different keys, as no namespace has a slash in it. -/
theorem backoffKey_inj {kind other : Kind} {namespaceName otherNamespace name otherName : String}
    (hslash : '/' ∉ namespaceName.toList) (hother : '/' ∉ otherNamespace.toList)
    (h : backoffKey kind namespaceName name = backoffKey other otherNamespace otherName) :
    kind = other ∧ namespaceName = otherNamespace ∧ name = otherName := by
  have hlists : kind.name.toList ++ '/' :: (namespaceName.toList ++ '/' :: name.toList)
      = other.name.toList ++ '/' :: (otherNamespace.toList ++ '/' :: otherName.toList) := by
    have hkeys := congrArg String.toList h
    simpa [backoffKey, String.toList_append] using hkeys
  obtain ⟨hkind, hrest⟩ :=
    append_separator_inj kind.slash_notMem_name other.slash_notMem_name hlists
  obtain ⟨hnamespace, hname⟩ := append_separator_inj hslash hother hrest
  exact ⟨Kind.name_inj (String.ext hkind), String.ext hnamespace, String.ext hname⟩

/-! ### Occasions -/

/-- A visit of an object of any kind. -/
structure Occasion where
  kind : Kind
  record : VisitRecord kind

namespace Occasion

def resource (occasion : Occasion) : Resource occasion.kind := occasion.record.read.resource

/-- By what the object is told from others. -/
def address (occasion : Occasion) : Kind × String × String :=
  (occasion.kind, occasion.resource.metadata.namespaceAny, occasion.resource.metadata.nameAny)

/-- The namespace has no slash in it. -/
def Plain (occasion : Occasion) : Prop :=
  '/' ∉ occasion.resource.metadata.namespaceAny.toList

instance (occasion : Occasion) : Decidable occasion.Plain :=
  inferInstanceAs (Decidable ('/' ∉ occasion.resource.metadata.namespaceAny.toList))

/-- Whether a pass ran to its end. -/
def ended (occasion : Occasion) : Bool :=
  match occasion.record.visit with
  | .ended _ => true
  | .skipped | .broken => false

def broken (occasion : Occasion) : Bool := occasion.record.visit = .broken

/-- What follows from the visit. -/
def aftermath (resync : Duration) (backoffs : BackoffRegistry) (occasion : Occasion) : Aftermath :=
  occasion.record.visit.aftermath resync occasion.resource backoffs

/-- What is counted: the calls of the backend and what follows from the visit. -/
def events (resync : Duration) (backoffs : BackoffRegistry) (occasion : Occasion) : List Event :=
  occasion.record.exchanges.filterMap (·.event? occasion.kind)
    ++ (occasion.aftermath resync backoffs).events

end Occasion

/-- The delays that are kept after a series of visits. -/
def backoffsAfter (resync : Duration) (past : List Occasion) : BackoffRegistry :=
  past.foldl (fun backoffs occasion => (occasion.aftermath resync backoffs).backoffs) .ofController

/-- How many visits of an object were broken off since a pass over it ran to its end last. -/
def breakdowns (address : Kind × String × String) (past : List Occasion) : Nat :=
  ((past.filter fun occasion => occasion.address = address).reverse.takeWhile
    fun occasion => !occasion.ended).countP (·.broken)

theorem backoffsAfter_append (resync : Duration) (past : List Occasion) (occasion : Occasion) :
    backoffsAfter resync (past ++ [occasion])
      = (occasion.aftermath resync (backoffsAfter resync past)).backoffs := by
  rw [backoffsAfter, List.foldl_append]
  rfl

theorem breakdowns_append (address : Kind × String × String) (past : List Occasion)
    (occasion : Occasion) :
    breakdowns address (past ++ [occasion])
      = if occasion.address = address then
          if occasion.ended then 0
          else breakdowns address past + if occasion.broken then 1 else 0
        else breakdowns address past := by
  by_cases haddress : occasion.address = address
  · by_cases hended : occasion.ended = true
    · simp [breakdowns, haddress, hended]
    · simp [breakdowns, haddress, hended, List.countP_cons]
  · simp [breakdowns, haddress]

/-! ### Delays -/

def shortestDelay : Duration := .ofMinutes breakdownMinutes.1

def longestDelay : Duration := .ofMinutes breakdownMinutes.2

theorem shortestDelay_le_longestDelay : shortestDelay.nanoseconds ≤ longestDelay.nanoseconds := by
  decide

/-- After any series of visits, the backoff of an object has handed out one delay for each visit of
this object that was broken off since its last pass that ended. -/
structure Kept (past : List Occasion) (backoffs : BackoffRegistry) : Prop where
  bounds : backoffs.least = shortestDelay ∧ backoffs.most = longestDelay
  state : ∀ kind namespaceName name, '/' ∉ namespaceName.toList →
    Backoff.After shortestDelay longestDelay (breakdowns (kind, namespaceName, name) past)
      (backoffs.stateOf (backoffKey kind namespaceName name))

/-- An object that is not the one of an occasion has another key. -/
theorem Occasion.Plain.key_iff {occasion : Occasion} (h : occasion.Plain) {kind : Kind}
    {namespaceName name : String} (hslash : '/' ∉ namespaceName.toList) :
    backoffKey kind namespaceName name = occasion.resource.backoffKey
      ↔ occasion.address = (kind, namespaceName, name) := by
  constructor
  · intro hkey
    obtain ⟨rfl, rfl, rfl⟩ := backoffKey_inj hslash h hkey
    rfl
  · intro haddress
    obtain ⟨rfl, hrest⟩ := Prod.mk.inj haddress
    obtain ⟨rfl, rfl⟩ := Prod.mk.inj hrest
    rfl

theorem Occasion.bounds_aftermath (occasion : Occasion) (resync : Duration)
    (backoffs : BackoffRegistry) :
    (occasion.aftermath resync backoffs).backoffs.least = backoffs.least ∧
      (occasion.aftermath resync backoffs).backoffs.most = backoffs.most := by
  rw [aftermath]
  rcases occasion.record.visit with _ | result | _ <;> exact ⟨rfl, rfl⟩

/-- A visit leaves the delays of all other objects as they are. -/
theorem Occasion.stateOf_aftermath_other (occasion : Occasion) (resync : Duration)
    (backoffs : BackoffRegistry) {key : String} (h : key ≠ occasion.resource.backoffKey) :
    (occasion.aftermath resync backoffs).backoffs.stateOf key = backoffs.stateOf key := by
  rw [aftermath]
  rcases occasion.record.visit with _ | result | _
  · rfl
  · exact (backoffs.stateOf_reset _ key).trans (if_neg h)
  · exact (backoffs.stateOf_next _ key).trans (if_neg h)

/-- One more visit leaves the delays in step with what was broken off. -/
theorem Kept.append {past : List Occasion} {backoffs : BackoffRegistry} (h : Kept past backoffs)
    (resync : Duration) {occasion : Occasion} (hplain : occasion.Plain) :
    Kept (past ++ [occasion]) (occasion.aftermath resync backoffs).backoffs := by
  obtain ⟨hleast, hmost⟩ := occasion.bounds_aftermath resync backoffs
  refine ⟨⟨hleast.trans h.bounds.1, hmost.trans h.bounds.2⟩, ?_⟩
  intro kind namespaceName name hslash
  have hbefore := h.state kind namespaceName name hslash
  rw [breakdowns_append]
  -- only the visits of this object count, and only its own key is changed
  by_cases haddress : occasion.address = (kind, namespaceName, name)
  · have hkey := (hplain.key_iff hslash).mpr haddress
    rw [if_pos haddress, Occasion.ended, Occasion.broken, Occasion.aftermath]
    rcases hvisit : occasion.record.visit with _ | result | _
    · simpa [Visit.aftermath] using hbefore
    · have hfresh := backoffs.stateOf_reset occasion.resource.backoffKey
        (backoffKey kind namespaceName name)
      rw [if_pos hkey, h.bounds.1, h.bounds.2] at hfresh
      have hafter := Backoff.after_fresh shortestDelay_le_longestDelay
      rw [← hfresh] at hafter
      simpa [Visit.aftermath] using hafter
    · have hnext := backoffs.stateOf_next occasion.resource.backoffKey
        (backoffKey kind namespaceName name)
      rw [if_pos hkey, ← hkey] at hnext
      have hafter := hbefore.next
      rw [← hnext, hkey] at hafter
      rw [hkey]
      simpa [Visit.aftermath] using hafter
  · have hkey := mt (hplain.key_iff hslash).mp haddress
    rw [if_neg haddress, occasion.stateOf_aftermath_other resync backoffs hkey]
    exact hbefore

theorem kept_backoffsAfter (resync : Duration) (past : List Occasion)
    (hplain : ∀ occasion ∈ past, occasion.Plain) : Kept past (backoffsAfter resync past) := by
  induction past using List.reverseRecOn with
  | nil =>
    refine ⟨⟨rfl, rfl⟩, ?_⟩
    intro kind namespaceName name _
    have hstate : (backoffsAfter resync []).stateOf (backoffKey kind namespaceName name)
        = Backoff.fresh shortestDelay longestDelay := BackoffRegistry.stateOf_fresh _ _ _
    rw [hstate]
    exact Backoff.after_fresh shortestDelay_le_longestDelay
  | append_singleton past occasion ih =>
    rw [backoffsAfter_append]
    have hkept := ih fun other hother => hplain other (List.mem_append_left [occasion] hother)
    exact hkept.append resync (hplain occasion (by simp))

/-- The `n`-th delay is the `n`-th Fibonacci number of minutes, up to ten. -/
theorem delayOf_eq_minutes (n : Nat) :
    Backoff.delayOf shortestDelay longestDelay n
      = (Duration.ofMinutes (min (Nat.fib n) 10)).nanoseconds := by
  have hdelay := Backoff.delayOf_ofMinutes (show 1 ≤ 10 by decide) (by decide) n
  rw [Nat.mul_one] at hdelay
  exact hdelay

theorem Occasion.action_of_broken (resync : Duration) {past : List Occasion}
    (hpast : ∀ visited ∈ past, visited.Plain) {occasion : Occasion} (hplain : occasion.Plain)
    (hbroken : occasion.record.visit = .broken) :
    (occasion.aftermath resync (backoffsAfter resync past)).action
      = .requeueAfter (.ofMinutes (min (Nat.fib (breakdowns occasion.address past + 1)) 10)) := by
  have hafter := (kept_backoffsAfter resync past hpast).state occasion.kind
    occasion.resource.metadata.namespaceAny occasion.resource.metadata.nameAny hplain
  have hdelay := hafter.delay.trans (delayOf_eq_minutes _)
  rw [Occasion.aftermath, hbroken]
  exact congrArg Action.requeueAfter (Duration.ext_nanoseconds hdelay)

/-! ### Counters -/

/-- How much the series of a family grow together over a list of events. -/
def familyGrowth (events : List Event) (family : Family) : Nat :=
  (events.flatMap Event.series).countP fun series => series.family = family

theorem familyGrowth_append (first second : List Event) (family : Family) :
    familyGrowth (first ++ second) family
      = familyGrowth first family + familyGrowth second family := by
  rw [familyGrowth, List.flatMap_append, List.countP_append]
  rfl

/-- Calls of the backend are counted in families of their own. -/
theorem familyGrowth_exchanges (kind : Kind) (exchanges : List Exchange) {family : Family}
    (hcalls : family ≠ .calls) (hdurations : family ≠ .callDuration) :
    familyGrowth (exchanges.filterMap (·.event? kind)) family = 0 := by
  rw [familyGrowth, List.countP_eq_zero]
  intro series hseries
  obtain ⟨event, hevent, hmem⟩ := List.mem_flatMap.mp hseries
  obtain ⟨exchange, -, hexchange⟩ := List.mem_filterMap.mp hevent
  obtain ⟨operation, api, succeeded, rfl⟩ : ∃ operation api succeeded,
      event = .called operation api succeeded := by
    rw [Exchange.event?] at hexchange
    split at hexchange
    · cases hexchange
    · exact ⟨_, _, _, (Option.some.inj hexchange).symm⟩
  simp only [Event.series, List.mem_cons, List.not_mem_nil, or_false] at hmem
  rcases hmem with rfl | rfl
  · simpa using hcalls.symm
  · simpa using hdurations.symm

/-- What a visit adds to the counters of passes and requeues is what follows from it. -/
theorem Occasion.familyGrowth_events (occasion : Occasion) (resync : Duration)
    (backoffs : BackoffRegistry) {family : Family} (hcalls : family ≠ .calls)
    (hdurations : family ≠ .callDuration) :
    familyGrowth (occasion.events resync backoffs) family
      = familyGrowth (occasion.aftermath resync backoffs).events family := by
  rw [events, familyGrowth_append, familyGrowth_exchanges _ _ hcalls hdurations, Nat.zero_add]

/-- What follows from a pass that ended counts the pass once and at most one requeue. -/
theorem familyGrowth_ended {kind : Kind} (resync : Duration) (resource : Resource kind)
    (backoffs : BackoffRegistry) (result : PassResult kind) :
    let events := ((Visit.ended result).aftermath resync resource backoffs).events
    familyGrowth events .passes = 1 ∧ familyGrowth events .brokenPasses = 0 ∧
      familyGrowth events .requeues ≤ 1 := by
  simp only [Visit.aftermath]
  rcases (nextAction resync result.outcome result.requeue).2 with _ | reason
  · exact ⟨rfl, rfl, Nat.zero_le 1⟩
  · exact ⟨rfl, rfl, Nat.le_refl 1⟩

/-- How a visit is accounted for, after the visits of `past`. -/
structure Accounts (resync : Duration) (past : List Occasion) (occasion : Occasion) : Prop where
  ended : ∀ result, occasion.record.visit = .ended result →
    familyGrowth (occasion.events resync (backoffsAfter resync past)) .passes = 1 ∧
      familyGrowth (occasion.events resync (backoffsAfter resync past)) .brokenPasses = 0
  broken : occasion.record.visit = .broken →
    familyGrowth (occasion.events resync (backoffsAfter resync past)) .passes = 0 ∧
      familyGrowth (occasion.events resync (backoffsAfter resync past)) .brokenPasses = 1
  skipped : occasion.record.visit = .skipped →
    familyGrowth (occasion.events resync (backoffsAfter resync past)) .passes = 0 ∧
      familyGrowth (occasion.events resync (backoffsAfter resync past)) .brokenPasses = 0
  requeues : familyGrowth (occasion.events resync (backoffsAfter resync past)) .requeues ≤ 1
  /-- The delay after a visit that was broken off, in whole minutes. -/
  delay : occasion.record.visit = .broken →
    (occasion.aftermath resync (backoffsAfter resync past)).action
      = .requeueAfter (.ofMinutes (min (Nat.fib (breakdowns occasion.address past + 1)) 10))
  /-- What happened to other objects does not matter. -/
  alone : ∀ other : List Occasion, (∀ visited ∈ other, visited.Plain) →
    other.filter (fun visited => visited.address = occasion.address)
        = past.filter (fun visited => visited.address = occasion.address) →
      (occasion.aftermath resync (backoffsAfter resync other)).action
        = (occasion.aftermath resync (backoffsAfter resync past)).action

/-- Whatever visits of whatever objects come before, in any order, each visit is accounted for. -/
theorem visit_accounts (resync : Duration) (past : List Occasion) (occasion : Occasion)
    (hpast : ∀ visited ∈ past, visited.Plain) (hplain : occasion.Plain) :
    Accounts resync past occasion := by
  have hgrowth (family : Family) := @Occasion.familyGrowth_events occasion resync
    (backoffsAfter resync past) family
  constructor
  case ended =>
    intro result hended
    rw [hgrowth .passes (by simp) (by simp), hgrowth .brokenPasses (by simp) (by simp),
      Occasion.aftermath, hended]
    obtain ⟨hpasses, hbroken, -⟩ := familyGrowth_ended resync occasion.resource
      (backoffsAfter resync past) result
    exact ⟨hpasses, hbroken⟩
  case broken =>
    intro hbroken
    rw [hgrowth .passes (by simp) (by simp), hgrowth .brokenPasses (by simp) (by simp),
      Occasion.aftermath, hbroken]
    exact ⟨rfl, rfl⟩
  case skipped =>
    intro hskipped
    rw [hgrowth .passes (by simp) (by simp), hgrowth .brokenPasses (by simp) (by simp),
      Occasion.aftermath, hskipped]
    exact ⟨rfl, rfl⟩
  case requeues =>
    rw [hgrowth .requeues (by simp) (by simp), Occasion.aftermath]
    rcases occasion.record.visit with _ | result | _
    · exact Nat.zero_le 1
    · exact (familyGrowth_ended resync occasion.resource (backoffsAfter resync past) result).2.2
    · exact Nat.le_refl 1
  case delay => exact Occasion.action_of_broken resync hpast hplain
  case alone =>
    intro other hother hsame
    rcases hvisit : occasion.record.visit with _ | result | _
    · rw [Occasion.aftermath, Occasion.aftermath, hvisit]
      rfl
    · rw [Occasion.aftermath, Occasion.aftermath, hvisit]
      rfl
    · rw [Occasion.action_of_broken resync hother hplain hvisit,
        Occasion.action_of_broken resync hpast hplain hvisit, breakdowns, breakdowns, hsame]

/-- The third breakdown in a row of a workspace, between visits of a logging configuration of the
same name, is followed by a delay of two minutes. -/
theorem visit_accounts_third :
    let settings := Settings.default.passSettings ⟨none, none⟩
    let metadata : Metadata := { Metadata.empty with name := some "metrics" }
    let workspace : Stored .workspace :=
      ⟨⟨metadata, ⟨some "metrics", none, .empty⟩, none⟩, by decide, by decide, by decide⟩
    let logging : Stored .loggingConfiguration :=
      ⟨⟨metadata, ⟨"ws-1", "arn:aws:logs:us-west-2:111122223333:log-group:aps:*"⟩, none⟩, by decide,
        by decide, by decide⟩
    let broken : Occasion := ⟨.workspace,
      (Turn.run scripted settings ⟨id, "T", false, [⟨id, .refused, false⟩]⟩ workspace .empty).1⟩
    let other : Occasion := ⟨.loggingConfiguration,
      (Turn.run scripted settings ⟨id, "T", false, []⟩ logging .empty).1⟩
    let past := [other, broken, other, broken, other]
    ((∀ visited ∈ past, visited.Plain) ∧ broken.Plain) ∧ other.ended = true ∧
      (broken.aftermath .zero (backoffsAfter .zero past)).action
        = .requeueAfter (.ofMinutes 2) ∧
      familyGrowth (broken.events .zero (backoffsAfter .zero past)) .brokenPasses = 1 := by
  intro settings metadata workspace logging broken other past
  have hbroken : broken.Plain := by decide
  have hother : other.Plain := by decide
  have hpast : ∀ visited ∈ past, visited.Plain := by
    simp only [past, List.forall_mem_cons]
    exact ⟨hother, hbroken, hother, hbroken, hother, by simp⟩
  have haccounts := visit_accounts .zero past broken hpast hbroken
  have hvisit : broken.record.visit = .broken := by decide
  exact ⟨⟨hpast, hbroken⟩, by decide, (haccounts.delay hvisit).trans (by decide),
    (haccounts.broken hvisit).2⟩

end ManagedPrometheus
