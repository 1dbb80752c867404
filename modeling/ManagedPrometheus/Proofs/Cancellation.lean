import ManagedPrometheus.Proofs.Signals
import ManagedPrometheus.Proofs.UpdateTrace

/-!
# Cancelled passes

A pass can be cancelled before it begins or during one of its calls. What the cancellation does is
said by comparing two runs against one backend: one that is cancelled once `n` calls have begun, and
one that is not cancelled at all. Up to there they are the same run. From there the cancelled one
makes no call; it is stopped if it asks for one, or if the call under way is never answered, and
then hands its resource back as it was. Otherwise it never notices (`cancellation_atomic`).

The comparison is made once, for every pass that a cancellation stops (`Stoppable.run_cut`). That
the passes over resources are of that kind follows part by part.
-/

namespace ManagedPrometheus

variable {σ α β : Type} {kind : Kind} {now : String} {settings : PassSettings}

/-! ### Backends that cancel -/

namespace Backend

/-- The backend answers alike, and no pass is cancelled. -/
def undisturbed (backend : Backend σ) : Backend σ where
  answer kind call state :=
    let answered := backend.answer kind call state
    (⟨answered.1.reply, false⟩, answered.2)

/-- The backend answers alike, and the pass is cancelled during one call. The number in the state
says during which, counted from the next call on; zero says that it is during none of them. -/
def cancelling (backend : Backend σ) : Backend (Nat × σ) where
  answer kind call state :=
    let answered := backend.answer kind call state.2
    (⟨answered.1.reply, state.1 == 1⟩, (state.1 - 1, answered.2))

/-- What a pass that is not cancelled makes of the answer to a call. -/
def calmResult (backend : Backend σ) (kind : Kind) (limit : Duration) (call : Call) (state : σ) :
    call.Result :=
  Session.resultOf (call.api kind) limit ⟨(backend.answer kind call state).1.reply, false⟩

/-- The `n`-th of a series of calls, counted from one, is never answered. -/
def LeavesUnanswered (backend : Backend σ) (kind : Kind) (calls : List Call) (state : σ) (n : Nat) :
    Prop :=
  0 < n ∧ ∃ attempt ∈ (backend.attempts kind calls state)[n - 1]?, attempt.answer.reply = none

theorem cancels_of_mem_attempts_undisturbed (backend : Backend σ) {calls : List Call} {state : σ}
    {attempt : Attempt} (h : attempt ∈ backend.undisturbed.attempts kind calls state) :
    attempt.answer.cancels = false := by
  induction calls generalizing state with
  | nil => cases h
  | cons call rest ih =>
    rcases List.mem_cons.mp h with rfl | h
    · rfl
    · exact ih h

end Backend

namespace Session

theorem resultOf_ne_cancelled (api : String) (limit : Duration)
    (reply : Option (Except BackendError α)) :
    resultOf api limit ⟨reply, false⟩ ≠ .error .cancelled := by
  rcases reply with _ | _ | value <;> simp [resultOf]

/-- Being cancelled meanwhile does not matter to a call that is answered. -/
theorem resultOf_of_answered {reply : Option (Except BackendError α)} (h : reply ≠ none)
    (api : String) (limit : Duration) (cancels : Bool) :
    resultOf api limit ⟨reply, cancels⟩ = resultOf api limit ⟨reply, false⟩ := by
  rcases reply with _ | _ | value
  · exact absurd rfl h
  · rfl
  · rfl

end Session

/-! ### Passes that a cancellation stops -/

/-- A pass that ends with a cancelled value as soon as a call is cancelled, and else with none. -/
inductive Stoppable (Cancelled : α → Prop) : Pass α → Prop
  | done {value : α} (hvalue : ¬ Cancelled value) : Stoppable Cancelled (.done value)
  | ask {call : Call} {next : call.Result → Pass α}
      (hstops : ∃ value, Cancelled value ∧ next (.error .cancelled) = .done value)
      (hgoes : ∀ result, result ≠ .error .cancelled → Stoppable Cancelled (next result)) :
      Stoppable Cancelled (.ask call next)

theorem Stoppable.bind {CancelledFirst : α → Prop} {Cancelled : β → Prop} {pass : Pass α}
    {next : α → Pass β} (h : Stoppable CancelledFirst pass)
    (hstops : ∀ value, CancelledFirst value → ∃ ended, Cancelled ended ∧ next value = .done ended)
    (hgoes : ∀ value, ¬ CancelledFirst value → Stoppable Cancelled (next value)) :
    Stoppable Cancelled (pass.bind next) := by
  induction h with
  | done hvalue => exact hgoes _ hvalue
  | ask hcancelled _ ih =>
    obtain ⟨value, hvalue, hfirst⟩ := hcancelled
    obtain ⟨ended, hended, hnext⟩ := hstops value hvalue
    exact .ask ⟨ended, hended, by simp only [hfirst, Plan.bind_done, hnext]⟩ ih

namespace Resource

theorem stoppable_readLatest (now : String) (desired : Resource kind) :
    Stoppable (· = .error .cancelled) (desired.readLatest now) := by
  rw [readLatest]
  rcases desired.key? with _ | key
  · exact .done (by simp)
  · refine .ask ⟨_, rfl, rfl⟩ fun result hresult => .done ?_
    rcases result with failure | object?
    · simpa [Except.map] using hresult
    · simp [Except.map]

theorem stoppable_create (desired : Resource kind) :
    Stoppable (·.outcome = .failed .cancelled) desired.create := by
  rw [create]
  rcases desired.spec.problem? with _ | problem
  · refine .ask ⟨_, rfl, rfl⟩ fun result hresult => ?_
    rcases result with failure | object
    · exact .done fun h => hresult (congrArg _ (Outcome.failed.inj h))
    · exact .done (settled_outcome_ne_cancelled _)
  · exact .done (by simp)

theorem stoppable_applyAll (resource : Resource kind) (changes : List Mutation) :
    Stoppable (·.outcome = .failed .cancelled) (resource.applyAll changes) := by
  induction changes generalizing resource with
  | nil => exact .done (settled_outcome_ne_cancelled _)
  | cons mutation rest ih =>
    rw [applyAll]
    refine .ask ⟨_, rfl, rfl⟩ fun result hresult => ?_
    rcases result with failure | _ | object
    · exact .done fun h => hresult (congrArg _ (Outcome.failed.inj h))
    · exact ih resource
    · exact ih (resource.foldResponse object)

theorem stoppable_update (desired latest : Resource kind) :
    Stoppable (·.outcome = .failed .cancelled) (desired.update latest) := by
  rcases hdecided : desired.decideAtOnce latest with _ | decision
  · rcases hmutations : desired.mutations latest with failure | changes
    · obtain ⟨rfl, -⟩ := mutations_eq_error_iff.mp hmutations
      rw [update_of_unidentified hdecided hmutations]
      exact .done (by simp)
    · rw [update_of_open hdecided hmutations]
      exact stoppable_applyAll _ changes
  · rw [update_of_decided hdecided]
    exact .done (DecidesAtOnce.of_decideAtOnce hdecided).outcome_ne_cancelled

theorem stoppable_delete (now : String) (resource : Resource kind) :
    Stoppable (·.outcome = .failed .cancelled) (resource.delete now) := by
  rw [delete]
  rcases resource.key? with _ | key
  · exact .done (by simp)
  · apply (resource.stoppable_readLatest now).bind
    · rintro _ rfl
      exact ⟨_, rfl, rfl⟩
    · intro read hread
      rcases read with failure | _ | latest
      · exact .done fun h => hread (congrArg _ (Outcome.failed.inj h))
      · exact .done (by simp)
      · simp only
        split
        · refine .ask ⟨_, rfl, rfl⟩ fun result hresult => ?_
          rcases result with failure | _
          · exact .done fun h => hresult (congrArg _ (Outcome.failed.inj h))
          · exact .done (by simp)
        · exact .done (by simp)

/-- Summing up a decision says of being cancelled what the decision said. -/
theorem stoppable_conclude {pass : Pass (Decision kind)}
    (h : Stoppable (·.outcome = .failed .cancelled) pass) (settings : PassSettings) (now : String)
    (input : Resource kind) :
    Stoppable (·.outcome = .failed .cancelled)
      (pass.bind fun decision => .done (input.conclude settings now decision)) := by
  apply h.bind
  · intro decision hdecision
    exact ⟨_, by rwa [conclude_outcome], rfl⟩
  · intro decision hdecision
    exact .done (by rwa [conclude_outcome])

end Resource

/-- A cancellation stops every pass over a resource. -/
theorem Task.stoppable_pass (task : Task) (settings : PassSettings) (now : String)
    (resource : Resource kind) :
    Stoppable (·.outcome = .failed .cancelled) (task.pass settings now resource) := by
  cases task with
  | finalize => exact Resource.stoppable_conclude (resource.stoppable_delete now) _ _ _
  | sync =>
    apply (resource.stoppable_readLatest now).bind
    · rintro _ rfl
      exact ⟨_, by rw [Resource.conclude_outcome], rfl⟩
    · intro read hread
      rcases read with failure | latest?
      · refine .done fun h => hread ?_
        rw [Resource.conclude_outcome] at h
        exact congrArg _ (Outcome.failed.inj h)
      · apply Resource.stoppable_conclude
        cases latest? with
        | none => exact resource.stoppable_create
        | some latest => exact resource.stoppable_update latest

/-! ### Two runs of one pass -/

/-- What becomes of a run that is cancelled once `n` calls have begun: beside the calls that the
undisturbed run tried and the value that it reached stand the exchanges that are made and the value
that is reached instead. -/
inductive Cut (Cancelled : α → Prop) (kind : Kind) (limit : Duration) :
    Nat → List Attempt → α → List Exchange → α → Prop
  /-- Nothing more is asked, so nothing is lost. -/
  | ended {n : Nat} {value : α} (hvalue : ¬ Cancelled value) :
      Cut Cancelled kind limit n [] value [] value
  /-- The next call is not made. -/
  | refused {attempt : Attempt} {rest : List Attempt} {value stopped : α}
      (hstopped : Cancelled stopped) :
      Cut Cancelled kind limit 0 (attempt :: rest) value [] stopped
  /-- The call under way is given up. -/
  | interrupted {attempt : Attempt} {rest : List Attempt} {value stopped : α}
      (hstopped : Cancelled stopped) (hreply : attempt.answer.reply = none) :
      Cut Cancelled kind limit 1 (attempt :: rest) value [⟨attempt.call, .error .cancelled⟩] stopped
  | passed {n : Nat} {attempt : Attempt} {rest : List Attempt} {value reached : α}
      {made : List Exchange} (hreply : n = 0 → attempt.answer.reply ≠ none)
      (hrest : Cut Cancelled kind limit n rest value made reached) :
      Cut Cancelled kind limit (n + 1) (attempt :: rest) value
        (attempt.exchange kind limit :: made) reached

namespace Session

variable {call : Call} {next : call.Result → Pass α} {limit : Duration}

theorem run_ask_undisturbed (backend : Backend σ) (state : σ) (prior : List Exchange) :
    let result := backend.calmResult kind limit call state
    (Session.mk state false prior).run backend.undisturbed kind limit (.ask call next)
      = (Session.mk (backend.answer kind call state).2 false (prior ++ [⟨call, result⟩])).run
          backend.undisturbed kind limit (next result) := rfl

theorem run_ask_refused (backend : Backend σ) (state : σ) (prior : List Exchange) :
    (Session.mk (0, state) true prior).run backend.cancelling kind limit (.ask call next)
      = (Session.mk (0, state) true prior).run backend.cancelling kind limit
          (next (.error .cancelled)) := rfl

theorem run_ask_interrupted (backend : Backend σ) {state : σ} (prior : List Exchange)
    (hreply : (backend.answer kind call state).1.reply = none) :
    (Session.mk (1, state) false prior).run backend.cancelling kind limit (.ask call next)
      = (Session.mk (0, (backend.answer kind call state).2) true
          (prior ++ [⟨call, .error .cancelled⟩])).run backend.cancelling kind limit
            (next (.error .cancelled)) := by
  have hgiven : (resultOf (call.api kind) limit
      ⟨(backend.answer kind call state).1.reply, true⟩ : call.Result) = .error .cancelled := by
    rw [hreply]
    rfl
  rw [← hgiven]
  rfl

theorem run_ask_passed (backend : Backend σ) {n : Nat} {state : σ} (prior : List Exchange)
    (hreply : n = 0 → (backend.answer kind call state).1.reply ≠ none) :
    let result := backend.calmResult kind limit call state
    (Session.mk (n + 1, state) false prior).run backend.cancelling kind limit (.ask call next)
      = (Session.mk (n, (backend.answer kind call state).2) (n == 0)
          (prior ++ [⟨call, result⟩])).run backend.cancelling kind limit (next result) := by
  intro result
  have hsame : resultOf (call.api kind) limit
      ⟨(backend.answer kind call state).1.reply, n + 1 == 1⟩ = result := by
    by_cases hn : n = 0
    · exact resultOf_of_answered (hreply hn) _ _ _
    · rw [show (n + 1 == 1) = false by simpa using hn]
      rfl
  rw [show (n == 0) = (n + 1 == 1) by simp, ← hsame]
  rfl

end Session

/-- The two runs of a pass that a cancellation stops. -/
theorem Stoppable.run_cut {Cancelled : α → Prop} {pass : Pass α} (h : Stoppable Cancelled pass)
    (backend : Backend σ) (kind : Kind) (limit : Duration) (n : Nat) (state : σ)
    (prior : List Exchange) :
    let calm := (Session.mk state false prior).run backend.undisturbed kind limit pass
    let cut := (Session.mk (n, state) (n == 0) prior).run backend.cancelling kind limit pass
    ∃ tried made, backend.undisturbed.attempts kind (tried.map (·.call)) state = tried ∧
      calm.2.exchanges = prior ++ tried.map (·.exchange kind limit) ∧
      cut.2.exchanges = prior ++ made ∧ Cut Cancelled kind limit n tried calm.1 made cut.1 := by
  induction h generalizing n state prior with
  | done hvalue =>
    exact ⟨[], [], rfl, by simp [Session.run], by simp [Session.run], .ended hvalue⟩
  | @ask call next hstops _ ih =>
    intro calm cut
    obtain ⟨stopped, hstopped, hnext⟩ := hstops
    let attempt : Attempt := ⟨call, ⟨(backend.answer kind call state).1.reply, false⟩⟩
    have hcalm : calm = _ := Session.run_ask_undisturbed backend state prior
    -- how the undisturbed run goes on does not depend on when the other one is cancelled
    have hgoes := fun remaining => ih (backend.calmResult kind limit call state)
      (Session.resultOf_ne_cancelled _ _ _) remaining (backend.answer kind call state).2
      (prior ++ [⟨call, backend.calmResult kind limit call state⟩])
    rcases n with _ | n
    · obtain ⟨tried, _, htried, hexchanges, -, -⟩ := hgoes 0
      have hcut : cut = (stopped, ⟨(0, state), true, prior⟩) :=
        (Session.run_ask_refused backend state prior).trans (by rw [hnext, Session.run_done])
      refine ⟨attempt :: tried, [], congrArg (List.cons attempt) htried, ?_, ?_, ?_⟩
      · rw [hcalm, hexchanges, List.append_assoc]
        rfl
      · rw [hcut, List.append_nil]
      · rw [hcut]
        exact .refused hstopped
    · by_cases hlost : n = 0 ∧ (backend.answer kind call state).1.reply = none
      · obtain ⟨rfl, hreply⟩ := hlost
        obtain ⟨tried, _, htried, hexchanges, -, -⟩ := hgoes 0
        have hcut : cut = (stopped, ⟨(0, (backend.answer kind call state).2), true,
            prior ++ [⟨call, .error .cancelled⟩]⟩) :=
          (Session.run_ask_interrupted backend prior hreply).trans
            (by rw [hnext, Session.run_done])
        refine ⟨attempt :: tried, [⟨call, .error .cancelled⟩], congrArg (List.cons attempt) htried,
          ?_, ?_, ?_⟩
        · rw [hcalm, hexchanges, List.append_assoc]
          rfl
        · rw [hcut]
        · rw [hcut]
          exact .interrupted hstopped hreply
      · obtain ⟨tried, made, htried, hexchanges, hmade, hrest⟩ := hgoes n
        have hreply : n = 0 → (backend.answer kind call state).1.reply ≠ none :=
          fun hn hnone => hlost ⟨hn, hnone⟩
        have hcut : cut = _ := Session.run_ask_passed backend prior hreply
        refine ⟨attempt :: tried, attempt.exchange kind limit :: made,
          congrArg (List.cons attempt) htried, ?_, ?_, ?_⟩
        · rw [hcalm, hexchanges, List.append_assoc]
          rfl
        · rw [hcut, hmade, List.append_assoc]
          rfl
        · rw [hcalm, hcut]
          exact .passed hreply hrest

/-! ### What a cancellation leaves -/

namespace Cut

variable {Cancelled : α → Prop} {limit : Duration} {n : Nat} {tried : List Attempt}
  {value reached : α} {made : List Exchange}

/-- The calls that begin are the first `n`. -/
theorem calls_eq (h : Cut Cancelled kind limit n tried value made reached) :
    made.map (·.call) = (tried.map (·.call)).take n := by
  induction h with
  | ended => simp
  | refused => simp
  | interrupted => simp
  | passed _ _ ih => simp [ih, Attempt.exchange]

/-- The cancellation is noticed at the next call, or by the one under way if that is never
answered. -/
theorem cancelled_iff (h : Cut Cancelled kind limit n tried value made reached) :
    Cancelled reached ↔
      n < tried.length ∨ 0 < n ∧ ∃ attempt ∈ tried[n - 1]?, attempt.answer.reply = none := by
  induction h with
  | ended hvalue => simp [hvalue]
  | refused hstopped => simp [hstopped]
  | interrupted hstopped hreply => simp [hstopped, hreply]
  | @passed n attempt rest _ _ _ hreply _ ih =>
    rw [ih, List.length_cons, Nat.add_lt_add_iff_right]
    apply or_congr_right
    rcases n with _ | n
    · simp [hreply rfl]
    · simp

/-- A cancellation that is not noticed changes nothing. -/
theorem eq_of_not_cancelled (h : Cut Cancelled kind limit n tried value made reached)
    (hreached : ¬ Cancelled reached) :
    made = tried.map (·.exchange kind limit) ∧ reached = value := by
  induction h with
  | ended => exact ⟨rfl, rfl⟩
  | refused hstopped => exact absurd hstopped hreached
  | interrupted hstopped => exact absurd hstopped hreached
  | passed _ _ ih =>
    obtain ⟨hmade, hvalue⟩ := ih hreached
    exact ⟨by rw [hmade, List.map_cons], hvalue⟩

end Cut

/-- A call of a pass that is not cancelled is counted, however it ends. -/
theorem Attempt.event?_exchange {attempt : Attempt} (h : attempt.answer.cancels = false)
    (kind : Kind) (limit : Duration) : ((attempt.exchange kind limit).event? kind).isSome := by
  obtain ⟨call, reply, cancels⟩ := attempt
  obtain rfl : cancels = false := h
  rcases reply with _ | _ | value <;> rfl

/-- What is counted are the first `n` calls, less the one under way if that is given up. -/
theorem Cut.events_eq {Cancelled : α → Prop} {limit : Duration} {n : Nat} {tried : List Attempt}
    {value reached : α} {made : List Exchange}
    (h : Cut Cancelled kind limit n tried value made reached)
    (htried : ∀ attempt ∈ tried, attempt.answer.cancels = false) :
    let lost := 0 < n ∧ ∃ attempt ∈ tried[n - 1]?, attempt.answer.reply = none
    let events := (tried.map (·.exchange kind limit)).filterMap (·.event? kind)
    (lost → made.filterMap (·.event? kind) = events.take (n - 1)) ∧
      (¬ lost → made.filterMap (·.event? kind) = events.take n) := by
  induction h with
  | ended => simp
  | refused => simp
  | interrupted _ hreply => simp [hreply, Exchange.event?]
  | @passed n attempt rest _ _ _ hreply _ ih =>
    intro lost events
    obtain ⟨hattempt, hrest⟩ := List.forall_mem_cons.mp htried
    obtain ⟨hgiven, hkept⟩ := ih hrest
    obtain ⟨event, hevent⟩ := Option.isSome_iff_exists.mp
      (attempt.event?_exchange hattempt kind limit)
    rcases n with _ | n
    · have hlost : ¬ lost := by simp [lost, hreply rfl]
      refine ⟨fun h => absurd h hlost, fun _ => ?_⟩
      simp [events, hevent, hkept (by simp)]
    · refine ⟨fun h => ?_, fun h => ?_⟩
      · simp [events, hevent, hgiven (by simpa [lost] using h)]
      · simp [events, hevent, hkept (by simpa [lost] using h)]

/-! ### Cancelled passes -/

/-- What is counted of the calls of a pass. -/
def PassRecord.events (record : PassRecord kind) : List Event :=
  record.exchanges.filterMap (·.event? kind)

/-- What cancelling a pass once `n` calls have begun makes of it; it may be that the last of them
is never answered. -/
structure PassRecord.CutAfter (settings : PassSettings) (n : Nat) (unanswered : Prop)
    (calm cut : PassRecord kind) : Prop where
  calls : cut.calls = calm.calls.take n
  noticed : cut.result.outcome = .failed .cancelled ↔ n < calm.calls.length ∨ unanswered
  untouched : cut.result.outcome = .failed .cancelled →
    cut.result.resource = cut.input ∧
      cut.result.requeue = .retryAfter settings.requeue.default
  counted : ¬ unanswered → cut.events = calm.events.take n
  /-- The call that is given up is not counted. -/
  uncounted : unanswered → cut.events = calm.events.take (n - 1)
  unnoticed : cut.result.outcome ≠ .failed .cancelled → cut = calm

/-- **Cancellation is atomic.** Cancel a pass once `n` calls have begun, against a backend that
answers alike, and compare it with the pass that is not cancelled. No call begins after the
cancellation. The pass is cancelled exactly if it asks for another call or the one under way is
never answered; then it hands back the resource that it was given, whatever changes were made
before, asks to be made again after the default delay, and does not count the call that was given
up. Otherwise the two passes are the same in every respect. -/
theorem cancellation_atomic (backend : Backend σ) (settings : PassSettings) (task : Task)
    (now : String) (input : Resource kind) (state : σ) (n : Nat) :
    let calm := (Round.run backend.undisturbed settings ⟨id, task, now, false⟩ input state).1
    let cut := (Round.run backend.cancelling settings ⟨id, task, now, n == 0⟩ input (n, state)).1
    PassRecord.CutAfter settings n (backend.undisturbed.LeavesUnanswered kind calm.calls state n)
      calm cut := by
  intro calm cut
  obtain ⟨tried, made, htried, hcalm, hmade, hcut⟩ :=
    (task.stoppable_pass settings now input).run_cut backend kind settings.callTimeout n state []
  replace hcalm : calm.exchanges = tried.map (·.exchange kind settings.callTimeout) := hcalm
  replace hmade : cut.exchanges = made := hmade
  have hcalls : calm.calls = tried.map (·.call) := by
    simp [PassRecord.calls, hcalm, Attempt.exchange]
  have hunanswered : backend.undisturbed.LeavesUnanswered kind calm.calls state n ↔
      0 < n ∧ ∃ attempt ∈ tried[n - 1]?, attempt.answer.reply = none := by
    rw [Backend.LeavesUnanswered, hcalls, htried]
  have hlawful : cut.Lawful settings := Round.run_lawful _ _ _ _ _
  obtain ⟨huncounted, hcounted⟩ := hcut.events_eq fun attempt hmem =>
    backend.cancels_of_mem_attempts_undisturbed (htried ▸ hmem)
  constructor
  case calls => rw [PassRecord.calls, hmade, hcut.calls_eq, hcalls]
  case noticed =>
    rw [hunanswered, hcalls, List.length_map]
    exact hcut.cancelled_iff
  case untouched => exact (hlawful.coherent .zero).cancelled
  case counted =>
    intro h
    rw [PassRecord.events, PassRecord.events, hmade, hcalm]
    exact hcounted (mt hunanswered.mpr h)
  case uncounted =>
    intro h
    rw [PassRecord.events, PassRecord.events, hmade, hcalm]
    exact huncounted (hunanswered.mp h)
  case unnoticed =>
    intro h
    obtain ⟨hexchanges, hresult⟩ := hcut.eq_of_not_cancelled h
    have hsame : cut.exchanges = calm.exchanges := by rw [hmade, hcalm, hexchanges]
    calc cut = ⟨task, now, input, cut.exchanges, cut.result⟩ := rfl
      _ = ⟨task, now, input, calm.exchanges, calm.result⟩ := by
        rw [hsame]
        exact congrArg _ hresult
      _ = calm := rfl

/-- The tags have been changed when the pass is cancelled, yet the resource is handed back as it
was. -/
example :
    let rules : Resource .ruleGroupsNamespace :=
      ⟨.empty, ⟨"rules", "ws-1", some "groups: []", .ofList [("team", "infra")]⟩, none⟩
    let found : WireObject :=
      { WireObject.empty with arn := some "arn", status := some ⟨"ACTIVE", none⟩ }
    let script : Script := { Script.empty with describes := [.ok found] }
    let cut := (Round.run scripted.cancelling (Settings.default.passSettings ⟨none, none⟩)
      ⟨id, .sync, "T", false⟩ rules (2, script)).1
    cut.calls = [.describe ⟨"ws-1", some "rules"⟩,
        .update (.tag "arn" (.ofList [("team", "infra")]))] ∧
      cut.events = [.called .readOne "DescribeRuleGroupsNamespace" true,
        .called .update "TagResource" true] ∧
      cut.result.outcome = .failed .cancelled ∧ cut.result.resource = rules := by
  decide

end ManagedPrometheus
