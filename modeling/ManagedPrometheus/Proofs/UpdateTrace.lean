import ManagedPrometheus.Proofs.Decisions

/-!
# The calls of an update

Which changes an update asks for, to the last one, against any backend. The two specs alone say
what has to be asked for: keys to remove, tags to set, and a put if the kind's attribute differs.
What the backend answers says how far the pass gets: every call is made, in that order, up to the
first that does not go through, and a cancelled pass makes none (`CarriedOut`). The main statement,
`reconcile_calls`, puts both together; it holds from every state of a backend and in every session.
-/

namespace ManagedPrometheus

variable {σ : Type} {kind : Kind}

/-! ### Answers to a series of calls -/

/-- A call and how it ends. -/
structure Attempt where
  call : Call
  answer : Answer call.Reply

namespace Attempt

/-- What a pass makes of an attempt. -/
def exchange (kind : Kind) (limit : Duration) (attempt : Attempt) : Exchange :=
  ⟨attempt.call, Session.resultOf (attempt.call.api kind) limit attempt.answer⟩

/-- The call is answered with success, and the pass is not cancelled while it is under way. -/
def Proceeds (attempt : Attempt) : Prop :=
  (∃ value, attempt.answer.reply = some (.ok value)) ∧ attempt.answer.cancels = false

end Attempt

namespace Session

/-- A pass makes a success of nothing but an answer that is one. -/
theorem resultOf_eq_ok_iff {α : Type} {api : String} {limit : Duration} {answer : Answer α}
    {value : α} : resultOf api limit answer = .ok value ↔ answer.reply = some (.ok value) := by
  obtain ⟨_ | cause | reply, cancels⟩ := answer
  · simp [resultOf]
  · simp [resultOf]
  · simp [resultOf]

end Session

/-- How a series of calls ends, each of them made whatever came of those before it. -/
def Backend.attempts (backend : Backend σ) (kind : Kind) : List Call → σ → List Attempt
  | [], _ => []
  | call :: rest, state =>
    let answered := backend.answer kind call state
    ⟨call, answered.1⟩ :: backend.attempts kind rest answered.2

/-- How much of a series of calls is made. -/
structure CarriedOut (cancelled : Bool) (planned made : List Attempt) : Prop where
  isPrefix : made <+: planned
  /-- Once the pass is cancelled nothing more is asked. -/
  refused : cancelled = true → made = []
  /-- Whatever does not go through is the last that is made. -/
  proceeds : ∀ attempt ∈ made.dropLast, attempt.Proceeds
  complete : cancelled = false → (∀ attempt ∈ made, attempt.Proceeds) → made = planned

namespace CarriedOut

theorem nil (cancelled : Bool) : CarriedOut cancelled [] [] :=
  ⟨List.prefix_refl _, fun _ => rfl, by simp, fun _ _ => rfl⟩

theorem refuse (planned : List Attempt) : CarriedOut true planned [] :=
  ⟨List.nil_prefix, fun _ => rfl, by simp, fun h => absurd h (by decide)⟩

/-- A call that fails ends the series. -/
theorem stop {attempt : Attempt} (h : ¬ attempt.Proceeds) (rest : List Attempt) :
    CarriedOut false (attempt :: rest) [attempt] where
  isPrefix := by simp
  refused hcancelled := absurd hcancelled (by decide)
  proceeds := by simp
  complete _ hall := absurd (hall attempt List.mem_cons_self) h

/-- After a call that succeeds the series goes on as if it began there. -/
theorem cons {attempt : Attempt} {rest made : List Attempt}
    (hreply : ∃ value, attempt.answer.reply = some (.ok value))
    (h : CarriedOut attempt.answer.cancels rest made) :
    CarriedOut false (attempt :: rest) (attempt :: made) where
  isPrefix := List.cons_prefix_cons.mpr ⟨rfl, h.isPrefix⟩
  refused hcancelled := absurd hcancelled (by decide)
  proceeds := by
    rcases hmade : made with _ | ⟨next, others⟩
    · simp
    · have hcancels : attempt.answer.cancels = false := by
        by_contra hcancels
        rw [h.refused (Bool.of_not_eq_false hcancels)] at hmade
        cases hmade
      intro other hmem
      rw [List.dropLast_cons_of_ne_nil (List.cons_ne_nil _ _), ← hmade] at hmem
      rcases List.mem_cons.mp hmem with rfl | hmem
      · exact ⟨hreply, hcancels⟩
      · exact h.proceeds other hmem
  complete _ hall := by
    have hcancels := (hall attempt List.mem_cons_self).2
    rw [h.complete hcancels fun other hmem => hall other (List.mem_cons_of_mem _ hmem)]

end CarriedOut

/-- A series of changes is carried out as far as the backend lets it. -/
theorem run_applyAll (backend : Backend σ) (limit : Duration) (resource : Resource kind)
    (changes : List Mutation) (session : Session σ) :
    ∃ made, CarriedOut session.cancelled
        (backend.attempts kind (changes.map Call.update) session.backend) made ∧
      (session.run backend kind limit (resource.applyAll changes)).2.exchanges
        = session.exchanges ++ made.map (·.exchange kind limit) := by
  induction changes generalizing resource session with
  | nil => exact ⟨[], .nil _, (List.append_nil _).symm⟩
  | cons mutation rest ih =>
    obtain ⟨state, _ | _, exchanges⟩ := session
    · let answered := backend.answer kind (.update mutation) state
      let attempt : Attempt := ⟨.update mutation, answered.1⟩
      -- after a success the series goes on with whatever the resource has become
      have hnext : ∀ (next : Resource kind) (value : Option WireObject),
          Session.resultOf ((Call.update mutation).api kind) limit answered.1 = .ok value →
          ∃ made, CarriedOut false
              (attempt :: backend.attempts kind (rest.map Call.update) answered.2) made ∧
            (Session.run backend kind limit (next.applyAll rest)
                ⟨answered.2, answered.1.cancels, exchanges ++ [⟨.update mutation, .ok value⟩]⟩
              ).2.exchanges = exchanges ++ made.map (·.exchange kind limit) := by
        intro next value hresult
        obtain ⟨made, hcarried, hexchanges⟩ := ih next
          ⟨answered.2, answered.1.cancels, exchanges ++ [⟨.update mutation, .ok value⟩]⟩
        have hexchange : attempt.exchange kind limit = ⟨.update mutation, .ok value⟩ :=
          congrArg (Exchange.mk _) hresult
        refine ⟨attempt :: made, .cons ⟨value, Session.resultOf_eq_ok_iff.mp hresult⟩ hcarried, ?_⟩
        simp [hexchanges, hexchange]
      rw [Resource.applyAll, Session.run_ask]
      rcases hresult : Session.resultOf ((Call.update mutation).api kind) limit answered.1
        with failure | _ | object
      · have hexchange : attempt.exchange kind limit = ⟨.update mutation, .error failure⟩ :=
          congrArg (Exchange.mk _) hresult
        have hfails : ¬ attempt.Proceeds := by
          rintro ⟨⟨value, hvalue⟩, _⟩
          cases hresult.symm.trans (Session.resultOf_eq_ok_iff.mpr hvalue)
        exact ⟨[attempt], .stop hfails _, by simp [Session.run, hexchange]⟩
      · exact hnext resource none hresult
      · exact hnext (resource.foldResponse object) (some object) hresult
    · exact ⟨[], .refuse _, by simp [Session.run, Resource.applyAll, Session.perform]⟩

/-! ### The calls of an update -/

/-- Summing up a decision asks nothing of the backend. -/
theorem run_reconcile (backend : Backend σ) (limit : Duration) (settings : PassSettings)
    (now : String) (desired latest : Resource kind) (session : Session σ) :
    session.run backend kind limit (desired.reconcile settings now (some latest))
      = (desired.conclude settings now
          (session.run backend kind limit (desired.update latest)).1,
        (session.run backend kind limit (desired.update latest)).2) :=
  Plan.run_bind _ _ session

/-- **The calls of an update.** Take a latest state in a phase that admits changes. If an immutable
field differs, or nothing does, the backend is asked for nothing. Otherwise it is asked to turn the
latest tags into the desired ones, keys first, and to put the desired request if the attribute
differs; these calls are made in order up to the first that does not go through. If the tags differ
and the latest status has no identifier, none of them is made and the pass fails for that reason. -/
theorem reconcile_calls (backend : Backend σ) (settings : PassSettings) (now : String)
    (desired latest : Resource kind) (hphase : MayChange kind latest.phase)
    (session : Session σ) :
    let ended := session.run backend kind settings.callTimeout
      (desired.reconcile settings now (some latest))
    (¬ desired.spec.FixedAlike latest.spec ∨ desired.spec = latest.spec →
      ended.2.exchanges = session.exchanges) ∧
    (desired.spec.FixedAlike latest.spec → desired.spec ≠ latest.spec →
      (latest.spec.tagsOrEmpty ≠ desired.spec.tagsOrEmpty → latest.statusOrEmpty.arn? = none →
        ended.2.exchanges = session.exchanges ∧ ended.1.outcome = .failed .missingArn) ∧
      ∀ arn, (latest.spec.tagsOrEmpty ≠ desired.spec.tagsOrEmpty →
          latest.statusOrEmpty.arn? = some arn) →
        ∃ (change : TagChange) (made : List Attempt),
          change.Turns latest.spec.tagsOrEmpty desired.spec.tagsOrEmpty ∧
          CarriedOut session.cancelled
            (backend.attempts kind
              ((change.calls arn ++ if desired.spec.attribute = latest.spec.attribute then []
                else [Mutation.put desired.request]).map Call.update) session.backend) made ∧
          ended.2.exchanges
            = session.exchanges ++ made.map (·.exchange kind settings.callTimeout)) := by
  intro ended
  have hended : ended = _ := run_reconcile backend settings.callTimeout settings now desired latest
    session
  constructor
  · intro hsettled
    have hdecided : desired.decideAtOnce latest ≠ none := by
      rw [Ne, decideAtOnce_eq_none_iff]
      rintro ⟨-, hfixed, hdiffer⟩
      exact hsettled.elim (fun h => h hfixed) hdiffer
    obtain ⟨decision, hdecision⟩ := Option.ne_none_iff_exists'.mp hdecided
    rw [hended, update_of_decided hdecision, Session.run_done]
  · intro hfixed hdiffer
    have hopen := decideAtOnce_eq_none_iff.mpr ⟨hphase, hfixed, hdiffer⟩
    constructor
    · intro htags harn
      rw [hended, update_of_unidentified hopen (mutations_of_no_arn htags harn),
        Session.run_done]
      exact ⟨rfl, rfl⟩
    · intro arn harn
      have hmutations : desired.mutations latest = .ok (desired.changes latest.spec arn) :=
        mutations_eq fun hpath => harn (differentAt_tags_iff.mp hpath)
      obtain ⟨made, hcarried, hexchanges⟩ := run_applyAll backend settings.callTimeout
        (desired.withStatusOf latest) (desired.changes latest.spec arn) session
      rw [changes_eq] at hcarried
      refine ⟨_, made, TagChange.between_turns _ _, hcarried, ?_⟩
      rw [hended, update_of_open hopen hmutations, hexchanges]

/-- Of three calls the second is refused, so the third is not made. -/
theorem reconcile_calls_refused_tag :
    let desired : Resource .ruleGroupsNamespace :=
      ⟨.empty, ⟨"rules", "ws-1", some "groups: []", .ofList [("team", "infra")]⟩, none⟩
    let latest : Resource .ruleGroupsNamespace :=
      ⟨.empty, ⟨"rules", "ws-1", none, .ofList [("owner", "ops")]⟩,
        some { Status.empty with
          statusCode := some .active
          resourceMetadata := some ⟨some "arn", none, none⟩ }⟩
    let script : Script :=
      { Script.empty with updates := [.ok none, .error (.api "ThrottlingException" "slow")] }
    let settings := Settings.default.passSettings ⟨none, none⟩
    let ended := (Session.start script false).run scripted .ruleGroupsNamespace
      settings.callTimeout (desired.reconcile settings "T" (some latest))
    MayChange .ruleGroupsNamespace latest.phase ∧
      ended.2.calls = [.update (.untag "arn" ["owner"]),
        .update (.tag "arn" (.ofList [("team", "infra")]))] ∧
      ∃ (change : TagChange) (made : List Attempt),
        change.Turns latest.spec.tagsOrEmpty desired.spec.tagsOrEmpty ∧
          CarriedOut false
            (scripted.attempts .ruleGroupsNamespace
              ((change.calls "arn" ++ [Mutation.put desired.request]).map Call.update) script)
            made ∧
          ended.2.exchanges
            = made.map (·.exchange .ruleGroupsNamespace settings.callTimeout) := by
  intro desired latest script settings ended
  have hphase : MayChange .ruleGroupsNamespace latest.phase :=
    ⟨by decide, by decide, by decide⟩
  have hfixed : desired.spec.FixedAlike latest.spec := immutablePaths_eq_nil_iff.mp (by decide)
  exact ⟨hphase, by decide, ((reconcile_calls scripted settings "T" desired latest hphase
    (Session.start script false)).2 hfixed (by decide)).2 "arn" fun _ => rfl⟩

end ManagedPrometheus
