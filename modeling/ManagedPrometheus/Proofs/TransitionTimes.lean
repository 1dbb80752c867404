import ManagedPrometheus.Proofs.ConditionSteps
import ManagedPrometheus.Proofs.Signals
import ManagedPrometheus.Proofs.SnapshotContents
import ManagedPrometheus.Script

/-!
# Transition times along a pass

A pass touches the conditions in up to three places: where it reads, as a failed validation raises
`Terminal`, where its verdict is entered, and where `Synced` is set. Each stamps the time of the
pass on what it changes. Taken together they stamp what is changed by the pass, unless one takes
back what another has done before (`Condition.Stamped.trans`). Only `Terminal` is touched twice, and
only a deletion that fails can take it back (`PassRecord.RaisesAndClears`): what a pass reads as a
failed validation otherwise ends it, as a terminal failure.
-/

namespace ManagedPrometheus

variable {σ : Type} {kind : Kind} {now : String} {settings : PassSettings}

/-! ### Validations that failed since the last pass -/

theorem Resource.validationFailure?_ne_none_iff (wasFailed : Bool) (status : Status) :
    Resource.validationFailure? kind wasFailed status ≠ none ↔
      kind = .alertManagerDefinition ∧ wasFailed = false ∧ status.FailedToValidate := by
  cases kind with
  | workspace => simp [validationFailure?, Kind.policy]
  | ruleGroupsNamespace => simp [validationFailure?, Kind.policy]
  | loggingConfiguration => simp [validationFailure?, Kind.policy]
  | alertManagerDefinition =>
    cases wasFailed with
    | true => simp [validationFailure?]
    | false => simp [validationFailure?_eq_none_iff]

/-- A description shows a failed validation that the last pass did not know of. -/
def Resource.LearnsFailedValidation (desired : Resource kind) (object : WireObject) : Prop :=
  kind = .alertManagerDefinition ∧ desired.phase.isFailed = false ∧
    (desired.statusOrEmpty.observe object).FailedToValidate

namespace Resource

variable {desired : Resource kind} {key : ResourceKey} {object : WireObject}

theorem condition?_snapshot_of_unlearned (h : ¬ desired.LearnsFailedValidation object)
    (type : ConditionType) :
    (desired.snapshot now key object).condition? type = desired.condition? type := by
  apply condition?_snapshot_of_none
  by_contra hfailure
  exact h ((validationFailure?_ne_none_iff _ _).mp hfailure)

theorem condition?_snapshot_of_learned (h : desired.LearnsFailedValidation object) :
    ∃ reason, ∀ type, (desired.snapshot now key object).condition? type
      = (((desired.statusOrEmpty.observe object).bind key).enter now
          (.terminal reason)).conditions.get? type := by
  have hfailure : validationFailure? kind desired.phase.isFailed
      ((desired.statusOrEmpty.observe object).bind key) ≠ none :=
    (validationFailure?_ne_none_iff _ _).mpr h
  obtain ⟨reason, hreason⟩ := Option.ne_none_iff_exists'.mp hfailure
  refine ⟨reason, fun type => ?_⟩
  simp only [snapshot, hreason]
  rfl

theorem terminal_snapshot_of_learned (h : desired.LearnsFailedValidation object) (now : String)
    (key : ResourceKey) :
    ∃ condition, (desired.snapshot now key object).condition? .terminal = some condition ∧
      condition.value = .yes := by
  obtain ⟨reason, hentered⟩ := @condition?_snapshot_of_learned _ now _ key _ h
  obtain ⟨condition, hshown, hvalue, -⟩ := Status.enter_shows
    ((desired.statusOrEmpty.observe object).bind key) now (.terminal reason)
  exact ⟨condition, (hentered .terminal).trans hshown, hvalue⟩

theorem stamped_snapshot (desired : Resource kind) (now : String) (key : ResourceKey)
    (object : WireObject) (type : ConditionType) :
    Condition.Stamped now (desired.condition? type)
      ((desired.snapshot now key object).condition? type) := by
  by_cases hlearned : desired.LearnsFailedValidation object
  · obtain ⟨reason, hentered⟩ := @condition?_snapshot_of_learned _ now _ key _ hlearned
    rw [hentered]
    exact Status.stamped_enter _ now _ type
  · rw [condition?_snapshot_of_unlearned hlearned]
    exact .refl now _

end Resource

/-! ### Conditions at the exits -/

theorem Decision.TakesConditions.stamped {before : Resource kind} {made : List Exchange}
    {decision : Decision kind} (h : decision.TakesConditions now before made)
    (type : ConditionType) :
    Condition.Stamped now (before.condition? type) (decision.resource.condition? type) := by
  rcases h with hsame | ⟨key, object, -, hsnapshot⟩
  · rw [hsame]
    exact .refl now _
  · rw [hsnapshot]
    exact before.stamped_snapshot now key object type

theorem not_inProgress_of_failed {phase : Phase} (h : phase.isFailed = true) :
    ¬ (phase.isTransient = true ∨ phase = .unrecognized) := by
  cases phase <;> revert h <;> decide

/-- An update that reads a failed validation ends there. -/
theorem DecidesAtOnce.terminal_of_learned {desired : Resource kind} {key : ResourceKey}
    {object : WireObject} {decision : Decision kind}
    (h : DecidesAtOnce desired (desired.snapshot now key object) decision)
    (hlearned : desired.LearnsFailedValidation object) :
    ∃ failure, decision.outcome = .failed failure ∧
      failure.severity kind.policy.terminalCodes ≠ .recoverable := by
  obtain ⟨rfl, -, hfailed, -⟩ := hlearned
  cases h with
  | inProgress hphase =>
    rw [Resource.snapshot_phase] at hphase
    exact absurd hphase (not_inProgress_of_failed hfailed)
  | notActive hpolicy => cases hpolicy
  | latched hpolicy => cases hpolicy
  | fixedChanged => exact ⟨_, rfl, by simp [Failure.severity]⟩
  | failedUnchanged => exact ⟨_, rfl, by simp [Failure.severity]⟩
  | agreed _ _ hsound =>
    rw [Resource.snapshot_phase] at hsound
    cases hfailed.symm.trans hsound

theorem Syncs.terminal_of_learned {desired : Resource kind} {made : List Exchange}
    {decision : Decision kind} (h : Syncs now desired made decision) {key : ResourceKey}
    {object : WireObject} (hmem : ⟨.describe key, .ok (some object)⟩ ∈ made)
    (hlearned : desired.LearnsFailedValidation object) :
    ∃ failure, decision.outcome = .failed failure ∧
      failure.severity kind.policy.terminalCodes ≠ .recoverable := by
  obtain ⟨-, rest, -, hupdates⟩ := h.updates_of_described hmem
  have hclosed : desired.decideAtOnce (desired.snapshot now key object) ≠ none := by
    intro hopen
    exact (Resource.validationFailure?_ne_none_iff _ _).mpr hlearned
      (validationFailure?_of_open hopen)
  cases hupdates with
  | decided hdecided => exact (DecidesAtOnce.of_decideAtOnce hdecided).terminal_of_learned hlearned
  | unidentified hopen => exact absurd hopen hclosed
  | changing hopen => exact absurd hopen hclosed

theorem Deletes.outcome_ne_synced {resource : Resource kind} {made : List Exchange}
    {decision : Decision kind} (h : Deletes now resource made decision) :
    decision.outcome ≠ .synced := by
  cases h <;> simp

theorem Deletes.resource_of_failed {resource : Resource kind} {made : List Exchange}
    {decision : Decision kind} (h : Deletes now resource made decision) {key : ResourceKey}
    {object : WireObject} (hmem : ⟨.describe key, .ok (some object)⟩ ∈ made) {failure : Failure}
    (hfailed : decision.outcome = .failed failure) :
    decision.resource = resource.snapshot now key object := by
  cases h with
  | unaddressed | absent | blocked | accepted => cases hfailed
  | unread hreads =>
    cases hreads with
    | refused => cases hmem
    | failed => cases List.mem_singleton.mp hmem
  | refused =>
    cases List.mem_singleton.mp hmem
    rfl
  | failed =>
    rcases List.mem_cons.mp hmem with hsame | hmem
    · cases hsame
      rfl
    · cases List.mem_singleton.mp hmem

/-! ### Conditions when a pass is summed up -/

namespace Status

theorem get?_enter_synced (status : Status) (now : String) (verdict : Verdict) :
    (status.enter now verdict).conditions.get? .synced = status.conditions.get? .synced := by
  cases verdict with
  | success =>
    rw [enter, Conditions.get?_clear_of_ne _ now (by decide),
      Conditions.get?_clear_of_ne _ now (by decide)]
  | recoverable message =>
    rw [enter, Conditions.get?_clear_of_ne _ now (by decide), Conditions.get?_set,
      if_neg (by decide)]
  | terminal message => exact status.get?_enter_terminal now message (by decide)

/-- A recoverable failure takes back a terminal one. -/
theorem get?_enter_recoverable_of_terminal {status : Status} {raised : Condition}
    (h : status.conditions.get? .terminal = some raised) (hvalue : raised.value = .yes)
    (now message : String) :
    (status.enter now (.recoverable message)).conditions.get? .terminal
      = some ⟨raised.type, .no, some now, none⟩ := by
  have hset : (status.conditions.set now .recoverable .yes (some message)).get? .terminal
      = some raised := by
    rw [Conditions.get?_set, if_neg (by decide), h]
  simp [enter, Conditions.clear, Conditions.entry, hset, hvalue]

end Status

namespace Resource

theorem stamped_concludeStatus (settings : PassSettings) (now : String) (outcome : Outcome)
    (requeue : Requeue) (status : Status) (type : ConditionType) :
    Condition.Stamped now (status.conditions.get? type)
      ((concludeStatus kind settings now outcome requeue status).conditions.get? type) := by
  by_cases htype : type = .synced
  · rw [htype]
    -- the verdict leaves `Synced` to be set
    rcases hverdict : verdict? kind outcome with _ | verdict
    · simp only [concludeStatus, hverdict]
      exact status.conditions.stamped_set now .synced .synced _ _
    · rw [← status.get?_enter_synced now verdict]
      simp only [concludeStatus, hverdict]
      exact (status.enter now verdict).conditions.stamped_set now .synced .synced _ _
  · rcases hverdict : verdict? kind outcome with _ | verdict
    · rw [get?_concludeStatus_of_none hverdict settings now requeue status htype]
      exact .refl now _
    · rw [get?_concludeStatus hverdict settings now requeue status htype]
      exact status.stamped_enter now verdict type

/-- Where the outcome is neither a success nor to be retried, `Terminal` stays true. -/
theorem terminal_concludeStatus {outcome : Outcome}
    (hverdict : ∀ verdict, verdict? kind outcome = some verdict → ∃ message,
      verdict = .terminal message) (settings : PassSettings) (now : String) (requeue : Requeue)
    {status : Status} {raised : Condition}
    (h : status.conditions.get? .terminal = some raised) (hvalue : raised.value = .yes) :
    ((concludeStatus kind settings now outcome requeue status).conditions.get? .terminal).map
      (·.value) = some .yes := by
  rcases hentered : verdict? kind outcome with _ | verdict
  · rw [get?_concludeStatus_of_none hentered settings now requeue status (by decide), h,
      Option.map_some, hvalue]
  · obtain ⟨message, rfl⟩ := hverdict verdict hentered
    obtain ⟨shown, hshown, hyes, -⟩ := status.enter_shows now (.terminal message)
    rw [get?_concludeStatus hentered settings now requeue status (by decide), hshown,
      Option.map_some, hyes]

theorem stamped_conclude (input : Resource kind) {decision : Decision kind}
    (hcancelled : decision.outcome ≠ .failed .cancelled) (type : ConditionType) :
    Condition.Stamped now (decision.resource.condition? type)
      ((input.conclude settings now decision).resource.condition? type) := by
  by_cases hdeleted : decision.outcome = .deleted
  · rw [conclude_of_deleted input hdeleted]
    exact .refl now _
  · rw [condition?, condition?, conclude_statusOrEmpty input hdeleted hcancelled]
    exact stamped_concludeStatus settings now _ _ _ type

theorem terminal_conclude (input : Resource kind) {decision : Decision kind}
    (hcancelled : decision.outcome ≠ .failed .cancelled)
    (hverdict : ∀ verdict, verdict? kind decision.outcome = some verdict → ∃ message,
      verdict = .terminal message) {raised : Condition}
    (h : decision.resource.condition? .terminal = some raised) (hvalue : raised.value = .yes) :
    ((input.conclude settings now decision).resource.condition? .terminal).map (·.value)
      = some .yes := by
  by_cases hdeleted : decision.outcome = .deleted
  · rw [conclude_of_deleted input hdeleted, h, Option.map_some, hvalue]
  · rw [condition?, conclude_statusOrEmpty input hdeleted hcancelled]
    exact terminal_concludeStatus hverdict settings now _ h hvalue

end Resource

/-! ### Transition times of a pass -/

/-- A pass that raises `Terminal` and clears it again: it is to delete, learns that what was
submitted could not be validated, and its deletion fails in a way that is retried. -/
structure PassRecord.RaisesAndClears (record : PassRecord kind) : Prop where
  task : record.task = .finalize
  learns : ∃ key object, ⟨.describe key, .ok (some object)⟩ ∈ record.exchanges ∧
    record.input.LearnsFailedValidation object
  retried : ∃ failure, record.result.outcome = .failed failure ∧ failure ≠ .cancelled ∧
    failure.severity kind.policy.terminalCodes = .recoverable

namespace PassRecord

variable {record : PassRecord kind}

/-- Where a failed validation was read, nothing but a deletion that is retried takes `Terminal`
back. -/
theorem Exits.verdict_of_learned {decision : Decision kind} (h : record.Exits decision)
    (houtcome : record.result.outcome = decision.outcome)
    (hcancelled : decision.outcome ≠ .failed .cancelled) {key : ResourceKey} {object : WireObject}
    (hmem : ⟨.describe key, .ok (some object)⟩ ∈ record.exchanges)
    (hlearned : record.input.LearnsFailedValidation object) (hplain : ¬ record.RaisesAndClears)
    (verdict : Verdict) (hverdict : Resource.verdict? kind decision.outcome = some verdict) :
    ∃ message, verdict = .terminal message := by
  rcases h with ⟨-, hsyncs⟩ | ⟨htask, hdeletes⟩
  · obtain ⟨failure, hfailed, hseverity⟩ := hsyncs.terminal_of_learned hmem hlearned
    rw [hfailed, verdict?_of_not_recoverable hseverity] at hverdict
    exact ⟨_, (Option.some.inj hverdict).symm⟩
  · rcases hdecided : decision.outcome with _ | _ | _ | failure
    · exact absurd hdecided hdeletes.outcome_ne_synced
    · rw [hdecided] at hverdict
      cases hverdict
    · rw [hdecided] at hverdict
      cases hverdict
    · have hseverity : failure.severity kind.policy.terminalCodes ≠ .recoverable := by
        intro hrecoverable
        refine hplain ⟨htask, ⟨key, object, hmem, hlearned⟩, failure, ?_, ?_, hrecoverable⟩
        · rw [houtcome, hdecided]
        · rintro rfl
          exact hcancelled hdecided
      rw [hdecided, verdict?_of_not_recoverable hseverity] at hverdict
      exact ⟨_, (Option.some.inj hverdict).symm⟩

/-- The conditions are stamped by the pass as by one change, unless it takes one back. -/
theorem Lawful.stamped (h : record.Lawful settings) {type : ConditionType}
    (hplain : type = .terminal → ¬ record.RaisesAndClears) :
    Condition.Stamped record.now (record.input.condition? type)
      (record.result.resource.condition? type) := by
  obtain ⟨decision, hresult, hexit⟩ := h.exit
  have houtcome : record.result.outcome = decision.outcome := by
    rw [hresult, Resource.conclude_outcome]
  have htakes := hexit.takesConditions
  by_cases hcancelled : decision.outcome = .failed .cancelled
  · rw [hresult, Resource.conclude_of_cancelled hcancelled]
    exact .refl _ _
  have hconcluded := @Resource.stamped_conclude kind record.now settings record.input _ hcancelled
  rw [← hresult] at hconcluded
  -- what is left is that summing up does not take back what the reading has done
  refine (htakes.stamped type).trans (hconcluded type) fun hback => ?_
  rcases htakes with hsame | ⟨key, object, hmem, hsnapshot⟩
  · rw [hsame]
  by_cases hlearned : record.input.LearnsFailedValidation object
  · by_cases htype : type = .terminal
    · subst htype
      obtain ⟨raised, hraised, hvalue⟩ :=
        Resource.terminal_snapshot_of_learned hlearned record.now key
      rw [← hsnapshot] at hraised
      have hverdict := hexit.verdict_of_learned houtcome hcancelled hmem hlearned (hplain rfl)
      have htrue := @Resource.terminal_conclude kind record.now settings record.input _ hcancelled
        hverdict _ hraised hvalue
      rw [← hback, hraised, hresult, htrue, Option.map_some, hvalue]
    · rw [hsnapshot, Resource.condition?_snapshot _ _ _ htype]
  · rw [hsnapshot, Resource.condition?_snapshot_of_unlearned hlearned]

/-- What a pass has raised and cleared again is false since that pass. -/
theorem Lawful.terminal_of_raisesAndClears (h : record.Lawful settings)
    (hraises : record.RaisesAndClears) :
    ∃ own, record.result.resource.condition? .terminal
      = some ⟨own, .no, some record.now, none⟩ := by
  obtain ⟨htask, ⟨key, object, hmem, hlearned⟩, failure, hfailed, hcancelled, hretried⟩ := hraises
  obtain ⟨decision, hresult, ⟨hsync, -⟩ | ⟨-, hdeletes⟩⟩ := h.exit
  · cases hsync.symm.trans htask
  have hdecided : decision.outcome = .failed failure := by
    rw [← hfailed, hresult, Resource.conclude_outcome]
  obtain ⟨raised, hraised, hvalue⟩ := Resource.terminal_snapshot_of_learned hlearned record.now key
  rw [← hdeletes.resource_of_failed hmem hdecided] at hraised
  have hverdict : Resource.verdict? kind decision.outcome = some (.recoverable failure.message) :=
    hdecided ▸ verdict?_of_recoverable hretried
  have hdeleted : decision.outcome ≠ .deleted := by simp [hdecided]
  have hentered : decision.outcome ≠ .failed .cancelled := by simp [hdecided, hcancelled]
  refine ⟨raised.type, ?_⟩
  rw [hresult, Resource.condition?, Resource.conclude_statusOrEmpty _ hdeleted hentered,
    Resource.get?_concludeStatus hverdict _ _ _ _ (by decide)]
  exact Status.get?_enter_recoverable_of_terminal hraised hvalue record.now failure.message

end PassRecord

/-- The transition times that a pass leaves behind tell when the conditions have changed. -/
structure PassRecord.TimesTransitions (record : PassRecord kind) : Prop where
  /-- No condition is lost. -/
  stays : ∀ type, record.input.condition? type ≠ none →
    record.result.resource.condition? type ≠ none
  kept : ∀ type before after, record.input.condition? type = some before →
    record.result.resource.condition? type = some after → after.value = before.value →
    ¬ (type = .terminal ∧ record.RaisesAndClears) →
    after.lastTransitionTime = before.lastTransitionTime
  moved : ∀ type after, record.result.resource.condition? type = some after →
    (∀ before, record.input.condition? type = some before → after.value ≠ before.value) →
    after.lastTransitionTime = some record.now
  /-- The exception: `Terminal` is false since this pass, whether or not it was so before. -/
  cleared : record.RaisesAndClears →
    ∃ own, record.result.resource.condition? .terminal
      = some ⟨own, .no, some record.now, none⟩

theorem PassRecord.Lawful.timesTransitions {record : PassRecord kind}
    (h : record.Lawful settings) : record.TimesTransitions := by
  -- `Terminal` in a pass that raises and clears it is known, all else is stamped
  have hcases : ∀ type, (type = .terminal ∧ record.RaisesAndClears) ∨
      Condition.Stamped record.now (record.input.condition? type)
        (record.result.resource.condition? type) := by
    intro type
    by_cases hraises : type = .terminal ∧ record.RaisesAndClears
    · exact .inl hraises
    · exact .inr (h.stamped fun htype hclears => hraises ⟨htype, hclears⟩)
  constructor
  case cleared => exact h.terminal_of_raisesAndClears
  case stays =>
    intro type hbefore hafter
    rcases hcases type with ⟨rfl, hraises⟩ | hstamped
    · obtain ⟨own, hcleared⟩ := h.terminal_of_raisesAndClears hraises
      cases hafter.symm.trans hcleared
    · obtain ⟨before, hsome⟩ := Option.ne_none_iff_exists'.mp hbefore
      rw [hafter, hsome] at hstamped
      cases hstamped
  case kept =>
    intro type before after hbefore hafter hvalue hraises
    rcases hcases type with hclears | hstamped
    · exact absurd hclears hraises
    · have hsame : (some after).map (·.value) = (some before).map (·.value) :=
        congrArg some hvalue
      rw [hbefore, hafter, Condition.Stamped, if_pos hsame] at hstamped
      exact hstamped
  case moved =>
    intro type after hafter hvalue
    rcases hcases type with ⟨rfl, hraises⟩ | hstamped
    · obtain ⟨own, hcleared⟩ := h.terminal_of_raisesAndClears hraises
      obtain rfl := Option.some.inj (hafter.symm.trans hcleared)
      rfl
    · have hmoved : (record.result.resource.condition? type).map (·.value)
          ≠ (record.input.condition? type).map (·.value) := by
        rw [hafter]
        intro hsame
        rcases hbefore : record.input.condition? type with _ | before
        · rw [hbefore] at hsame
          cases hsame
        · rw [hbefore] at hsame
          exact hvalue before hbefore (Option.some.inj hsame)
      rw [Condition.Stamped, if_neg hmoved, hafter] at hstamped
      exact hstamped

/-- **Transition times move on transitions.** For every kind, all settings and every backend: after
each pass of each history a condition has the time of that pass if it is new or has another value
than before, and else the time that it had. The one exception is `Terminal` in a pass to delete
that raises it on a failed validation and clears it again on a failure that is retried: it is false
then, since that pass. -/
theorem history_timesTransitions (backend : Backend σ) (settings : PassSettings)
    (rounds : List (Round kind)) (resource : Resource kind) (state : σ) :
    ∀ record ∈ history backend settings rounds resource state, record.TimesTransitions :=
  fun record hrecord =>
    (history_lawful backend settings rounds resource state record hrecord).timesTransitions

/-- A definition whose update could not be validated: `Terminal` is true since the pass that reads
so, and `Recoverable` as long as it was before. -/
theorem history_timesTransitions_failed_validation :
    let conditions : Conditions :=
      ⟨none, some ⟨.terminal, .no, some "R", none⟩,
        some ⟨.recoverable, .yes, some "S", some "slow down"⟩⟩
    let status := { Status.empty with statusCode := some .updating, conditions }
    let alerts : Resource .alertManagerDefinition :=
      ⟨.empty, ⟨"ws-1", some "receivers: []"⟩, some status⟩
    let found : WireObject :=
      { WireObject.empty with status := some ⟨"UPDATE_FAILED", some "error validating: route"⟩ }
    let script : Script := { Script.empty with describes := [.ok found] }
    let settings := Settings.default.passSettings ⟨none, none⟩
    let rounds : List (Round .alertManagerDefinition) := [⟨id, .sync, "T", false⟩]
    ∃ record ∈ history scripted settings rounds alerts script,
      (∀ type, ((record.input.condition? type).map (·.value),
        (record.result.resource.condition? type).map (·.value)) = match type with
          | .synced => (none, some .yes)
          | .terminal => (some .no, some .yes)
          | .recoverable => (some .yes, some .yes)) ∧
        (∀ type, (record.result.resource.condition? type).bind (·.lastTransitionTime)
          = match type with
            | .synced | .terminal => some "T"
            | .recoverable => some "S") ∧
        record.TimesTransitions := by
  intro conditions status alerts found script settings rounds
  have hmem : (Round.run scripted settings ⟨id, .sync, "T", false⟩ alerts script).1 ∈
      history scripted settings rounds alerts script := List.mem_cons_self
  refine ⟨_, hmem, ?_, ?_,
    history_timesTransitions scripted settings rounds alerts script _ hmem⟩
  · intro type
    cases type <;> decide
  · intro type
    cases type <;> decide

/-- `Terminal` was false for long, and is so again: the pass has raised and cleared it. -/
theorem terminal_raised_and_cleared :
    let conditions : Conditions :=
      ⟨some ⟨.synced, .no, some "S", none⟩, some ⟨.terminal, .no, some "R", none⟩, none⟩
    let status := { Status.empty with statusCode := some .updating, conditions }
    let alerts : Resource .alertManagerDefinition :=
      ⟨.empty, ⟨"ws-1", some "receivers: []"⟩, some status⟩
    let found : WireObject :=
      { WireObject.empty with status := some ⟨"UPDATE_FAILED", some "error validating: route"⟩ }
    let throttled := BackendError.api "ThrottlingException" "slow down"
    let script : Script :=
      { Script.empty with describes := [.ok found], deletes := [.error throttled] }
    let settings := Settings.default.passSettings ⟨none, none⟩
    let pass := (Round.run scripted settings ⟨id, .finalize, "T", false⟩ alerts script).1
    pass.input.condition? .terminal = some ⟨.terminal, .no, some "R", none⟩ ∧
      pass.result.resource.condition? .terminal = some ⟨.terminal, .no, some "T", none⟩ := by
  decide

end ManagedPrometheus
