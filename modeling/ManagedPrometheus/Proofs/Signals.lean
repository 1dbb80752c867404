import ManagedPrometheus.Proofs.Binding
import ManagedPrometheus.Proofs.Conditions
import ManagedPrometheus.Proofs.Decisions

/-!
# The signals of a pass

A pass ends with an outcome, and says so four times: in the outcome itself, in the conditions, in
when the next pass is due, and in what the scheduler does. `PassRecord.Coherent` says that the four
agree, and `history_coherent` that they do after every pass of every history.

What summing up enters is known once the outcome is (`Resource.concludeStatus_sumsUp`). The rest is
about the conditions before that: no exit of a pass but one touches them, and that one, a validation
that has failed, raises `Terminal` and is never followed by a change
(`validationFailure?_of_open`).
-/

namespace ManagedPrometheus

variable {σ : Type} {kind : Kind} {now : String} {settings : PassSettings}

/-! ### Conditions along a pass -/

namespace Resource

/-- The condition of a type in the status of a resource. -/
def condition? (resource : Resource kind) (type : ConditionType) : Option Condition :=
  resource.statusOrEmpty.conditions.get? type

@[simp] theorem condition?_withStatusOf (desired latest : Resource kind) (type : ConditionType) :
    (desired.withStatusOf latest).condition? type = latest.condition? type := rfl

@[simp] theorem condition?_foldResponse (resource : Resource kind) (object : WireObject)
    (type : ConditionType) :
    (resource.foldResponse object).condition? type = resource.condition? type := rfl

@[simp] theorem condition?_adoptCreated (desired : Resource kind) (object : WireObject)
    (type : ConditionType) :
    (desired.adoptCreated object).condition? type = desired.condition? type := by
  simp only [adoptCreated]
  split <;> rfl

/-- A description touches no condition but `Terminal`. -/
theorem condition?_snapshot (desired : Resource kind) (key : ResourceKey) (object : WireObject)
    {type : ConditionType} (htype : type ≠ .terminal) :
    (desired.snapshot now key object).condition? type = desired.condition? type := by
  simp only [snapshot, condition?, statusOrEmpty, Option.getD_some, Status.fold_fst]
  split
  · rw [Status.get?_enter_terminal _ now _ htype]
    rfl
  · rfl

theorem keyed_snapshot {desired : Resource kind} (h : desired.Keyed) (now : String)
    (key : ResourceKey) (object : WireObject) : (desired.snapshot now key object).Keyed := by
  have hobserved : ((desired.statusOrEmpty.observe object).bind key).conditions.Keyed := h
  rcases hfailure : validationFailure? kind desired.phase.isFailed
    ((desired.statusOrEmpty.observe object).bind key) with _ | reason
  · simp only [Keyed, snapshot, hfailure]
    exact hobserved
  · simp only [Keyed, snapshot, hfailure]
    exact Status.keyed_enter hobserved now (.terminal reason)

/-- A description that shows no failed validation touches no condition. -/
theorem condition?_snapshot_of_none {desired : Resource kind} {key : ResourceKey}
    {object : WireObject}
    (hnone : validationFailure? kind desired.phase.isFailed
      ((desired.statusOrEmpty.observe object).bind key) = none) (type : ConditionType) :
    (desired.snapshot now key object).condition? type = desired.condition? type := by
  simp only [snapshot, hnone]
  rfl

end Resource

/-- After a failed validation the submitted configuration counts as the latest one, so there is
nothing to change. -/
theorem validationFailure?_of_open {desired : Resource kind} {key : ResourceKey}
    {object : WireObject}
    (hopen : desired.decideAtOnce (desired.snapshot now key object) = none) :
    Resource.validationFailure? kind desired.phase.isFailed
      ((desired.statusOrEmpty.observe object).bind key) = none := by
  obtain ⟨-, hfixed, hdiffer⟩ := decideAtOnce_eq_none_iff.mp hopen
  by_contra hsome
  obtain ⟨reason, hreason⟩ := Option.ne_none_iff_exists'.mp hsome
  cases kind with
  | workspace => cases hreason
  | ruleGroupsNamespace => cases hreason
  | loggingConfiguration => cases hreason
  | alertManagerDefinition =>
    have hsound : desired.phase.isFailed = false := by
      by_contra hfailed
      rw [Bool.not_eq_false] at hfailed
      rw [hfailed] at hreason
      cases hreason
    rw [hsound] at hreason
    have hconfiguration : (desired.snapshot now key object).spec.configuration
        = desired.spec.configuration := by
      simp only [Resource.snapshot, hsound, hreason]
      rfl
    apply hdiffer
    apply Spec.ext_value
    intro field
    cases field with
    | configuration => exact congrArg FieldValue.text hconfiguration.symm
    | workspaceId => exact hfixed .workspaceId (by decide)
    | _ => rfl

/-! ### Conditions at the exits -/

/-- Reports of changes touch no condition. -/
theorem Applies.condition?_eq {resource : Resource kind} {changes : List Mutation}
    {made : List Exchange} {decision : Decision kind} (h : Applies resource changes made decision)
    (type : ConditionType) : decision.resource.condition? type = resource.condition? type := by
  induction h with
  | finished => rw [Resource.settled_resource]
  | refused => rfl
  | failed => rfl
  | silent _ ih => exact ih
  | reported _ ih => rw [ih, Resource.condition?_foldResponse]

theorem Creates.condition?_eq {desired : Resource kind} {made : List Exchange}
    {decision : Decision kind} (h : Creates desired made decision) (type : ConditionType) :
    decision.resource.condition? type = desired.condition? type := by
  cases h with
  | invalid => rfl
  | refused => rfl
  | failed => rfl
  | created => rw [Resource.settled_resource, Resource.condition?_adoptCreated]

/-- The conditions of a decision are those from before the pass, or those of the snapshot. -/
def Decision.TakesConditions (now : String) (before : Resource kind) (made : List Exchange)
    (decision : Decision kind) : Prop :=
  (∀ type, decision.resource.condition? type = before.condition? type) ∨
    ∃ key object, ⟨.describe key, .ok (some object)⟩ ∈ made ∧
      ∀ type, decision.resource.condition? type = (before.snapshot now key object).condition? type

theorem Syncs.takesConditions {desired : Resource kind} {made : List Exchange}
    {decision : Decision kind} (h : Syncs now desired made decision) :
    decision.TakesConditions now desired made := by
  cases h with
  | unread => exact .inl fun _ => rfl
  | creating _ hcreates => exact .inl hcreates.condition?_eq
  | updating _ hupdates =>
    cases hupdates with
    | decided hdecided =>
      rcases Resource.decideAtOnce_resource hdecided with hresource | hresource
      · exact .inl fun _ => by rw [hresource]
      · exact .inr ⟨_, _, List.mem_cons_self, fun _ => by rw [hresource]; rfl⟩
    | unidentified => exact .inr ⟨_, _, List.mem_cons_self, fun _ => rfl⟩
    | changing _ _ happlies => exact .inr ⟨_, _, List.mem_cons_self, happlies.condition?_eq⟩

theorem Deletes.takesConditions {resource : Resource kind} {made : List Exchange}
    {decision : Decision kind} (h : Deletes now resource made decision) :
    decision.TakesConditions now resource made := by
  cases h with
  | unaddressed | unread | absent | blocked => exact .inl fun _ => rfl
  | refused | failed | accepted => exact .inr ⟨_, _, List.mem_cons_self, fun _ => rfl⟩

theorem PassRecord.Exits.takesConditions {record : PassRecord kind} {decision : Decision kind}
    (h : record.Exits decision) :
    decision.TakesConditions record.now record.input record.exchanges := by
  rcases h with ⟨-, hsyncs⟩ | ⟨-, hdeletes⟩
  · exact hsyncs.takesConditions
  · exact hdeletes.takesConditions

namespace Decision.TakesConditions

variable {before : Resource kind} {made : List Exchange} {decision : Decision kind}

/-- No exit touches a condition other than `Terminal`. -/
theorem condition?_eq (h : decision.TakesConditions now before made) {type : ConditionType}
    (htype : type ≠ .terminal) : decision.resource.condition? type = before.condition? type := by
  rcases h with hsame | ⟨key, object, -, hsnapshot⟩
  · exact hsame type
  · rw [hsnapshot, before.condition?_snapshot key object htype]

theorem keyed (h : decision.TakesConditions now before made) (hbefore : before.Keyed) :
    decision.resource.Keyed := by
  intro type condition hcondition
  rcases h with hsame | ⟨key, object, -, hsnapshot⟩
  · exact hbefore type condition ((hsame type).symm.trans hcondition)
  · exact Resource.keyed_snapshot hbefore now key object type condition
      ((hsnapshot type).symm.trans hcondition)

end Decision.TakesConditions

/-- A decision to wait that is taken at once hands the resource back. -/
theorem DecidesAtOnce.resource_of_wait {desired latest : Resource kind} {decision : Decision kind}
    (h : DecidesAtOnce desired latest decision) {reason : WaitReason}
    (hwait : decision.outcome = .wait reason) : decision.resource = desired := by
  cases h with
  | inProgress => rfl
  | notActive => rfl
  | latched => cases hwait
  | fixedChanged => cases hwait
  | failedUnchanged => cases hwait
  | agreed => cases hwait

/-- A pass that is to wait has found no failed validation. -/
theorem Syncs.condition?_of_wait {desired : Resource kind} {made : List Exchange}
    {decision : Decision kind} (h : Syncs now desired made decision) {reason : WaitReason}
    (hwait : decision.outcome = .wait reason) (type : ConditionType) :
    decision.resource.condition? type = desired.condition? type := by
  cases h with
  | unread => rfl
  | creating _ hcreates => exact hcreates.condition?_eq type
  | updating _ hupdates =>
    cases hupdates with
    | decided hdecided =>
      rw [(DecidesAtOnce.of_decideAtOnce hdecided).resource_of_wait hwait]
    | unidentified => cases hwait
    | changing hopen _ happlies =>
      rw [happlies.condition?_eq, Resource.condition?_withStatusOf,
        Resource.condition?_snapshot_of_none (validationFailure?_of_open hopen)]

/-- No pass takes a condition away from its own type. -/
theorem PassRecord.Lawful.keyed {record : PassRecord kind} (h : record.Lawful settings)
    (hinput : record.input.Keyed) : record.result.resource.Keyed := by
  obtain ⟨decision, hresult, hexit⟩ := h.exit
  rw [hresult]
  apply Resource.keyed_conclude hinput
  exact hexit.takesConditions.keyed hinput

/-! ### Outcomes of the exits -/

theorem Resource.settled_outcome_ne_deleted (resource : Resource kind) :
    resource.settled.outcome ≠ .deleted := by
  unfold settled
  split <;> simp

theorem Applies.outcome_ne_deleted {resource : Resource kind} {changes : List Mutation}
    {made : List Exchange} {decision : Decision kind}
    (h : Applies resource changes made decision) : decision.outcome ≠ .deleted := by
  induction h with
  | finished => exact Resource.settled_outcome_ne_deleted _
  | refused => simp
  | failed => simp
  | silent _ ih => exact ih
  | reported _ ih => exact ih

/-- A pass over a resource that is to exist never finds it deleted. -/
theorem Syncs.outcome_ne_deleted {desired : Resource kind} {made : List Exchange}
    {decision : Decision kind} (h : Syncs now desired made decision) :
    decision.outcome ≠ .deleted := by
  cases h with
  | unread => simp
  | creating _ hcreates =>
    cases hcreates with
    | created => exact Resource.settled_outcome_ne_deleted _
    | _ => simp
  | updating _ hupdates =>
    cases hupdates with
    | decided hdecided => exact (DecidesAtOnce.of_decideAtOnce hdecided).outcome_ne_deleted
    | unidentified => simp
    | changing _ _ happlies => exact happlies.outcome_ne_deleted

theorem Deletes.resource_of_deleted {resource : Resource kind} {made : List Exchange}
    {decision : Decision kind} (h : Deletes now resource made decision)
    (hdeleted : decision.outcome = .deleted) : decision.resource = resource := by
  cases h with
  | unaddressed => rfl
  | unread => rfl
  | absent => rfl
  | blocked => rfl
  | refused => cases hdeleted
  | failed => cases hdeleted
  | accepted => cases hdeleted

/-! ### Agreement of the signals -/

theorem Status.isTrue_of_isClear {status : Status} {type : ConditionType}
    (h : status.conditions.IsClear type) : status.isTrue type = false := by
  rw [isTrue]
  split
  · rename_i condition hcondition
    rw [(h condition hcondition).1]
    rfl
  · rfl

namespace PassRecord

def action (resync : Duration) (record : PassRecord kind) : Action :=
  (nextAction resync record.result.outcome record.result.requeue).1

/-- Whether the outcome of a pass is entered in the status: it is, unless the resource is gone or
the pass was cancelled. -/
def Entered (record : PassRecord kind) : Prop :=
  record.result.outcome ≠ .deleted ∧ record.result.outcome ≠ .failed .cancelled

/-- The outcome of a pass, the conditions, the next pass and the scheduler agree. -/
structure Coherent (settings : PassSettings) (resync : Duration) (record : PassRecord kind) :
    Prop where
  deleted : record.result.outcome = .deleted →
    record.result.resource = record.input ∧ record.result.requeue = .done ∧
      record.action resync = .awaitChange
  cancelled : record.result.outcome = .failed .cancelled →
    record.result.resource = record.input ∧
      record.result.requeue = .retryAfter settings.requeue.default
  synced : record.Entered →
    ∃ condition, record.result.resource.condition? .synced = some condition ∧
      (condition.value = .no ↔ ∃ delay, record.result.requeue = .retryAfter delay) ∧
      (condition.value = .yes ↔ record.result.requeue = .done ∨ record.result.requeue = .fatal)
  scheduled : record.Entered →
    record.action resync = match record.result.requeue with
      | .retryAfter delay => .requeueAfter delay
      | .done => .requeueAfter resync
      | .fatal => .awaitChange
  after_synced : record.result.outcome = .synced →
    record.result.resource.statusOrEmpty.isTrue .terminal = false ∧
      record.result.resource.statusOrEmpty.isTrue .recoverable = false
  after_recoverable : ∀ failure, record.result.outcome = .failed failure → failure ≠ .cancelled →
    failure.severity kind.policy.terminalCodes = .recoverable →
      record.result.resource.statusOrEmpty.conditions.Holds .recoverable failure.message ∧
        record.result.resource.statusOrEmpty.isTrue .terminal = false
  after_terminal : ∀ failure, record.result.outcome = .failed failure →
    failure.severity kind.policy.terminalCodes ≠ .recoverable →
      record.result.resource.statusOrEmpty.conditions.Holds .terminal failure.message ∧
        record.result.resource.condition? .recoverable = record.input.condition? .recoverable
  after_wait : record.task = .sync → ∀ reason, record.result.outcome = .wait reason →
    ∀ type ≠ ConditionType.synced,
      record.result.resource.condition? type = record.input.condition? type

theorem verdict?_of_recoverable {failure : Failure}
    (h : failure.severity kind.policy.terminalCodes = .recoverable) :
    Resource.verdict? kind (.failed failure) = some (.recoverable failure.message) := by
  simp only [Resource.verdict?, h]

theorem verdict?_of_not_recoverable {failure : Failure}
    (h : failure.severity kind.policy.terminalCodes ≠ .recoverable) :
    Resource.verdict? kind (.failed failure) = some (.terminal failure.message) := by
  simp only [Resource.verdict?]
  split
  · rename_i hrecoverable
    exact absurd hrecoverable h
  · rfl
  · rfl

/-- The scheduler follows the requeue, unless the resource is gone. -/
theorem nextAction_of_ne_deleted (resync : Duration) {outcome : Outcome} (requeue : Requeue)
    (h : outcome ≠ .deleted) :
    (nextAction resync outcome requeue).1 = match requeue with
      | .retryAfter delay => .requeueAfter delay
      | .done => .requeueAfter resync
      | .fatal => .awaitChange := by
  cases outcome with
  | deleted => exact absurd rfl h
  | _ => cases requeue <;> rfl

theorem Lawful.coherent {record : PassRecord kind} (h : record.Lawful settings)
    (resync : Duration) : record.Coherent settings resync := by
  obtain ⟨decision, hresult, hexit⟩ := h.exit
  have houtcome : record.result.outcome = decision.outcome := by
    rw [hresult, Resource.conclude_outcome]
  have hrequeue : record.result.requeue
      = settings.requeue.requeue kind.policy.terminalCodes decision.outcome := by
    rw [hresult, Resource.conclude_requeue]
  have hentered : record.Entered → record.result.resource.statusOrEmpty
      = Resource.concludeStatus kind settings record.now decision.outcome record.result.requeue
        decision.resource.statusOrEmpty := by
    rintro ⟨hdeleted, hcancelled⟩
    rw [houtcome] at hdeleted hcancelled
    rw [hrequeue, hresult, Resource.conclude_statusOrEmpty _ hdeleted hcancelled]
  have hsumsUp : record.Entered → record.result.resource.statusOrEmpty.SumsUp kind settings
      record.result.outcome record.result.requeue := by
    intro h
    rw [hentered h, houtcome]
    exact Resource.concludeStatus_sumsUp _ _ _ _ _
  constructor
  case deleted =>
    intro hdeleted
    rw [houtcome] at hdeleted
    refine ⟨?_, by rw [hrequeue, hdeleted]; rfl, by rw [action, houtcome, hdeleted]; rfl⟩
    rw [hresult, Resource.conclude_of_deleted _ hdeleted]
    rcases hexit with ⟨_, hsyncs⟩ | ⟨_, hdeletes⟩
    · exact absurd hdeleted hsyncs.outcome_ne_deleted
    · exact hdeletes.resource_of_deleted hdeleted
  case cancelled =>
    intro hcancelled
    rw [houtcome] at hcancelled
    exact ⟨by rw [hresult, Resource.conclude_of_cancelled hcancelled],
      by rw [hrequeue, hcancelled]; rfl⟩
  case synced =>
    intro h
    obtain ⟨condition, hsynced, hvalue, -⟩ := (hsumsUp h).shows_synced
    refine ⟨condition, hsynced, ?_, ?_⟩ <;> rw [hvalue] <;>
      cases record.result.requeue <;> simp [Requeue.isSynced, ConditionValue.ofBool]
  case scheduled =>
    intro h
    exact nextAction_of_ne_deleted resync record.result.requeue h.1
  case after_synced =>
    intro h
    have hE : record.Entered := by simp [Entered, h]
    obtain ⟨hterminal, hrecoverable⟩ := (hsumsUp hE).shows_verdict .success (by rw [h]; rfl)
    exact ⟨Status.isTrue_of_isClear hterminal, Status.isTrue_of_isClear hrecoverable⟩
  case after_recoverable =>
    intro failure h hne hseverity
    have hE : record.Entered := by simp [Entered, h, hne]
    obtain ⟨hholds, hterminal⟩ :=
      (hsumsUp hE).shows_verdict _ (h ▸ verdict?_of_recoverable hseverity)
    exact ⟨hholds, Status.isTrue_of_isClear hterminal⟩
  case after_terminal =>
    intro failure h hseverity
    have hE : record.Entered := by
      refine ⟨by simp [h], ?_⟩
      rw [h]
      rintro ⟨⟩
      exact hseverity rfl
    have hverdict := h ▸ verdict?_of_not_recoverable hseverity
    refine ⟨(hsumsUp hE).shows_verdict _ hverdict, ?_⟩
    rw [houtcome] at hverdict
    rw [Resource.condition?, hentered hE,
      Resource.get?_concludeStatus hverdict _ _ _ _ (by decide),
      Status.get?_enter_terminal _ _ _ (by decide)]
    exact hexit.takesConditions.condition?_eq (by decide)
  case after_wait =>
    intro htask reason h type htype
    have hE : record.Entered := by simp [Entered, h]
    rw [houtcome] at h
    have hverdict : Resource.verdict? kind decision.outcome = none := by rw [h]; rfl
    rw [Resource.condition?, hentered hE,
      Resource.get?_concludeStatus_of_none hverdict _ _ _ _ htype]
    rcases hexit with ⟨_, hsyncs⟩ | ⟨hfinalize, _⟩
    · exact hsyncs.condition?_of_wait h type
    · cases htask.symm.trans hfinalize

end PassRecord

/-- **Agreement of the signals.** For every kind, all settings and every backend, the outcome, the
conditions, the next pass and the scheduler agree after each pass of each history. -/
theorem history_coherent (backend : Backend σ) (settings : PassSettings) (resync : Duration)
    (rounds : List (Round kind)) (resource : Resource kind) (state : σ) :
    ∀ record ∈ history backend settings rounds resource state, record.Coherent settings resync := by
  intro record hrecord
  exact (history_lawful backend settings rounds resource state record hrecord).coherent resync

/-- A validation that has failed is reported as terminal, beside a failure that was retried. -/
theorem history_coherent_failed_validation :
    let retried : Condition := ⟨.recoverable, .yes, some "T0", some "slow"⟩
    let definition : Resource .alertManagerDefinition :=
      ⟨.empty, ⟨"ws-1", some "receivers: []"⟩,
        some { Status.empty with conditions := ⟨none, none, some retried⟩ }⟩
    let found : WireObject :=
      { WireObject.empty with status := some ⟨"UPDATE_FAILED", some "error validating: route"⟩ }
    let script : Script := { Script.empty with describes := [.ok found] }
    let settings := Settings.default.passSettings ⟨none, none⟩
    let rounds : List (Round .alertManagerDefinition) := [⟨id, .sync, "T", false⟩]
    ∃ record ∈ history scripted settings rounds definition script,
      record.result.outcome = .failed (.failedPhase "error validating: route") ∧
        record.result.resource.statusOrEmpty.conditions
          = ⟨some ⟨.synced, .yes, some "T", none⟩,
              some ⟨.terminal, .yes, some "T", some "error validating: route"⟩, some retried⟩ ∧
        record.Coherent settings .zero := by
  intro retried definition found script settings rounds
  have hmem : (Round.run scripted settings ⟨id, .sync, "T", false⟩ definition script).1 ∈
      history scripted settings rounds definition script := List.mem_cons_self
  exact ⟨_, hmem, by decide, by decide,
    history_coherent scripted settings .zero rounds definition script _ hmem⟩

end ManagedPrometheus
