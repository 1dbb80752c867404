import ManagedPrometheus.Reconcile

/-!
# What summing up does to a status

A decision is summed up by entering a verdict in the conditions, setting `Synced` and filling in
identifiers. Afterwards the status says what the outcome is (`Resource.concludeStatus_sumsUp`), and
what says so already is not touched by summing it up again, at whatever time
(`Resource.concludeStatus_eq_self`): a transition time moves only with a value.

A status may also reflect a description already, so that observing it brings nothing new
(`Status.Reflects`). Summing up keeps that. A pass that finds what the last one found therefore has
nothing to enter.
-/

namespace ManagedPrometheus

variable {kind : Kind} {settings : PassSettings} {now : String}

/-! ### Setting and clearing a condition -/

namespace Conditions

section Entry

variable (conditions : Conditions) (now : String) (type : ConditionType) (value : ConditionValue)
  (message : Option String)

@[simp] theorem entry_value : (conditions.entry now type value message).value = value := by
  rw [entry]
  split <;> rfl

@[simp] theorem entry_message : (conditions.entry now type value message).message = message := by
  rw [entry]
  split <;> rfl

/-- The time stays if the value does. -/
theorem entry_lastTransitionTime : (conditions.entry now type value message).lastTransitionTime
    = if some value = (conditions.get? type).map (·.value) then
        (conditions.get? type).bind (·.lastTransitionTime)
      else some now := by
  rw [entry]
  rcases conditions.get? type with _ | old
  · rfl
  · simp only [Option.map_some, Option.bind_some, Option.some.injEq, eq_comm (a := value)]

@[simp] theorem get?_set (other : ConditionType) :
    (conditions.set now type value message).get? other
      = if other = type then some (conditions.entry now type value message)
        else conditions.get? other :=
  get?_put _ _ _ _

end Entry

/-- The condition that is stored under a type has a value and a message. -/
def Says (conditions : Conditions) (type : ConditionType) (value : ConditionValue)
    (message : Option String) : Prop :=
  ∃ condition, conditions.get? type = some condition ∧ condition.value = value ∧
    condition.message = message

/-- A condition holds and has the message. -/
def Holds (conditions : Conditions) (type : ConditionType) (message : String) : Prop :=
  conditions.Says type .yes (some message)

/-- There is no condition of the type, or it does not hold and says nothing. -/
def IsClear (conditions : Conditions) (type : ConditionType) : Prop :=
  ∀ condition, conditions.get? type = some condition →
    condition.value = .no ∧ condition.message = none

theorem says_set (conditions : Conditions) (now : String) (type : ConditionType)
    (value : ConditionValue) (message : Option String) :
    (conditions.set now type value message).Says type value message := by
  refine ⟨conditions.entry now type value message, ?_, by simp, by simp⟩
  rw [get?_set, if_pos rfl]

theorem get?_clear_of_ne (conditions : Conditions) (now : String) {type other : ConditionType}
    (hother : other ≠ type) :
    (conditions.clear now type).get? other = conditions.get? other := by
  rw [clear]
  split
  · rw [get?_set, if_neg hother]
  · rfl

theorem isClear_clear (conditions : Conditions) (now : String) (type : ConditionType) :
    (conditions.clear now type).IsClear type := by
  intro condition h
  rw [clear] at h
  split at h
  · rw [get?_set, if_pos rfl] at h
    obtain rfl := Option.some.inj h
    exact ⟨entry_value _ _ _ _ _, entry_message _ _ _ _ _⟩
  · rename_i hnone
    simp [h] at hnone

/-- What is set already is not touched by setting it. -/
theorem set_eq_self {conditions : Conditions} {type : ConditionType} {value : ConditionValue}
    {message : Option String} (h : conditions.Says type value message) (now : String) :
    conditions.set now type value message = conditions := by
  obtain ⟨condition, hcondition, rfl, rfl⟩ := h
  apply ext_get?
  intro other
  rw [get?_set]
  split
  · rename_i heq
    rw [heq, hcondition]
    simp [entry, hcondition]
  · rfl

theorem clear_eq_self {conditions : Conditions} {type : ConditionType}
    (h : conditions.IsClear type) (now : String) : conditions.clear now type = conditions := by
  rw [clear]
  split
  · rename_i hsome
    obtain ⟨condition, hcondition⟩ := Option.isSome_iff_exists.mp hsome
    exact set_eq_self ⟨condition, hcondition, h condition hcondition⟩ now
  · rfl

/-! ### Conditions under their own types -/

namespace Keyed

variable {conditions : Conditions}

/-- What is set has the type that it is stored under, if what was there had it. -/
theorem entry_type (h : conditions.Keyed) (now : String) (type : ConditionType)
    (value : ConditionValue) (message : Option String) :
    (conditions.entry now type value message).type = type := by
  rw [entry]
  split
  · rename_i old hold
    exact h type old hold
  · rfl

theorem set (h : conditions.Keyed) (now : String) (type : ConditionType) (value : ConditionValue)
    (message : Option String) : (conditions.set now type value message).Keyed :=
  h.put (h.entry_type now type value message)

/-- What is stored under another type than its own stays so when it is set. -/
example :
    let misfiled : Conditions := ⟨some ⟨.terminal, .no, none, none⟩, none, none⟩
    ¬ (misfiled.set "T" .synced .yes none).Keyed := by
  decide

theorem clear (h : conditions.Keyed) (now : String) (type : ConditionType) :
    (conditions.clear now type).Keyed := by
  rw [Conditions.clear]
  split
  · exact h.set now type .no none
  · exact h

end Keyed

/-! ### Verdicts -/

/-- The conditions say what a verdict enters. -/
def Shows (conditions : Conditions) : Verdict → Prop
  | .success => conditions.IsClear .terminal ∧ conditions.IsClear .recoverable
  | .recoverable message => conditions.Holds .recoverable message ∧ conditions.IsClear .terminal
  | .terminal message => conditions.Holds .terminal message

/-- Whether a verdict is shown does not depend on `Synced`. -/
theorem Shows.congr {a b : Conditions} {verdict : Verdict} (h : a.Shows verdict)
    (hother : ∀ type ≠ .synced, b.get? type = a.get? type) : b.Shows verdict := by
  have hterminal := hother .terminal (by decide)
  have hrecoverable := hother .recoverable (by decide)
  cases verdict with
  | success => simpa only [Shows, IsClear, hterminal, hrecoverable] using h
  | recoverable message => simpa only [Shows, Holds, Says, IsClear, hterminal, hrecoverable] using h
  | terminal message => simpa only [Shows, Holds, Says, hterminal] using h

end Conditions

namespace Status

theorem enter_shows (status : Status) (now : String) (verdict : Verdict) :
    (status.enter now verdict).conditions.Shows verdict := by
  cases verdict with
  | success =>
    refine ⟨?_, Conditions.isClear_clear _ now _⟩
    intro condition h
    rw [enter, Conditions.get?_clear_of_ne _ now (by decide)] at h
    exact Conditions.isClear_clear _ now _ condition h
  | recoverable message =>
    refine ⟨?_, Conditions.isClear_clear _ now _⟩
    obtain ⟨condition, hcondition, hsays⟩ :=
      status.conditions.says_set now .recoverable .yes (some message)
    refine ⟨condition, ?_, hsays⟩
    rw [enter, Conditions.get?_clear_of_ne _ now (by decide), hcondition]
  | terminal message => exact status.conditions.says_set now .terminal .yes (some message)

/-- A verdict that is shown is not entered again. -/
theorem enter_eq_self {status : Status} {verdict : Verdict} (h : status.conditions.Shows verdict)
    (now : String) : status.enter now verdict = status := by
  cases verdict with
  | success =>
    rw [enter, Conditions.clear_eq_self h.1, Conditions.clear_eq_self h.2]
  | recoverable message =>
    obtain ⟨hrecoverable, hterminal⟩ := h
    rw [enter, Conditions.set_eq_self hrecoverable, Conditions.clear_eq_self hterminal]
  | terminal message => rw [enter, Conditions.set_eq_self h]

theorem keyed_enter {status : Status} (h : status.conditions.Keyed) (now : String)
    (verdict : Verdict) : (status.enter now verdict).conditions.Keyed := by
  cases verdict with
  | terminal message => exact h.set now .terminal .yes (some message)
  | recoverable message => exact (h.set now .recoverable .yes (some message)).clear now .terminal
  | success => exact (h.clear now .terminal).clear now .recoverable

/-- A terminal failure touches no condition but `Terminal`. -/
theorem get?_enter_terminal (status : Status) (now message : String) {type : ConditionType}
    (htype : type ≠ .terminal) :
    (status.enter now (.terminal message)).conditions.get? type = status.conditions.get? type := by
  rw [enter, Conditions.get?_set, if_neg htype]

@[simp] theorem arn?_withDefaults (status : Status) (identity : Identity) :
    (status.withDefaults identity).arn? = status.arn? := by
  rw [arn?, withDefaults, arn?]
  rcases status.resourceMetadata with _ | metadata <;> rfl

/-- Identifiers that have been filled in stay. -/
theorem withDefaults_again (status : Status) (identity : Identity) :
    (status.withDefaults identity).withDefaults identity = status.withDefaults identity := by
  have hagain : ∀ a b : Option String, (a.or b).or b = a.or b := by
    intro a b
    rw [Option.or_assoc, Option.or_self]
  simp [withDefaults, hagain]

end Status

/-! ### Summing up -/

/-- A status says already what summing up an outcome enters. -/
structure Status.SumsUp (status : Status) (kind : Kind) (settings : PassSettings)
    (outcome : Outcome) (requeue : Requeue) : Prop where
  shows_verdict : ∀ verdict, Resource.verdict? kind outcome = some verdict →
    status.conditions.Shows verdict
  shows_synced : status.conditions.Says .synced (.ofBool requeue.isSynced)
    (Resource.syncedMessage? kind outcome)
  identified : status.withDefaults settings.identity = status

namespace Resource

/-- Of the conditions other than `Synced` only the verdict is entered. -/
theorem get?_concludeStatus {outcome : Outcome} {verdict : Verdict}
    (hverdict : verdict? kind outcome = some verdict) (settings : PassSettings) (now : String)
    (requeue : Requeue) (status : Status) {type : ConditionType} (htype : type ≠ .synced) :
    (concludeStatus kind settings now outcome requeue status).conditions.get? type
      = (status.enter now verdict).conditions.get? type := by
  simp only [concludeStatus, hverdict, Status.fold_fst, Status.foldSynced_fst, Status.withDefaults,
    Status.setSynced, Status.setCondition, Conditions.get?_set, if_neg htype]

theorem get?_concludeStatus_of_none {outcome : Outcome} (hverdict : verdict? kind outcome = none)
    (settings : PassSettings) (now : String) (requeue : Requeue) (status : Status)
    {type : ConditionType} (htype : type ≠ .synced) :
    (concludeStatus kind settings now outcome requeue status).conditions.get? type
      = status.conditions.get? type := by
  simp only [concludeStatus, hverdict, Status.foldSynced_fst, Status.withDefaults,
    Status.setSynced, Status.setCondition, Conditions.get?_set, if_neg htype]

/-- Summing up touches the conditions and fills in identifiers, and no more. -/
theorem exists_concludeStatus_eq (settings : PassSettings) (now : String)
    (outcome : Outcome) (requeue : Requeue) (status : Status) :
    ∃ conditions, concludeStatus kind settings now outcome requeue status
      = ({ status with conditions } : Status).withDefaults settings.identity := by
  simp only [concludeStatus]
  split
  · exact ⟨_, rfl⟩
  · exact ⟨_, rfl⟩

theorem concludeStatus_statusCode (settings : PassSettings) (now : String) (outcome : Outcome)
    (requeue : Requeue) (status : Status) :
    (concludeStatus kind settings now outcome requeue status).statusCode = status.statusCode := by
  obtain ⟨conditions, heq⟩ := @exists_concludeStatus_eq kind settings now outcome requeue status
  rw [heq]
  rfl

theorem concludeStatus_statusReason (settings : PassSettings) (now : String) (outcome : Outcome)
    (requeue : Requeue) (status : Status) :
    (concludeStatus kind settings now outcome requeue status).statusReason
      = status.statusReason := by
  obtain ⟨conditions, heq⟩ := @exists_concludeStatus_eq kind settings now outcome requeue status
  rw [heq]
  rfl

theorem concludeStatus_arn? (settings : PassSettings) (now : String) (outcome : Outcome)
    (requeue : Requeue) (status : Status) :
    (concludeStatus kind settings now outcome requeue status).arn? = status.arn? := by
  obtain ⟨conditions, heq⟩ := @exists_concludeStatus_eq kind settings now outcome requeue status
  rw [heq, Status.arn?_withDefaults]
  rfl

theorem concludeStatus_sumsUp (settings : PassSettings) (now : String) (outcome : Outcome)
    (requeue : Requeue) (status : Status) :
    (concludeStatus kind settings now outcome requeue status).SumsUp kind settings outcome
      requeue where
  shows_verdict verdict hverdict := by
    apply (status.enter_shows now verdict).congr
    intro type htype
    exact get?_concludeStatus hverdict settings now requeue status htype
  shows_synced := Conditions.says_set _ now .synced _ _
  identified := Status.withDefaults_again _ _

theorem keyed_concludeStatus {status : Status} (h : status.conditions.Keyed)
    (settings : PassSettings) (now : String) (outcome : Outcome) (requeue : Requeue) :
    (concludeStatus kind settings now outcome requeue status).conditions.Keyed := by
  simp only [concludeStatus]
  split
  · exact (Status.keyed_enter h now _).set now .synced _ _
  · exact h.set now .synced _ _

/-- What says an outcome already is not touched by summing it up. -/
theorem concludeStatus_eq_self {status : Status} {outcome : Outcome} {requeue : Requeue}
    (h : status.SumsUp kind settings outcome requeue) (now : String) :
    concludeStatus kind settings now outcome requeue status = status := by
  have hset : status.setSynced now requeue.isSynced (syncedMessage? kind outcome) = status := by
    rw [Status.setSynced, Status.setCondition, Conditions.set_eq_self h.shows_synced]
  rcases hverdict : verdict? kind outcome with _ | verdict
  · simp only [concludeStatus, hverdict, Status.foldSynced_fst, hset, h.identified]
  · simp only [concludeStatus, hverdict, Status.fold_fst, Status.foldSynced_fst,
      Status.enter_eq_self (h.shows_verdict verdict hverdict), hset, h.identified]

end Resource

/-! ### Results -/

theorem PassResult.eq_of_parts {a b : PassResult kind} (hresource : a.resource = b.resource)
    (houtcome : a.outcome = b.outcome) (hrequeue : a.requeue = b.requeue) : a = b := by
  obtain ⟨resource, outcome, requeue⟩ := a
  obtain rfl := hresource
  obtain rfl := houtcome
  obtain rfl := hrequeue
  rfl

namespace Resource

/-- What is entered is the outcome, in the status of the decision. -/
theorem conclude_of_entered (input : Resource kind) {decision : Decision kind}
    (hdeleted : decision.outcome ≠ .deleted) (hcancelled : decision.outcome ≠ .failed .cancelled) :
    (input.conclude settings now decision).resource
      = { decision.resource with
          status := some (concludeStatus kind settings now decision.outcome
            (settings.requeue.requeue kind.policy.terminalCodes decision.outcome)
            decision.resource.statusOrEmpty) } := by
  obtain ⟨resource, outcome⟩ := decision
  cases outcome with
  | deleted => exact absurd rfl hdeleted
  | synced => rfl
  | wait reason => rfl
  | failed failure =>
    cases failure with
    | cancelled => exact absurd rfl hcancelled
    | _ => rfl

theorem conclude_of_deleted (input : Resource kind) {decision : Decision kind}
    (hdeleted : decision.outcome = .deleted) :
    (input.conclude settings now decision).resource = decision.resource := by
  simp [conclude, hdeleted]

@[simp] theorem conclude_requeue (input : Resource kind) (decision : Decision kind) :
    (input.conclude settings now decision).requeue
      = settings.requeue.requeue kind.policy.terminalCodes decision.outcome := by
  simp only [conclude]
  split <;> rfl

@[simp] theorem conclude_outcome (input : Resource kind) (decision : Decision kind) :
    (input.conclude settings now decision).outcome = decision.outcome := by
  simp only [conclude]
  split <;> rfl

theorem conclude_of_cancelled {input : Resource kind} {decision : Decision kind}
    (h : decision.outcome = .failed .cancelled) :
    (input.conclude settings now decision).resource = input := by
  simp [conclude, h]

/-- The status that was returned, if something was entered in it. -/
theorem conclude_statusOrEmpty (input : Resource kind) {decision : Decision kind}
    (hdeleted : decision.outcome ≠ .deleted) (hcancelled : decision.outcome ≠ .failed .cancelled) :
    (input.conclude settings now decision).resource.statusOrEmpty
      = concludeStatus kind settings now decision.outcome
        (settings.requeue.requeue kind.policy.terminalCodes decision.outcome)
        decision.resource.statusOrEmpty := by
  rw [conclude_of_entered input hdeleted hcancelled]
  rfl

theorem keyed_conclude {input : Resource kind} (hinput : input.Keyed) {decision : Decision kind}
    (hdecision : decision.resource.Keyed) :
    (input.conclude settings now decision).resource.Keyed := by
  simp only [conclude]
  split
  · exact hinput
  · exact hdecision
  · exact keyed_concludeStatus hdecision settings now _ _

theorem phase_statusOrEmpty (resource : Resource kind) :
    resource.statusOrEmpty.phase = resource.phase := by
  obtain ⟨_, _, _ | status⟩ := resource <;> rfl

theorem phase_conclude (input : Resource kind) {decision : Decision kind}
    (hcancelled : decision.outcome ≠ .failed .cancelled) :
    (input.conclude settings now decision).resource.phase = decision.resource.phase := by
  by_cases hdeleted : decision.outcome = .deleted
  · rw [conclude_of_deleted input hdeleted]
  · rw [← phase_statusOrEmpty, conclude_statusOrEmpty input hdeleted hcancelled, Status.phase,
      concludeStatus_statusCode, ← Status.phase, phase_statusOrEmpty]

theorem spec_conclude (input : Resource kind) {decision : Decision kind}
    (hcancelled : decision.outcome ≠ .failed .cancelled) :
    (input.conclude settings now decision).resource.spec = decision.resource.spec := by
  by_cases hdeleted : decision.outcome = .deleted
  · rw [conclude_of_deleted input hdeleted]
  · rw [conclude_of_entered input hdeleted hcancelled]

/-- What was summed up is summed up again as it is. -/
theorem conclude_again (input other : Resource kind) {decision : Decision kind}
    (hcancelled : decision.outcome ≠ .failed .cancelled) (now later : String) :
    let first := input.conclude settings now decision
    other.conclude settings later ⟨first.resource, decision.outcome⟩ = first := by
  intro first
  let second : Decision kind := ⟨first.resource, decision.outcome⟩
  apply PassResult.eq_of_parts
  · by_cases hdeleted : decision.outcome = .deleted
    · exact @conclude_of_deleted _ _ _ other second hdeleted
    · have hsumsUp : first.resource.statusOrEmpty.SumsUp kind settings decision.outcome
          (settings.requeue.requeue kind.policy.terminalCodes decision.outcome) := by
        rw [conclude_statusOrEmpty input hdeleted hcancelled]
        exact concludeStatus_sumsUp _ _ _ _ _
      rw [@conclude_of_entered _ _ _ other second hdeleted hcancelled]
      simp only [second, concludeStatus_eq_self hsumsUp]
      rw [conclude_of_entered input hdeleted hcancelled]
      rfl
  · rw [conclude_outcome, conclude_outcome]
  · rw [conclude_requeue, conclude_requeue]

end Resource

/-! ### Descriptions that are reflected -/

/-- What a description of an address reports is what a status says. -/
structure Status.Reflects (status : Status) (object : WireObject) (key : ResourceKey) : Prop where
  arn : ∀ arn, object.arn = some arn → status.arn? = some arn
  code : ∀ wire, object.status = some wire →
    status.statusCode = some (.ofWire wire.code) ∧ status.statusReason = wire.reason
  workspaceId : status.workspaceId = some key.workspaceId
  name : ∀ name, key.name = some name → status.name = some name
  endpoint : ∀ endpoint, object.prometheusEndpoint = some endpoint →
    status.prometheusEndpoint = some endpoint

namespace Status

theorem reflects_observe_bind (status : Status) (object : WireObject) (key : ResourceKey) :
    ((status.observe object).bind key).Reflects object key where
  arn arn h := by simp [observe, bind, arn?, h]
  code wire h := by simp [observe, bind, h]
  workspaceId := rfl
  name name h := by simp [bind, h]
  endpoint endpoint h := by simp [observe, bind, h]

/-- Observing again what a status reflects brings nothing new. -/
theorem Reflects.observe_bind_eq {status : Status} {object : WireObject} {key : ResourceKey}
    (h : status.Reflects object key) : (status.observe object).bind key = status := by
  obtain ⟨metadata, code, reason, conditions, workspaceId, name, endpoint⟩ := status
  simp only [observe, bind, Status.mk.injEq]
  refine ⟨?_, ?_, ?_, trivial, h.workspaceId.symm, ?_, ?_⟩
  · rcases harn : object.arn with _ | arn
    · rfl
    · obtain ⟨found, rfl, hfound⟩ := Option.bind_eq_some_iff.mp (h.arn arn harn)
      simp only [Option.getD_some, ← hfound]
  · rcases hcode : object.status with _ | wire
    · rfl
    · exact (h.code wire hcode).1.symm
  · rcases hcode : object.status with _ | wire
    · rfl
    · exact (h.code wire hcode).2.symm
  · rcases hname : key.name with _ | bound
    · rfl
    · exact (h.name bound hname).symm
  · rcases hendpoint : object.prometheusEndpoint with _ | reported
    · rfl
    · exact (h.endpoint reported hendpoint).symm

/-- Reflecting a description is not a matter of the conditions. -/
theorem Reflects.with_conditions {status : Status} {object : WireObject} {key : ResourceKey}
    (h : status.Reflects object key) (conditions : Conditions) :
    Status.Reflects { status with conditions } object key :=
  ⟨h.arn, h.code, h.workspaceId, h.name, h.endpoint⟩

theorem Reflects.withDefaults {status : Status} {object : WireObject} {key : ResourceKey}
    (h : status.Reflects object key) (identity : Identity) :
    (status.withDefaults identity).Reflects object key where
  arn arn harn := by rw [arn?_withDefaults, h.arn arn harn]
  code := h.code
  workspaceId := h.workspaceId
  name := h.name
  endpoint := h.endpoint

end Status

theorem Status.Reflects.concludeStatus {status : Status} {object : WireObject} {key : ResourceKey}
    (h : status.Reflects object key) (settings : PassSettings) (now : String) (outcome : Outcome)
    (requeue : Requeue) :
    (Resource.concludeStatus kind settings now outcome requeue status).Reflects object key := by
  obtain ⟨conditions, heq⟩ :=
    @Resource.exists_concludeStatus_eq kind settings now outcome requeue status
  rw [heq]
  exact (h.with_conditions conditions).withDefaults settings.identity

end ManagedPrometheus
