import ManagedPrometheus.Proofs.AssignedIdentity
import ManagedPrometheus.Proofs.ClientTokens
import ManagedPrometheus.Proofs.FreshestReports

/-!
# What a pass leaves to the user

To find out what differs, a pass overwrites a copy of the spec with what is described, the
configuration included. None of this is returned. What is returned is the spec of the input with the
answers to a create or to changes folded in, and those replace a field only if they report it
(`Syncs.value_eq`); the configuration and the workspace are never among what they report.

A pass that waits and has asked for nothing sums up its input as it was, so that only the `Synced`
condition is new, and a region and an account where there was none.
-/

namespace ManagedPrometheus

variable {σ : Type} {kind : Kind} {now : String} {settings : PassSettings}

/-! ### Answers -/

/-- What a create or a change reports of a resource, if it succeeds and reports something. -/
def Exchange.answer? (exchange : Exchange) : Option WireObject :=
  if exchange.call.mutates then exchange.report? else none

/-- The answers to the create and the changes of a pass, in their order. -/
def PassRecord.answers (record : PassRecord kind) : List WireObject :=
  record.exchanges.filterMap Exchange.answer?

/-- What a report says of a field of a spec. The workspace of a spec is not asked back, and a
configuration travels as payload. -/
def WireObject.value? (object : WireObject) : Field → Option FieldValue
  | .tags => object.tags.map .tags
  | .workspaceAlias => object.workspaceAlias.map fun text => .text (some text)
  | .kmsKeyArn => object.kmsKeyArn.map fun text => .text (some text)
  | .name => object.name.map fun text => .text (some text)
  | .logGroupArn => object.logGroupArn.map fun text => .text (some text)
  | .configuration | .workspaceId => none

theorem lastReported_eq_none {α : Type} {field : WireObject → Option α}
    (h : ∀ object, field object = none) (reports : List WireObject) :
    lastReported field reports = none := by
  rw [lastReported, List.filterMap_eq_nil_iff.mpr fun object _ => h object]
  rfl

theorem Spec.value_adopt (spec : Spec kind) (object : WireObject) {field : Field}
    (hfield : field ∈ kind.fields) :
    (spec.adopt object).value field = (object.value? field).getD (spec.value field) := by
  have hoptional (said before : Option String) :
      FieldValue.text (said <|> before)
        = (said.map fun text => FieldValue.text (some text)).getD (.text before) := by
    cases said <;> rfl
  have hrequired (said : Option String) (before : String) :
      FieldValue.text (some (said.getD before))
        = (said.map fun text => FieldValue.text (some text)).getD (.text (some before)) := by
    cases said <;> rfl
  have htags (said : Option Tags) (before : Tags) :
      FieldValue.tags (said.getD before) = (said.map FieldValue.tags).getD (.tags before) := by
    cases said <;> rfl
  cases kind <;> cases field <;>
    first
    | exact absurd hfield (by decide)
    | exact hoptional _ _
    | exact hrequired _ _
    | exact htags _ _
    | rfl

/-! ### Specs at the exits -/

section

variable {field : Field}

theorem Resource.spec_adoptCreated (desired : Resource kind) (object : WireObject) :
    (desired.adoptCreated object).spec = desired.spec.adopt object := by
  rw [adoptCreated]
  split <;> rfl

theorem Spec.value_follows (hfield : field ∈ kind.fields) :
    Follows Exchange.answer? (·.value? field)
      fun resource : Resource kind => resource.spec.value field where
  hears _ hmutates := if_pos hmutates
  foldResponse resource object := resource.spec.value_adopt object hfield
  adoptCreated desired object := by
    rw [desired.spec_adoptCreated]
    exact desired.spec.value_adopt object hfield

/-- No exit returns anything of what was described in the spec. -/
theorem Syncs.value_eq {desired : Resource kind} {made : List Exchange} {decision : Decision kind}
    (h : Syncs now desired made decision) (hfield : field ∈ kind.fields) :
    decision.resource.spec.value field
      = valueAfter Exchange.answer? (·.value? field) (desired.spec.value field) made := by
  cases h with
  | unread hreads => cases hreads <;> rfl
  | creating hreads hcreates =>
    rw [(Spec.value_follows hfield).creates hcreates]
    cases hreads with
    | unaddressed => rfl
    | absent => rw [List.singleton_append, valueAfter_cons_of_silent Exchange.answer? rfl]
  | updating _ hupdates =>
    rw [valueAfter_cons_of_silent Exchange.answer? rfl]
    cases hupdates with
    | decided hdecided =>
      rcases Resource.decideAtOnce_resource hdecided with hresource | hresource
      · rw [hresource]
        rfl
      · rw [hresource]
        rfl
    | unidentified => rfl
    | changing _ _ happlies =>
      -- the changes are applied to the desired spec under the latest status
      have hchanged := (Spec.value_follows hfield).applies happlies
      exact hchanged

end

/-! ### What is returned -/

namespace PassRecord

variable {record : PassRecord kind}

/-- What the user has written is returned as it was, but for the fields of the spec that an answer
has reported: those are as they were last reported. -/
structure LeavesToUser (record : PassRecord kind) : Prop where
  metadata : record.result.resource.metadata = record.input.metadata
  configuration : record.result.resource.spec.value .configuration
    = record.input.spec.value .configuration
  workspaceId : record.result.resource.spec.value .workspaceId
    = record.input.spec.value .workspaceId
  adopted : ∀ field ∈ kind.fields, record.result.resource.spec.value field
    = (lastReported (·.value? field) record.answers).getD (record.input.spec.value field)

theorem Lawful.leavesToUser (h : record.Lawful settings) (htask : record.task = .sync)
    (hcancelled : record.result.outcome ≠ .failed .cancelled) : record.LeavesToUser := by
  obtain ⟨decision, hresult, ⟨-, hsyncs⟩ | ⟨hfinalize, -⟩⟩ := h.exit
  · have hadopted : ∀ field ∈ kind.fields, record.result.resource.spec.value field
        = (lastReported (·.value? field) record.answers).getD (record.input.spec.value field) := by
      intro field hfield
      rw [hresult, Resource.conclude_outcome] at hcancelled
      rw [hresult, Resource.spec_conclude _ hcancelled]
      exact hsyncs.value_eq hfield
    have hkept (field : Field) (hsilent : ∀ object : WireObject, object.value? field = none) :
        record.result.resource.spec.value field = record.input.spec.value field := by
      by_cases hfield : field ∈ kind.fields
      · rw [hadopted field hfield, lastReported_eq_none hsilent, Option.getD_none]
      · rw [Spec.value_of_notMem hfield, Spec.value_of_notMem hfield]
    exact ⟨h.metadata_eq, hkept .configuration fun _ => rfl, hkept .workspaceId fun _ => rfl,
      hadopted⟩
  · cases htask.symm.trans hfinalize

end PassRecord

/-! ### Waits -/

theorem Status.region?_withDefaults (status : Status) (identity : Identity) :
    (status.withDefaults identity).region? = (status.region? <|> identity.region) := by
  rw [region?, region?, withDefaults]
  rcases status.resourceMetadata with _ | metadata <;> rfl

theorem Status.ownerAccountId?_withDefaults (status : Status) (identity : Identity) :
    (status.withDefaults identity).ownerAccountId?
      = (status.ownerAccountId? <|> identity.accountId) := by
  rw [ownerAccountId?, ownerAccountId?, withDefaults]
  rcases status.resourceMetadata with _ | metadata <;> rfl

/-- Two resources differ in nothing but the `Synced` condition, and in a region and an account that
were unset before. -/
structure Resource.DiffersInSynced (identity : Identity) (before after : Resource kind) : Prop where
  metadata : after.metadata = before.metadata
  spec : after.spec = before.spec
  statusCode : after.statusOrEmpty.statusCode = before.statusOrEmpty.statusCode
  statusReason : after.statusOrEmpty.statusReason = before.statusOrEmpty.statusReason
  workspaceId : after.statusOrEmpty.workspaceId = before.statusOrEmpty.workspaceId
  name : after.statusOrEmpty.name = before.statusOrEmpty.name
  endpoint : after.statusOrEmpty.prometheusEndpoint = before.statusOrEmpty.prometheusEndpoint
  conditions : ∀ type ≠ ConditionType.synced, after.condition? type = before.condition? type
  arn : after.statusOrEmpty.arn? = before.statusOrEmpty.arn?
  region : after.statusOrEmpty.region? = (before.statusOrEmpty.region? <|> identity.region)
  ownerAccountId : after.statusOrEmpty.ownerAccountId?
    = (before.statusOrEmpty.ownerAccountId? <|> identity.accountId)

theorem Resource.conclude_wait_differsInSynced (input : Resource kind) (reason : WaitReason) :
    input.DiffersInSynced settings.identity
      (input.conclude settings now ⟨input, .wait reason⟩).resource := by
  let requeue := settings.requeue.requeue kind.policy.terminalCodes (.wait reason)
  let status := concludeStatus kind settings now (.wait reason) requeue input.statusOrEmpty
  have hreturned : (input.conclude settings now ⟨input, .wait reason⟩).resource
      = { input with status := some status } := rfl
  have hconditions : ∀ type ≠ ConditionType.synced,
      status.conditions.get? type = input.statusOrEmpty.conditions.get? type := by
    intro type htype
    exact get?_concludeStatus_of_none rfl settings now requeue input.statusOrEmpty htype
  obtain ⟨conditions, hstatus⟩ : ∃ conditions, status
      = ({ input.statusOrEmpty with conditions } : Status).withDefaults settings.identity :=
    exists_concludeStatus_eq settings now (.wait reason) requeue input.statusOrEmpty
  rw [hreturned]
  refine ⟨rfl, rfl, rfl, rfl, rfl, rfl, rfl, hconditions, ?_, ?_, ?_⟩
  · show status.arn? = _
    rw [hstatus, Status.arn?_withDefaults]
    rfl
  · show status.region? = _
    rw [hstatus, Status.region?_withDefaults]
    rfl
  · show status.ownerAccountId? = _
    rw [hstatus, Status.ownerAccountId?_withDefaults]
    rfl

/-- **A pass does not rewrite the user's object.** Any sync of any history that is not cancelled
returns the metadata, the configuration and the workspace of its input, and of the other fields of
the spec what the last answer to a create or to a change said that carried the field, or else what
the input held. Any pass that waits and has asked for nothing returns its input with another
`Synced` condition, and with a region and an account where there were none. -/
theorem history_leavesToUser (backend : Backend σ) (settings : PassSettings)
    (rounds : List (Round kind)) (resource : Resource kind) (state : σ) :
    ∀ record ∈ history backend settings rounds resource state,
      (record.task = .sync → record.result.outcome ≠ .failed .cancelled → record.LeavesToUser) ∧
      ∀ reason, record.result.outcome = .wait reason →
        (∀ call ∈ record.calls, call.mutates = false) →
        record.input.DiffersInSynced settings.identity record.result.resource := by
  intro record hrecord
  have hlawful := history_lawful backend settings rounds resource state record hrecord
  refine ⟨hlawful.leavesToUser, ?_⟩
  intro reason hwait hquiet
  rw [hlawful.result_of_quiet_wait hwait hquiet]
  exact record.input.conclude_wait_differsInSynced reason

/-- The answer to a put reports other tags, and the next pass finds the put still under way. -/
theorem history_leavesToUser_put :
    let wanted : Tags := .ofList [("team", "infra")]
    let rules : Resource .ruleGroupsNamespace :=
      ⟨.empty, ⟨"rules", "ws-1", some "groups: []", wanted⟩, none⟩
    let found : WireObject :=
      { WireObject.empty with status := some ⟨"ACTIVE", none⟩, tags := some wanted }
    let changed : WireObject :=
      { WireObject.empty with
        status := some ⟨"UPDATING", none⟩, tags := some (.ofList [("team", "platform")]) }
    let script : Script :=
      { Script.empty with
        describes := [.ok found, .ok changed]
        updates := [.ok (some changed)] }
    let settings := Settings.default.passSettings ⟨some "eu-west-1", none⟩
    let rounds : List (Round .ruleGroupsNamespace) :=
      [⟨id, .sync, "T", false⟩, ⟨id, .sync, "U", false⟩]
    ∃ first second, history scripted settings rounds rules script = [first, second] ∧
      first.calls.map (·.api .ruleGroupsNamespace)
        = ["DescribeRuleGroupsNamespace", "PutRuleGroupsNamespace"] ∧
      first.result.outcome = .wait (.inProgress .updating) ∧
      first.result.resource.spec
        = ⟨"rules", "ws-1", some "groups: []", .ofList [("team", "platform")]⟩ ∧
      first.LeavesToUser ∧
      second.calls = [.describe ⟨"ws-1", some "rules"⟩] ∧
      second.result.outcome = .wait (.inProgress .updating) ∧
      second.input.DiffersInSynced settings.identity second.result.resource := by
  intro wanted rules found changed script settings rounds
  have hleaves := history_leavesToUser scripted settings rounds rules script
  let first := (Round.run scripted settings ⟨id, .sync, "T", false⟩ rules script).1
  let second := (Round.run scripted settings ⟨id, .sync, "U", false⟩ first.result.resource
    (Round.run scripted settings ⟨id, .sync, "T", false⟩ rules script).2).1
  have hhistory : history scripted settings rounds rules script = [first, second] := rfl
  have hwaits : first.result.outcome = .wait (.inProgress .updating) := by decide
  have hwaitsAgain : second.result.outcome = .wait (.inProgress .updating) := by decide
  have hasked : second.calls = [.describe ⟨"ws-1", some "rules"⟩] := by decide
  rw [hhistory] at hleaves
  refine ⟨first, second, hhistory, by decide, hwaits, by decide, ?_, hasked, hwaitsAgain, ?_⟩
  · exact (hleaves first (by simp)).1 rfl (by simp [hwaits])
  · exact (hleaves second (by simp)).2 _ hwaitsAgain (by simp [hasked, Call.mutates])

end ManagedPrometheus
