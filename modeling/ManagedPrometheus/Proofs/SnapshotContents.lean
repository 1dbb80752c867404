import ManagedPrometheus.Proofs.Binding
import ManagedPrometheus.Proofs.Descriptions

/-!
# Snapshots carry nothing over

A snapshot starts from the resource that is desired, and what is left of that in its spec would hide
a difference. The spec of a snapshot is determined by the address and the description
(`Spec.described`), with one exception: the configuration of an alert manager definition, around a
failed phase. That is absent or the desired one (`Resource.ShowsConfiguration`), depending on the
status before the description was folded in and after.

The address of a snapshot is the one that was described, as that is what it is bound to last.
-/

namespace ManagedPrometheus

variable {kind : Kind} {key : ResourceKey} {object : WireObject}

/-! ### Specs of an address and a description -/

/-- The spec that a description of an address tells of; what it does not report is not set. -/
def Spec.described (key : ResourceKey) (object : WireObject) : (kind : Kind) → Spec kind
  | .workspace => ⟨object.workspaceAlias, object.kmsKeyArn, object.tags.getD .empty⟩
  | .ruleGroupsNamespace =>
    ⟨(object.name <|> key.name).getD "", key.workspaceId, object.data.map Utf8.decode,
      object.tags.getD .empty⟩
  | .alertManagerDefinition => ⟨key.workspaceId, object.data.map Utf8.decode⟩
  | .loggingConfiguration => ⟨key.workspaceId, object.logGroupArn.getD ""⟩

theorem Spec.shown_eq_described (spec : Spec kind) (hfits : key.Fits kind) :
    spec.shown key object = .described key object kind := by
  cases kind with
  | workspace => rfl
  | ruleGroupsNamespace =>
    -- the address has a name, so none is left of the spec's
    obtain ⟨-, name, hname, -⟩ := hfits
    have hshown : object.name.getD (key.name.getD spec.name)
        = (object.name <|> key.name).getD "" := by
      rw [hname]
      rcases object.name with _ | reported <;> rfl
    exact congrArg (fun shownName : String =>
      (⟨shownName, key.workspaceId, object.data.map Utf8.decode, object.tags.getD .empty⟩ :
        Spec .ruleGroupsNamespace)) hshown
  | alertManagerDefinition => rfl
  | loggingConfiguration => rfl

theorem Resource.readsPlainly_of_ne (hkind : kind ≠ .alertManagerDefinition)
    (desired : Resource kind) (object : WireObject) : desired.ReadsPlainly object := by
  intro hpreserves
  cases kind with
  | alertManagerDefinition => exact absurd rfl hkind
  | workspace => cases hpreserves
  | ruleGroupsNamespace => cases hpreserves
  | loggingConfiguration => cases hpreserves

theorem Resource.spec_snapshot_of_ne (hkind : kind ≠ .alertManagerDefinition)
    (hfits : key.Fits kind) (desired : Resource kind) (now : String) :
    (desired.snapshot now key object).spec = .described key object kind := by
  rw [snapshot_of_plain (readsPlainly_of_ne hkind desired object)]
  exact desired.spec.shown_eq_described hfits

/-! ### The configuration of a definition -/

theorem occursIn_iff (part text : List Char) : occursIn part text = true ↔ part <:+: text := by
  induction text with
  | nil => simp [occursIn]
  | cons c rest ih =>
    rw [occursIn, Bool.or_eq_true, ih, List.isPrefixOf_iff_prefix, List.infix_cons_iff]

/-- A status is that of a resource that the backend failed to validate. -/
def Status.FailedToValidate (status : Status) : Prop :=
  status.phase.isFailed = true ∧ ∃ reason, status.statusReason = some reason ∧
    "error validating".toList <:+: reason.toList

/-- A configuration is what a snapshot of a definition is to show, by the status that is stored and
the one that the description makes of it. -/
structure Resource.ShowsConfiguration (definition : Resource .alertManagerDefinition)
    (object : WireObject) (shown : Option String) : Prop where
  failed : definition.phase.isFailed = true → shown = none
  unvalidated : definition.phase.isFailed = false →
    (definition.statusOrEmpty.observe object).FailedToValidate →
    shown = definition.spec.configuration
  otherwise : definition.phase.isFailed = false →
    ¬ (definition.statusOrEmpty.observe object).FailedToValidate →
    shown = object.data.map Utf8.decode

namespace Resource

theorem validationFailure?_eq_none_iff (status : Status) :
    validationFailure? .alertManagerDefinition false status = none ↔
      ¬ status.FailedToValidate := by
  have hreason (reason : String) :
      isValidationFailure reason = true ↔ "error validating".toList <:+: reason.toList :=
    occursIn_iff _ _
  rw [validationFailure?, Status.FailedToValidate]
  rcases hphase : status.phase.isFailed with _ | _
  · simp
  · simp [Kind.policy, hreason]

theorem spec_snapshot_definition (definition : Resource .alertManagerDefinition) (now : String)
    (key : ResourceKey) (object : WireObject) :
    ∃ configuration, (definition.snapshot now key object).spec = ⟨key.workspaceId, configuration⟩ ∧
      definition.ShowsConfiguration object configuration := by
  let folded := (definition.statusOrEmpty.observe object).bind key
  let failure? := validationFailure? .alertManagerDefinition definition.phase.isFailed folded
  refine ⟨_, rfl, ?_⟩
  constructor
  case failed =>
    intro hfailed
    rw [hfailed]
    rfl
  case unvalidated =>
    intro hopen hfailed
    have hreported : validationFailure? .alertManagerDefinition false folded ≠ none := by
      intro hnone
      exact (validationFailure?_eq_none_iff folded).mp hnone hfailed
    obtain ⟨reason, hreason⟩ := Option.ne_none_iff_exists'.mp hreported
    rw [hopen, hreason]
    rfl
  case otherwise =>
    intro hopen hvalid
    have hnone : validationFailure? .alertManagerDefinition false folded = none :=
      (validationFailure?_eq_none_iff folded).mpr hvalid
    rw [hopen, hnone]
    rfl

theorem key?_snapshot (hfits : key.Fits kind) (desired : Resource kind) (now : String) :
    (desired.snapshot now key object).key? = some key := by
  have hbound : (desired.snapshot now key object).BoundTo key :=
    boundTo_of_record hfits (binding_snapshot desired key object)
  exact hbound.key?_eq

end Resource

/-! ### Snapshots as a whole -/

/-- **A snapshot carries nothing over.** For an address of the kind's shape, whatever the resource
that is desired: except for alert manager definitions, the spec of a snapshot is determined by the
address and the description, so that two resources have the same; that of a definition is the
workspace of the address with a configuration that is absent, desired or described by the two
statuses; and the address of every snapshot is the one that was described. -/
theorem snapshot_carriesNothingOver (key : ResourceKey) (object : WireObject) :
    (∀ kind ≠ Kind.alertManagerDefinition, key.Fits kind →
      ∀ (first second : Resource kind) (now later : String),
        (first.snapshot now key object).spec = (second.snapshot later key object).spec ∧
          (first.snapshot now key object).spec = .described key object kind) ∧
    (∀ (definition : Resource .alertManagerDefinition) (now : String), ∃ configuration,
      (definition.snapshot now key object).spec = ⟨key.workspaceId, configuration⟩ ∧
        definition.ShowsConfiguration object configuration) ∧
    ∀ kind, key.Fits kind → ∀ (desired : Resource kind) (now : String),
      (desired.snapshot now key object).key? = some key := by
  refine ⟨?_, ?_, ?_⟩
  · intro kind hkind hfits first second now later
    have hdetermined (desired : Resource kind) (now : String) :
        (desired.snapshot now key object).spec = .described key object kind :=
      desired.spec_snapshot_of_ne hkind hfits now
    have hfirst := hdetermined first now
    have hsecond := hdetermined second later
    exact ⟨hfirst.trans hsecond.symm, hfirst⟩
  · intro definition now
    exact definition.spec_snapshot_definition now key object
  · intro kind hfits desired now
    exact desired.key?_snapshot hfits now

/-- Two namespaces bound elsewhere, and a definition whose validation has failed since the last
pass; the description reports no payload, and another workspace. -/
theorem snapshot_carriesNothingOver_elsewhere :
    let object : WireObject :=
      { WireObject.empty with
        workspaceId := some "ws-9"
        status := some ⟨"UPDATE_FAILED", some "error validating: bad route"⟩ }
    let bound : Status := { Status.empty with workspaceId := some "ws-2", name := some "other" }
    let rules : ResourceKey := ⟨"ws-1", some "rules"⟩
    let first : Resource .ruleGroupsNamespace :=
      ⟨.empty, ⟨"a", "ws-2", some "groups: []", .ofList [("team", "infra")]⟩, some bound⟩
    let second : Resource .ruleGroupsNamespace := ⟨.empty, ⟨"b", "ws-3", none, .empty⟩, none⟩
    let alerts : ResourceKey := ⟨"ws-1", none⟩
    let definition : Resource .alertManagerDefinition :=
      ⟨.empty, ⟨"ws-2", some "route: {}"⟩, some bound⟩
    (first.snapshot "T" rules object).spec = ⟨"rules", "ws-1", none, .empty⟩ ∧
      (second.snapshot "U" rules object).spec = ⟨"rules", "ws-1", none, .empty⟩ ∧
      (definition.snapshot "T" alerts object).spec = ⟨"ws-1", some "route: {}"⟩ ∧
      (first.snapshot "T" rules object).key? = some rules ∧
      (definition.snapshot "T" alerts object).key? = some alerts := by
  intro object bound rules first second alerts definition
  have hrules : rules.Fits .ruleGroupsNamespace := ⟨by decide, "rules", rfl, by decide⟩
  have halerts : alerts.Fits .alertManagerDefinition := ⟨by decide, rfl⟩
  obtain ⟨hspecs, -, hnamespaces⟩ := snapshot_carriesNothingOver rules object
  obtain ⟨-, hdefinitions, haddresses⟩ := snapshot_carriesNothingOver alerts object
  obtain ⟨hsame, hfirst⟩ := hspecs _ (by decide) hrules first second "T" "U"
  obtain ⟨configuration, hspec, hshows⟩ := hdefinitions definition "T"
  have hfailed : (definition.statusOrEmpty.observe object).FailedToValidate :=
    ⟨by decide, _, rfl, by decide⟩
  obtain rfl := hshows.unvalidated (by decide) hfailed
  exact ⟨hfirst, hsame.symm.trans hfirst, hspec, hnamespaces _ hrules first "T",
    haddresses _ halerts definition "T"⟩

end ManagedPrometheus
