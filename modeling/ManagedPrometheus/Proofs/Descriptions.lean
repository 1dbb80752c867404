import ManagedPrometheus.Proofs.Decisions

/-!
# What a description shows

A snapshot is a resource with the spec and the status that a description shows. Mostly these are
just what the description says (`snapshot_of_plain`). Only a kind that submits its configuration
again after a failure reads it otherwise, and only around a failed phase: before the description or
in it.

The workspace that is shown is the one of the address, whatever the description says. So a
description that holds all that a spec asks for (`WireObject.Reports`) shows the spec itself if the
spec declares the address, and otherwise at most a difference in an immutable field.

A definition that is stored as failed shows no configuration, so its own is put
(`Resource.puts_of_failed`).
-/

namespace ManagedPrometheus

variable {kind : Kind} {now : String}

/-- The spec that a description of an address shows. -/
def Spec.shown (spec : Spec kind) (key : ResourceKey) (object : WireObject) : Spec kind :=
  let shown := (spec.rekey key).replace object
  match shown.configuration? with
  | some _ => shown.setConfiguration (object.data.map Utf8.decode)
  | none => shown

/-- No failed phase keeps a description from being read as it is. -/
def Resource.ReadsPlainly (resource : Resource kind) (object : WireObject) : Prop :=
  kind.policy.preservesOnValidationFailure = true →
    resource.phase.isFailed = false ∧
      (resource.statusOrEmpty.observe object).phase.isFailed = false

namespace Resource

theorem ReadsPlainly.validationFailure? {resource : Resource kind} {object : WireObject}
    (h : resource.ReadsPlainly object) (wasFailed : Bool) (key : ResourceKey) :
    Resource.validationFailure? kind wasFailed ((resource.statusOrEmpty.observe object).bind key)
      = none := by
  rw [Resource.validationFailure?]
  by_cases hpreserves : kind.policy.preservesOnValidationFailure = true
  · have hphase : ((resource.statusOrEmpty.observe object).bind key).phase.isFailed = false :=
      (h hpreserves).2
    simp [hphase]
  · simp [hpreserves]

theorem ReadsPlainly.snapshotConfiguration {resource : Resource kind} {object : WireObject}
    (h : resource.ReadsPlainly object) (decoded current : Option String) :
    Resource.snapshotConfiguration kind resource.phase.isFailed none decoded current
      = decoded := by
  rw [Resource.snapshotConfiguration]
  by_cases hpreserves : kind.policy.preservesOnValidationFailure = true
  · simp [(h hpreserves).1]
  · simp [hpreserves]

theorem snapshot_of_plain {desired : Resource kind} {object : WireObject}
    (h : desired.ReadsPlainly object) (now : String) (key : ResourceKey) :
    desired.snapshot now key object
      = { desired with
          spec := desired.spec.shown key object
          status := some ((desired.statusOrEmpty.observe object).bind key) } := by
  rcases hcurrent : ((desired.spec.rekey key).replace object).configuration? with _ | current
  · simp only [snapshot, h.validationFailure?, Spec.shown, hcurrent]
  · simp only [snapshot, h.validationFailure?, h.snapshotConfiguration, Spec.shown, hcurrent]

end Resource

/-- The code that a description reports, if it reports one. -/
def WireObject.code? (object : WireObject) : Option String := object.status.map (·.code)

theorem observe_phase_of_code {object : WireObject} {code : String}
    (h : object.code? = some code) (status : Status) :
    (status.observe object).phase = Phase.ofCode (StatusCode.ofWire code) := by
  obtain ⟨wire, hwire, rfl⟩ := Option.map_eq_some_iff.mp h
  simp [Status.phase, Status.observe, hwire, Phase.ofCode?]

/-! ### What is asked for -/

/-- A report holds what a spec asks for. What it does not carry is not set, but for the name: that
is known from the address. -/
def WireObject.Reports (object : WireObject) : {kind : Kind} → Spec kind → Prop
  | .workspace, spec =>
    object.workspaceAlias = spec.workspaceAlias ∧ object.kmsKeyArn = spec.kmsKeyArn ∧
      object.tags.getD .empty = spec.tags
  | .ruleGroupsNamespace, spec =>
    object.name.getD spec.name = spec.name ∧ object.data.map Utf8.decode = spec.configuration ∧
      object.tags.getD .empty = spec.tags
  | .alertManagerDefinition, spec => object.data.map Utf8.decode = spec.configuration
  | .loggingConfiguration, spec => object.logGroupArn = some spec.logGroupArn

namespace WireObject.Reports

variable {spec : Spec kind} {object : WireObject} {key : ResourceKey}

/-- What holds what is asked for, under the address that is declared, shows the spec itself. -/
theorem shown_eq (h : object.Reports spec) (hkey : spec.rekey key = spec) :
    spec.shown key object = spec := by
  rw [Spec.shown, hkey]
  cases kind with
  | workspace =>
    obtain ⟨halias, hkms, htags⟩ := h
    simp [Spec.replace, Spec.configuration?, halias, hkms, htags]
  | ruleGroupsNamespace =>
    obtain ⟨hname, hconfiguration, htags⟩ := h
    simp [Spec.replace, Spec.configuration?, Spec.setConfiguration, hname, hconfiguration, htags]
  | alertManagerDefinition =>
    have hconfiguration : object.data.map Utf8.decode = spec.configuration := h
    simp [Spec.replace, Spec.configuration?, Spec.setConfiguration, hconfiguration]
  | loggingConfiguration =>
    have hgroup : object.logGroupArn = some spec.logGroupArn := h
    simp [Spec.replace, Spec.configuration?, hgroup]

/-- What holds what is asked for differs in an immutable field or not at all. -/
theorem eq_shown_of_fixedAlike (h : object.Reports spec)
    (hfixed : spec.FixedAlike (spec.shown key object)) : spec = spec.shown key object := by
  cases kind with
  | workspace =>
    obtain ⟨halias, _, htags⟩ := h
    exact hfixed.eq htags.symm halias.symm
  | ruleGroupsNamespace =>
    obtain ⟨_, hconfiguration, htags⟩ := h
    exact hfixed.eq htags.symm hconfiguration.symm
  | alertManagerDefinition => exact hfixed.eq rfl (Eq.symm h)
  | loggingConfiguration =>
    have hgroup : object.logGroupArn = some spec.logGroupArn := h
    refine hfixed.eq rfl ?_
    simp [Spec.attribute, Spec.shown, Spec.replace, Spec.rekey, Spec.configuration?, hgroup]

end WireObject.Reports

/-- If no immutable field differs from what was described under an address, the spec declares the
address. -/
theorem Spec.FixedAlike.rekey_eq {desired : Resource kind} {key : ResourceKey} {object : WireObject}
    (h : desired.spec.FixedAlike (desired.snapshot now key object).spec)
    (hname : kind = .ruleGroupsNamespace → ∀ name ∈ object.name, key.name = some name) :
    desired.spec.rekey key = desired.spec := by
  cases kind with
  | workspace => rfl
  | ruleGroupsNamespace =>
    have hworkspace : desired.spec.workspaceId = key.workspaceId :=
      Option.some.inj (FieldValue.text.inj (h .workspaceId (by decide)))
    have hshown : desired.spec.name = object.name.getD (key.name.getD desired.spec.name) :=
      Option.some.inj (FieldValue.text.inj (h .name (by decide)))
    have hown : desired.spec.name = key.name.getD desired.spec.name := by
      rcases hreported : object.name with _ | name
      · simpa [hreported] using hshown
      · simpa [hreported, hname rfl name hreported] using hshown
    simp only [Spec.rekey, ← hworkspace, ← hown]
  | alertManagerDefinition =>
    have hworkspace : desired.spec.workspaceId = key.workspaceId :=
      Option.some.inj (FieldValue.text.inj (h .workspaceId (by decide)))
    simp only [Spec.rekey, ← hworkspace]
  | loggingConfiguration =>
    have hworkspace : desired.spec.workspaceId = key.workspaceId :=
      Option.some.inj (FieldValue.text.inj (h .workspaceId (by decide)))
    simp only [Spec.rekey, ← hworkspace]

/-! ### Definitions that have failed -/

namespace Resource

variable {definition : Resource .alertManagerDefinition} {key : ResourceKey} {object : WireObject}

/-- A definition that is stored as failed shows no configuration, whatever is described. -/
theorem snapshot_spec_of_failed (hfailed : definition.phase.isFailed = true) :
    (definition.snapshot now key object).spec = ⟨key.workspaceId, none⟩ := by
  simp only [snapshot, hfailed]
  rfl

/-- So if it has a configuration, that is put. -/
theorem puts_of_failed (now : String) (hfailed : definition.phase.isFailed = true)
    (hphase : MayChange .alertManagerDefinition (definition.statusOrEmpty.observe object).phase)
    (hworkspace : definition.spec.workspaceId = key.workspaceId)
    (hconfiguration : definition.spec.configuration ≠ none) :
    definition.decideAtOnce (definition.snapshot now key object) = none ∧
      definition.mutations (definition.snapshot now key object)
        = .ok [.put definition.request] := by
  have hspec : (definition.snapshot now key object).spec = ⟨definition.spec.workspaceId, none⟩ := by
    rw [snapshot_spec_of_failed hfailed, hworkspace]
  have hopen : definition.decideAtOnce (definition.snapshot now key object) = none := by
    refine decideAtOnce_eq_none_iff.mpr ⟨by rwa [snapshot_phase], ?_, ?_⟩
    · rw [hspec]
      intro field hfield
      obtain rfl := List.mem_singleton.mp hfield
      rfl
    · intro hequal
      exact hconfiguration
        (congrArg AlertManagerDefinitionSpec.configuration (hequal.trans hspec))
  refine ⟨hopen, ?_⟩
  rcases hmutations : definition.mutations (definition.snapshot now key object)
    with failure | changes
  · exact absurd rfl (mutations_eq_error_iff.mp hmutations).2.1
  · rw [mutations_of_tags_agree hopen rfl hmutations]

end Resource

end ManagedPrometheus
