import ManagedPrometheus.Proofs.CallDiscipline
import ManagedPrometheus.Proofs.Differences

/-!
# Decisions of an update

Before an update asks for a change it looks at the phase that was described, then at the immutable
fields, then at the rest of the spec. `DecidesAtOnce` lists what it decides there, one constructor
for each way to end without a call, and `decideAtOnce_eq_none_iff` says when it goes on to make
changes: the phase admits them, no immutable field differs, and the specs are not the same.

A decision taken at once depends on the two specs and on what the latest status says of phase and
reason, and on nothing else of the two resources (`DecidesAtOnce.transfer`).
-/

namespace ManagedPrometheus

variable {kind : Kind} {desired latest : Resource kind}

/-! ### Specs by their fields -/

/-- Specs that hold the same in every field are the same. -/
theorem Spec.ext_value {a b : Spec kind} (h : ∀ field, a.value field = b.value field) : a = b := by
  cases kind with
  | workspace =>
    obtain ⟨workspaceAlias, kmsKeyArn, tags⟩ := a
    obtain rfl : workspaceAlias = b.workspaceAlias := FieldValue.text.inj (h .workspaceAlias)
    obtain rfl : kmsKeyArn = b.kmsKeyArn := FieldValue.text.inj (h .kmsKeyArn)
    obtain rfl : tags = b.tags := FieldValue.tags.inj (h .tags)
    rfl
  | ruleGroupsNamespace =>
    obtain ⟨name, workspaceId, configuration, tags⟩ := a
    obtain rfl : name = b.name := Option.some.inj (FieldValue.text.inj (h .name))
    obtain rfl : workspaceId = b.workspaceId :=
      Option.some.inj (FieldValue.text.inj (h .workspaceId))
    obtain rfl : configuration = b.configuration := FieldValue.text.inj (h .configuration)
    obtain rfl : tags = b.tags := FieldValue.tags.inj (h .tags)
    rfl
  | alertManagerDefinition =>
    obtain ⟨workspaceId, configuration⟩ := a
    obtain rfl : workspaceId = b.workspaceId :=
      Option.some.inj (FieldValue.text.inj (h .workspaceId))
    obtain rfl : configuration = b.configuration := FieldValue.text.inj (h .configuration)
    rfl
  | loggingConfiguration =>
    obtain ⟨workspaceId, logGroupArn⟩ := a
    obtain rfl : workspaceId = b.workspaceId :=
      Option.some.inj (FieldValue.text.inj (h .workspaceId))
    obtain rfl : logGroupArn = b.logGroupArn :=
      Option.some.inj (FieldValue.text.inj (h .logGroupArn))
    rfl

/-- Two specs have no differences exactly if they are the same. -/
theorem Spec.compare_isEmpty_iff_eq (a b : Spec kind) : (a.compare b).isEmpty = true ↔ a = b := by
  rw [Spec.compare_isEmpty_iff]
  constructor
  · exact Spec.ext_value
  · rintro rfl field
    rfl

/-- The fields that stay as they were created hold the same in two specs. -/
def Spec.FixedAlike (a b : Spec kind) : Prop :=
  ∀ field ∈ kind.policy.immutable, a.value field = b.value field

/-- A spec is made of its immutable fields, its tags and its attribute. -/
theorem Spec.FixedAlike.eq {a b : Spec kind} (hfixed : a.FixedAlike b)
    (htags : a.tagsOrEmpty = b.tagsOrEmpty) (hattribute : a.attribute = b.attribute) : a = b := by
  apply Spec.ext_value
  intro field
  by_cases himmutable : field ∈ kind.policy.immutable
  · exact hfixed field himmutable
  · cases kind <;> cases field <;>
      first
      | rfl
      | exact absurd (by decide) himmutable
      | exact congrArg FieldValue.tags htags
      | exact congrArg FieldValue.text hattribute

theorem immutablePaths_eq_nil_iff :
    Resource.immutablePaths kind (desired.compare latest) = [] ↔
      desired.spec.FixedAlike latest.spec := by
  rw [Resource.immutablePaths, List.filter_eq_nil_iff]
  constructor
  · intro h field hfield
    have hpath := h field.path (List.mem_map_of_mem hfield)
    rw [Resource.compare, Spec.differentAt_compare] at hpath
    exact FieldValue.eq_of_not_differ hpath
  · intro h path hpath
    obtain ⟨field, hfield, rfl⟩ := List.mem_map.mp hpath
    rw [Resource.compare, Spec.differentAt_compare, h field hfield,
      (FieldValue.differ_eq_false_iff _ _).mpr rfl]
    exact Bool.false_ne_true

/-! ### What is decided at once -/

@[simp] theorem Resource.phase_withStatusOf (desired latest : Resource kind) :
    (desired.withStatusOf latest).phase = latest.phase := by
  obtain ⟨_, _, _ | status⟩ := latest <;> rfl

/-- The reason that a failed phase is reported with: the backend's, or else a text of its own. -/
def Resource.failureReason (latest : Resource kind) : String :=
  latest.statusOrEmpty.statusReason.getD (Resource.failedPhaseText kind latest.phase)

/-- What an update decides without making a call. -/
inductive DecidesAtOnce (desired latest : Resource kind) : Decision kind → Prop
  | inProgress (hphase : latest.phase.isTransient = true ∨ latest.phase = .unrecognized) :
      DecidesAtOnce desired latest ⟨desired, .wait (.inProgress latest.phase)⟩
  | notActive (hpolicy : kind.policy.failure = .awaitActive)
      (hknown : ¬ (latest.phase.isTransient = true ∨ latest.phase = .unrecognized))
      (hphase : latest.phase ≠ .active) :
      DecidesAtOnce desired latest ⟨desired, .wait (.notActive latest.phase)⟩
  | latched (hpolicy : kind.policy.failure = .latch) (hfailed : latest.phase.isFailed = true) :
      DecidesAtOnce desired latest
        ⟨desired.withStatusOf latest,
          .failed (.failedPhase (Resource.failedPhaseText kind latest.phase))⟩
  | fixedChanged (hphase : MayChange kind latest.phase)
      (hfixed : ¬ desired.spec.FixedAlike latest.spec) :
      DecidesAtOnce desired latest
        ⟨desired.withStatusOf latest,
          .failed (.immutableFieldsChanged
            (Resource.immutablePaths kind (desired.compare latest)))⟩
  | failedUnchanged (hphase : MayChange kind latest.phase) (hequal : desired.spec = latest.spec)
      (hfailed : latest.phase.isFailed = true) :
      DecidesAtOnce desired latest
        ⟨desired.withStatusOf latest, .failed (.failedPhase latest.failureReason)⟩
  | agreed (hphase : MayChange kind latest.phase) (hequal : desired.spec = latest.spec)
      (hfailed : latest.phase.isFailed = false) :
      DecidesAtOnce desired latest ⟨desired.withStatusOf latest, .synced⟩

theorem DecidesAtOnce.of_decideByPhase {decision : Decision kind}
    (h : desired.decideByPhase latest = some decision) : DecidesAtOnce desired latest decision := by
  simp only [Resource.decideByPhase] at h
  split at h
  · rename_i hphase
    obtain rfl := Option.some.inj h
    exact .inProgress (by simpa using hphase)
  · rename_i hknown
    split at h
    · rename_i hpolicy
      split at h
      · rename_i hfailed
        obtain rfl := Option.some.inj h
        exact .latched hpolicy hfailed
      · cases h
    · rename_i hpolicy
      split at h
      · cases h
      · rename_i hphase
        obtain rfl := Option.some.inj h
        exact .notActive hpolicy (by simpa using hknown) hphase
    · cases h

theorem DecidesAtOnce.of_decideByDelta {decision : Decision kind}
    (hphase : MayChange kind latest.phase) (h : desired.decideByDelta latest = some decision) :
    DecidesAtOnce desired latest decision := by
  simp only [Resource.decideByDelta] at h
  split at h
  · rename_i hfixed
    obtain rfl := Option.some.inj h
    exact .fixedChanged hphase (mt immutablePaths_eq_nil_iff.mpr hfixed)
  · split at h
    · rename_i hempty
      have hequal : desired.spec = latest.spec := (Spec.compare_isEmpty_iff_eq _ _).mp hempty
      split at h
      · rename_i hfailed
        obtain rfl := Option.some.inj h
        exact .failedUnchanged hphase hequal hfailed
      · rename_i hfailed
        obtain rfl := Option.some.inj h
        exact .agreed hphase hequal (Bool.eq_false_iff.mpr hfailed)
    · cases h

theorem DecidesAtOnce.of_decideAtOnce {decision : Decision kind}
    (h : desired.decideAtOnce latest = some decision) : DecidesAtOnce desired latest decision := by
  rcases hphase : desired.decideByPhase latest with _ | byPhase
  · refine .of_decideByDelta (decideByPhase_eq_none_iff.mp hphase) ?_
    simpa [Resource.decideAtOnce, hphase] using h
  · obtain rfl : byPhase = decision := by simpa [Resource.decideAtOnce, hphase] using h
    exact .of_decideByPhase hphase

theorem decideAtOnce_of_mayChange (hphase : MayChange kind latest.phase) :
    desired.decideAtOnce latest = desired.decideByDelta latest := by
  simp [Resource.decideAtOnce, decideByPhase_eq_none_iff.mpr hphase]

theorem decideByDelta_of_eq (hequal : desired.spec = latest.spec) :
    desired.decideByDelta latest = some ⟨desired.withStatusOf latest,
      if latest.phase.isFailed then .failed (.failedPhase latest.failureReason) else .synced⟩ := by
  have hpaths : Resource.immutablePaths kind (desired.compare latest) = [] :=
    immutablePaths_eq_nil_iff.mpr fun field _ => congrArg (Spec.value · field) hequal
  have hempty : (desired.compare latest).isEmpty = true :=
    (Spec.compare_isEmpty_iff_eq _ _).mpr hequal
  by_cases hfailed : latest.phase.isFailed = true
  · simp only [Resource.decideByDelta, hpaths, hempty, hfailed, ne_eq, not_true_eq_false, if_true,
      if_false]
    rfl
  · simp [Resource.decideByDelta, hpaths, hempty, hfailed]

/-- Whatever is listed is what is decided. -/
theorem DecidesAtOnce.decideAtOnce_eq {decision : Decision kind}
    (h : DecidesAtOnce desired latest decision) :
    desired.decideAtOnce latest = some decision := by
  cases h with
  | inProgress hphase => simp [Resource.decideAtOnce, Resource.decideByPhase, hphase]
  | notActive hpolicy hknown hphase =>
    simp [Resource.decideAtOnce, Resource.decideByPhase, hpolicy, hknown, hphase]
  | latched hpolicy hfailed =>
    have hknown : ¬ (latest.phase.isTransient = true ∨ latest.phase = .unrecognized) := by
      generalize latest.phase = phase at hfailed
      cases phase <;> simp_all [Phase.isFailed, Phase.isTransient]
    simp [Resource.decideAtOnce, Resource.decideByPhase, hpolicy, hknown, hfailed]
  | fixedChanged hphase hfixed =>
    have hpaths := mt immutablePaths_eq_nil_iff.mp hfixed
    simp [decideAtOnce_of_mayChange hphase, Resource.decideByDelta, hpaths]
  | failedUnchanged hphase hequal hfailed =>
    rw [decideAtOnce_of_mayChange hphase, decideByDelta_of_eq hequal, if_pos hfailed]
  | agreed hphase hequal hfailed =>
    rw [decideAtOnce_of_mayChange hphase, decideByDelta_of_eq hequal,
      if_neg (Bool.eq_false_iff.mp hfailed)]

/-- An update goes on to make changes if the phase admits them, no immutable field differs and some
other field does. -/
theorem decideAtOnce_eq_none_iff :
    desired.decideAtOnce latest = none ↔
      MayChange kind latest.phase ∧ desired.spec.FixedAlike latest.spec ∧
        desired.spec ≠ latest.spec := by
  constructor
  · intro hopen
    have hphase := mayChange_of_decideAtOnce hopen
    refine ⟨hphase, ?_, ?_⟩
    · by_contra hfixed
      rw [(DecidesAtOnce.fixedChanged hphase hfixed).decideAtOnce_eq] at hopen
      cases hopen
    · intro hequal
      rw [decideAtOnce_of_mayChange hphase, decideByDelta_of_eq hequal] at hopen
      cases hopen
  · rintro ⟨hphase, hfixed, hdiffer⟩
    have hpaths := immutablePaths_eq_nil_iff.mpr hfixed
    have hempty : (desired.compare latest).isEmpty = false :=
      Bool.eq_false_iff.mpr (mt (Spec.compare_isEmpty_iff_eq _ _).mp hdiffer)
    simp [decideAtOnce_of_mayChange hphase, Resource.decideByDelta, hpaths, hempty]

theorem update_of_decided {decision : Decision kind}
    (h : desired.decideAtOnce latest = some decision) :
    desired.update latest = .done decision := by
  have hdecided : (desired.decideByPhase latest <|> desired.decideByDelta latest)
      = some decision := h
  simp only [Resource.update, hdecided]

theorem update_of_unidentified (hopen : desired.decideAtOnce latest = none) {failure : Failure}
    (hmutations : desired.mutations latest = .error failure) :
    desired.update latest = .done ⟨desired.withStatusOf latest, .failed failure⟩ := by
  have hundecided : (desired.decideByPhase latest <|> desired.decideByDelta latest) = none := hopen
  simp only [Resource.update, hundecided, hmutations]

theorem update_of_open (hopen : desired.decideAtOnce latest = none) {changes : List Mutation}
    (hmutations : desired.mutations latest = .ok changes) :
    desired.update latest = (desired.withStatusOf latest).applyAll changes := by
  have hundecided : (desired.decideByPhase latest <|> desired.decideByDelta latest) = none := hopen
  simp only [Resource.update, hundecided, hmutations]

/-- An update that goes on to make changes has changes to make. -/
theorem mutations_ne_nil (hopen : desired.decideAtOnce latest = none) :
    desired.mutations latest ≠ .ok [] := by
  intro hnone
  obtain ⟨-, hfixed, hdiffer⟩ := decideAtOnce_eq_none_iff.mp hopen
  obtain ⟨arn, hchanges⟩ := exists_arn_of_mutations hnone
  rw [changes_eq, eq_comm, List.append_eq_nil_iff, calls_between_eq_nil_iff] at hchanges
  obtain ⟨htags, hattribute⟩ := hchanges
  refine hdiffer (hfixed.eq htags.symm ?_)
  by_contra hother
  rw [if_neg hother] at hattribute
  cases hattribute

/-- Where the tags agree, the one change to make is a put. -/
theorem mutations_of_tags_agree {desired latest : Resource kind}
    (hopen : desired.decideAtOnce latest = none)
    (htags : latest.spec.tagsOrEmpty = desired.spec.tagsOrEmpty) {changes : List Mutation}
    (hmutations : desired.mutations latest = .ok changes) : changes = [.put desired.request] := by
  obtain ⟨arn, hchanges⟩ := exists_arn_of_mutations hmutations
  rw [changes_eq, (calls_between_eq_nil_iff _ _ arn).mpr htags, List.nil_append] at hchanges
  by_cases hequal : desired.spec.attribute = latest.spec.attribute
  · rw [if_pos hequal] at hchanges
    exact absurd (hchanges ▸ hmutations) (mutations_ne_nil hopen)
  · rw [hchanges, if_neg hequal]

theorem DecidesAtOnce.outcome_ne_deleted {desired latest : Resource kind}
    {decision : Decision kind} (h : DecidesAtOnce desired latest decision) :
    decision.outcome ≠ .deleted := by
  cases h <;> simp

theorem DecidesAtOnce.outcome_ne_cancelled {desired latest : Resource kind}
    {decision : Decision kind} (h : DecidesAtOnce desired latest decision) :
    decision.outcome ≠ .failed .cancelled := by
  cases h <;> simp

/-- Two updates that compare the same specs, and whose latest statuses say the same of phase and
reason, decide alike: with the same outcome, and both or neither with the latest status. -/
theorem DecidesAtOnce.transfer {decision : Decision kind} {again latestAgain : Resource kind}
    (h : DecidesAtOnce desired latest decision) (hspec : again.spec = desired.spec)
    (hlatest : latestAgain.spec = latest.spec) (hphase : latestAgain.phase = latest.phase)
    (hreason : latestAgain.statusOrEmpty.statusReason = latest.statusOrEmpty.statusReason) :
    ∃ second, DecidesAtOnce again latestAgain second ∧ second.outcome = decision.outcome ∧
      (decision.resource = desired ∧ second.resource = again ∨
        decision.resource = desired.withStatusOf latest ∧
          second.resource = again.withStatusOf latestAgain) := by
  have hcompare : again.compare latestAgain = desired.compare latest := by
    rw [Resource.compare, Resource.compare, hspec, hlatest]
  have hfailure : latestAgain.failureReason = latest.failureReason := by
    rw [Resource.failureReason, Resource.failureReason, hreason, hphase]
  cases h with
  | inProgress hbusy =>
    exact ⟨_, .inProgress (hphase ▸ hbusy), by rw [hphase], .inl ⟨rfl, rfl⟩⟩
  | notActive hpolicy hknown hinactive =>
    exact ⟨_, .notActive hpolicy (hphase ▸ hknown) (hphase ▸ hinactive), by rw [hphase],
      .inl ⟨rfl, rfl⟩⟩
  | latched hpolicy hfailed =>
    exact ⟨_, .latched hpolicy (hphase ▸ hfailed), by rw [hphase], .inr ⟨rfl, rfl⟩⟩
  | fixedChanged hopen hfixed =>
    exact ⟨_, .fixedChanged (hphase ▸ hopen) (by rwa [hspec, hlatest]), by rw [hcompare],
      .inr ⟨rfl, rfl⟩⟩
  | failedUnchanged hopen hequal hfailed =>
    exact ⟨_, .failedUnchanged (hphase ▸ hopen) (by rwa [hspec, hlatest]) (hphase ▸ hfailed),
      by rw [hfailure], .inr ⟨rfl, rfl⟩⟩
  | agreed hopen hequal hfailed =>
    exact ⟨_, .agreed (hphase ▸ hopen) (by rwa [hspec, hlatest]) (hphase ▸ hfailed), rfl,
      .inr ⟨rfl, rfl⟩⟩

end ManagedPrometheus
