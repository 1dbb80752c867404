import ManagedPrometheus.Proofs.Conditions
import ManagedPrometheus.Proofs.UpdateTrace

/-!
# Differences that are served

Three lists have to agree for a difference to lead to a call: the fields that are compared, the paths
of the policy, and the concerns that an update goes through. A spec field that is not compared would
never be changed, and a path that no part of the policy names would differ for ever.

Here the paths of a comparison are those of the fields that differ, each once, and each is one path
of the policy (`Resource.TellsDifferences`). So if no immutable field differs, every path belongs to
a concern. What a concern calls for is a change of the tags or a put (`Concern.served_of_accepted`),
and an update that does not fail has had all of it accepted (`Applies.accepted`).
-/

namespace ManagedPrometheus

variable {σ : Type} {kind : Kind} {desired latest : Resource kind}

/-! ### Paths of a comparison -/

theorem Field.path_injective : Function.Injective Field.path := by
  intro field other hpath
  have hbelow := Delta.isAtOrBelow_path field other
  rw [hpath, Delta.isAtOrBelow_path] at hbelow
  simpa using hbelow

namespace Spec

theorem paths_compare (a b : Spec kind) :
    (a.compare b).paths = (kind.fields.filter fun field =>
      (a.value field).differ (b.value field)).map Field.path := by
  rw [Delta.paths, compare, List.map_filterMap, ← List.filterMap_eq_map, List.filterMap_filter]
  apply List.filterMap_congr
  intro field _
  split <;> rfl

theorem mem_paths_compare (a b : Spec kind) (path : String) :
    path ∈ (a.compare b).paths ↔ ∃ field, field.path = path ∧ a.value field ≠ b.value field := by
  have hdiffer (field : Field) :
      (a.value field).differ (b.value field) = true ↔ a.value field ≠ b.value field := by
    rw [Ne, ← FieldValue.differ_eq_false_iff, Bool.not_eq_false]
  rw [paths_compare, List.mem_map]
  constructor
  · rintro ⟨field, hmem, hpath⟩
    exact ⟨field, hpath, (hdiffer field).mp (List.mem_filter.mp hmem).2⟩
  · rintro ⟨field, hpath, hvalues⟩
    refine ⟨field, List.mem_filter.mpr ⟨?_, (hdiffer field).mpr hvalues⟩, hpath⟩
    by_contra hfield
    rw [value_of_notMem hfield, value_of_notMem hfield] at hvalues
    exact hvalues rfl

theorem nodup_paths_compare (a b : Spec kind) : (a.compare b).paths.Nodup := by
  have hfields : (kind.fields.map Field.path).Nodup := by cases kind <;> decide
  rw [paths_compare]
  exact (List.filter_sublist.map Field.path).nodup hfields

end Spec

/-! ### Paths of a policy -/

/-- The paths that a policy names: those of its immutable fields, then those of its concerns. -/
def KindPolicy.paths (policy : KindPolicy) : List String :=
  policy.immutable.map Field.path ++ policy.concerns.map Concern.path

theorem count_paths_policy : ∀ field ∈ kind.fields, kind.policy.paths.count field.path = 1 := by
  cases kind <;> decide

/-- A comparison misses no difference and tells of none that the policy does not place. -/
structure Resource.TellsDifferences (a b : Resource kind) : Prop where
  isEmpty_iff : (a.compare b).isEmpty = true ↔ a.spec = b.spec
  mem_paths_iff : ∀ path, path ∈ (a.compare b).paths ↔
    ∃ field : Field, field.path = path ∧ a.spec.value field ≠ b.spec.value field
  nodup : (a.compare b).paths.Nodup
  symm : ∀ path, path ∈ (a.compare b).paths ↔ path ∈ (b.compare a).paths
  placed : ∀ path ∈ (a.compare b).paths, kind.policy.paths.count path = 1
  differentAt_iff : ∀ field : Field, (a.compare b).differentAt field.path = true ↔
    a.spec.value field ≠ b.spec.value field

theorem Resource.tellsDifferences (a b : Resource kind) : a.TellsDifferences b where
  isEmpty_iff := Spec.compare_isEmpty_iff_eq a.spec b.spec
  mem_paths_iff := Spec.mem_paths_compare a.spec b.spec
  nodup := Spec.nodup_paths_compare a.spec b.spec
  symm path := by
    rw [Resource.compare, Resource.compare, Spec.mem_paths_compare, Spec.mem_paths_compare]
    simp only [ne_comm]
  placed path hpath := by
    rw [Resource.compare, Spec.paths_compare] at hpath
    obtain ⟨field, hfield, rfl⟩ := List.mem_map.mp hpath
    exact count_paths_policy field (List.mem_filter.mp hfield).1
  differentAt_iff field := by
    rw [Resource.compare, Spec.differentAt_compare, Ne, ← FieldValue.differ_eq_false_iff,
      Bool.not_eq_false]

/-- Every difference belongs to a concern once no immutable field differs. -/
theorem exists_concern_of_mem_paths
    (hfixed : Resource.immutablePaths kind (desired.compare latest) = []) {path : String}
    (hpath : path ∈ (desired.compare latest).paths) :
    ∃ concern ∈ kind.policy.concerns, concern.path = path := by
  have htells := desired.tellsDifferences latest
  have hplaced : path ∈ kind.policy.paths := by
    rw [← List.count_pos_iff, htells.placed path hpath]
    exact Nat.one_pos
  rcases List.mem_append.mp hplaced with himmutable | hconcern
  · exfalso
    obtain ⟨field, hfield, rfl⟩ := List.mem_map.mp himmutable
    obtain ⟨other, hother, hvalues⟩ := (htells.mem_paths_iff _).mp hpath
    obtain rfl := Field.path_injective hother
    exact hvalues (immutablePaths_eq_nil_iff.mp hfixed other hfield)
  · exact List.mem_map.mp hconcern

/-! ### Calls of a concern -/

/-- A change was asked for and accepted. -/
def Mutation.AcceptedIn (made : List Exchange) (change : Mutation) : Prop :=
  ∃ answer, Exchange.mk (.update change) (.ok answer) ∈ made

/-- The calls of a concern were made and accepted. Of the tags these are the calls that lead from
the latest tags to the desired ones, under the identifier in the latest status, one at least; of
every other concern it is the put of the desired request. -/
def Concern.Served (desired latest : Resource kind) (made : List Exchange) : Concern → Prop
  | .tags => ∃ arn change, latest.statusOrEmpty.arn? = some arn ∧
      TagChange.Turns change latest.spec.tagsOrEmpty desired.spec.tagsOrEmpty ∧
      change.calls arn ≠ [] ∧ ∀ call ∈ change.calls arn, call.AcceptedIn made
  | .configuration | .workspaceAlias | .logGroup =>
    (Mutation.put desired.request).AcceptedIn made

/-- A concern at whose path the states differ is served once all that it calls for is accepted. -/
theorem Concern.served_of_accepted {made : List Exchange} {concern : Concern}
    (hdiffers : (desired.compare latest).differentAt concern.path = true) {part : List Mutation}
    (hpart : desired.concernMutations latest concern = .ok part)
    (haccepted : ∀ call ∈ part, call.AcceptedIn made) : concern.Served desired latest made := by
  cases concern with
  | tags =>
    have htags := differentAt_tags_iff.mp hdiffers
    obtain ⟨hcurrent, hwanted⟩ := exists_tags_of_ne htags
    rcases harn : latest.statusOrEmpty.arn? with _ | arn
    · have hchange := mt (TagChange.isEmpty_between_iff _ _).mp htags
      simp [Resource.concernMutations, Resource.tagMutations, hcurrent, hwanted, hchange, harn]
        at hpart
    · rw [concernMutations_eq fun _ => harn, Resource.changesOf, hcurrent, hwanted] at hpart
      obtain rfl := Except.ok.inj hpart
      exact ⟨arn, _, harn, TagChange.between_turns _ _,
        mt (calls_between_eq_nil_iff _ _ arn).mp htags, haccepted⟩
  | configuration =>
    obtain rfl := Except.ok.inj hpart
    exact haccepted _ List.mem_cons_self
  | workspaceAlias =>
    obtain rfl := Except.ok.inj hpart
    exact haccepted _ List.mem_cons_self
  | logGroup =>
    obtain rfl := Except.ok.inj hpart
    exact haccepted _ List.mem_cons_self

/-- Changes that do not end in a failure have all been accepted. -/
theorem Applies.accepted {resource : Resource kind} {changes : List Mutation}
    {made : List Exchange} {decision : Decision kind} (h : Applies resource changes made decision)
    (hends : ∀ failure, decision.outcome ≠ .failed failure) :
    ∀ change ∈ changes, change.AcceptedIn made := by
  have hlater {first change : Mutation} {rest : List Mutation} {value : Option WireObject}
      {made : List Exchange} (hchange : change ∈ first :: rest)
      (hrest : ∀ change ∈ rest, change.AcceptedIn made) :
      change.AcceptedIn (⟨.update first, .ok value⟩ :: made) := by
    rcases List.mem_cons.mp hchange with rfl | hchange
    · exact ⟨value, List.mem_cons_self⟩
    · obtain ⟨answer, hmem⟩ := hrest change hchange
      exact ⟨answer, List.mem_cons_of_mem _ hmem⟩
  induction h with
  | finished => simp
  | refused => exact absurd rfl (hends _)
  | failed => exact absurd rfl (hends _)
  | silent _ ih => exact fun change hchange => hlater hchange (ih hends)
  | reported _ ih => exact fun change hchange => hlater hchange (ih hends)

theorem Updates.served {made : List Exchange} {decision : Decision kind}
    (h : Updates desired latest made decision) (hphase : desired.decideByPhase latest = none)
    (hfixed : Resource.immutablePaths kind (desired.compare latest) = [])
    (hends : ∀ failure, decision.outcome ≠ .failed failure) {path : String}
    (hpath : path ∈ (desired.compare latest).paths) :
    ∃ concern ∈ kind.policy.concerns, concern.path = path ∧
      concern.Served desired latest made := by
  have htells := desired.tellsDifferences latest
  obtain ⟨concern, hconcern, rfl⟩ := exists_concern_of_mem_paths hfixed hpath
  obtain ⟨field, hfield, hvalues⟩ := (htells.mem_paths_iff _).mp hpath
  have hdiffers : (desired.compare latest).differentAt concern.path = true := by
    rw [← hfield]
    exact (htells.differentAt_iff field).mpr hvalues
  have hopen : desired.decideAtOnce latest = none := by
    refine decideAtOnce_eq_none_iff.mpr
      ⟨decideByPhase_eq_none_iff.mp hphase, immutablePaths_eq_nil_iff.mp hfixed, ?_⟩
    intro hequal
    exact hvalues (congrArg (Spec.value · field) hequal)
  refine ⟨concern, hconcern, rfl, ?_⟩
  cases h with
  | decided hdecided => cases hopen.symm.trans hdecided
  | unidentified => exact absurd rfl (hends _)
  | changing _ hmutations happlies =>
    obtain ⟨part, hpart, hincluded⟩ := exists_part_of_mutations hmutations hconcern hdiffers
    apply concern.served_of_accepted hdiffers hpart
    intro change hchange
    exact happlies.accepted hends change (hincluded hchange)

/-- **No difference is missed and none is ignored.** The comparison of two resources is empty
exactly if their specs are the same. Its paths are those of the fields that differ, each once, in
both directions, and each is the path of one immutable field or one concern; a path of the policy
differs exactly if its own field does. So an update that its phase and its immutable fields let
through, and that does not fail, has for every path made the calls of its concern: those that turn
the latest tags into the desired ones, or the put of the desired request. -/
theorem reconcile_servesDifferences (backend : Backend σ) (settings : PassSettings) (now : String)
    (desired latest : Resource kind) (session : Session σ) :
    let ended := session.run backend kind settings.callTimeout
      (desired.reconcile settings now (some latest))
    desired.TellsDifferences latest ∧
      (desired.decideByPhase latest = none →
        Resource.immutablePaths kind (desired.compare latest) = [] →
        (∀ failure, ended.1.outcome ≠ .failed failure) →
        ∃ made, ended.2.exchanges = session.exchanges ++ made ∧
          ∀ path ∈ (desired.compare latest).paths, ∃ concern ∈ kind.policy.concerns,
            concern.path = path ∧ concern.Served desired latest made) := by
  intro ended
  refine ⟨desired.tellsDifferences latest, ?_⟩
  intro hphase hfixed hends
  have hended : ended = _ := run_reconcile backend settings.callTimeout settings now desired latest
    session
  obtain ⟨made, hmade, hcourse⟩ := @Course.of_run_from _ _ kind settings.callTimeout backend
    (desired.update latest) session
  refine ⟨made, by rw [hended, hmade], ?_⟩
  intro path hpath
  refine (Updates.of_course hcourse).served hphase hfixed ?_ hpath
  intro failure
  have hfailure := hends failure
  rwa [hended, Resource.conclude_outcome] at hfailure

/-- The tags and the configuration differ, and the backend accepts every change. -/
theorem reconcile_servesDifferences_accepted :
    let desired : Resource .ruleGroupsNamespace :=
      ⟨.empty, ⟨"rules", "ws-1", some "groups: []", .ofList [("team", "infra")]⟩, none⟩
    let latest : Resource .ruleGroupsNamespace :=
      ⟨.empty, ⟨"rules", "ws-1", none, .ofList [("owner", "ops")]⟩,
        some { Status.empty with
          statusCode := some .active
          resourceMetadata := some ⟨some "arn", none, none⟩ }⟩
    let settings := Settings.default.passSettings ⟨none, none⟩
    let ended := (Session.start Script.empty false).run scripted .ruleGroupsNamespace
      settings.callTimeout (desired.reconcile settings "T" (some latest))
    desired.TellsDifferences latest ∧
      (desired.compare latest).paths = ["Spec.Tags", "Spec.Configuration"] ∧
      desired.decideByPhase latest = none ∧
      Resource.immutablePaths .ruleGroupsNamespace (desired.compare latest) = [] ∧
      ended.1.outcome = .synced ∧
      ∀ path ∈ (desired.compare latest).paths,
        ∃ concern ∈ Kind.ruleGroupsNamespace.policy.concerns, concern.path = path ∧
          concern.Served desired latest ended.2.exchanges := by
  intro desired latest settings ended
  have hphase : desired.decideByPhase latest = none := by decide
  have hfixed : Resource.immutablePaths .ruleGroupsNamespace (desired.compare latest) = [] := by
    decide
  have hsynced : ended.1.outcome = .synced := by decide
  obtain ⟨htells, hserves⟩ := reconcile_servesDifferences scripted settings "T" desired latest
    (Session.start Script.empty false)
  obtain ⟨made, hmade, hserved⟩ := hserves hphase hfixed (by simp [ended, hsynced])
  obtain rfl : ended.2.exchanges = made := hmade
  exact ⟨htells, by decide, hphase, hfixed, hsynced, hserved⟩

end ManagedPrometheus
