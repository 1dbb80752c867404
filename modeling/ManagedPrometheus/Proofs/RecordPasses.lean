import ManagedPrometheus.Proofs.Decisions
import ManagedPrometheus.Proofs.RecordStore

/-!
# Passes against a store of records

How a pass over a resource that is to exist is served by a store of records. If there is a record at
its address, the pass reads it, makes the changes of the concerns at which record and spec differ,
and agrees with the backend (`serves_sync_found`). If there is none, it creates one
(`serves_sync_absent`). In both cases the status that comes back is the one of `Resource.observed`.
-/

namespace ManagedPrometheus

variable {kind : Kind} {now : String} {settings : PassSettings} {assign : Request → Assignment}

/-! ### Records and specs -/

/-- The identity fields of a spec are the parts of an address. A workspace has none, as the backend
names it. -/
def Spec.IdentifiedBy (key : ResourceKey) : {kind : Kind} → Spec kind → Prop
  | .workspace, _ => True
  | .ruleGroupsNamespace, spec => key = ⟨spec.workspaceId, some spec.name⟩
  | .alertManagerDefinition, spec => key = ⟨spec.workspaceId, none⟩
  | .loggingConfiguration, spec => key = ⟨spec.workspaceId, none⟩

/-- What a record holds of the immutable fields is what the spec asks for. -/
def Record.FixedBy (record : Record) : {kind : Kind} → Spec kind → Prop
  | .workspace, spec => record.kmsKeyArn = spec.kmsKeyArn
  | .ruleGroupsNamespace, _ => True
  | .alertManagerDefinition, _ => True
  | .loggingConfiguration, _ => True

/-- The spec with the fields that a record holds in place of those of the spec; `read` is what
counts as its configuration. -/
def Record.showIn (record : Record) (read : Option String) : {kind : Kind} → Spec kind → Spec kind
  | .workspace, _ => ⟨record.workspaceAlias, record.kmsKeyArn, record.tags⟩
  | .ruleGroupsNamespace, spec => { spec with configuration := read, tags := record.tags }
  | .alertManagerDefinition, spec => { spec with configuration := read }
  | .loggingConfiguration, spec => { spec with logGroupArn := record.logGroupArn.getD "" }

/-- What counts as the configuration of a record: the text of its payload, but nothing after a
failure of a kind that submits its configuration again. -/
def Resource.readOf (desired : Resource kind) (record : Record) : Option String :=
  if kind.policy.preservesOnValidationFailure && desired.phase.isFailed then none
  else record.data.map Utf8.decode

/-- The spec that a description of a record shows. -/
def Resource.shownBy (desired : Resource kind) (record : Record) : Spec kind :=
  record.showIn (desired.readOf record) desired.spec

/-- The resource with the status that the record at an address gives it. -/
def Resource.observed (desired : Resource kind) (key : ResourceKey) (record : Record) :
    Resource kind :=
  { desired with status := some ((desired.statusOrEmpty.observe (record.report key)).bind key) }

theorem Resource.settled_observed (desired : Resource kind) (key : ResourceKey)
    (record : Record) :
    (desired.observed key record).settled = ⟨desired.observed key record, .synced⟩ := rfl

/-! ### Reading a record -/

/-- The description of a record is not one of a failed validation. -/
theorem validationFailure?_report (wasFailed : Bool) (status : Status) (key : ResourceKey)
    (record : Record) :
    Resource.validationFailure? kind wasFailed ((status.observe (record.report key)).bind key)
      = none := by
  have hactive : ((status.observe (record.report key)).bind key).phase = .active := rfl
  simp [Resource.validationFailure?, hactive, Phase.isFailed]

theorem snapshot_report_status (desired : Resource kind) (key : ResourceKey) (record : Record) :
    (desired.snapshot now key (record.report key)).status
      = (desired.observed key record).status := by
  simp only [Resource.snapshot, validationFailure?_report, Resource.observed]

theorem snapshot_report_spec {desired : Resource kind} {key : ResourceKey} (record : Record)
    (hidentified : desired.spec.IdentifiedBy key) :
    (desired.snapshot now key (record.report key)).spec
      = desired.shownBy record := by
  simp only [Resource.snapshot, validationFailure?_report, Resource.snapshotConfiguration,
    Option.isNone_none, if_true]
  cases kind with
  | workspace => rfl
  | ruleGroupsNamespace =>
    obtain rfl : key = ⟨desired.spec.workspaceId, some desired.spec.name⟩ := hidentified
    rfl
  | alertManagerDefinition =>
    obtain rfl : key = ⟨desired.spec.workspaceId, none⟩ := hidentified
    rfl
  | loggingConfiguration =>
    obtain rfl : key = ⟨desired.spec.workspaceId, none⟩ := hidentified
    rfl

theorem withStatusOf_snapshot (desired : Resource kind) (key : ResourceKey) (record : Record) :
    desired.withStatusOf (desired.snapshot now key (record.report key))
      = desired.observed key record := by
  rw [Resource.withStatusOf, Resource.statusOrEmpty, snapshot_report_status]
  rfl

/-- An immutable field of the spec is the one that the record shows. -/
theorem value_eq_of_immutable {record : Record} {spec : Spec kind} (hfixed : record.FixedBy spec)
    (read : Option String) {field : Field} (hfield : field ∈ kind.policy.immutable) :
    spec.value field = (record.showIn read spec).value field := by
  cases kind with
  | workspace =>
    obtain rfl := List.mem_singleton.mp hfield
    exact congrArg FieldValue.text hfixed.symm
  | ruleGroupsNamespace =>
    rcases List.mem_cons.mp hfield with rfl | hfield
    · rfl
    · obtain rfl := List.mem_singleton.mp hfield
      rfl
  | alertManagerDefinition =>
    obtain rfl := List.mem_singleton.mp hfield
    rfl
  | loggingConfiguration =>
    obtain rfl := List.mem_singleton.mp hfield
    rfl

/-! ### Updating -/

theorem serves_applyAll (resource : Resource kind) (changes : List Mutation) (store : Store) :
    Serves assign kind (resource.applyAll changes) store (changes.map Call.update)
      resource.settled (store.changeAll kind changes) := by
  induction changes generalizing store with
  | nil => exact .done resource.settled store
  | cons mutation rest ih => exact .ask (ih (store.change kind mutation))

theorem changes_eq_nil {desired : Resource kind} {latest : Spec kind} (arn : String)
    (h : ∀ field, desired.spec.value field = latest.value field) :
    desired.changes latest arn = [] := by
  apply List.flatMap_eq_nil_iff.mpr
  intro concern _
  apply if_neg
  rw [Concern.path, Spec.differentAt_compare, h concern.field,
    (FieldValue.differ_eq_false_iff _ _).mpr rfl]
  exact Bool.false_ne_true

/-- In an active phase, with the immutable fields in agreement, an update makes the changes of the
concerns that differ and is in agreement afterwards. -/
theorem serves_update {desired latest : Resource kind} {arn : String}
    (hphase : latest.phase = .active) (harn : latest.statusOrEmpty.arn? = some arn)
    (himmutable : ∀ field ∈ kind.policy.immutable,
      desired.spec.value field = latest.spec.value field) (store : Store) :
    Serves assign kind (desired.update latest) store
      ((desired.changes latest.spec arn).map Call.update) ⟨desired.withStatusOf latest, .synced⟩
      (store.changeAll kind (desired.changes latest.spec arn)) := by
  have hmay : MayChange kind latest.phase := mayChange_of_active hphase
  by_cases hequal : desired.spec = latest.spec
  · have hnone : desired.changes latest.spec arn = [] :=
      changes_eq_nil arn fun field => congrArg (Spec.value · field) hequal
    have hsound : latest.phase.isFailed = false := by rw [hphase]; rfl
    rw [update_of_decided (DecidesAtOnce.agreed hmay hequal hsound).decideAtOnce_eq, hnone]
    exact .done _ store
  · have hopen := decideAtOnce_eq_none_iff.mpr ⟨hmay, himmutable, hequal⟩
    have hsettled : (desired.withStatusOf latest).settled
        = ⟨desired.withStatusOf latest, .synced⟩ := by
      rw [Resource.settled, Resource.phase_withStatusOf, hphase]
      rfl
    rw [update_of_open hopen (mutations_eq fun _ => harn), ← hsettled]
    exact serves_applyAll _ _ store

/-! ### Whole passes -/

/-- Summing up a decision makes no call. -/
theorem Serves.concluded {pass : Pass (Decision kind)} {store ended : Store} {calls : List Call}
    {decision : Decision kind} (h : Serves assign kind pass store calls decision ended)
    (input : Resource kind) :
    Serves assign kind (pass.bind fun decision => .done (input.conclude settings now decision))
      store calls (input.conclude settings now decision) ended := by
  rw [← List.append_nil calls]
  exact h.bind (.done _ ended)

theorem serves_readLatest {desired : Resource kind} {key : ResourceKey}
    (haddress : desired.key? = some key) {store : Store} {found : Option Record}
    (hfound : store key = found) :
    Serves assign kind (desired.readLatest now) store [.describe key]
      (.ok (found.map fun record => desired.snapshot now key (record.report key))) store := by
  have hread : desired.readLatest now = .ask (.describe key) fun result =>
      .done (result.map fun object? => object?.map (desired.snapshot now key)) := by
    rw [Resource.readLatest, haddress]
  have hanswer : found.map (fun record => desired.snapshot now key (record.report key))
      = (store.reply assign (.describe key)).map (desired.snapshot now key) := by
    rw [Store.reply, hfound, Option.map_map]
    rfl
  rw [hread, hanswer]
  exact .ask (.done _ store)

/-- The changes that a pass makes to a record. -/
def Resource.changesFor (desired : Resource kind) (record : Record) : List Mutation :=
  desired.changes (desired.shownBy record) record.arn

/-- A pass over a resource for which there is a record. -/
theorem serves_sync_found {desired : Resource kind} {key : ResourceKey} {store : Store}
    {record : Record} (haddress : desired.key? = some key) (hrecord : store key = some record)
    (hidentified : desired.spec.IdentifiedBy key) (hfixed : record.FixedBy desired.spec) :
    Serves assign kind (desired.sync settings now) store
      (.describe key :: (desired.changesFor record).map Call.update)
      (desired.conclude settings now ⟨desired.observed key record, .synced⟩)
      (store.changeAll kind (desired.changesFor record)) := by
  let latest := desired.snapshot now key (record.report key)
  have hspec : latest.spec = desired.shownBy record :=
    snapshot_report_spec record hidentified
  have hphase : latest.phase = .active :=
    (desired.snapshot_phase key (record.report key)).trans rfl
  have harn : latest.statusOrEmpty.arn? = some record.arn := by
    rw [Resource.statusOrEmpty, snapshot_report_status]
    rfl
  have himmutable : ∀ field ∈ kind.policy.immutable,
      desired.spec.value field = latest.spec.value field := by
    intro field hfield
    rw [hspec]
    exact value_eq_of_immutable hfixed _ hfield
  have hread : Serves assign kind (desired.readLatest now) store [.describe key]
      (.ok (some latest)) store := serves_readLatest haddress hrecord
  have hupdate : Serves assign kind (desired.update latest) store
      ((desired.changesFor record).map Call.update) ⟨desired.observed key record, .synced⟩
      (store.changeAll kind (desired.changesFor record)) := by
    rw [Resource.changesFor, ← hspec, ← withStatusOf_snapshot]
    exact serves_update hphase harn himmutable store
  exact hread.bind (hupdate.concluded desired)

/-! ### Creating -/

/-- The record that a create makes reports what the spec asks for. -/
theorem adopt_report_recordOf {desired : Resource kind} {key : ResourceKey}
    (hidentified : desired.spec.IdentifiedBy key) :
    desired.spec.adopt ((Store.recordOf assign desired.createRequest).report key)
      = desired.spec := by
  obtain ⟨metadata, spec, status⟩ := desired
  cases kind with
  | workspace =>
    obtain ⟨workspaceAlias, kmsKeyArn, tags⟩ := spec
    cases workspaceAlias <;> cases kmsKeyArn <;> rfl
  | ruleGroupsNamespace =>
    obtain rfl : key = ⟨spec.workspaceId, some spec.name⟩ := hidentified
    rfl
  | alertManagerDefinition => rfl
  | loggingConfiguration => rfl

theorem adoptCreated_report {desired : Resource kind} {key : ResourceKey}
    (hkey : Store.placeOf assign desired.createRequest = key)
    (hidentified : desired.spec.IdentifiedBy key) :
    desired.adoptCreated ((Store.recordOf assign desired.createRequest).report key)
      = desired.observed key (Store.recordOf assign desired.createRequest) := by
  have hfold : desired.foldResponse ((Store.recordOf assign desired.createRequest).report key)
      = { desired with
          status := some (desired.statusOrEmpty.observe
            ((Store.recordOf assign desired.createRequest).report key)) } := by
    rw [Resource.foldResponse, adopt_report_recordOf hidentified]
  rw [Resource.adoptCreated, hfold]
  rcases hrequest : desired.createRequest.key with _ | other
  · -- the store has named the workspace, and its answer says so
    obtain rfl : ⟨(assign desired.createRequest).workspaceId, none⟩ = key := by
      rw [← hkey, Store.placeOf, hrequest, Option.getD_none]
    rfl
  · obtain rfl : other = key := by
      rw [← hkey, Store.placeOf, hrequest, Option.getD_some]
    rfl

theorem serves_create {desired : Resource kind} (hvalid : desired.spec.problem? = none)
    {key : ResourceKey} (hkey : Store.placeOf assign desired.createRequest = key)
    (hidentified : desired.spec.IdentifiedBy key) (store : Store) :
    Serves assign kind desired.create store [.create desired.createRequest]
      ⟨desired.observed key (Store.recordOf assign desired.createRequest), .synced⟩
      (store.after assign kind (.create desired.createRequest)) := by
  rw [Resource.create, hvalid, ← Resource.settled_observed, ← adoptCreated_report hkey hidentified,
    ← hkey]
  exact .ask (.done _ _)

/-- A pass over a resource for which there is no record, or which has no address yet. -/
theorem serves_sync_absent {desired : Resource kind} (hvalid : desired.spec.problem? = none)
    {key : ResourceKey} (hkey : Store.placeOf assign desired.createRequest = key)
    (hidentified : desired.spec.IdentifiedBy key) {store : Store}
    (habsent : ∀ address, desired.key? = some address → store address = none) :
    ∃ calls, Serves assign kind (desired.sync settings now) store calls
      (desired.conclude settings now
        ⟨desired.observed key (Store.recordOf assign desired.createRequest), .synced⟩)
      (store.after assign kind (.create desired.createRequest)) := by
  have hcreate := serves_create hvalid hkey hidentified store
  rcases haddress : desired.key? with _ | address
  · have hread : Serves assign kind (desired.readLatest now) store [] (.ok none) store := by
      rw [Resource.readLatest, haddress]
      exact .done _ store
    exact ⟨_, hread.bind (hcreate.concluded desired)⟩
  · have hread : Serves assign kind (desired.readLatest now) store [.describe address] (.ok none)
        store := serves_readLatest haddress (habsent address haddress)
    exact ⟨_, hread.bind (hcreate.concluded desired)⟩

end ManagedPrometheus
