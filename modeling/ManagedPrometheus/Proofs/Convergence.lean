import ManagedPrometheus.Proofs.Binding
import ManagedPrometheus.Proofs.Conditions
import ManagedPrometheus.Proofs.RecordPasses
import ManagedPrometheus.Proofs.Utf8RoundTrip

/-!
# Convergence in one pass

Against a store of records one pass is enough: it brings whatever record there is to the spec, or
creates it, and the next pass describes and finds nothing to do, nor anything to enter in the status
(`sync_converges`).

The spec is text and the payload is bytes. A payload is read before it is compared, and what is not
well-formed in it reads as replacement characters; so an ill-formed payload that already reads as
the configuration is left as it is. That is the one case in which the payload is not the
configuration's bytes after the pass (`ill_formed_payload_stays`).
-/

namespace ManagedPrometheus

variable {kind : Kind} {settings : PassSettings} {assign : Request → Assignment}

/-! ### Agreement -/

/-- A record agrees with a spec: tags, alias and log group are the spec's, and the payload reads as
its configuration. -/
def Record.ReadsAs (record : Record) : {kind : Kind} → Spec kind → Prop
  | .workspace, spec => record.tags = spec.tags ∧ record.workspaceAlias = spec.workspaceAlias
  | .ruleGroupsNamespace, spec =>
    record.tags = spec.tags ∧ record.data.map Utf8.decode = spec.configuration
  | .alertManagerDefinition, spec => record.data.map Utf8.decode = spec.configuration
  | .loggingConfiguration, spec => record.logGroupArn = some spec.logGroupArn

/-- The payload of a record is the bytes of the configuration, for kinds that have one. -/
def Record.Encodes (record : Record) (spec : Spec kind) : Prop :=
  ∀ configuration, spec.configuration? = some configuration →
    record.data = configuration.map Utf8.encode

/-- The payload of a record is there and is not the bytes of any text. -/
def Record.IllFormed (record : Record) : Prop :=
  ∃ bytes, record.data = some bytes ∧ ∀ text, Utf8.encode text ≠ bytes

theorem map_decode_encode (configuration : Option String) :
    (configuration.map Utf8.encode).map Utf8.decode = configuration := by
  rw [Option.map_map, show Utf8.decode ∘ Utf8.encode = id from funext Utf8.decode_encode,
    Option.map_id]
  rfl

/-- A payload that reads as a configuration is the bytes of it, or is not the bytes of any text. -/
theorem encode_of_decode {record : Record} {configuration : Option String}
    (h : record.data.map Utf8.decode = configuration) :
    record.data = configuration.map Utf8.encode ∨ record.IllFormed := by
  rcases hdata : record.data with _ | bytes
  · left
    rw [← h, hdata]
    rfl
  · by_cases hwellFormed : ∃ text, Utf8.encode text = bytes
    · obtain ⟨text, rfl⟩ := hwellFormed
      left
      rw [← h, hdata, Option.map_some, Option.map_some, Utf8.decode_encode]
    · right
      exact ⟨bytes, hdata, fun text htext => hwellFormed ⟨text, htext⟩⟩

/-! ### What the changes do to the record -/

theorem changeAll_calls (record : Record) (key : ResourceKey) (wanted : Tags) :
    record.changeAll kind key ((TagChange.between record.tags wanted).calls record.arn)
      = { record with tags := wanted } := by
  let change := TagChange.between record.tags wanted
  let removed : Record := { record with tags := change.removeFrom record.tags }
  have hremovals : record.changeAll kind key
      (if change.removals.isEmpty then [] else [.untag record.arn change.removals]) = removed := by
    by_cases hempty : change.removals.isEmpty = true
    · rw [if_pos hempty]
      simp only [removed, TagChange.removeFrom_of_isEmpty hempty]
      rfl
    · rw [if_neg hempty]
      simp only [Record.changeAll, List.foldl_cons, List.foldl_nil, Record.change, if_true]
      rfl
  have hupserts : removed.changeAll kind key
      (if change.upserts.isEmpty then [] else [.tag record.arn change.upserts])
        = { record with tags := change.applyTo record.tags } := by
    by_cases hempty : change.upserts.isEmpty = true
    · rw [if_pos hempty, TagChange.applyTo, TextMap.insertAll_of_isEmpty hempty]
      rfl
    · rw [if_neg hempty]
      simp only [Record.changeAll, List.foldl_cons, List.foldl_nil, Record.change, removed, if_true]
      rfl
  rw [TagChange.calls, Record.changeAll_append, hremovals, hupserts, TagChange.applyTo_between]

/-- The changes of the tags give a record the wanted tags. -/
theorem changeAll_tags {desired : Resource kind} {latest : Spec kind} {record : Record}
    {wanted : Tags} (hcurrent : latest.tags? = some record.tags)
    (hwanted : desired.spec.tags? = some wanted) (key : ResourceKey) :
    record.changeAll kind key (desired.changesIf latest record.arn .tags)
      = { record with tags := wanted } := by
  rw [changesIf_tags hcurrent hwanted]
  exact changeAll_calls record key wanted

/-- The change of any other concern puts the kind's attribute, if it differs. -/
theorem changeAll_put {desired : Resource kind} {key : ResourceKey}
    (haddress : desired.key? = some key) (record : Record) (latest : Spec kind) (arn : String)
    {concern : Concern} (hconcern : concern ≠ .tags) :
    record.changeAll kind key (desired.changesIf latest arn concern)
      = if (desired.spec.value concern.field).differ (latest.value concern.field) then
          record.put kind desired.request
        else record := by
  have hkey : desired.request.key = some key := desired.request_key.trans haddress
  rw [changesIf_put hconcern]
  split
  · simp only [Record.changeAll, List.foldl_cons, List.foldl_nil, Record.change, hkey, if_true]
  · rfl

/-- The payload after a pass: the configuration's bytes, unless what was read of the payload is the
configuration. -/
def Resource.payloadAfter (desired : Resource kind) (record : Record)
    (configuration : Option String) : Option Bytes :=
  if (FieldValue.text configuration).differ (.text (desired.readOf record)) then
    configuration.map Utf8.encode
  else record.data

/-- The record after a pass. -/
def Resource.adjusted (record : Record) : {kind : Kind} → Resource kind → Record
  | .workspace, desired =>
    { record with tags := desired.spec.tags, workspaceAlias := desired.spec.workspaceAlias }
  | .ruleGroupsNamespace, desired =>
    { record with
      tags := desired.spec.tags
      data := desired.payloadAfter record desired.spec.configuration }
  | .alertManagerDefinition, desired =>
    { record with data := desired.payloadAfter record desired.spec.configuration }
  | .loggingConfiguration, desired =>
    { record with logGroupArn := some desired.spec.logGroupArn }

theorem changeAll_changesFor {desired : Resource kind} {key : ResourceKey}
    (hvalid : desired.spec.problem? = none) (haddress : desired.key? = some key)
    (record : Record) :
    record.changeAll kind key (desired.changesFor record) = desired.adjusted record := by
  have hput := @changeAll_put _ _ _ haddress
  cases kind with
  | workspace =>
    have hchanges : desired.changesFor record
        = desired.changesIf (desired.shownBy record) record.arn .tags
          ++ desired.changesIf (desired.shownBy record) record.arn .workspaceAlias :=
      congrArg _ (List.append_nil _)
    rw [hchanges, Record.changeAll_append, changeAll_tags rfl rfl, hput _ _ _ (by decide)]
    by_cases hdiffer : ((desired.spec.value .workspaceAlias).differ
        (.text record.workspaceAlias)) = true
    · exact if_pos hdiffer
    · have hequal : desired.spec.workspaceAlias = record.workspaceAlias :=
        FieldValue.text.inj (FieldValue.eq_of_not_differ hdiffer)
      rw [Resource.adjusted, hequal]
      exact if_neg hdiffer
  | ruleGroupsNamespace =>
    have hchanges : desired.changesFor record
        = desired.changesIf (desired.shownBy record) record.arn .tags
          ++ desired.changesIf (desired.shownBy record) record.arn .configuration :=
      congrArg _ (List.append_nil _)
    rw [hchanges, Record.changeAll_append, changeAll_tags rfl rfl, hput _ _ _ (by decide),
      Resource.adjusted, Resource.payloadAfter]
    by_cases hdiffer : (FieldValue.text desired.spec.configuration).differ
        (.text (desired.readOf record)) = true
    · rw [if_pos hdiffer]
      exact if_pos hdiffer
    · rw [if_neg hdiffer]
      exact if_neg hdiffer
  | alertManagerDefinition =>
    have hchanges : desired.changesFor record
        = desired.changesIf (desired.shownBy record) record.arn .configuration :=
      List.append_nil _
    rw [hchanges, hput _ _ _ (by decide), Resource.adjusted, Resource.payloadAfter]
    by_cases hdiffer : (FieldValue.text desired.spec.configuration).differ
        (.text (desired.readOf record)) = true
    · rw [if_pos hdiffer]
      exact if_pos hdiffer
    · rw [if_neg hdiffer]
      exact if_neg hdiffer
  | loggingConfiguration =>
    have hchanges : desired.changesFor record
        = desired.changesIf (desired.shownBy record) record.arn .logGroup :=
      List.append_nil _
    rw [hchanges, hput _ _ _ (by decide), Resource.adjusted]
    by_cases hdiffer : (FieldValue.text (some desired.spec.logGroupArn)).differ
        (.text (some (record.logGroupArn.getD ""))) = true
    · exact if_pos hdiffer
    · have hequal : desired.spec.logGroupArn = record.logGroupArn.getD "" :=
        Option.some.inj (FieldValue.text.inj (FieldValue.eq_of_not_differ hdiffer))
      -- a valid log group is not empty, so the record has one
      have hgroup : record.logGroupArn = some desired.spec.logGroupArn := by
        have hne := (loggingConfiguration_of_valid hvalid).2
        rcases hrecord : record.logGroupArn with _ | group
        · rw [hrecord] at hequal
          exact absurd hequal hne
        · rw [hequal, hrecord]
          rfl
      rw [← hgroup]
      exact if_neg hdiffer

/-- The payload after a pass reads as the configuration. It is the configuration's bytes, or what
was found is ill-formed and was left. -/
theorem payloadAfter_reads (desired : Resource kind) (record : Record)
    {configuration : Option String} (hsome : configuration.isSome = true) :
    (desired.payloadAfter record configuration).map Utf8.decode = configuration ∧
      (desired.payloadAfter record configuration = configuration.map Utf8.encode ∨
        desired.payloadAfter record configuration = record.data ∧ record.IllFormed) := by
  by_cases hput : (FieldValue.text configuration).differ (.text (desired.readOf record)) = true
  · have hdata : desired.payloadAfter record configuration = configuration.map Utf8.encode :=
      if_pos hput
    rw [hdata]
    exact ⟨map_decode_encode configuration, .inl rfl⟩
  · have hdata : desired.payloadAfter record configuration = record.data := if_neg hput
    have hequal : configuration = desired.readOf record :=
      FieldValue.text.inj (FieldValue.eq_of_not_differ hput)
    -- something was read, so it was the payload
    have hread : record.data.map Utf8.decode = configuration := by
      rw [hequal, Resource.readOf] at hsome ⊢
      split
      · rename_i hfailed
        simp [hfailed] at hsome
      · rfl
    rw [hdata]
    exact ⟨hread, (encode_of_decode hread).imp_right fun hill => ⟨rfl, hill⟩⟩

/-- After a pass the record agrees with the spec, and its payload is the configuration's bytes or
was found ill-formed. -/
theorem adjusted_readsAs {desired : Resource kind} (hvalid : desired.spec.problem? = none)
    (record : Record) :
    (desired.adjusted record).ReadsAs desired.spec ∧
      ((desired.adjusted record).Encodes desired.spec ∨
        (desired.adjusted record).data = record.data ∧ record.IllFormed) := by
  cases kind with
  | workspace =>
    refine ⟨⟨rfl, rfl⟩, .inl ?_⟩
    intro configuration hnone
    cases hnone
  | ruleGroupsNamespace =>
    obtain ⟨hreads, hdata⟩ := payloadAfter_reads desired record
      (ruleGroupsNamespace_of_valid hvalid).2.2
    refine ⟨⟨rfl, hreads⟩, hdata.imp_left ?_⟩
    intro hencoded configuration hconfiguration
    obtain rfl : desired.spec.configuration = configuration := Option.some.inj hconfiguration
    exact hencoded
  | alertManagerDefinition =>
    obtain ⟨hreads, hdata⟩ := payloadAfter_reads desired record
      (alertManagerDefinition_of_valid hvalid).2
    refine ⟨hreads, hdata.imp_left ?_⟩
    intro hencoded configuration hconfiguration
    obtain rfl : desired.spec.configuration = configuration := Option.some.inj hconfiguration
    exact hencoded
  | loggingConfiguration =>
    refine ⟨rfl, .inl ?_⟩
    intro configuration hnone
    cases hnone

theorem adjusted_arn (desired : Resource kind) (record : Record) :
    (desired.adjusted record).arn = record.arn := by
  cases kind <;> rfl

theorem adjusted_fixedBy {desired : Resource kind} {record : Record}
    (hfixed : record.FixedBy desired.spec) : (desired.adjusted record).FixedBy desired.spec := by
  cases kind with
  | workspace => exact hfixed
  | ruleGroupsNamespace => trivial
  | alertManagerDefinition => trivial
  | loggingConfiguration => trivial

/-- The record that a create makes agrees with the spec, to the byte. -/
theorem recordOf_readsAs (assign : Request → Assignment) (desired : Resource kind) :
    (Store.recordOf assign desired.createRequest).ReadsAs desired.spec ∧
      (Store.recordOf assign desired.createRequest).Encodes desired.spec ∧
      (Store.recordOf assign desired.createRequest).FixedBy desired.spec := by
  cases kind with
  | workspace =>
    refine ⟨⟨rfl, rfl⟩, ?_, rfl⟩
    intro configuration hnone
    cases hnone
  | ruleGroupsNamespace =>
    refine ⟨⟨rfl, map_decode_encode _⟩, ?_, trivial⟩
    intro configuration hconfiguration
    obtain rfl : desired.spec.configuration = configuration := Option.some.inj hconfiguration
    rfl
  | alertManagerDefinition =>
    refine ⟨map_decode_encode _, ?_, trivial⟩
    intro configuration hconfiguration
    obtain rfl : desired.spec.configuration = configuration := Option.some.inj hconfiguration
    rfl
  | loggingConfiguration =>
    refine ⟨rfl, ?_, trivial⟩
    intro configuration hnone
    cases hnone

/-! ### The status of a resource in agreement -/

/-- The status of a resource in agreement, described again and summed up again, is the same. -/
theorem concludeStatus_again (status : Status) (key : ResourceKey) {record found : Record}
    (harn : found.arn = record.arn) (now later : String) :
    let once := Resource.concludeStatus kind settings now .synced .done
      ((status.observe (record.report key)).bind key)
    Resource.concludeStatus kind settings later .synced .done
      ((once.observe (found.report key)).bind key) = once := by
  intro once
  have hreport : status.observe (record.report key) = status.observe (found.report key) := by
    simp [Status.observe, Record.report, harn]
  have hreflects : once.Reflects (found.report key) key := by
    apply Status.Reflects.concludeStatus
    rw [hreport]
    exact status.reflects_observe_bind (found.report key) key
  rw [hreflects.observe_bind_eq]
  exact Resource.concludeStatus_eq_self (Resource.concludeStatus_sumsUp _ _ _ _ _) later

/-! ### The second pass -/

theorem showIn_eq_self {record : Record} {spec : Spec kind} (hfixed : record.FixedBy spec)
    (hreads : record.ReadsAs spec) :
    record.showIn (record.data.map Utf8.decode) spec = spec := by
  cases kind with
  | workspace =>
    obtain ⟨htags, halias⟩ := hreads
    have hkey : record.kmsKeyArn = spec.kmsKeyArn := hfixed
    rw [Record.showIn, htags, halias, hkey]
  | ruleGroupsNamespace =>
    obtain ⟨htags, hconfiguration⟩ := hreads
    rw [Record.showIn, htags, hconfiguration]
  | alertManagerDefinition =>
    have hconfiguration : record.data.map Utf8.decode = spec.configuration := hreads
    rw [Record.showIn, hconfiguration]
  | loggingConfiguration =>
    have hgroup : record.logGroupArn = some spec.logGroupArn := hreads
    rw [Record.showIn, hgroup, Option.getD_some]

/-- A resource that is active and in agreement with its record has no changes to make. -/
theorem changesFor_eq_nil {desired : Resource kind} {record : Record}
    (hphase : desired.phase = .active) (hfixed : record.FixedBy desired.spec)
    (hreads : record.ReadsAs desired.spec) : desired.changesFor record = [] := by
  have hread : desired.readOf record = record.data.map Utf8.decode := by
    rw [Resource.readOf, hphase]
    simp [Phase.isFailed]
  rw [Resource.changesFor, Resource.shownBy, hread, showIn_eq_self hfixed hreads]
  exact changes_eq_nil record.arn fun _ => rfl

/-- The place of a valid resource in the store has the shape of an address. -/
theorem fits_placeOf {desired : Resource kind} (hvalid : desired.spec.problem? = none)
    (hidentified : desired.spec.IdentifiedBy (Store.placeOf assign desired.createRequest)) :
    (Store.placeOf assign desired.createRequest).Fits kind := by
  rcases haddress : desired.key? with _ | key
  · have hplace : Store.placeOf assign desired.createRequest
        = ⟨(assign desired.createRequest).workspaceId, none⟩ := by
      rw [Store.placeOf, desired.createRequest_key, haddress, Option.getD_none]
    rw [hplace] at hidentified ⊢
    cases kind with
    | workspace => rfl
    | ruleGroupsNamespace => cases congrArg ResourceKey.name hidentified
    | alertManagerDefinition =>
      have hworkspace := congrArg ResourceKey.workspaceId hidentified
      exact ⟨hworkspace ▸ (alertManagerDefinition_of_valid hvalid).1, rfl⟩
    | loggingConfiguration =>
      have hworkspace := congrArg ResourceKey.workspaceId hidentified
      exact ⟨hworkspace ▸ (loggingConfiguration_of_valid hvalid).1, rfl⟩
  · rw [Store.placeOf, desired.createRequest_key, haddress, Option.getD_some]
    exact Resource.fits_of_key? haddress

/-- A pass that starts from the result of one in agreement describes, and has the same result. -/
theorem serves_sync_again {desired : Resource kind} {key : ResourceKey}
    (hfits : key.Fits kind) (hidentified : desired.spec.IdentifiedBy key)
    {record found : Record} (harn : found.arn = record.arn) (hfixed : found.FixedBy desired.spec)
    (hreads : found.ReadsAs desired.spec) {store : Store} (hfound : store key = some found)
    (now later : String) :
    let first := desired.conclude settings now ⟨desired.observed key record, .synced⟩
    Serves assign kind (first.resource.sync settings later) store [.describe key] first store := by
  intro first
  have haddress : first.resource.key? = some key := by
    have hbinding : first.resource.binding
        = (desired.statusOrEmpty.observe (record.report key)).binding.record key := rfl
    exact (Resource.boundTo_of_record hfits hbinding).key?_eq
  have hnone : first.resource.changesFor found = [] := changesFor_eq_nil rfl hfixed hreads
  have hserves : Serves assign kind (first.resource.sync settings later) store
      (.describe key :: (first.resource.changesFor found).map Call.update)
      (first.resource.conclude settings later ⟨first.resource.observed key found, .synced⟩)
      (store.changeAll kind (first.resource.changesFor found)) :=
    serves_sync_found haddress hfound hidentified hfixed
  have hresult : first.resource.conclude settings later
      ⟨first.resource.observed key found, .synced⟩ = first := by
    let once := Resource.concludeStatus kind settings now .synced .done
      ((desired.statusOrEmpty.observe (record.report key)).bind key)
    have honce : Resource.concludeStatus kind settings later .synced .done
        ((once.observe (found.report key)).bind key) = once :=
      concludeStatus_again desired.statusOrEmpty key harn now later
    calc first.resource.conclude settings later ⟨first.resource.observed key found, .synced⟩
        = ⟨{ desired with
              status := some (Resource.concludeStatus kind settings later .synced .done
                ((once.observe (found.report key)).bind key)) },
            .synced, .done⟩ := rfl
      _ = ⟨{ desired with status := some once }, .synced, .done⟩ := by rw [honce]
      _ = first := rfl
  rw [hnone, hresult] at hserves
  exact hserves

/-! ### Both passes -/

/-- Two rounds against a store, the second of which ends as the first. -/
theorem rounds_of_serves (assign : Request → Assignment) (settings : PassSettings)
    (now later : String) {desired : Resource kind} {store ended : Store}
    {calls again : List Call} {result : PassResult kind}
    (hfirst : Serves assign kind (desired.sync settings now) store calls result ended)
    (hagain : Serves assign kind (result.resource.sync settings later) ended again result ended) :
    let first := Round.run (recordStore assign) settings ⟨id, .sync, now, false⟩ desired store
    let second := Round.run (recordStore assign) settings ⟨id, .sync, later, false⟩
      first.1.result.resource first.2
    first.1.result = result ∧ first.2 = ended ∧ second.1.calls = again ∧
      second.1.result = result := by
  intro first second
  obtain ⟨hresult, _, hended⟩ := hfirst.round_run
  have hsecond : second = Round.run (recordStore assign) settings ⟨id, .sync, later, false⟩
      result.resource ended := by
    simp only [second, first, hresult, hended]
  obtain ⟨hsame, hcalls, _⟩ := hagain.round_run
  rw [hsecond]
  exact ⟨hresult, hended, hcalls, hsame⟩

/-- **Convergence in one pass.** Take a store of records, a resource with a valid spec and any
status, and let the identity fields of the spec be those of its address, or of the address that the
store assigns if it has none. Whatever record is found there, if it has the immutable fields of the
spec, or if there is none, one pass ends in agreement: tags, alias and log group of the record are
the spec's and the payload is the bytes of the configuration, unless an ill-formed payload was found
that reads as the configuration. The pass after it only describes, and returns the same status. -/
theorem sync_converges (assign : Request → Assignment) (settings : PassSettings)
    (desired : Resource kind) (hvalid : desired.spec.problem? = none)
    (hidentified : desired.spec.IdentifiedBy (Store.placeOf assign desired.createRequest))
    (store : Store)
    (hfixed : ∀ key record, desired.key? = some key → store key = some record →
      record.FixedBy desired.spec) (now later : String) :
    let key := Store.placeOf assign desired.createRequest
    let first := Round.run (recordStore assign) settings ⟨id, .sync, now, false⟩ desired store
    let second := Round.run (recordStore assign) settings ⟨id, .sync, later, false⟩
      first.1.result.resource first.2
    first.1.result.outcome = .synced ∧
      (∃ record, first.2 key = some record ∧ record.ReadsAs desired.spec ∧
        (record.Encodes desired.spec ∨
          ∃ found, store key = some found ∧ found.IllFormed ∧ record.data = found.data)) ∧
      second.1.calls = [.describe key] ∧ second.1.result.outcome = .synced ∧
      second.1.result.resource.status = first.1.result.resource.status := by
  intro key first second
  have hfits : key.Fits kind := fits_placeOf hvalid hidentified
  by_cases hfound : ∃ found, desired.key? = some key ∧ store key = some found
  · obtain ⟨found, haddress, hfound⟩ := hfound
    have hfixed := hfixed key found haddress hfound
    have hended : store.changeAll kind (desired.changesFor found) key
        = some (desired.adjusted found) := by
      rw [Store.changeAll_apply hfound, changeAll_changesFor hvalid haddress]
    obtain ⟨hreads, hpayload⟩ := adjusted_readsAs hvalid found
    obtain ⟨hresult, hstore, hcalls, hsame⟩ := rounds_of_serves assign settings now later
      (serves_sync_found haddress hfound hidentified hfixed)
      (serves_sync_again hfits hidentified (adjusted_arn desired found) (adjusted_fixedBy hfixed)
        hreads hended now later)
    have hrecord : first.2 key = some (desired.adjusted found) := by rw [hstore, hended]
    refine ⟨congrArg PassResult.outcome hresult, ⟨_, hrecord, hreads, ?_⟩, hcalls,
      congrArg PassResult.outcome hsame, ?_⟩
    · apply hpayload.imp_right
      rintro ⟨hdata, hill⟩
      exact ⟨found, hfound, hill, hdata⟩
    · rw [hresult, hsame]
  · have habsent : ∀ address, desired.key? = some address → store address = none := by
      intro address haddress
      -- an address that there is already is the place of the create
      obtain rfl : key = address := by
        simp only [key, Store.placeOf, desired.createRequest_key, haddress, Option.getD_some]
      rcases hrecord : store key with _ | record
      · rfl
      · exact absurd ⟨record, haddress, hrecord⟩ hfound
    obtain ⟨hreads, hencodes, hfixed⟩ := recordOf_readsAs assign desired
    obtain ⟨calls, hfirst⟩ := serves_sync_absent hvalid rfl hidentified habsent
    have hended : store.after assign kind (.create desired.createRequest) key
        = some (Store.recordOf assign desired.createRequest) := if_pos rfl
    obtain ⟨hresult, hstore, hcalls, hsame⟩ := rounds_of_serves assign settings now later hfirst
      (serves_sync_again hfits hidentified rfl hfixed hreads hended now later)
    have hrecord : first.2 key = some (Store.recordOf assign desired.createRequest) := by
      rw [hstore, hended]
    refine ⟨congrArg PassResult.outcome hresult, ⟨_, hrecord, hreads, .inl hencodes⟩, hcalls,
      congrArg PassResult.outcome hsame, ?_⟩
    rw [hresult, hsame]

/-- A record that an earlier pass has left half changed is brought to the spec. -/
theorem sync_converges_half_changed :
    let key : ResourceKey := ⟨"ws-1", some "rules"⟩
    let left : Record := ⟨"arn", .ofList [("team", "infra")], none, none, some [0x61], none⟩
    let store : Store := fun other => if other = key then some left else none
    let desired : Resource .ruleGroupsNamespace :=
      ⟨.empty, ⟨"rules", "ws-1", some "groups: []", .ofList [("team", "infra")]⟩, none⟩
    let settings := Settings.default.passSettings ⟨none, none⟩
    let first := Round.run (recordStore fun _ => ⟨"", ""⟩) settings ⟨id, .sync, "T1", false⟩ desired
      store
    let second := Round.run (recordStore fun _ => ⟨"", ""⟩) settings ⟨id, .sync, "T2", false⟩
      first.1.result.resource first.2
    first.1.calls = [.describe key, .update (.put desired.request)] ∧
      second.1.calls = [.describe key] := by
  intro key left store desired settings first second
  refine ⟨by decide, ?_⟩
  exact (sync_converges (fun _ => ⟨"", ""⟩) settings desired (by decide) (by rfl) store
    (fun _ _ _ _ => trivial) "T1" "T2").2.2.1

/-- A payload that is not well-formed and reads as the configuration is left as it is: nothing
differs in what was read. -/
theorem ill_formed_payload_stays :
    let key : ResourceKey := ⟨"ws-1", some "rules"⟩
    let found : Record := ⟨"arn", .empty, none, none, some [0xFF], none⟩
    let store : Store := fun other => if other = key then some found else none
    let desired : Resource .ruleGroupsNamespace :=
      ⟨.empty, ⟨"rules", "ws-1", some (String.singleton Utf8.replacement), .empty⟩, none⟩
    let settings := Settings.default.passSettings ⟨none, none⟩
    let first := Round.run (recordStore fun _ => ⟨"", ""⟩) settings ⟨id, .sync, "T", false⟩ desired
      store
    desired.spec.problem? = none ∧ desired.key? = some key ∧
      first.1.result.outcome = .synced ∧ first.1.calls = [.describe key] ∧
      (first.2 key).map (·.data) = some (some [0xFF]) ∧
      desired.spec.configuration.map Utf8.encode = some [0xEF, 0xBF, 0xBD] := by
  decide

end ManagedPrometheus
