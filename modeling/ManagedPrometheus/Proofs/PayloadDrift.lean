import ManagedPrometheus.Proofs.Descriptions
import ManagedPrometheus.Proofs.DifferencesServed
import ManagedPrometheus.Proofs.Utf8Reading

/-!
# Payloads that have drifted

The backend keeps the configuration of rules as bytes, and a spec holds it as a text. They are
compared as texts, so a payload that is not the bytes of the configuration is seen as a difference
unless it reads as the configuration all the same. Only an ill-formed payload can do that, and only
for a text with replacement characters in it (`WireObject.PassesFor`).

A drift that is seen is put right by the last call of the pass. What can keep that call from being
made is a call before it that fails, a cancellation, or a change of tags without the identifier that
it needs (`PassRecord.PutsPayload`).
-/

namespace ManagedPrometheus

variable {σ : Type} {now : String} {settings : PassSettings} {key : ResourceKey}
  {object : WireObject} {text : String}

/-- The payload of a description is ill-formed and reads as a text all the same: where it has an
ill-formed part, the text has a replacement character. -/
def WireObject.PassesFor (object : WireObject) (text : String) : Prop :=
  ∃ data read, object.data = some data ∧ ¬ Utf8.WellFormed data ∧ Utf8.ReadsAs data read ∧
    read.map (·.getD Utf8.replacement) = text.toList

theorem WireObject.PassesFor.replacement_mem (h : object.PassesFor text) :
    Utf8.replacement ∈ text.toList := by
  obtain ⟨data, read, -, hill, hreads, htext⟩ := h
  rw [← htext]
  by_cases hpart : none ∈ read
  · exact List.mem_map.mpr ⟨none, hpart, rfl⟩
  · exact absurd (hreads.wellFormed hpart) hill

theorem decode_data_eq_iff :
    object.data.map Utf8.decode = some text ↔
      object.data = some (Utf8.encode text) ∨ object.PassesFor text := by
  constructor
  · intro h
    obtain ⟨data, hdata, rfl⟩ := Option.map_eq_some_iff.mp h
    by_cases hwellFormed : Utf8.WellFormed data
    · left
      rw [hdata, Utf8.encode_decode_iff.mpr hwellFormed]
    · right
      have hreads := Utf8.readsAs_units data
      exact ⟨data, _, hdata, hwellFormed, hreads, hreads.toList_decode.symm⟩
  · rintro (hdata | ⟨data, read, hdata, -, hreads, htext⟩)
    · rw [hdata, Option.map_some, Utf8.decode_encode]
    · rw [hdata, Option.map_some, Option.some.injEq, String.ext_iff, hreads.toList_decode, htext]

/-! ### What is compared -/

theorem configuration_snapshot (rules : Resource .ruleGroupsNamespace) (now : String)
    (key : ResourceKey) (object : WireObject) :
    (rules.snapshot now key object).spec.configuration = object.data.map Utf8.decode := by
  have hplain : rules.ReadsPlainly object := fun hpreserves => absurd hpreserves (by decide)
  rw [Resource.snapshot_of_plain hplain]
  rfl

theorem configuration_mem_paths_iff {rules : Resource .ruleGroupsNamespace}
    (hconfiguration : rules.spec.configuration = some text) :
    Field.configuration.path ∈ (rules.compare (rules.snapshot now key object)).paths ↔
      object.data ≠ some (Utf8.encode text) ∧ ¬ object.PassesFor text := by
  have hvalues : rules.spec.value .configuration
        ≠ (rules.snapshot now key object).spec.value .configuration ↔
      object.data ≠ some (Utf8.encode text) ∧ ¬ object.PassesFor text := by
    show FieldValue.text rules.spec.configuration
      ≠ .text (rules.snapshot now key object).spec.configuration ↔ _
    rw [hconfiguration, configuration_snapshot, ne_eq, FieldValue.text.injEq, eq_comm,
      decode_data_eq_iff, not_or]
  rw [← hvalues, (rules.tellsDifferences _).mem_paths_iff]
  constructor
  · rintro ⟨field, hpath, hfield⟩
    obtain rfl := Field.path_injective hpath
    exact hfield
  · intro hfield
    exact ⟨.configuration, rfl, hfield⟩

/-! ### What is put -/

/-- A change that is to be made is asked for if all that is asked for besides it succeeds. -/
theorem Applies.mem_calls_of_succeeded {kind : Kind} {resource : Resource kind}
    {changes : List Mutation} {made : List Exchange} {decision : Decision kind}
    (h : Applies resource changes made decision) {change : Mutation} (hchange : change ∈ changes)
    (hcancelled : decision.outcome ≠ .failed .cancelled)
    (hothers : ∀ exchange ∈ made, exchange.call ≠ .update change → exchange.succeeded = true) :
    .update change ∈ made.map (·.call) := by
  induction h with
  | finished => cases hchange
  | refused => exact absurd rfl hcancelled
  | @failed _ mutation _ failure =>
    by_cases hsame : mutation = change
    · exact hsame ▸ List.mem_cons_self
    · have hfails := hothers ⟨.update mutation, .error failure⟩ List.mem_cons_self
        (fun hcall => hsame (Call.update.inj hcall))
      cases hfails
  | silent _ ih =>
    rcases List.mem_cons.mp hchange with rfl | hchange
    · exact List.mem_cons_self
    · apply List.mem_cons_of_mem
      apply ih hchange hcancelled
      intro exchange hmem
      exact hothers exchange (List.mem_cons_of_mem _ hmem)
  | reported _ ih =>
    rcases List.mem_cons.mp hchange with rfl | hchange
    · exact List.mem_cons_self
    · apply List.mem_cons_of_mem
      apply ih hchange hcancelled
      intro exchange hmem
      exact hothers exchange (List.mem_cons_of_mem _ hmem)

theorem put_mem_of_attribute_ne {kind : Kind} {desired latest : Resource kind}
    {changes : List Mutation} (hattribute : desired.spec.attribute ≠ latest.spec.attribute)
    (hmutations : desired.mutations latest = .ok changes) : .put desired.request ∈ changes := by
  obtain ⟨arn, rfl⟩ := exists_arn_of_mutations hmutations
  rw [changes_eq, if_neg hattribute]
  exact List.mem_append_right _ List.mem_cons_self

/-- What a pass over rules does about a configuration that differs from the one described. -/
structure PassRecord.PutsPayload (record : PassRecord .ruleGroupsNamespace)
    (latest : Resource .ruleGroupsNamespace) (text : String) : Prop where
  /-- It does not end with `synced` unless a put of the configuration has been accepted. -/
  synced : record.result.outcome = .synced → ∃ request answer,
    ⟨.update (.put request), .ok answer⟩ ∈ record.exchanges ∧
      request.data = some (Utf8.encode text)
  /-- It puts the configuration if every other call succeeds. -/
  puts : latest.spec.tags = record.input.spec.tags ∨ latest.statusOrEmpty.arn? ≠ none →
    record.result.outcome ≠ .failed .cancelled →
    (∀ exchange ∈ record.exchanges,
      (∀ request, exchange.call ≠ .update (.put request)) → exchange.succeeded = true) →
    ∃ request, .update (.put request) ∈ record.calls ∧ request.data = some (Utf8.encode text)
  /-- Tags that differ cannot be changed without the identifier, and nothing else is. -/
  unidentified : latest.spec.tags ≠ record.input.spec.tags → latest.statusOrEmpty.arn? = none →
    record.result.outcome = .failed .missingArn ∧ ∀ call ∈ record.calls, call.mutates = false

theorem PassRecord.Lawful.putsPayload {record : PassRecord .ruleGroupsNamespace}
    (h : record.Lawful settings) (htask : record.task = .sync)
    (hdescribed : ⟨.describe key, .ok (some object)⟩ ∈ record.exchanges)
    (hconfiguration : record.input.spec.configuration = some text)
    {latest : Resource .ruleGroupsNamespace}
    (hlatest : latest = record.input.snapshot record.now key object)
    (hphase : latest.phase = .active) (hfixed : record.input.spec.FixedAlike latest.spec)
    (hdiffer : record.input.spec.configuration ≠ latest.spec.configuration) :
    record.PutsPayload latest text := by
  obtain ⟨decision, hresult, ⟨-, hsyncs⟩ | ⟨hfinalize, -⟩⟩ := h.exit
  case inr => cases htask.symm.trans hfinalize
  obtain ⟨-, rest, hexchanges, hupdates⟩ := hsyncs.updates_of_described hdescribed
  rw [← hlatest] at hupdates
  have houtcome : record.result.outcome = decision.outcome := by
    rw [hresult, Resource.conclude_outcome]
  have hopen : record.input.decideAtOnce latest = none := by
    refine decideAtOnce_eq_none_iff.mpr ⟨mayChange_of_active hphase, hfixed, ?_⟩
    intro hequal
    exact hdiffer (congrArg RuleGroupsNamespaceSpec.configuration hequal)
  have hdata : record.input.request.data = some (Utf8.encode text) := by
    show record.input.spec.configuration.map Utf8.encode = _
    rw [hconfiguration]
    rfl
  cases hupdates with
  | decided hdecided => cases hopen.symm.trans hdecided
  | unidentified _ hmutations =>
    obtain ⟨rfl, htags, harn⟩ := mutations_eq_error_iff.mp hmutations
    constructor
    case synced =>
      intro hsynced
      cases houtcome.symm.trans hsynced
    case puts =>
      rintro (hsame | hknown)
      · exact absurd hsame htags
      · exact absurd harn hknown
    case unidentified =>
      intro _ _
      refine ⟨houtcome, ?_⟩
      rw [PassRecord.calls, hexchanges]
      intro call hmem
      obtain rfl := List.mem_singleton.mp hmem
      rfl
  | changing _ hmutations happlies =>
    have hattribute : record.input.spec.attribute ≠ latest.spec.attribute := hdiffer
    have hput := put_mem_of_attribute_ne hattribute hmutations
    constructor
    case synced =>
      intro hsynced
      rw [houtcome] at hsynced
      obtain ⟨answer, hmem⟩ := happlies.accepted (by simp [hsynced]) _ hput
      exact ⟨_, answer, hexchanges ▸ List.mem_cons_of_mem _ hmem, hdata⟩
    case puts =>
      intro _ hcancelled hothers
      refine ⟨_, ?_, hdata⟩
      rw [PassRecord.calls, hexchanges]
      apply List.mem_cons_of_mem
      apply happlies.mem_calls_of_succeeded hput (houtcome ▸ hcancelled)
      intro exchange hmem hcall
      apply hothers exchange (hexchanges ▸ List.mem_cons_of_mem _ hmem)
      -- a put among the changes is this one
      intro request hrequest
      have hchange := happlies.calls_isPrefix.subset (List.mem_map_of_mem (f := (·.call)) hmem)
      obtain ⟨change, hchange, hsame⟩ := List.mem_map.mp hchange
      obtain rfl := Call.update.inj (hsame.trans hrequest)
      obtain rfl := eq_request_of_put_mem hmutations hchange
      exact hcall hrequest
    case unidentified =>
      intro htags harn
      cases hmutations.symm.trans (mutations_of_no_arn htags harn)

/-- **Payloads that have drifted.** Take any pass of any history over rules with a configuration,
and what it was told of them. The comparison with that has the configuration among its paths if and
only if the payload is not the bytes of the configuration and does not pass for it, and nothing
passes for a configuration without replacement characters. If it is among them, the rules are active
and their name and workspace are the same, the pass puts the bytes of the configuration: it never
ends with `synced` without, and it does so if it is not cancelled and no other call fails. Only a
change of tags without an identifier keeps it from that, and then it fails. -/
theorem history_putsPayload (backend : Backend σ) (settings : PassSettings)
    (rounds : List (Round .ruleGroupsNamespace)) (resource : Resource .ruleGroupsNamespace)
    (state : σ) :
    ∀ record ∈ history backend settings rounds resource state, record.task = .sync →
      ∀ text, record.input.spec.configuration = some text →
      ∀ key object, ⟨.describe key, .ok (some object)⟩ ∈ record.exchanges →
        let latest := record.input.snapshot record.now key object
        (Field.configuration.path ∈ (record.input.compare latest).paths ↔
          object.data ≠ some (Utf8.encode text) ∧ ¬ object.PassesFor text) ∧
        (object.PassesFor text → Utf8.replacement ∈ text.toList) ∧
        (latest.phase = .active → record.input.spec.FixedAlike latest.spec →
          object.data ≠ some (Utf8.encode text) → ¬ object.PassesFor text →
          record.PutsPayload latest text) := by
  intro record hrecord htask text hconfiguration key object hdescribed latest
  have hlawful := history_lawful backend settings rounds resource state record hrecord
  refine ⟨configuration_mem_paths_iff hconfiguration, WireObject.PassesFor.replacement_mem, ?_⟩
  intro hphase hfixed hdata hpasses
  apply hlawful.putsPayload htask hdescribed hconfiguration rfl hphase hfixed
  rw [hconfiguration, configuration_snapshot, ne_comm]
  exact fun hsame => (decode_data_eq_iff.mp hsame).elim hdata hpasses

/-- The payload is ill-formed and does not pass for the configuration. It is put once the tags are
set. -/
theorem history_putsPayload_ill_formed :
    let rules : Resource .ruleGroupsNamespace :=
      ⟨.empty, ⟨"rules", "ws-1", some "groups: []", .ofList [("team", "infra")]⟩, none⟩
    let key : ResourceKey := ⟨"ws-1", some "rules"⟩
    let found : WireObject :=
      { WireObject.empty with
        arn := some "arn", status := some ⟨"ACTIVE", none⟩, data := some [0xFF] }
    let script : Script := { Script.empty with describes := [.ok found] }
    let settings := Settings.default.passSettings ⟨none, none⟩
    let rounds : List (Round .ruleGroupsNamespace) := [⟨id, .sync, "T", false⟩]
    ∃ record ∈ history scripted settings rounds rules script,
      record.task = .sync ∧ record.input.spec.configuration = some "groups: []" ∧
        ⟨.describe key, .ok (some found)⟩ ∈ record.exchanges ∧
        Field.configuration.path
          ∈ (record.input.compare (record.input.snapshot record.now key found)).paths ∧
        record.PutsPayload (record.input.snapshot record.now key found) "groups: []" ∧
        record.result.outcome = .synced ∧
        record.calls = [.describe key, .update (.tag "arn" (.ofList [("team", "infra")])),
          .update (.put record.input.request)] := by
  intro rules key found script settings rounds
  let record := (Round.run scripted settings ⟨id, .sync, "T", false⟩ rules script).1
  have hmem : record ∈ history scripted settings rounds rules script := List.mem_cons_self
  have hexchanges : record.exchanges =
      [⟨.describe key, .ok (some found)⟩,
        ⟨.update (.tag "arn" (.ofList [("team", "infra")])), .ok none⟩,
        ⟨.update (.put rules.request), .ok none⟩] := by
    simp only [record, settings, script, found, rules]
    rfl
  have hdescribed : ⟨.describe key, .ok (some found)⟩ ∈ record.exchanges :=
    hexchanges ▸ List.mem_cons_self
  have hdiffer : found.data ≠ some (Utf8.encode "groups: []") := by decide
  have hpasses : ¬ found.PassesFor "groups: []" := by
    intro hpasses
    exact absurd hpasses.replacement_mem (by decide)
  obtain ⟨hpaths, -, hputs⟩ := history_putsPayload scripted settings rounds rules script record hmem
    rfl "groups: []" rfl key found hdescribed
  have hfixed : record.input.spec.FixedAlike (record.input.snapshot record.now key found).spec :=
    immutablePaths_eq_nil_iff.mp (by decide)
  exact ⟨record, hmem, rfl, rfl, hdescribed, hpaths.mpr ⟨hdiffer, hpasses⟩,
    hputs (by decide) hfixed hdiffer hpasses, by decide, by decide⟩

/-- A payload that lacks its last bytes passes for a configuration that ends with a replacement
character, and the pass ends with `synced`. And where the tags differ as well and no identifier is
known, a payload that is seen to differ is not put although no call has failed. -/
theorem truncated_payload_not_put :
    let settings := Settings.default.passSettings ⟨none, none⟩
    let key : ResourceKey := ⟨"ws-1", some "rules"⟩
    let found : WireObject :=
      { WireObject.empty with
        status := some ⟨"ACTIVE", none⟩, data := some (Utf8.encode "groups: []" ++ [0xF0, 0x9F]) }
    let pass : Resource .ruleGroupsNamespace → PassRecord .ruleGroupsNamespace := fun rules =>
      (Round.run scripted settings ⟨id, .sync, "T", false⟩ rules
        { Script.empty with describes := [.ok found] }).1
    let same := pass ⟨.empty, ⟨"rules", "ws-1", some "groups: []\uFFFD", .empty⟩, none⟩
    let tagged := pass
      ⟨.empty, ⟨"rules", "ws-1", some "groups: []", .ofList [("team", "infra")]⟩, none⟩
    (found.data ≠ some (Utf8.encode "groups: []\uFFFD") ∧
      (same.input.compare (same.input.snapshot same.now key found)).paths = [] ∧
      same.result.outcome = .synced ∧ same.calls = [.describe key]) ∧
    Field.configuration.path
      ∈ (tagged.input.compare (tagged.input.snapshot tagged.now key found)).paths ∧
    (∀ exchange ∈ tagged.exchanges, exchange.succeeded = true) ∧
      tagged.result.outcome = .failed .missingArn ∧ tagged.calls = [.describe key] := by
  decide

end ManagedPrometheus
