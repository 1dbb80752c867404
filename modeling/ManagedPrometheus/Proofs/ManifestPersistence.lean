import ManagedPrometheus.Proofs.JsonTextRoundTrip
import ManagedPrometheus.Proofs.ManifestRoundTrip

/-!
# Manifests that are stored

Every pass starts from what an earlier one has stored. A manifest may come in many forms: with
conditions that are repeated, codes that nobody knows, fields that are ignored, nulls. What was read
from it is written in one form, and from then on it stays the same (`Resource.manifest_persists`).

What was read can be read again. The one thing that is written and not read, a generation that is no
integer of 64 bits, has not been read in the first place (`Metadata.counted_of_read`), and what was
read has its conditions under their own types (`Conditions.keyed_of_read`).
-/

namespace ManagedPrometheus

variable {α : Type} {kind : Kind}

/-! ### What was read -/

theorem Json.exists_of_mem_mapM {β : Type} {f : α → Option β} {items : List α} {values : List β}
    (h : items.mapM f = some values) {value : β} (hmem : value ∈ values) :
    ∃ item, f item = some value := by
  induction items generalizing values with
  | nil =>
    cases h
    cases hmem
  | cons item rest ih =>
    simp only [List.mapM_cons, Option.bind_eq_bind, Option.bind_eq_some_iff] at h
    obtain ⟨head, hhead, tail, htail, hvalues⟩ := h
    cases hvalues
    rcases List.mem_cons.mp hmem with rfl | hmem
    · exact ⟨item, hhead⟩
    · exact ih htail hmem

theorem Json.read_of_nullable {read : Json → Option α} {json : Json} {value : α}
    (h : nullable read json = some (some value)) : read json = some value := by
  by_cases hnull : json = .null
  · subst hnull
    cases h
  · rw [nullable_of_ne_null hnull] at h
    obtain ⟨found, hfound, hvalue⟩ := Option.map_eq_some_iff.mp h
    cases hvalue
    exact hfound

/-- The value of a field that may be absent was read from something. -/
theorem Json.exists_read_of_optional {read : Json → Option α} {name : String}
    {fields : List (String × Json)} {value : α}
    (h : optional read name fields = some (some value)) : ∃ json, read json = some value := by
  rw [optional] at h
  split at h
  · cases h
  · exact ⟨_, read_of_nullable h⟩

/-- The value of a field that may be repeated was read at one of its occurrences. -/
theorem Json.exists_read_of_lastOptional {read : Json → Option α} {name : String}
    {members : List (String × Json)} {value : α}
    (h : lastOptional read name members = some (some value)) :
    ∃ json, read json = some value := by
  obtain ⟨values, hvalues, hlast⟩ := Option.map_eq_some_iff.mp h
  have hmem : some value ∈ values := List.mem_of_getLast? (Option.join_eq_some_iff.mp hlast)
  obtain ⟨member, hread⟩ := exists_of_mem_mapM hvalues hmem
  exact ⟨member.2, read_of_nullable hread⟩

/-- An integer that was read from anything is read from itself. -/
theorem Json.int64?_of_read {json : Json} {n : Int} (h : int64? json = some n) :
    int64? (.int n) = some n := by
  cases json with
  | int m =>
    rw [int64?] at h
    split at h
    case isTrue hbounds =>
      cases h
      exact if_pos hbounds
    case isFalse => cases h
  | _ => cases h

/-- Metadata that were read have a generation that can be read. -/
theorem Metadata.counted_of_read {json : Json} {metadata : Metadata}
    (h : Metadata.ofJson? json = some metadata) : metadata.Counted := by
  intro n hn
  cases json with
  | object members =>
    simp only [ofJson?, Option.bind_eq_bind, Option.bind_eq_some_iff] at h
    obtain ⟨_, _, _, _, _, _, _, _, _, _, generation, hgeneration, h⟩ := h
    obtain ⟨_, -, _, -, _, -, _, -, _, -, hmetadata⟩ := h
    cases hmetadata
    cases hn
    obtain ⟨source, hread⟩ := Json.exists_read_of_lastOptional hgeneration
    exact Json.int64?_of_read hread
  | _ => cases h

theorem Conditions.keyed_of_read {json : Json} {conditions : Conditions}
    (h : Conditions.ofJson? json = some conditions) : conditions.Keyed := by
  cases json with
  | list items =>
    obtain ⟨list, -, rfl⟩ := Option.map_eq_some_iff.mp h
    exact keyed_ofList list
  | _ => cases h

theorem Status.keyed_of_read {json : Json} {status : Status}
    (h : Status.ofJson? json = some status) : status.conditions.Keyed := by
  simp only [ofJson?, Option.bind_eq_bind, Option.bind_eq_some_iff] at h
  obtain ⟨fields, -, _, -, _, -, _, -, conditions, hconditions, _, -, _, -, _, -, hstatus⟩ := h
  cases hstatus
  rw [Json.withDefault] at hconditions
  split at hconditions
  · cases hconditions
    exact Conditions.keyed_empty
  · exact Conditions.keyed_of_read hconditions

theorem Resource.counted_and_keyed_of_read {json : Json} {resource : Resource kind}
    (h : Resource.ofJson? kind json = some resource) :
    resource.metadata.Counted ∧ resource.Keyed := by
  cases json with
  | object members =>
    simp only [ofJson?, Option.bind_eq_bind, Option.bind_eq_some_iff] at h
    obtain ⟨fields, -, metadata, hmetadata, _, -, status?, hstatus, hresource⟩ := h
    cases hresource
    constructor
    · obtain ⟨json, -, hread⟩ := Option.bind_eq_some_iff.mp hmetadata
      exact Metadata.counted_of_read hread
    · rcases status? with _ | status
      · exact Conditions.keyed_empty
      · obtain ⟨json, hread⟩ := Json.exists_read_of_optional hstatus
        exact Status.keyed_of_read hread
  | _ => cases h

/-! ### Manifests are plain -/

theorem Metadata.plain_toJson (metadata : Metadata) : metadata.toJson.Plain := by
  apply Json.plain_recordSome
  simp [Json.plain_ofMap, Json.plain_ofTexts, Json.Plain]

theorem Spec.plain_writtenTags (tags : Tags) : ∀ value ∈ writtenTags tags, value.Plain := by
  intro value hvalue
  unfold writtenTags at hvalue
  split at hvalue
  all_goals cases hvalue
  exact Json.plain_ofMap tags

theorem Spec.plain_toJson (spec : Spec kind) : spec.toJson.Plain := by
  cases kind with
  | workspace =>
    apply Json.plain_recordSome
    simpa [Json.Plain] using plain_writtenTags spec.tags
  | ruleGroupsNamespace =>
    apply Json.plain_recordSome
    simpa [Json.Plain] using plain_writtenTags spec.tags
  | alertManagerDefinition | loggingConfiguration =>
    apply Json.plain_recordSome
    simp [Json.Plain]

theorem ResourceMetadata.plain_toJson (metadata : ResourceMetadata) : metadata.toJson.Plain := by
  apply Json.plain_recordSome
  simp [Json.Plain]

theorem Conditions.plain_toJson (conditions : Conditions) : conditions.toJson.Plain := by
  apply Json.plainItems_iff.mpr
  intro item hitem
  obtain ⟨entry, -, rfl⟩ := List.mem_map.mp hitem
  apply Json.plain_recordSome
  simp [Json.Plain]

theorem Status.plain_toJson (status : Status) : status.toJson.Plain := by
  apply Json.plain_recordSome
  simp [Json.Plain, StatusCode.toJson, ResourceMetadata.plain_toJson, Conditions.plain_toJson]

theorem Resource.plain_toJson (resource : Resource kind) : resource.toJson.Plain := by
  apply Json.plain_recordSome
  simp [Json.Plain, Metadata.plain_toJson, Spec.plain_toJson, Status.plain_toJson]

/-! ### Manifests that are stored and read again -/

namespace Resource

/-- The text of a manifest reads like the manifest itself. -/
theorem ofText?_write (resource : Resource kind) :
    ofText? kind resource.toJson.write = ofJson? kind resource.toJson := by
  rw [ofText?, Json.read?_write resource.plain_toJson, Option.bind_some]

theorem ofText?_write_of_keyed {resource : Resource kind}
    (h : resource.metadata.Counted ∧ resource.Keyed) :
    ofText? kind resource.toJson.write = some resource := by
  rw [ofText?_write]
  exact resource.ofJson?_toJson_iff.mpr h

/-- A resource whose conditions are stored under their own types survives being stored, as a value
and as text, and a manifest that was accepted in any form comes to rest in the one that the library
writes. -/
theorem manifest_persists (kind : Kind) :
    (∀ resource : Resource kind, (∃ json, Metadata.ofJson? json = some resource.metadata) →
      resource.Keyed →
        ofJson? kind resource.toJson = some resource ∧
          ofText? kind resource.toJson.write = some resource) ∧
    (∀ json (resource : Resource kind), ofJson? kind json = some resource →
      ofJson? kind resource.toJson = some resource) ∧
    ∀ text (resource : Resource kind), ofText? kind text = some resource →
      ofText? kind resource.toJson.write = some resource := by
  refine ⟨?_, ?_, ?_⟩
  · rintro resource ⟨json, hread⟩ hkeyed
    have hcounted := Metadata.counted_of_read hread
    constructor
    · exact resource.ofJson?_toJson_iff.mpr ⟨hcounted, hkeyed⟩
    · exact ofText?_write_of_keyed ⟨hcounted, hkeyed⟩
  · intro json resource hread
    exact resource.ofJson?_toJson_iff.mpr (counted_and_keyed_of_read hread)
  · intro text resource hread
    obtain ⟨json, -, hjson⟩ := Option.bind_eq_some_iff.mp hread
    exact ofText?_write_of_keyed (counted_and_keyed_of_read hjson)

/-- A manifest with repeated metadata and conditions, nulls, unknown fields and an unknown code. -/
theorem manifest_persists_untidy :
    let condition (value : ConditionValue) : Json :=
      .object [("type", .text "Terminal"), ("status", .text value.name), ("message", .null)]
    let untidy : Json := .object [("kind", .int 1),
      ("metadata", .object [("name", .text "a"), ("uid", .null), ("name", .text "b\n"),
        ("generation", .int 3)]),
      ("spec", .object [("alias", .null), ("other", .list []), ("tags", .object [])]),
      ("status", .object [("conditions", .list [condition .yes, condition .no]),
        ("statusCode", .text "PAUSED"), ("statusReason", .null)])]
    let resource : Resource .workspace :=
      ⟨{ Metadata.empty with name := some "b\n", generation := some 3 }, ⟨none, none, .empty⟩,
        some { Status.empty with
          conditions := ⟨none, some ⟨.terminal, .no, none, none⟩, none⟩
          statusCode := some .unknown }⟩
    ofText? .workspace untidy.write = some resource ∧ resource.toJson ≠ untidy ∧
      ofText? .workspace resource.toJson.write = some resource := by
  intro condition untidy resource
  have hplain : untidy.Plain := by
    simp [untidy, condition, Json.Plain, Json.PlainItems, Json.PlainMembers]
  have hread : ofText? .workspace untidy.write = some resource := by
    rw [ofText?, Json.read?_write hplain, Option.bind_some]
    simp only [untidy, condition, resource]
    decide +kernel
  obtain ⟨-, -, htext⟩ := manifest_persists .workspace
  refine ⟨hread, ?_, htext _ _ hread⟩
  simp only [untidy, condition, resource]
  decide +kernel

end Resource

end ManagedPrometheus
