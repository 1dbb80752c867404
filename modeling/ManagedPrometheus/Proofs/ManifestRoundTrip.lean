import ManagedPrometheus.Proofs.JsonRecords
import ManagedPrometheus.Proofs.TagChanges

/-!
# Reading what was written

A manifest that is written reads back as the resource that it was written from, with two exceptions
(`Resource.ofJson?_toJson_iff`). The generation in the metadata is an integer of 64 bits: a larger
one is written but not read. And a condition is written with its own type only: if it was stored
under another one, it reads back under its own (`Status.refiled`).
-/

namespace ManagedPrometheus

variable {α : Type} {kind : Kind}

/-! ### Fields -/

namespace Json

theorem nullable_of_ne_null {value : Json} (h : value ≠ .null) (read : Json → Option α) :
    nullable read value = (read value).map some := by
  cases value with
  | null => exact absurd rfl h
  | _ => rfl

section Fields

variable {read : Json → Option α} {write : α → Json} {name : String}
  {known : List (String × Json)}

/-- A field reads back as what reading makes of its value. -/
theorem optional_of_reread {f : α → α}
    (hwrite : ∀ value, write value ≠ .null ∧ read (write value) = some (f value))
    {value? : Option α} (hfound : findEntry name known = value?.map write) :
    optional read name known = some (value?.map f) := by
  rw [optional, hfound]
  rcases value? with _ | value
  · rfl
  · rw [Option.map_some]
    change nullable read (write value) = some (some (f value))
    rw [nullable_of_ne_null (hwrite value).1, (hwrite value).2, Option.map_some]

theorem optional_of_written
    (hwrite : ∀ value, write value ≠ .null ∧ read (write value) = some value)
    {value? : Option α} (hfound : findEntry name known = value?.map write) :
    optional read name known = some value? := by
  rw [optional_of_reread hwrite hfound, Option.map_id']

theorem required_of_written {json : Json} {value : α} (hread : read json = some value)
    (hfound : findEntry name known = some json) : required read name known = some value := by
  rw [required, hfound, Option.bind_some, hread]

theorem withDefault_of_written {json : Json} {value : α} (hread : read json = some value)
    (hfound : findEntry name known = some json) (default : α) :
    withDefault read default name known = some value := by
  rw [withDefault, hfound]
  exact hread

end Fields

/-! ### Values -/

theorem text_written (value : String) :
    Json.text value ≠ .null ∧ text? (.text value) = some value :=
  ⟨by simp, rfl⟩

theorem timestamp_written (time : Timestamp) :
    Json.text time.text ≠ .null ∧ (text? (.text time.text)).bind Timestamp.ofText? = some time :=
  ⟨by simp, Timestamp.ofText?_text time⟩

theorem texts_written (texts : List String) :
    ofTexts texts ≠ .null ∧ texts? (ofTexts texts) = some texts := by
  refine ⟨by simp [ofTexts], ?_⟩
  rw [ofTexts, texts?]
  exact mapM_eq_some_map texts fun _ _ => rfl

theorem map_written (map : TextMap String) :
    ofMap map ≠ .null ∧ textMap? (ofMap map) = some map := by
  refine ⟨by simp [ofMap], ?_⟩
  have hentries : (map.entries.map fun e => (e.1, Json.text e.2)).mapM
      (fun m => (text? m.2).map fun value => (m.1, value)) = some map.entries :=
    mapM_eq_some_map map.entries fun _ _ => rfl
  rw [ofMap, textMap?, hentries, Option.map_some, TextMap.ofList]
  congr 1
  apply TextMap.ext_get?
  intro key
  rw [TextMap.get?_insertAll_entries, TextMap.get?_empty, Option.orElse_eq_orElse,
    Option.orElse_eq_or, Option.or_none]

end Json

theorem StatusCode.written (code : StatusCode) :
    code.toJson ≠ .null ∧ StatusCode.ofJson? code.toJson = some code := by
  refine ⟨by simp [StatusCode.toJson], ?_⟩
  cases code <;> decide

/-! ### Parts of a status -/

namespace ResourceMetadata

def fields (metadata : ResourceMetadata) : List (String × Option Json) := [
  ("arn", metadata.arn.map .text),
  ("ownerAccountID", metadata.ownerAccountId.map .text),
  ("region", metadata.region.map .text)]

theorem toJson_eq (metadata : ResourceMetadata) :
    metadata.toJson = Json.recordSome metadata.fields := rfl

theorem nodup_fields (metadata : ResourceMetadata) : (metadata.fields.map (·.1)).Nodup := by
  simp [fields]

theorem written (metadata : ResourceMetadata) :
    metadata.toJson ≠ .null ∧ ResourceMetadata.ofJson? metadata.toJson = some metadata := by
  refine ⟨by simp [toJson, Json.recordSome, Json.record], ?_⟩
  obtain ⟨known, hknown, hfound⟩ := Json.exists_known ["arn", "ownerAccountID", "region"]
    metadata.fields metadata.nodup_fields
  have harn := Json.optional_of_written Json.text_written (hfound "arn" (by decide))
  have howner := Json.optional_of_written Json.text_written (hfound "ownerAccountID" (by decide))
  have hregion := Json.optional_of_written Json.text_written (hfound "region" (by decide))
  simp [ofJson?, toJson_eq, hknown, harn, howner, hregion]

end ResourceMetadata

theorem Condition.ofJson?_toJson (condition : Condition) :
    Condition.ofJson? condition.toJson = some condition := by
  obtain ⟨type, value, lastTransitionTime, message⟩ := condition
  obtain ⟨known, hknown, hfound⟩ :=
    Json.exists_known ["type", "status", "lastTransitionTime", "message"]
      [("lastTransitionTime", lastTransitionTime.map .text),
        ("message", message.map .text), ("status", some (.text value.name)),
        ("type", some (.text type.name))] (by simp)
  have htype : (Json.alternative? (.text type.name)).bind ConditionType.ofName? = some type := by
    cases type <;> decide
  have hvalue : (Json.alternative? (.text value.name)).bind ConditionValue.ofName?
      = some value := by
    cases value <;> decide
  have hreadType : Json.required (fun json => (Json.alternative? json).bind ConditionType.ofName?)
      "type" known = some type :=
    Json.required_of_written htype (hfound "type" (by decide))
  have hreadValue : Json.required
      (fun json => (Json.alternative? json).bind ConditionValue.ofName?) "status" known
        = some value :=
    Json.required_of_written hvalue (hfound "status" (by decide))
  have htime := Json.optional_of_written Json.text_written
    (hfound "lastTransitionTime" (by decide))
  have hmessage := Json.optional_of_written Json.text_written (hfound "message" (by decide))
  simp only [ofJson?, toJson, Option.bind_eq_bind, hknown, Option.bind_some, hreadType,
    hreadValue, htime, hmessage]
  rfl

namespace Conditions

/-- What is made of a list has every condition under its own type. -/
theorem keyed_ofList (list : List Condition) : (ofList list).Keyed := by
  suffices hfold : ∀ conditions : Conditions, conditions.Keyed →
      (list.foldl (fun conditions condition => conditions.put condition.type condition)
        conditions).Keyed from hfold .empty keyed_empty
  induction list with
  | nil => exact fun _ h => h
  | cons condition rest ih => exact fun conditions h => ih _ (h.put rfl)

/-- What is stored under some of the types, when it is put under its own types. -/
theorem get?_foldl_put {conditions : Conditions} (h : conditions.Keyed)
    (types : List ConditionType) (start : Conditions) (type : ConditionType) :
    ((types.filterMap conditions.get?).foldl
        (fun conditions condition => conditions.put condition.type condition) start).get? type
      = if type ∈ types then (conditions.get? type).or (start.get? type)
        else start.get? type := by
  induction types generalizing start with
  | nil => simp
  | cons first rest ih =>
    rcases hfirst : conditions.get? first with _ | condition
    · rw [List.filterMap_cons_none hfirst, ih]
      by_cases htype : type = first
      · simp [htype, hfirst]
      · simp [htype]
    · rw [List.filterMap_cons_some hfirst, List.foldl_cons, ih, get?_put, h first condition hfirst]
      by_cases htype : type = first
      · simp [htype, hfirst]
      · simp [htype]

theorem ofList_values {conditions : Conditions} (h : conditions.Keyed) :
    ofList conditions.values = conditions := by
  apply ext_get?
  intro type
  have hall : type ∈ ConditionType.all := by cases type <;> decide
  rw [ofList, values, get?_foldl_put h, if_pos hall, get?_empty, Option.or_none]

theorem ofJson?_toJson (conditions : Conditions) :
    Conditions.ofJson? conditions.toJson = some (ofList conditions.values) := by
  rw [toJson, ofJson?, Json.mapM_eq_some_map _ fun condition _ => condition.ofJson?_toJson,
    Option.map_some]

end Conditions

namespace Status

def fields (status : Status) : List (String × Option Json) := [
  ("conditions", some status.conditions.toJson),
  ("name", status.name.map .text),
  ("prometheusEndpoint", status.prometheusEndpoint.map .text),
  ("resourceMetadata", status.resourceMetadata.map (·.toJson)),
  ("statusCode", status.statusCode.map (·.toJson)),
  ("statusReason", status.statusReason.map .text),
  ("workspaceID", status.workspaceId.map .text)]

theorem toJson_eq (status : Status) : status.toJson = Json.recordSome status.fields := rfl

theorem nodup_fields (status : Status) : (status.fields.map (·.1)).Nodup := by
  simp [fields]

/-- The status with its conditions under their own types, which is what it reads back as. -/
def refiled (status : Status) : Status :=
  { status with conditions := .ofList status.conditions.values }

theorem refiled_eq_self_iff {status : Status} :
    status.refiled = status ↔ status.conditions.Keyed := by
  constructor
  · intro h
    rw [← h]
    exact Conditions.keyed_ofList status.conditions.values
  · intro h
    rw [refiled, Conditions.ofList_values h]

theorem written (status : Status) :
    status.toJson ≠ .null ∧ Status.ofJson? status.toJson = some status.refiled := by
  refine ⟨by simp [toJson, Json.recordSome, Json.record], ?_⟩
  obtain ⟨known, hknown, hfound⟩ := Json.exists_known fieldNames status.fields status.nodup_fields
  have hmetadata := Json.optional_of_written ResourceMetadata.written
    (hfound "resourceMetadata" (by decide))
  have hcode := Json.optional_of_written StatusCode.written (hfound "statusCode" (by decide))
  have hreason := Json.optional_of_written Json.text_written (hfound "statusReason" (by decide))
  have hconditions := Json.withDefault_of_written (Conditions.ofJson?_toJson status.conditions)
    (hfound "conditions" (by decide)) Conditions.empty
  have hworkspace := Json.optional_of_written Json.text_written (hfound "workspaceID" (by decide))
  have hname := Json.optional_of_written Json.text_written (hfound "name" (by decide))
  have hendpoint := Json.optional_of_written Json.text_written
    (hfound "prometheusEndpoint" (by decide))
  simp only [ofJson?, toJson_eq, Option.bind_eq_bind, hknown, Option.bind_some, hmetadata, hcode,
    hreason, hconditions, hworkspace, hname, hendpoint]
  rfl

/-- Statuses with the same conditions are told apart by what is written. -/
theorem toJson_inj {a b : Status} (hconditions : a.conditions = b.conditions) :
    a.toJson = b.toJson ↔ a = b := by
  constructor
  · intro h
    have hrefiled : a.refiled = b.refiled := by
      apply Option.some.inj
      rw [← a.written.2, h, b.written.2]
    calc a = { a.refiled with conditions := a.conditions } := rfl
      _ = { b.refiled with conditions := b.conditions } := by rw [hrefiled, hconditions]
      _ = b := rfl
  · intro h
    rw [h]

end Status

/-! ### Specs -/

namespace Spec

theorem withDefault_writtenTags {tags : Tags} {known : List (String × Json)}
    (hfound : findEntry "tags" known = writtenTags tags) :
    Json.withDefault Json.textMap? .empty "tags" known = some tags := by
  rw [Json.withDefault, hfound, writtenTags]
  by_cases hempty : tags.isEmpty = true
  · rw [if_pos hempty]
    apply congrArg some
    apply TextMap.ext_get?
    intro key
    rw [TextMap.get?_eq_none_of_isEmpty hempty, TextMap.get?_empty]
  · rw [if_neg hempty]
    exact (Json.map_written tags).2

theorem ofJson?_toJson (spec : Spec kind) : Spec.ofJson? kind spec.toJson = some spec := by
  cases kind with
  | workspace =>
    obtain ⟨known, hknown, hfound⟩ := Json.exists_known (fieldNames .workspace)
      [("alias", spec.workspaceAlias.map .text),
        ("kmsKeyARN", spec.kmsKeyArn.map .text), ("tags", writtenTags spec.tags)] (by simp)
    have halias := Json.optional_of_written Json.text_written (hfound "alias" (by decide))
    have hkey := Json.optional_of_written Json.text_written (hfound "kmsKeyARN" (by decide))
    have htags := withDefault_writtenTags (hfound "tags" (by decide))
    simp only [ofJson?, toJson, hknown, Option.bind_some, ofFields?, halias, hkey, htags]
    rfl
  | ruleGroupsNamespace =>
    obtain ⟨known, hknown, hfound⟩ := Json.exists_known (fieldNames .ruleGroupsNamespace)
      [("configuration", spec.configuration.map .text), ("name", some (.text spec.name)),
        ("tags", writtenTags spec.tags), ("workspaceID", some (.text spec.workspaceId))] (by simp)
    have hname := Json.required_of_written (Json.text_written spec.name).2
      (hfound "name" (by decide))
    have hworkspace := Json.required_of_written (Json.text_written spec.workspaceId).2
      (hfound "workspaceID" (by decide))
    have hconfiguration := Json.optional_of_written Json.text_written
      (hfound "configuration" (by decide))
    have htags := withDefault_writtenTags (hfound "tags" (by decide))
    simp only [ofJson?, toJson, hknown, Option.bind_some, ofFields?, hname, hworkspace,
      hconfiguration, htags]
    rfl
  | alertManagerDefinition =>
    obtain ⟨known, hknown, hfound⟩ := Json.exists_known (fieldNames .alertManagerDefinition)
      [("configuration", spec.configuration.map .text),
        ("workspaceID", some (.text spec.workspaceId))] (by simp)
    have hworkspace := Json.required_of_written (Json.text_written spec.workspaceId).2
      (hfound "workspaceID" (by decide))
    have hconfiguration := Json.optional_of_written Json.text_written
      (hfound "configuration" (by decide))
    simp only [ofJson?, toJson, hknown, Option.bind_some, ofFields?, hworkspace, hconfiguration]
    rfl
  | loggingConfiguration =>
    obtain ⟨known, hknown, hfound⟩ := Json.exists_known (fieldNames .loggingConfiguration)
      [("logGroupARN", some (.text spec.logGroupArn)),
        ("workspaceID", some (.text spec.workspaceId))] (by simp)
    have hworkspace := Json.required_of_written (Json.text_written spec.workspaceId).2
      (hfound "workspaceID" (by decide))
    have hlogGroup := Json.required_of_written (Json.text_written spec.logGroupArn).2
      (hfound "logGroupARN" (by decide))
    simp only [ofJson?, toJson, hknown, Option.bind_some, ofFields?, hworkspace, hlogGroup]
    rfl

end Spec

/-! ### Metadata -/

namespace Metadata

/-- The generation is an integer of 64 bits. -/
def Counted (metadata : Metadata) : Prop :=
  ∀ n, metadata.generation = some n → Json.int64? (.int n) = some n

theorem optional_generation_iff {metadata : Metadata} {members : List (String × Json)}
    (hfound : findEntry "generation" members = metadata.generation.map .int) :
    Json.optional Json.int64? "generation" members = some metadata.generation ↔
      metadata.Counted := by
  rw [Json.optional, hfound, Counted]
  rcases metadata.generation with _ | n
  · simp
  · rw [Option.map_some]
    change Json.nullable Json.int64? (.int n) = some (some n) ↔ _
    rw [Json.nullable_of_ne_null (by simp)]
    simp

def fields (metadata : Metadata) : List (String × Option Json) := [
  ("annotations", metadata.annotations.map Json.ofMap),
  ("creationTimestamp", metadata.creationTimestamp.map fun time => .text time.text),
  ("deletionTimestamp", metadata.deletionTimestamp.map fun time => .text time.text),
  ("finalizers", metadata.finalizers.map Json.ofTexts),
  ("generateName", metadata.generateName.map .text),
  ("generation", metadata.generation.map .int),
  ("labels", metadata.labels.map Json.ofMap),
  ("name", metadata.name.map .text),
  ("namespace", metadata.namespaceName.map .text),
  ("resourceVersion", metadata.resourceVersion.map .text),
  ("uid", metadata.uid.map .text)]

theorem toJson_eq (metadata : Metadata) : metadata.toJson = Json.recordSome metadata.fields := rfl

theorem nodup_fields (metadata : Metadata) : (metadata.fields.map (·.1)).Nodup := by
  simp [fields]

theorem ofJson?_toJson_iff (metadata : Metadata) :
    Metadata.ofJson? metadata.toJson = some metadata ↔ metadata.Counted := by
  let members := (Json.recordSome metadata.fields).members
  have hmembers : metadata.toJson = .object members := rfl
  have hascending : Ascending members := Json.ascending_recordSome metadata.fields
  have hfound : ∀ name, findEntry name members = (findEntry name metadata.fields).join :=
    Json.findEntry_recordSome metadata.nodup_fields
  have hname := Json.optional_of_written Json.text_written (hfound "name")
  have hgenerateName := Json.optional_of_written Json.text_written (hfound "generateName")
  have hnamespace := Json.optional_of_written Json.text_written (hfound "namespace")
  have huid := Json.optional_of_written Json.text_written (hfound "uid")
  have hversion := Json.optional_of_written Json.text_written (hfound "resourceVersion")
  have hgeneration := optional_generation_iff (hfound "generation")
  have hcreated : Json.optional (fun json => (Json.text? json).bind Timestamp.ofText?)
      "creationTimestamp" members = some metadata.creationTimestamp :=
    Json.optional_of_written Json.timestamp_written (hfound "creationTimestamp")
  have hdeleted : Json.optional (fun json => (Json.text? json).bind Timestamp.ofText?)
      "deletionTimestamp" members = some metadata.deletionTimestamp :=
    Json.optional_of_written Json.timestamp_written (hfound "deletionTimestamp")
  have hlabels := Json.optional_of_written Json.map_written (hfound "labels")
  have hannotations := Json.optional_of_written Json.map_written (hfound "annotations")
  have hfinalizers := Json.optional_of_written Json.texts_written (hfound "finalizers")
  rw [hmembers, ← hgeneration]
  simp only [ofJson?, Option.bind_eq_bind, Json.lastOptional_of_ascending hascending, hname,
    hgenerateName, hnamespace, huid, hversion, hcreated, hdeleted, hlabels, hannotations,
    hfinalizers]
  obtain ⟨name, generateName, namespaceName, uid, resourceVersion, generation, creationTimestamp,
    deletionTimestamp, labels, annotations, finalizers⟩ := metadata
  rcases Json.optional Json.int64? "generation" members with _ | found
  · simp
  · simp

end Metadata

/-! ### Resources -/

namespace Resource

def fields (resource : Resource kind) : List (String × Option Json) := [
  ("apiVersion", some (.text (apiGroup ++ "/" ++ ManagedPrometheus.apiVersion))),
  ("kind", some (.text kind.name)),
  ("metadata", some resource.metadata.toJson),
  ("spec", some resource.spec.toJson),
  ("status", resource.status.map (·.toJson))]

theorem toJson_eq (resource : Resource kind) :
    resource.toJson = Json.recordSome resource.fields := rfl

theorem nodup_fields (resource : Resource kind) : (resource.fields.map (·.1)).Nodup := by
  simp [fields]

theorem keyed_iff {resource : Resource kind} :
    resource.Keyed ↔ resource.status.map Status.refiled = resource.status := by
  rw [Keyed, statusOrEmpty]
  rcases resource.status with _ | status
  · simp [Conditions.keyed_empty, Status.empty]
  · simp [Status.refiled_eq_self_iff]

/-- A resource reads back from its manifest exactly if its metadata do and its conditions are stored
under their own types. -/
theorem ofJson?_toJson_iff (resource : Resource kind) :
    Resource.ofJson? kind resource.toJson = some resource
      ↔ resource.metadata.Counted ∧ resource.Keyed := by
  obtain ⟨metadata, spec, status⟩ := resource
  obtain ⟨known, hknown, hfound⟩ := Json.exists_known ["metadata", "spec", "status"]
    (Resource.mk metadata spec status).fields (nodup_fields _)
  have hmetadata : Json.required Metadata.ofJson? "metadata" known
      = Metadata.ofJson? metadata.toJson := by
    rw [Json.required, hfound "metadata" (by decide)]
    rfl
  have hspec := Json.required_of_written (Spec.ofJson?_toJson spec) (hfound "spec" (by decide))
  have hstatus := Json.optional_of_reread Status.written (hfound "status" (by decide))
  have hread : Resource.ofJson? kind (Resource.mk metadata spec status).toJson
      = (Metadata.ofJson? metadata.toJson).map fun metadata =>
          ⟨metadata, spec, status.map Status.refiled⟩ := by
    let members := (Json.recordSome (Resource.mk metadata spec status).fields).members
    have hfields : (Json.object members).fields? ["metadata", "spec", "status"] = some known :=
      hknown
    rw [show (Resource.mk metadata spec status).toJson = .object members from rfl]
    simp only [ofJson?, Option.bind_eq_bind, hfields, Option.bind_some, hmetadata, hspec, hstatus]
    rcases Metadata.ofJson? metadata.toJson with _ | found <;> rfl
  rw [hread, ← Metadata.ofJson?_toJson_iff, keyed_iff]
  rcases Metadata.ofJson? metadata.toJson with _ | found
  · simp
  · simp

end Resource

end ManagedPrometheus
