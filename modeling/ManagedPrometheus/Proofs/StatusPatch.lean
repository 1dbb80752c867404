import ManagedPrometheus.Proofs.ManifestRoundTrip
import ManagedPrometheus.Visit

/-!
# Patches at work

What the controller's merge patches make of a manifest. A patch of a status nulls the fields that
are gone, but only those at the top: what the backend assigned is one field of the status, and an
identifier that is missing from the next status stays (`Status.merge_patchBody_eq_laidOver`). So the
patch stores the next status if this status keeps every identifier of the previous one
(`Status.merge_patchBody`). The other patches set one member of a record, and this is what they do to
the resource (`Resource.merge_finalizers`, `Resource.merge_status`).
-/

namespace ManagedPrometheus

variable {α : Type} {kind : Kind}

/-! ### Setting one field -/

theorem mem_of_findEntry {name : String} {value : α} {entries : List (String × α)}
    (h : findEntry name entries = some value) : (name, value) ∈ entries := by
  induction entries with
  | nil => cases h
  | cons head rest ih =>
    rw [findEntry] at h
    split at h
    · rename_i hname
      obtain rfl := Option.some.inj h
      exact hname ▸ List.mem_cons_self
    · exact List.mem_cons_of_mem head (ih h)

theorem findEntry_map_set (fields : List (String × Option α)) (name : String) (value : α)
    (other : String) :
    findEntry other (fields.map fun f => if f.1 = name then (f.1, some value) else f)
      = if other = name then (findEntry other fields).map fun _ => some value
        else findEntry other fields := by
  induction fields with
  | nil => simp [findEntry]
  | cons head rest ih =>
    obtain ⟨key, value?⟩ := head
    by_cases hkey : key = name
    · subst hkey
      by_cases hother : other = key
      · simp [findEntry, hother]
      · simpa [findEntry, hother] using ih
    · by_cases hother : other = key
      · subst hother
        simp [findEntry, hkey]
      · simpa [findEntry, hkey, hother] using ih

namespace Json

/-- Setting a field of a record is writing the record with another value. -/
theorem setEntry_recordSome {fields : List (String × Option Json)}
    (h : (fields.map (·.1)).Nodup) {name : String} (hname : (findEntry name fields).isSome)
    (value : Json) :
    object (setEntry name value (recordSome fields).members)
      = recordSome (fields.map fun f => if f.1 = name then (f.1, some value) else f) := by
  have hnames : ((fields.map fun f => if f.1 = name then (f.1, some value) else f).map (·.1))
      = fields.map (·.1) := by
    rw [List.map_map]
    apply List.map_congr_left
    intro field _
    by_cases hfield : field.1 = name <;> simp [hfield]
  apply object_congr (ascending_recordSome fields).setEntry (ascending_recordSome _)
  intro other
  rw [findEntry_setEntry, findEntry_recordSome h, findEntry_recordSome (hnames ▸ h),
    findEntry_map_set]
  by_cases hother : other = name
  · obtain ⟨value?, hfound⟩ := Option.isSome_iff_exists.mp hname
    rw [if_pos hother, if_pos hother, hother, hfound]
    rfl
  · rw [if_neg hother, if_neg hother]

theorem mergeMembers_eq_of_forall {members changes next : List (String × Json)}
    (hmembers : Ascending members) (hchanges : (changes.map (·.1)).Nodup) (hnext : Ascending next)
    (h : ∀ name, mergeMember (findEntry name members) (findEntry name changes)
      = findEntry name next) :
    mergeMembers members changes = next := by
  apply (ascending_mergeMembers hmembers changes).ext_findEntry hnext
  intro name
  rw [findEntry_mergeMembers hchanges, h]

/-- A patch of one field of a record. -/
theorem merge_recordSome_single {fields : List (String × Option Json)}
    (h : (fields.map (·.1)).Nodup) {name : String} (hname : (findEntry name fields).isSome)
    {change value : Json} (hchange : change ≠ .null)
    (hvalue : ((findEntry name fields).join.getD .null).merge change = value) :
    (recordSome fields).merge (record [(name, change)])
      = recordSome (fields.map fun f => if f.1 = name then (f.1, some value) else f) := by
  rw [← setEntry_recordSome h hname]
  change (recordSome fields).merge (object [(name, change)]) = _
  rw [merge_object, mergeMembers_single _ _ hchange, findEntry_recordSome h, hvalue]

/-- What is no object takes the place of what was there. -/
theorem merge_of_plain {value : Json} (h : ∀ members, value ≠ .object members) (target : Json) :
    target.merge value = value := by
  cases value <;> simp_all [merge]

theorem mergeMember_of_plain {value : Json} (hnull : value ≠ .null)
    (hobject : ∀ members, value ≠ .object members) (member? : Option Json) :
    mergeMember member? (some value) = some value := by
  rw [mergeMember_of_ne_null hnull, merge_of_plain hobject]

/-- Patching a record with a record is a matter of each field. -/
theorem merge_recordSome {old new made : List (String × Option Json)}
    (hold : (old.map (·.1)).Nodup) (hnew : (new.map (·.1)).Nodup) (hmade : (made.map (·.1)).Nodup)
    (h : ∀ name, mergeMember (findEntry name old).join (findEntry name new).join
      = (findEntry name made).join) :
    (recordSome old).merge (recordSome new) = recordSome made := by
  apply congrArg object
  apply mergeMembers_eq_of_forall (ascending_recordSome old) (ascending_recordSome new).nodup_names
    (ascending_recordSome made)
  intro name
  have hname := h name
  rw [← findEntry_recordSome hold, ← findEntry_recordSome hnew, ← findEntry_recordSome hmade]
    at hname
  exact hname

/-- A text takes the place of another one, and without a text the other one stays. -/
theorem mergeMember_text (old? new? : Option String) :
    mergeMember (old?.map text) (new?.map text) = (new?.or old?).map text := by
  rcases new? with _ | new
  · rfl
  · exact mergeMember_of_plain (by simp) (by simp) _

end Json

/-! ### Identifiers -/

theorem or_eq_left_iff {later? earlier? : Option α} :
    later?.or earlier? = later? ↔ (earlier?.isSome → later?.isSome) := by
  cases later? <;> cases earlier? <;> simp

namespace ResourceMetadata

/-- Every identifier of `earlier` is set in `later`. -/
structure Covers (later earlier : ResourceMetadata) : Prop where
  arn : earlier.arn.isSome → later.arn.isSome
  ownerAccountId : earlier.ownerAccountId.isSome → later.ownerAccountId.isSome
  region : earlier.region.isSome → later.region.isSome

/-- The identifiers of `later`, and those of `earlier` that `later` has none for. -/
def laidOver (later earlier : ResourceMetadata) : ResourceMetadata where
  arn := later.arn.or earlier.arn
  ownerAccountId := later.ownerAccountId.or earlier.ownerAccountId
  region := later.region.or earlier.region

theorem laidOver_eq_iff {later earlier : ResourceMetadata} :
    later.laidOver earlier = later ↔ later.Covers earlier := by
  constructor
  · intro h
    obtain ⟨harn, howner, hregion⟩ := ResourceMetadata.mk.inj h
    exact ⟨or_eq_left_iff.mp harn, or_eq_left_iff.mp howner, or_eq_left_iff.mp hregion⟩
  · intro h
    rw [laidOver, or_eq_left_iff.mpr h.arn, or_eq_left_iff.mpr h.ownerAccountId,
      or_eq_left_iff.mpr h.region]

theorem laidOver_empty (later : ResourceMetadata) : later.laidOver .empty = later := by
  apply laidOver_eq_iff.mpr
  exact ⟨nofun, nofun, nofun⟩

theorem merge_toJson (earlier later : ResourceMetadata) :
    earlier.toJson.merge later.toJson = (later.laidOver earlier).toJson := by
  apply Json.merge_recordSome earlier.nodup_fields later.nodup_fields (nodup_fields _)
  intro name
  by_cases harn : name = "arn"
  · subst harn
    exact Json.mergeMember_text _ _
  by_cases howner : name = "ownerAccountID"
  · subst howner
    exact Json.mergeMember_text _ _
  by_cases hregion : name = "region"
  · subst hregion
    exact Json.mergeMember_text _ _
  · simp [fields, findEntry, harn, howner, hregion, Json.mergeMember]

/-- What is set where there was nothing is what is written: null and the empty record have no
members. -/
theorem null_merge_toJson (metadata : ResourceMetadata) :
    Json.null.merge metadata.toJson = metadata.toJson :=
  calc Json.null.merge metadata.toJson
      = .object (Json.mergeMembers [] metadata.toJson.members) := Json.merge_object .null _
    _ = ResourceMetadata.empty.toJson.merge metadata.toJson :=
      (Json.merge_object ResourceMetadata.empty.toJson metadata.toJson.members).symm
    _ = metadata.toJson := by rw [merge_toJson, laidOver_empty]

end ResourceMetadata

/-! ### Statuses -/

namespace Status

/-- A patch has the members of the next status, and null for those that are gone. -/
theorem findEntry_patchMembers (previous next : List (String × Json)) (name : String) :
    findEntry name (previous.foldl
        (fun fields m =>
          if (findEntry m.1 fields).isSome then fields else setEntry m.1 .null fields)
        next)
      = (findEntry name next).or ((findEntry name previous).map fun _ => .null) := by
  induction previous generalizing next with
  | nil => simp [findEntry]
  | cons head rest ih =>
    obtain ⟨key, value⟩ := head
    rw [List.foldl_cons, ih, findEntry]
    by_cases hname : name = key
    · subst hname
      rcases hnext : findEntry name next with _ | found
      · simp [findEntry_setEntry]
      · simp [hnext]
    · by_cases hkept : (findEntry key next).isSome
      · simp [hkept, hname]
      · simp [hkept, hname, findEntry_setEntry]

theorem ascending_patchMembers (previous : List (String × Json)) {next : List (String × Json)}
    (h : Ascending next) :
    Ascending (previous.foldl
      (fun fields m => if (findEntry m.1 fields).isSome then fields else setEntry m.1 .null fields)
      next) := by
  induction previous generalizing next with
  | nil => exact h
  | cons head rest ih =>
    rw [List.foldl_cons]
    apply ih
    split
    · exact h
    · exact h.setEntry

/-- Where both statuses have identifiers, no identifier of `earlier` is missing in `later`. -/
def Covers (later earlier : Status) : Prop :=
  ∀ known metadata, earlier.resourceMetadata = some known →
    later.resourceMetadata = some metadata → metadata.Covers known

/-- What a manifest holds of a field of a status that may be absent. -/
def member? (status? : Option Status) (name : String) : Option Json :=
  status?.bind fun status => (findEntry name status.fields).join

theorem findEntry_members (status? : Option Status) (name : String) :
    findEntry name (Status.json? status?).members = member? status? name := by
  rcases status? with _ | status
  · rfl
  · exact Json.findEntry_recordSome status.nodup_fields name

theorem ascending_members (status? : Option Status) : Ascending (Status.json? status?).members := by
  rcases status? with _ | status
  · exact List.Pairwise.nil
  · exact Json.ascending_recordSome status.fields

theorem patchBody_eq_object (previous? : Option Status) (next : Status) :
    ∃ changes, Status.patchBody previous? (some next) = .object changes ∧ Ascending changes ∧
      ∀ name, findEntry name changes
        = (member? (some next) name).or ((member? previous? name).map fun _ => .null) := by
  have hnext := ascending_members (some next)
  rcases previous? with _ | previous
  · refine ⟨(Status.json? (some next)).members, rfl, hnext, ?_⟩
    intro name
    rw [findEntry_members, member?, member?, Option.bind_none, Option.map_none, Option.or_none]
  · refine ⟨_, rfl, ascending_patchMembers _ hnext, ?_⟩
    intro name
    rw [findEntry_patchMembers]
    exact congrArg₂ _ (findEntry_members (some next) name)
      (congrArg _ (findEntry_members (some previous) name))

/-- What was assigned by a status that may be absent. -/
def identifiers (status? : Option Status) : ResourceMetadata :=
  (status?.bind (·.resourceMetadata)).getD .empty

/-- The status that a patch from `previous?` to `next` leaves: identifiers that `next` has none for
stay, if it has any. -/
def laidOver (next : Status) (previous? : Option Status) : Status :=
  { next with
    resourceMetadata := next.resourceMetadata.map fun metadata =>
      metadata.laidOver (identifiers previous?) }

theorem laidOver_eq_iff {next : Status} {previous? : Option Status} :
    next.laidOver previous? = next ↔
      ∀ previous, previous? = some previous → next.Covers previous := by
  obtain ⟨metadata?, statusCode, statusReason, conditions, workspaceId, name, endpoint⟩ := next
  rcases metadata? with _ | metadata
  · simp [laidOver, Covers]
  rcases previous? with _ | ⟨known?, _⟩
  · simp [laidOver, identifiers, ResourceMetadata.laidOver_empty]
  rcases known? with _ | known
  · simp [laidOver, identifiers, ResourceMetadata.laidOver_empty, Covers]
  · simp [laidOver, identifiers, ResourceMetadata.laidOver_eq_iff, Covers]

theorem merge_resourceMetadata (previous? : Option Status) (metadata : ResourceMetadata) :
    ((member? previous? "resourceMetadata").getD .null).merge metadata.toJson
      = (metadata.laidOver (identifiers previous?)).toJson := by
  rcases previous? with _ | previous
  · rw [identifiers, Option.bind_none, Option.getD_none, ResourceMetadata.laidOver_empty]
    exact metadata.null_merge_toJson
  · rw [member?, identifiers, Option.bind_some, Option.bind_some]
    change ((previous.resourceMetadata.map ResourceMetadata.toJson).getD .null).merge _ = _
    rcases previous.resourceMetadata with _ | known
    · rw [Option.getD_none, ResourceMetadata.laidOver_empty]
      exact metadata.null_merge_toJson
    · exact known.merge_toJson metadata

/-- A field other than the identifiers takes the place of what was there. -/
theorem mergeMember_field {next : Status} {name : String} {value : Json}
    (hname : name ≠ "resourceMetadata") (hvalue : member? (some next) name = some value)
    (member? : Option Json) : Json.mergeMember member? (some value) = some value := by
  have htext {text? : Option String} (h : text?.map Json.text = some value) :
      Json.mergeMember member? (some value) = some value := by
    obtain ⟨text, -, rfl⟩ := Option.map_eq_some_iff.mp h
    exact Json.mergeMember_of_plain (by simp) (by simp) _
  rw [Status.member?, Option.bind_some, Option.join_eq_some_iff] at hvalue
  have hfield : (name, some value) ∈ next.fields := mem_of_findEntry hvalue
  simp only [fields, List.mem_cons, Prod.mk.injEq, List.not_mem_nil, or_false] at hfield
  rcases hfield with ⟨-, h⟩ | ⟨-, h⟩ | ⟨-, h⟩ | ⟨hsame, -⟩ | ⟨-, h⟩ | ⟨-, h⟩ | ⟨-, h⟩
  · obtain rfl := Option.some.inj h
    exact Json.mergeMember_of_plain (by simp [Conditions.toJson]) (by simp [Conditions.toJson]) _
  · exact htext h.symm
  · exact htext h.symm
  · exact absurd hsame hname
  · obtain ⟨code, -, rfl⟩ := Option.map_eq_some_iff.mp h.symm
    exact Json.mergeMember_of_plain (by simp [StatusCode.toJson]) (by simp [StatusCode.toJson]) _
  · exact htext h.symm
  · exact htext h.symm

theorem member?_laidOver {next : Status} {name : String} (hname : name ≠ "resourceMetadata")
    (previous? : Option Status) :
    member? (some (next.laidOver previous?)) name = member? (some next) name := by
  simp [member?, fields, laidOver, findEntry, hname]

/-- Patching the previous status stores the next one over it. -/
theorem merge_patchBody_eq_laidOver (previous? : Option Status) (next : Status) :
    (Status.json? previous?).merge (Status.patchBody previous? (some next))
      = (next.laidOver previous?).toJson := by
  obtain ⟨changes, hbody, hascending, hchanges⟩ := patchBody_eq_object previous? next
  rw [hbody, Json.merge_object]
  apply congrArg Json.object
  apply Json.mergeMembers_eq_of_forall (ascending_members previous?) hascending.nodup_names
    (ascending_members (some (next.laidOver previous?)))
  intro name
  rw [hchanges, findEntry_members, findEntry_members]
  by_cases hname : name = "resourceMetadata"
  · subst hname
    rw [show member? (some next) "resourceMetadata"
        = next.resourceMetadata.map ResourceMetadata.toJson from rfl,
      show member? (some (next.laidOver previous?)) "resourceMetadata"
        = (next.laidOver previous?).resourceMetadata.map ResourceMetadata.toJson from rfl, laidOver]
    rcases next.resourceMetadata with _ | metadata
    · rcases member? previous? "resourceMetadata" with _ | gone <;> rfl
    · rw [Option.map_some, Option.some_or, Json.mergeMember_of_ne_null metadata.written.1,
        merge_resourceMetadata]
      rfl
  · rw [member?_laidOver hname]
    rcases hvalue : member? (some next) name with _ | value
    · rcases member? previous? name with _ | gone <;> rfl
    · exact mergeMember_field hname hvalue _

/-- Patching the previous status stores the next one, if no identifier is gone. -/
theorem merge_patchBody {previous? : Option Status} {next : Status}
    (hcovers : ∀ previous, previous? = some previous → next.Covers previous) :
    (Status.json? previous?).merge (Status.patchBody previous? (some next)) = next.toJson := by
  rw [merge_patchBody_eq_laidOver, laidOver_eq_iff.mpr hcovers]

end Status

/-! ### Resources -/

namespace Resource

def withFinalizers (resource : Resource kind) (names : List String) : Resource kind :=
  { resource with metadata := { resource.metadata with finalizers := some names } }

def withStatus (resource : Resource kind) (status? : Option Status) : Resource kind :=
  { resource with status := status? }

theorem merge_finalizers (resource : Resource kind) (names : List String) :
    resource.toJson.merge
        (Json.record [("metadata", Json.record [("finalizers", Json.ofTexts names)])])
      = (resource.withFinalizers names).toJson := by
  have hmetadata : resource.metadata.toJson.merge (Json.record [("finalizers", Json.ofTexts names)])
      = Json.recordSome (resource.metadata.fields.map fun f =>
          if f.1 = "finalizers" then (f.1, some (Json.ofTexts names)) else f) :=
    Json.merge_recordSome_single resource.metadata.nodup_fields rfl (by simp [Json.ofTexts])
      (Json.merge_of_plain (by simp [Json.ofTexts]) _)
  have hresource : resource.toJson.merge
      (Json.record [("metadata", Json.record [("finalizers", Json.ofTexts names)])])
        = Json.recordSome (resource.fields.map fun f =>
            if f.1 = "metadata" then (f.1, some (resource.withFinalizers names).metadata.toJson)
            else f) :=
    Json.merge_recordSome_single resource.nodup_fields rfl (by simp [Json.record]) hmetadata
  exact hresource

theorem merge_status (resource : Resource kind) {body : Json} (hbody : body ≠ .null) {next : Status}
    (h : (Status.json? resource.status).merge body = next.toJson) :
    resource.toJson.merge (Json.record [("status", body)])
      = (resource.withStatus (some next)).toJson := by
  have hstatus : (findEntry "status" resource.fields).join.getD .null
      = Status.json? resource.status := by
    change (resource.status.map Status.toJson).getD .null = _
    rcases resource.status with _ | status <;> rfl
  have hresource : resource.toJson.merge (Json.record [("status", body)])
      = Json.recordSome (resource.fields.map fun f =>
          if f.1 = "status" then (f.1, some next.toJson) else f) :=
    Json.merge_recordSome_single resource.nodup_fields rfl hbody (hstatus ▸ h)
  exact hresource

end Resource

/-! ### The status of an object -/

namespace Status

theorem patchBody_ne_null (previous? : Option Status) (next : Status) :
    patchBody previous? (some next) ≠ .null := by
  obtain ⟨changes, hchanges, -⟩ := patchBody_eq_object previous? next
  rw [hchanges]
  simp

/-- **The patch of a status.** In every object that has the previous status, or none, the patch to
any next status changes the status only, and removes it if there is none next. What it leaves is the
next status over the previous one. This is the next status exactly if, where both have identifiers,
each identifier of the previous one is set in the next. -/
theorem patched_status (previous? next? : Option Status) (object : Json)
    (hprevious : object.get? "status" = previous?.map Status.toJson) :
    let patched := object.merge (Status.patch previous? next?)
    patched.get? "status" = next?.map (fun next => (next.laidOver previous?).toJson) ∧
      (patched.get? "status" = next?.map Status.toJson ↔
        ∀ previous next, previous? = some previous → next? = some next → next.Covers previous) ∧
      ∀ name, name ≠ "status" → patched.get? name = object.get? name := by
  intro patched
  have hpatched (name : String) : patched.get? name
      = Json.mergeMember (object.get? name)
          (findEntry name [("status", patchBody previous? next?)]) := by
    have hmerged : patched
        = .object (Json.mergeMembers object.members [("status", patchBody previous? next?)]) :=
      Json.merge_object object [("status", patchBody previous? next?)]
    rw [hmerged]
    exact Json.findEntry_mergeMembers (by simp) object.members name
  have hstatus : patched.get? "status" = next?.map fun next => (next.laidOver previous?).toJson := by
    rw [hpatched, hprevious]
    change Json.mergeMember _ (some (patchBody previous? next?)) = _
    rcases next? with _ | next
    · rcases previous? with _ | previous <;> rfl
    · rw [Json.mergeMember_of_ne_null (patchBody_ne_null previous? next), Option.map_some,
        ← merge_patchBody_eq_laidOver]
      rcases previous? with _ | previous <;> rfl
  refine ⟨hstatus, ?_, ?_⟩
  · rw [hstatus]
    rcases next? with _ | next
    · simp
    · have hconditions : (next.laidOver previous?).conditions = next.conditions := rfl
      rw [Option.map_some, Option.map_some, Option.some.injEq, toJson_inj hconditions,
        laidOver_eq_iff]
      simp
  · intro name hname
    rw [hpatched, findEntry, if_neg hname]
    rfl

/-- A status whose reason is gone and whose owner has become known is stored as it is. -/
theorem patched_status_of_recovered :
    let previous : Status :=
      { Status.empty with
        resourceMetadata := some ⟨some "arn:1", none, some "us-west-2"⟩
        statusCode := some .updateFailed, statusReason := some "error validating" }
    let next : Status :=
      { Status.empty with
        resourceMetadata := some ⟨some "arn:1", some "111122223333", some "us-west-2"⟩
        statusCode := some .active }
    let object := Json.record [("spec", .object []), ("status", previous.toJson)]
    object.get? "status" = some previous.toJson ∧
      (object.merge (Status.patch (some previous) (some next))).get? "status"
        = some next.toJson := by
  intro previous next object
  have hprevious : object.get? "status" = (some previous).map Status.toJson := by decide
  refine ⟨hprevious, (patched_status (some previous) (some next) object hprevious).2.1.mpr ?_⟩
  intro known later hknown hlater
  obtain rfl := Option.some.inj hknown
  obtain rfl := Option.some.inj hlater
  intro found metadata hfound hmetadata
  obtain rfl := Option.some.inj hfound
  obtain rfl := Option.some.inj hmetadata
  exact ⟨fun _ => rfl, nofun, fun _ => rfl⟩

/-- A region that the next status does not name stays in the object. -/
theorem patched_status_keeps_region :
    let previous : Status :=
      { Status.empty with resourceMetadata := some ⟨some "arn:1", none, some "us-west-2"⟩ }
    let next : Status := { Status.empty with resourceMetadata := some ⟨some "arn:1", none, none⟩ }
    let object := Json.record [("spec", .object []), ("status", previous.toJson)]
    let patched := object.merge (Status.patch (some previous) (some next))
    object.get? "status" = some previous.toJson ∧
      patched.get? "status" ≠ some next.toJson ∧
        patched.get? "status" = some previous.toJson := by
  decide

end Status

end ManagedPrometheus
