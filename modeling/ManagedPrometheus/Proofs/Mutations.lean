import ManagedPrometheus.Proofs.Differences
import ManagedPrometheus.Reconcile

/-!
# The changes of an update

An update asks for the changes of the concerns whose paths differ, in the order of the policy. This
file says which changes these can be (`exists_concern_of_mem_mutations`), what they are once the
backend's identifier is known (`changes_eq`), that without it changed tags are a failure and nothing
else is (`mutations_eq_error_iff`), and how many there are (`mutations_length_le`): two at most for
tags, one for every other concern.
-/

namespace ManagedPrometheus

variable {kind : Kind} {desired latest : Resource kind}

/-! ### Which changes there are -/

theorem map_eq_of_mapM {α β ε : Type} {f : α → Except ε β} {items : List α} {results : List β}
    (h : items.mapM f = .ok results) : items.map f = results.map Except.ok := by
  induction items generalizing results with
  | nil =>
    obtain rfl := Except.ok.inj h
    rfl
  | cons item rest ih =>
    rw [List.mapM_cons] at h
    rcases hhead : f item with failure | first
    · simp [hhead, bind, Except.bind] at h
    · rcases htail : rest.mapM f with failure | others
      · simp [hhead, htail, bind, Except.bind] at h
      · obtain rfl : first :: others = results := by
          simpa [hhead, htail, bind, Except.bind, pure, Except.pure] using h
        rw [List.map_cons, List.map_cons, hhead, ih htail]

/-- The changes of an update, part by part: one for each concern at whose path the states differ. -/
theorem exists_parts_of_mutations {changes : List Mutation}
    (h : desired.mutations latest = .ok changes) :
    ∃ parts, parts.flatten = changes ∧
      (kind.policy.concerns.filter fun concern =>
        (desired.compare latest).differentAt concern.path).mapM (desired.concernMutations latest)
          = .ok parts := by
  let differs : Concern → Bool := fun concern =>
    (desired.compare latest).differentAt concern.path
  simp only [Resource.mutations] at h
  rcases hparts : (kind.policy.concerns.filter differs).mapM (desired.concernMutations latest)
    with failure | parts
  · simp [differs, hparts, Except.map] at h
  · exact ⟨parts, by simpa [differs, hparts, Except.map] using h, rfl⟩

/-- Every change is one of a concern of the kind at whose path the states differ. -/
theorem exists_concern_of_mem_mutations {changes : List Mutation}
    (h : desired.mutations latest = .ok changes) {mutation : Mutation}
    (hmem : mutation ∈ changes) :
    ∃ concern ∈ kind.policy.concerns, (desired.compare latest).differentAt concern.path = true ∧
      ∃ part, desired.concernMutations latest concern = .ok part ∧ mutation ∈ part := by
  obtain ⟨parts, rfl, hparts⟩ := exists_parts_of_mutations h
  obtain ⟨part, hpart, hmem⟩ := List.mem_flatten.mp hmem
  have hcalled : Except.ok part ∈ (kind.policy.concerns.filter _).map
      (desired.concernMutations latest) :=
    map_eq_of_mapM hparts ▸ List.mem_map_of_mem hpart
  obtain ⟨concern, hconcern, heq⟩ := List.mem_map.mp hcalled
  obtain ⟨hconcern, hdiffers⟩ := List.mem_filter.mp hconcern
  exact ⟨concern, hconcern, hdiffers, part, heq, hmem⟩

/-- All that such a concern calls for is among the changes. -/
theorem exists_part_of_mutations {changes : List Mutation}
    (h : desired.mutations latest = .ok changes) {concern : Concern}
    (hconcern : concern ∈ kind.policy.concerns)
    (hdiffers : (desired.compare latest).differentAt concern.path = true) :
    ∃ part, desired.concernMutations latest concern = .ok part ∧ part ⊆ changes := by
  obtain ⟨parts, rfl, hparts⟩ := exists_parts_of_mutations h
  have hcalled : desired.concernMutations latest concern ∈ parts.map Except.ok :=
    map_eq_of_mapM hparts ▸ List.mem_map_of_mem (List.mem_filter.mpr ⟨hconcern, hdiffers⟩)
  obtain ⟨part, hpart, heq⟩ := List.mem_map.mp hcalled
  refine ⟨part, heq.symm, ?_⟩
  intro change hchange
  exact List.mem_flatten_of_mem hpart hchange

/-- The one thing that is put is the request of the desired resource. -/
theorem eq_request_of_put_mem {changes : List Mutation}
    (h : desired.mutations latest = .ok changes) {request : Request}
    (hmem : .put request ∈ changes) : request = desired.request := by
  obtain ⟨concern, _, _, part, hpart, hmem⟩ := exists_concern_of_mem_mutations h hmem
  cases concern with
  | tags =>
    simp only [Resource.concernMutations, Resource.tagMutations] at hpart
    split at hpart
    · split at hpart
      · obtain rfl := Except.ok.inj hpart
        cases hmem
      · split at hpart
        · cases hpart
        · obtain rfl := Except.ok.inj hpart
          -- tags are removed and set, never put
          rcases List.mem_append.mp hmem with hmem | hmem
          · split at hmem <;> simp at hmem
          · split at hmem <;> simp at hmem
    · obtain rfl := Except.ok.inj hpart
      cases hmem
  | configuration =>
    obtain rfl := Except.ok.inj hpart
    simpa using hmem
  | workspaceAlias =>
    obtain rfl := Except.ok.inj hpart
    simpa using hmem
  | logGroup =>
    obtain rfl := Except.ok.inj hpart
    simpa using hmem

/-! ### The changes once the identifier is known -/

/-- The calls of a change of tags: keys are removed first, and neither call is made for nothing. -/
def TagChange.calls (change : TagChange) (arn : String) : List Mutation :=
  (if change.removals.isEmpty then [] else [.untag arn change.removals])
    ++ (if change.upserts.isEmpty then [] else [.tag arn change.upserts])

/-- What a concern calls for if the latest spec is `latest` and the backend's identifier `arn`. -/
def Resource.changesOf (desired : Resource kind) (latest : Spec kind) (arn : String) :
    Concern → List Mutation
  | .tags =>
    match latest.tags?, desired.spec.tags? with
    | some current, some wanted => (TagChange.between current wanted).calls arn
    | _, _ => []
  | .configuration | .workspaceAlias | .logGroup => [.put desired.request]

/-- What a concern calls for if the specs differ at its path. -/
def Resource.changesIf (desired : Resource kind) (latest : Spec kind) (arn : String)
    (concern : Concern) : List Mutation :=
  if (desired.spec.compare latest).differentAt concern.path then
    desired.changesOf latest arn concern
  else []

/-- The changes of all concerns at whose paths the specs differ. -/
def Resource.changes (desired : Resource kind) (latest : Spec kind) (arn : String) :
    List Mutation :=
  kind.policy.concerns.flatMap (desired.changesIf latest arn)

theorem flatten_map_filter {α β : Type} (keep : α → Bool) (f : α → List β) (items : List α) :
    ((items.filter keep).map f).flatten
      = items.flatMap fun item => if keep item then f item else [] := by
  induction items with
  | nil => rfl
  | cons item rest ih =>
    by_cases hkeep : keep item = true
    · simp [hkeep, ih]
    · simp [hkeep, ih]

theorem mapM_eq_ok {α β ε : Type} {f : α → Except ε β} {g : α → β} {items : List α}
    (h : ∀ item ∈ items, f item = .ok (g item)) : items.mapM f = .ok (items.map g) := by
  induction items with
  | nil => rfl
  | cons item rest ih =>
    have hrest := ih fun other hother => h other (List.mem_cons_of_mem item hother)
    rw [List.mapM_cons, h item List.mem_cons_self, hrest]
    rfl

theorem concernMutations_eq {arn : String} {concern : Concern}
    (harn : concern = .tags → latest.statusOrEmpty.arn? = some arn) :
    desired.concernMutations latest concern
      = .ok (desired.changesOf latest.spec arn concern) := by
  cases concern with
  | tags =>
    simp only [Resource.concernMutations, Resource.tagMutations, Resource.changesOf]
    rcases latest.spec.tags? with _ | current
    · rfl
    rcases desired.spec.tags? with _ | wanted
    · rfl
    by_cases hempty : (TagChange.between current wanted).isEmpty = true
    · -- an empty change has neither of the two calls
      obtain ⟨hupserts, hremovals⟩ := Bool.and_eq_true_iff.mp hempty
      simp [hempty, TagChange.calls, hupserts, hremovals]
    · simp [hempty, TagChange.calls, harn rfl]
  | configuration => rfl
  | workspaceAlias => rfl
  | logGroup => rfl

/-- The identifier is needed only if the tags differ. -/
theorem mutations_eq {arn : String}
    (harn : (desired.compare latest).differentAt Concern.tags.path = true →
      latest.statusOrEmpty.arn? = some arn) :
    desired.mutations latest = .ok (desired.changes latest.spec arn) := by
  have hparts : ∀ concern ∈ kind.policy.concerns.filter
      (fun concern => (desired.compare latest).differentAt concern.path),
      desired.concernMutations latest concern
        = .ok (desired.changesOf latest.spec arn concern) := by
    intro concern hmem
    apply concernMutations_eq
    rintro rfl
    exact harn (List.mem_filter.mp hmem).2
  rw [Resource.mutations, mapM_eq_ok hparts, Except.map, flatten_map_filter]
  rfl

/-! ### The changes, written out -/

/-- The tags of a spec; a kind without tags has none. -/
def Spec.tagsOrEmpty (spec : Spec kind) : Tags := spec.tags?.getD .empty

/-- The attribute that a put replaces: the alias, the configuration or the log group. -/
def Spec.attribute : {kind : Kind} → Spec kind → Option String
  | .workspace, spec => spec.workspaceAlias
  | .ruleGroupsNamespace, spec => spec.configuration
  | .alertManagerDefinition, spec => spec.configuration
  | .loggingConfiguration, spec => some spec.logGroupArn

theorem TagChange.calls_eq_nil_iff (change : TagChange) (arn : String) :
    change.calls arn = [] ↔ change.isEmpty = true := by
  rw [calls, isEmpty, Bool.and_eq_true_iff, List.append_eq_nil_iff, and_comm]
  simp

theorem calls_between_eq_nil_iff (current desired : Tags) (arn : String) :
    (TagChange.between current desired).calls arn = [] ↔ current = desired := by
  rw [TagChange.calls_eq_nil_iff, TagChange.isEmpty_between_iff]

/-- The tags concern calls for the change between the tags; there is none if they are the same. -/
theorem changesIf_tags {latest : Spec kind} {current wanted : Tags}
    (hcurrent : latest.tags? = some current) (hwanted : desired.spec.tags? = some wanted)
    (arn : String) :
    desired.changesIf latest arn .tags = (TagChange.between current wanted).calls arn := by
  have hdiffers : (desired.spec.compare latest).differentAt Concern.tags.path
      = (FieldValue.tags wanted).differ (.tags current) := by
    rw [Concern.path, Spec.differentAt_compare, Concern.field, Spec.value_tags hwanted,
      Spec.value_tags hcurrent]
  rw [Resource.changesIf, hdiffers]
  by_cases hdiffer : (FieldValue.tags wanted).differ (.tags current) = true
  · rw [if_pos hdiffer, Resource.changesOf, hcurrent, hwanted]
  · obtain rfl : wanted = current := FieldValue.tags.inj (FieldValue.eq_of_not_differ hdiffer)
    rw [if_neg hdiffer, (calls_between_eq_nil_iff _ _ arn).mpr rfl]

/-- Every other concern calls for a put if its field differs. -/
theorem changesIf_put {concern : Concern} (hconcern : concern ≠ .tags) (latest : Spec kind)
    (arn : String) :
    desired.changesIf latest arn concern
      = if (desired.spec.value concern.field).differ (latest.value concern.field) then
          [.put desired.request]
        else [] := by
  have hput : desired.changesOf latest arn concern = [.put desired.request] := by
    cases concern with
    | tags => exact absurd rfl hconcern
    | configuration => rfl
    | workspaceAlias => rfl
    | logGroup => rfl
  rw [Resource.changesIf, Concern.path, Spec.differentAt_compare, hput]

/-- The changes are those of the tags, then a put if the attribute differs. -/
theorem changes_eq (latest : Spec kind) (arn : String) :
    desired.changes latest arn
      = (TagChange.between latest.tagsOrEmpty desired.spec.tagsOrEmpty).calls arn
        ++ if desired.spec.attribute = latest.attribute then [] else [.put desired.request] := by
  have hput : ∀ a b : Option String,
      (if (FieldValue.text a).differ (.text b) then [Mutation.put desired.request] else [])
        = if a = b then [] else [.put desired.request] := by
    intro a b
    by_cases hequal : a = b
    · rw [if_neg, if_pos hequal]
      rw [hequal, (FieldValue.differ_eq_false_iff _ _).mpr rfl]
      exact Bool.false_ne_true
    · rw [if_pos, if_neg hequal]
      by_contra hdiffer
      exact hequal (FieldValue.text.inj (FieldValue.eq_of_not_differ hdiffer))
  cases kind with
  | workspace =>
    calc desired.changes latest arn
        = desired.changesIf latest arn .tags
          ++ (desired.changesIf latest arn .workspaceAlias ++ []) := rfl
      _ = _ := by
        rw [changesIf_tags rfl rfl, changesIf_put (by decide), List.append_nil]
        exact congrArg _ (hput _ _)
  | ruleGroupsNamespace =>
    calc desired.changes latest arn
        = desired.changesIf latest arn .tags
          ++ (desired.changesIf latest arn .configuration ++ []) := rfl
      _ = _ := by
        rw [changesIf_tags rfl rfl, changesIf_put (by decide), List.append_nil]
        exact congrArg _ (hput _ _)
  | alertManagerDefinition =>
    calc desired.changes latest arn
        = desired.changesIf latest arn .configuration ++ [] := rfl
      _ = _ := by
        rw [changesIf_put (by decide), List.append_nil]
        exact hput _ _
  | loggingConfiguration =>
    calc desired.changes latest arn
        = desired.changesIf latest arn .logGroup ++ [] := rfl
      _ = _ := by
        rw [changesIf_put (by decide), List.append_nil]
        exact hput _ _

/-! ### Changed tags without an identifier -/

/-- Tags are the first concern of the kinds that have them. -/
theorem concerns_of_tags {spec : Spec kind} {tags : Tags} (h : spec.tags? = some tags) :
    ∃ rest, kind.policy.concerns = .tags :: rest := by
  cases kind with
  | workspace => exact ⟨_, rfl⟩
  | ruleGroupsNamespace => exact ⟨_, rfl⟩
  | alertManagerDefinition => cases h
  | loggingConfiguration => cases h

theorem exists_tags_of_ne {a b : Spec kind} (h : a.tagsOrEmpty ≠ b.tagsOrEmpty) :
    a.tags? = some a.tagsOrEmpty ∧ b.tags? = some b.tagsOrEmpty := by
  cases kind with
  | workspace => exact ⟨rfl, rfl⟩
  | ruleGroupsNamespace => exact ⟨rfl, rfl⟩
  | alertManagerDefinition => exact absurd rfl h
  | loggingConfiguration => exact absurd rfl h

theorem differentAt_tags_iff :
    (desired.compare latest).differentAt Concern.tags.path = true ↔
      latest.spec.tagsOrEmpty ≠ desired.spec.tagsOrEmpty := by
  rw [Resource.compare, Concern.path, Spec.differentAt_compare, Concern.field, Ne,
    ← Bool.not_eq_false, FieldValue.differ_eq_false_iff, not_congr]
  cases kind with
  | workspace => exact ⟨fun h => (FieldValue.tags.inj h).symm, fun h => congrArg _ h.symm⟩
  | ruleGroupsNamespace => exact ⟨fun h => (FieldValue.tags.inj h).symm, fun h => congrArg _ h.symm⟩
  | alertManagerDefinition => exact ⟨fun _ => rfl, fun _ => rfl⟩
  | loggingConfiguration => exact ⟨fun _ => rfl, fun _ => rfl⟩

/-- Without the identifier a change of the tags cannot be asked for, nor anything after it. -/
theorem mutations_of_no_arn (hdiffer : latest.spec.tagsOrEmpty ≠ desired.spec.tagsOrEmpty)
    (harn : latest.statusOrEmpty.arn? = none) :
    desired.mutations latest = .error .missingArn := by
  obtain ⟨hcurrent, hwanted⟩ := exists_tags_of_ne hdiffer
  obtain ⟨rest, hconcerns⟩ := concerns_of_tags hcurrent
  have hpath := differentAt_tags_iff.mpr hdiffer
  have hchange : (TagChange.between latest.spec.tagsOrEmpty desired.spec.tagsOrEmpty).isEmpty
      = false :=
    Bool.eq_false_iff.mpr (mt (TagChange.isEmpty_between_iff _ _).mp hdiffer)
  have htags : desired.concernMutations latest .tags = .error .missingArn := by
    simp [Resource.concernMutations, Resource.tagMutations, hcurrent, hwanted, hchange, harn]
  simp [Resource.mutations, hconcerns, hpath, List.mapM_cons, htags, bind, Except.bind, Except.map]

/-- Nothing else keeps the changes from being known. -/
theorem exists_mutations_eq (desired latest : Resource kind) :
    (latest.spec.tagsOrEmpty ≠ desired.spec.tagsOrEmpty ∧ latest.statusOrEmpty.arn? = none) ∨
      ∃ arn, desired.mutations latest = .ok (desired.changes latest.spec arn) := by
  by_cases htags : latest.spec.tagsOrEmpty = desired.spec.tagsOrEmpty
  · exact .inr ⟨"", mutations_eq fun hpath => absurd htags (differentAt_tags_iff.mp hpath)⟩
  · rcases harn : latest.statusOrEmpty.arn? with _ | arn
    · exact .inl ⟨htags, rfl⟩
    · exact .inr ⟨arn, mutations_eq fun _ => harn⟩

theorem mutations_eq_error_iff {failure : Failure} :
    desired.mutations latest = .error failure ↔
      failure = .missingArn ∧ latest.spec.tagsOrEmpty ≠ desired.spec.tagsOrEmpty ∧
        latest.statusOrEmpty.arn? = none := by
  constructor
  · intro herror
    rcases exists_mutations_eq desired latest with ⟨htags, harn⟩ | ⟨arn, hok⟩
    · rw [mutations_of_no_arn htags harn] at herror
      exact ⟨(Except.error.inj herror).symm, htags, harn⟩
    · cases herror.symm.trans hok
  · rintro ⟨rfl, htags, harn⟩
    exact mutations_of_no_arn htags harn

theorem exists_arn_of_mutations {changes : List Mutation}
    (h : desired.mutations latest = .ok changes) :
    ∃ arn, changes = desired.changes latest.spec arn := by
  rcases exists_mutations_eq desired latest with ⟨htags, harn⟩ | ⟨arn, hok⟩
  · cases h.symm.trans (mutations_of_no_arn htags harn)
  · exact ⟨arn, Except.ok.inj (h.symm.trans hok)⟩

/-! ### How many changes there are -/

/-- The number of calls that a concern takes at most. -/
def Concern.callBound : Concern → Nat
  | .tags => 2
  | .configuration | .workspaceAlias | .logGroup => 1

/-- The number of calls that some concerns take at most. -/
def Concern.callBounds : List Concern → Nat
  | [] => 0
  | concern :: rest => concern.callBound + callBounds rest

theorem tagMutations_length_le {changes : List Mutation}
    (h : desired.tagMutations latest = .ok changes) : changes.length ≤ 2 := by
  unfold Resource.tagMutations at h
  split at h
  · simp only at h
    split at h
    · obtain rfl := Except.ok.inj h
      exact Nat.zero_le 2
    · split at h
      · cases h
      · obtain rfl := Except.ok.inj h
        -- each half is empty or one call
        rw [List.length_append]
        split <;> split <;> simp
  · obtain rfl := Except.ok.inj h
    exact Nat.zero_le 2

theorem concernMutations_length_le {concern : Concern}
    {changes : List Mutation} (h : desired.concernMutations latest concern = .ok changes) :
    changes.length ≤ concern.callBound := by
  cases concern with
  | tags => exact tagMutations_length_le h
  | configuration => obtain rfl := Except.ok.inj h; exact Nat.le_refl 1
  | workspaceAlias => obtain rfl := Except.ok.inj h; exact Nat.le_refl 1
  | logGroup => obtain rfl := Except.ok.inj h; exact Nat.le_refl 1

theorem mapM_concernMutations_length_le {concerns : List Concern}
    {parts : List (List Mutation)}
    (h : concerns.mapM (desired.concernMutations latest) = .ok parts) :
    parts.flatten.length ≤ Concern.callBounds concerns := by
  induction concerns generalizing parts with
  | nil =>
    obtain rfl := Except.ok.inj h
    exact Nat.le_refl 0
  | cons concern rest ih =>
    rw [List.mapM_cons] at h
    rcases hhead : desired.concernMutations latest concern with failure | changes
    · simp [hhead, bind, Except.bind] at h
    · rcases htail : rest.mapM (desired.concernMutations latest) with failure | others
      · simp [hhead, htail, bind, Except.bind] at h
      · have hparts : changes :: others = parts := by
          simpa [hhead, htail, bind, Except.bind, pure, Except.pure] using h
        subst hparts
        have hle := concernMutations_length_le hhead
        have hrest := ih htail
        simp only [List.flatten_cons, List.length_append, Concern.callBounds]
        omega

theorem callBounds_filter_le (keep : Concern → Bool) (concerns : List Concern) :
    Concern.callBounds (concerns.filter keep) ≤ Concern.callBounds concerns := by
  induction concerns with
  | nil => exact Nat.le_refl 0
  | cons concern rest ih =>
    by_cases hkeep : keep concern = true
    · simpa [hkeep, Concern.callBounds] using ih
    · simp only [hkeep, List.filter_cons_of_neg, Concern.callBounds, Bool.not_eq_true]
      omega

theorem mutations_length_le {changes : List Mutation}
    (h : desired.mutations latest = .ok changes) : changes.length ≤ 3 := by
  obtain ⟨parts, rfl, hparts⟩ := exists_parts_of_mutations h
  calc parts.flatten.length
      ≤ Concern.callBounds (kind.policy.concerns.filter _) :=
        mapM_concernMutations_length_le hparts
    _ ≤ Concern.callBounds kind.policy.concerns := callBounds_filter_le _ kind.policy.concerns
    _ ≤ 3 := by cases kind <;> decide

end ManagedPrometheus
