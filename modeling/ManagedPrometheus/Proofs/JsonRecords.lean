import ManagedPrometheus.MergePatch

/-!
# Records and their look-ups

The objects that the library writes have their members in ascending order of name, so such an object
is known by its look-ups (`Json.object_congr`). Look-ups in a record are those in the fields that it
was made of (`Json.findEntry_recordSome`), and a merge patch acts on each member by itself
(`Json.findEntry_mergeMembers`). With these, reading back what was written and applying a patch are
questions about one field at a time.
-/

namespace ManagedPrometheus

variable {α : Type}

/-! ### Entry lists -/

theorem findEntry_eq_none_of_notMem {name : String} {entries : List (String × α)}
    (h : name ∉ entries.map (·.1)) : findEntry name entries = none := by
  induction entries with
  | nil => rfl
  | cons head rest ih =>
    rw [List.map_cons, List.mem_cons, not_or] at h
    rw [findEntry, if_neg h.1, ih h.2]

theorem findEntry_of_mem {entries : List (String × α)} {name : String} {value : α}
    (hnodup : (entries.map (·.1)).Nodup) (h : (name, value) ∈ entries) :
    findEntry name entries = some value := by
  induction entries with
  | nil => cases h
  | cons head rest ih =>
    rw [List.map_cons, List.nodup_cons] at hnodup
    rw [findEntry]
    rcases List.mem_cons.mp h with rfl | hrest
    · rw [if_pos rfl]
    · have hne : name ≠ head.1 := by
        rintro rfl
        exact hnodup.1 (List.mem_map.mpr ⟨_, hrest, rfl⟩)
      rw [if_neg hne]
      exact ih hnodup.2 hrest

theorem Ascending.nodup_names {entries : List (String × α)} (h : Ascending entries) :
    (entries.map (·.1)).Nodup := by
  apply List.pairwise_map.mpr
  apply h.imp
  intro a b hlt heq
  exact String.lt_irrefl b.1 (heq ▸ hlt)

theorem ascending_foldl_setEntry (entries : List (String × α)) {made : List (String × α)}
    (h : Ascending made) :
    Ascending (entries.foldl (fun made e => setEntry e.1 e.2 made) made) := by
  induction entries generalizing made with
  | nil => exact h
  | cons head rest ih => exact ih h.setEntry

/-- Entries of distinct names are all found after they were set, whatever their order. -/
theorem findEntry_foldl_setEntry {entries : List (String × α)} (h : (entries.map (·.1)).Nodup)
    (made : List (String × α)) (name : String) :
    findEntry name (entries.foldl (fun made e => setEntry e.1 e.2 made) made)
      = (findEntry name entries).or (findEntry name made) := by
  induction entries generalizing made with
  | nil => rfl
  | cons head rest ih =>
    obtain ⟨key, value⟩ := head
    rw [List.map_cons, List.nodup_cons] at h
    rw [List.foldl_cons, ih h.2, findEntry_setEntry, findEntry]
    by_cases hname : name = key
    · rw [if_pos hname, if_pos hname, hname, findEntry_eq_none_of_notMem h.1]
      rfl
    · rw [if_neg hname, if_neg hname]

/-- Leaving out the fields that are not set leaves the look-ups of those that are. -/
theorem findEntry_filterMap {fields : List (String × Option α)} (h : (fields.map (·.1)).Nodup)
    (name : String) :
    findEntry name (fields.filterMap fun field => field.2.map fun value => (field.1, value))
      = (findEntry name fields).join := by
  induction fields with
  | nil => rfl
  | cons head rest ih =>
    obtain ⟨key, value?⟩ := head
    rw [List.map_cons, List.nodup_cons] at h
    have hrest := ih h.2
    rw [findEntry, List.filterMap_cons]
    by_cases hname : name = key
    · rw [hname, findEntry_eq_none_of_notMem h.1, Option.join_none] at hrest
      rw [if_pos hname, hname]
      rcases value? with _ | value
      · exact hrest
      · simp [findEntry]
    · rw [if_neg hname, ← hrest]
      rcases value? with _ | value
      · rfl
      · simp [findEntry, hname]

theorem nodup_names_filterMap {fields : List (String × Option α)} (h : (fields.map (·.1)).Nodup) :
    ((fields.filterMap fun field => field.2.map fun value => (field.1, value)).map
      (·.1)).Nodup := by
  have hsublist : ((fields.filterMap fun field =>
      field.2.map fun value => (field.1, value)).map (·.1)).Sublist (fields.map (·.1)) := by
    induction fields with
    | nil => exact List.Sublist.refl _
    | cons head rest ih =>
      obtain ⟨key, value?⟩ := head
      rw [List.map_cons, List.nodup_cons] at h
      rw [List.filterMap_cons]
      rcases value? with _ | value
      · exact (ih h.2).cons key
      · exact (ih h.2).cons_cons key
  exact hsublist.nodup h

namespace Json

/-! ### Records -/

/-- Objects whose members are in order are the same if their look-ups are. -/
theorem object_congr {xs ys : List (String × Json)} (hx : Ascending xs) (hy : Ascending ys)
    (h : ∀ name, findEntry name xs = findEntry name ys) : object xs = object ys :=
  congrArg object (hx.ext_findEntry hy h)

theorem ascending_recordSome (fields : List (String × Option Json)) :
    Ascending (recordSome fields).members :=
  ascending_foldl_setEntry _ List.Pairwise.nil

theorem findEntry_recordSome {fields : List (String × Option Json)}
    (h : (fields.map (·.1)).Nodup) (name : String) :
    findEntry name (recordSome fields).members = (findEntry name fields).join := by
  have hentries := findEntry_foldl_setEntry (nodup_names_filterMap h) [] name
  rw [findEntry_filterMap h] at hentries
  simpa [recordSome, record, members, findEntry] using hentries

/-! ### Reading lists -/

theorem mapM_eq_some_map {β : Type} {f : β → Option α} {g : α → β} (items : List α)
    (h : ∀ item ∈ items, f (g item) = some item) : (items.map g).mapM f = some items := by
  induction items with
  | nil => rfl
  | cons item rest ih =>
    have hrest := ih fun other hother => h other (List.mem_cons_of_mem item hother)
    rw [List.map_cons, List.mapM_cons, h item List.mem_cons_self, hrest]
    rfl

/-! ### Reading fields -/

/-- Reading a record finds those of its fields that are asked for. -/
theorem exists_known (names : List String) (fields : List (String × Option Json))
    (h : (fields.map (·.1)).Nodup) :
    ∃ known, (recordSome fields).fields? names = some known ∧
      ∀ name ∈ names, findEntry name known = (findEntry name fields).join := by
  let known := (recordSome fields).members.filter fun m => names.contains m.1
  have hnodup : (known.map (·.1)).Nodup := ((ascending_recordSome fields).filter _).nodup_names
  refine ⟨known, if_pos hnodup, ?_⟩
  intro name hname
  rw [findEntry_filter (fun other => names.contains other), findEntry_recordSome h,
    if_pos (List.contains_iff_mem.mpr hname)]

/-- A field that is repeated in no object is read as one that may be absent or null. -/
theorem lastOptional_of_ascending {members : List (String × Json)} (h : Ascending members)
    (read : Json → Option α) (name : String) :
    lastOptional read name members = optional read name members := by
  have hsingle : (members.filter fun m => m.1 = name)
      = ((findEntry name members).map fun value => (name, value)).toList := by
    induction members with
    | nil => rfl
    | cons head rest ih =>
      obtain ⟨key, value⟩ := head
      have hrest := ih (List.pairwise_cons.mp h).2
      have hlater : ∀ e ∈ rest, key < e.1 := (List.pairwise_cons.mp h).1
      by_cases hname : key = name
      · subst hname
        rw [findEntry_eq_none_of_forall_lt hlater] at hrest
        simpa [findEntry] using hrest
      · simpa [findEntry, hname, Ne.symm hname] using hrest
  rw [lastOptional, hsingle, optional]
  rcases findEntry name members with _ | value
  · rfl
  · rcases hread : nullable read value with _ | found
    · simp [hread]
    · simp [hread]

/-! ### Merge patches -/

/-- What becomes of a member: a patch that does not name it leaves it, and null removes it. -/
def mergeMember (member? change? : Option Json) : Option Json :=
  match change? with
  | none => member?
  | some .null => none
  | some change => some (merge (member?.getD .null) change)

theorem mergeMember_of_ne_null {change : Json} (h : change ≠ .null) (member? : Option Json) :
    mergeMember member? (some change) = some (merge (member?.getD .null) change) := by
  cases change with
  | null => exact absurd rfl h
  | _ => rfl

theorem merge_object (target : Json) (changes : List (String × Json)) :
    target.merge (.object changes) = .object (mergeMembers target.members changes) := by
  rw [merge]

theorem ascending_mergeMembers {members : List (String × Json)} (h : Ascending members)
    (changes : List (String × Json)) : Ascending (mergeMembers members changes) := by
  induction changes generalizing members with
  | nil => rwa [mergeMembers]
  | cons head rest ih =>
    obtain ⟨name, change⟩ := head
    by_cases hnull : change = .null
    · rw [hnull, mergeMembers]
      exact ih (h.filter _)
    · rw [mergeMembers.eq_3 _ _ _ _ hnull]
      exact ih h.setEntry

/-- A patch acts on each member by itself. -/
theorem findEntry_mergeMembers {changes : List (String × Json)}
    (h : (changes.map (·.1)).Nodup) (members : List (String × Json)) (name : String) :
    findEntry name (mergeMembers members changes)
      = mergeMember (findEntry name members) (findEntry name changes) := by
  induction changes generalizing members with
  | nil =>
    rw [mergeMembers]
    rfl
  | cons head rest ih =>
    obtain ⟨key, change⟩ := head
    rw [List.map_cons, List.nodup_cons] at h
    have hkey := findEntry_eq_none_of_notMem h.1
    by_cases hnull : change = .null
    · rw [hnull, mergeMembers, ih h.2, findEntry_dropEntry, findEntry]
      by_cases hname : name = key
      · rw [if_pos hname, if_pos hname, hname, hkey]
        rfl
      · rw [if_neg hname, if_neg hname]
    · rw [mergeMembers.eq_3 _ _ _ _ hnull, ih h.2, findEntry_setEntry, findEntry]
      by_cases hname : name = key
      · rw [if_pos hname, if_pos hname, hname, hkey, mergeMember_of_ne_null hnull]
        rfl
      · rw [if_neg hname, if_neg hname]

/-- A patch with one member that is not null sets this member. -/
theorem mergeMembers_single (members : List (String × Json)) (name : String) {change : Json}
    (h : change ≠ .null) :
    mergeMembers members [(name, change)]
      = setEntry name (merge ((findEntry name members).getD .null) change) members := by
  rw [mergeMembers.eq_3 _ _ _ _ h, mergeMembers]

end Json

end ManagedPrometheus
