import Mathlib.Data.List.Perm.Subperm
import ManagedPrometheus.TagChange

/-!
# Applying tag changes

A change of tags is computed against the tags that were read, entry by entry in both maps; what has
been collected in the end can be told from the maps alone (`TagChange.removals_between`,
`TagChange.upserts_between`). Applied to the tags that were read, it leads to the desired tags
(`TagChange.applyTo_between`), and the test for a difference, which compares sizes and
looks the desired tags up, fails only for maps that are the same (`Tags.differ_eq_false_iff`).
-/

namespace ManagedPrometheus

variable {α : Type}

/-! ### Look-ups -/

theorem get?_insertAll_of_ascending {pairs : List (String × α)} (h : Ascending pairs)
    (map : TextMap α) (key : String) :
    (map.insertAll pairs).get? key = (findEntry key pairs <|> map.get? key) := by
  induction pairs generalizing map with
  | nil => rfl
  | cons head rest ih =>
    obtain ⟨k, v⟩ := head
    have hhead : ∀ e ∈ rest, k < e.1 := (List.pairwise_cons.1 h).1
    have hrest : Ascending rest := (List.pairwise_cons.1 h).2
    have hstep : (map.insertAll ((k, v) :: rest)).get? key
        = (findEntry key rest <|> (map.insert k v).get? key) := ih hrest (map.insert k v)
    rw [hstep, TextMap.get?_insert]
    by_cases hk : key = k
    · -- later pairs have larger keys, so the value that was just set stays
      subst hk
      rw [findEntry_eq_none_of_forall_lt hhead]
      simp [findEntry]
    · simp [findEntry, hk]

namespace TextMap

theorem get?_insertAll_entries (map other : TextMap α) (key : String) :
    (map.insertAll other.entries).get? key = (other.get? key <|> map.get? key) :=
  get?_insertAll_of_ascending other.ascending map key

theorem get?_filter (map : TextMap α) (keep : String → α → Bool) (key : String) :
    (map.filter keep).get? key = (map.get? key).filter (keep key) := by
  apply Option.ext
  intro value
  rw [← mem_entries, Option.filter_eq_some_iff, ← mem_entries, filter, List.mem_filter]

theorem mem_keys_iff (map : TextMap α) (key : String) :
    key ∈ map.keys ↔ (map.get? key).isSome := by
  rw [keys, List.mem_map, Option.isSome_iff_exists]
  constructor
  · rintro ⟨⟨k, value⟩, hmem, rfl⟩
    exact ⟨value, (map.mem_entries k value).mp hmem⟩
  · rintro ⟨value, hvalue⟩
    exact ⟨(key, value), (map.mem_entries key value).mpr hvalue, rfl⟩

theorem get?_eq_none_of_isEmpty {map : TextMap α} (h : map.isEmpty = true) (key : String) :
    map.get? key = none := by
  have hentries : map.entries = [] := List.isEmpty_iff.mp h
  rw [get?, hentries]
  rfl

theorem insertAll_of_isEmpty {map other : TextMap α} (h : other.isEmpty = true) :
    map.insertAll other.entries = map := by
  apply ext_get?
  intro key
  rw [get?_insertAll_entries, get?_eq_none_of_isEmpty h]
  rfl

theorem entries_nodup (map : TextMap α) : map.entries.Nodup := by
  apply map.ascending.imp
  rintro entry _ hlt rfl
  exact String.lt_irrefl entry.1 hlt

theorem keys_ascending (map : TextMap α) : map.keys.Pairwise (· < ·) :=
  List.pairwise_map.mpr map.ascending

end TextMap

/-! ### Changes -/

namespace TagChange

theorem removals_addCurrent_all (desired : Tags) (pairs : List (String × String))
    (change : TagChange) :
    (pairs.foldl (addCurrent desired) change).removals
      = change.removals ++ (pairs.map (·.1)).filter fun key => !desired.contains key := by
  induction pairs generalizing change with
  | nil => simp
  | cons tag rest ih =>
    rw [List.foldl_cons, ih, addCurrent, List.map_cons]
    rcases hdesired : desired.get? tag.1 with _ | wanted
    · simp [TextMap.contains, hdesired]
    · by_cases hsame : wanted = tag.2
      · simp [TextMap.contains, hdesired, hsame]
      · simp [TextMap.contains, hdesired, hsame]

theorem removals_addDesired_all (current : Tags) (pairs : List (String × String))
    (change : TagChange) :
    (pairs.foldl (addDesired current) change).removals = change.removals := by
  induction pairs generalizing change with
  | nil => rfl
  | cons tag rest ih =>
    rw [List.foldl_cons, ih, addDesired]
    split
    · rfl
    · rfl

theorem get?_upserts_addCurrent_all (desired : Tags) {pairs : List (String × String)}
    (h : Ascending pairs) (change : TagChange) (key : String) :
    (pairs.foldl (addCurrent desired) change).upserts.get? key
      = (((findEntry key pairs).bind fun old => (desired.get? key).filter (· ≠ old))
          <|> change.upserts.get? key) := by
  induction pairs generalizing change with
  | nil => rfl
  | cons tag rest ih =>
    obtain ⟨k, old⟩ := tag
    have hhead : ∀ e ∈ rest, k < e.1 := (List.pairwise_cons.mp h).1
    rw [List.foldl_cons, ih (List.pairwise_cons.mp h).2, addCurrent]
    by_cases hk : key = k
    · -- the rest of the pairs has larger keys and leaves this one as it is
      subst hk
      rw [findEntry_eq_none_of_forall_lt hhead]
      rcases hdesired : desired.get? key with _ | wanted
      · simp [findEntry]
      · by_cases hsame : wanted = old
        · simp [findEntry, Option.filter, hsame]
        · simp [findEntry, Option.filter, hsame]
    · rcases hdesired : desired.get? k with _ | wanted
      · simp [findEntry, hk]
      · by_cases hsame : wanted = old
        · simp [findEntry, hk, hsame]
        · simp [findEntry, hk, hsame]

theorem get?_upserts_addDesired_all (current : Tags) {pairs : List (String × String)}
    (h : Ascending pairs) (change : TagChange) (key : String) :
    (pairs.foldl (addDesired current) change).upserts.get? key
      = ((if current.contains key then none else findEntry key pairs)
          <|> change.upserts.get? key) := by
  induction pairs generalizing change with
  | nil => simp [findEntry]
  | cons tag rest ih =>
    obtain ⟨k, value⟩ := tag
    have hhead : ∀ e ∈ rest, k < e.1 := (List.pairwise_cons.mp h).1
    rw [List.foldl_cons, ih (List.pairwise_cons.mp h).2, addDesired]
    by_cases hk : key = k
    · subst hk
      rw [findEntry_eq_none_of_forall_lt hhead]
      by_cases hthere : current.contains key = true
      · simp [hthere]
      · simp [findEntry, hthere]
    · by_cases hthere : current.contains k = true
      · simp [findEntry, hk, hthere]
      · simp [findEntry, hk, hthere]

/-- The keys that `desired` lacks are removed. -/
theorem removals_between (current desired : Tags) :
    (between current desired).removals = current.keys.filter fun key => !desired.contains key := by
  rw [between, removals_addDesired_all, removals_addCurrent_all]
  rfl

/-- The tags that `current` lacks or holds with another value are set. -/
theorem upserts_between (current desired : Tags) :
    (between current desired).upserts
      = desired.filter fun key value => current.get? key ≠ some value := by
  apply TextMap.ext_get?
  intro key
  rw [between, get?_upserts_addDesired_all current desired.ascending,
    get?_upserts_addCurrent_all desired current.ascending, TextMap.get?_filter]
  show ((if current.contains key then none else desired.get? key)
    <|> (((current.get? key).bind fun old => (desired.get? key).filter (· ≠ old)) <|> none)) = _
  rcases hcurrent : current.get? key with _ | old
  · rcases hdesired : desired.get? key with _ | wanted
    · simp [TextMap.contains, hcurrent]
    · simp [TextMap.contains, hcurrent, Option.filter]
  · rcases hdesired : desired.get? key with _ | wanted
    · simp [TextMap.contains, hcurrent]
    · by_cases hsame : wanted = old
      · simp [TextMap.contains, hcurrent, Option.filter, hsame]
      · simp [TextMap.contains, hcurrent, Option.filter, hsame, Ne.symm hsame]

theorem contains_removals_between (current desired : Tags) (key : String) :
    (between current desired).removals.contains key
      = ((current.get? key).isSome && (desired.get? key).isNone) := by
  rw [Bool.eq_iff_iff, removals_between]
  simp [List.mem_filter, TextMap.mem_keys_iff, TextMap.contains]

theorem removeFrom_of_isEmpty {change : TagChange} (h : change.removals.isEmpty = true)
    (tags : Tags) : change.removeFrom tags = tags := by
  have hnone : change.removals = [] := List.isEmpty_iff.mp h
  apply TextMap.ext_get?
  intro key
  rw [removeFrom, TextMap.get?_filterKeys, hnone]
  rfl

/-- The change between two tag maps leads from the one to the other. -/
theorem applyTo_between (current desired : Tags) :
    (between current desired).applyTo current = desired := by
  apply TextMap.ext_get?
  intro key
  rw [applyTo, TextMap.get?_insertAll_entries, removeFrom, TextMap.get?_filterKeys,
    contains_removals_between, upserts_between, TextMap.get?_filter]
  rcases hdesired : desired.get? key with _ | value
  · -- a key that is not desired is removed if it is there
    rcases hcurrent : current.get? key with _ | old
    · rfl
    · rfl
  · by_cases hcurrent : current.get? key = some value
    · simp [Option.filter, hcurrent]
    · simp [Option.filter, hcurrent]

/-- What a change has to be to lead from one tag map to another without doing anything twice or for
nothing. -/
structure Turns (change : TagChange) (current desired : Tags) : Prop where
  removals_ascending : change.removals.Pairwise (· < ·)
  /-- A key is removed exactly if it is there and not desired. -/
  mem_removals_iff : ∀ key,
    key ∈ change.removals ↔ (current.get? key).isSome ∧ desired.get? key = none
  /-- A tag is set exactly if it is desired and its key is not there or holds another value. -/
  get?_upserts_iff : ∀ key value,
    change.upserts.get? key = some value ↔
      desired.get? key = some value ∧ current.get? key ≠ some value

theorem between_turns (current desired : Tags) :
    (between current desired).Turns current desired where
  removals_ascending := by
    rw [removals_between]
    exact current.keys_ascending.filter _
  mem_removals_iff key := by
    rw [← List.contains_iff_mem, contains_removals_between, Bool.and_eq_true,
      Option.isNone_iff_eq_none]
  get?_upserts_iff key value := by
    rw [upserts_between, TextMap.get?_filter, Option.filter_eq_some_iff, decide_eq_true_iff]

/-- A change that has nothing to do leads nowhere. -/
theorem applyTo_of_isEmpty {change : TagChange} (h : change.isEmpty = true) (tags : Tags) :
    change.applyTo tags = tags := by
  obtain ⟨hupserts, hremovals⟩ := Bool.and_eq_true_iff.mp h
  rw [applyTo, removeFrom_of_isEmpty hremovals, TextMap.insertAll_of_isEmpty hupserts]

/-- There is nothing to do between two tag maps exactly if they are the same. -/
theorem isEmpty_between_iff (current desired : Tags) :
    (between current desired).isEmpty = true ↔ current = desired := by
  constructor
  · intro h
    rw [← applyTo_between current desired, applyTo_of_isEmpty h]
  · rintro rfl
    rw [isEmpty, upserts_between, removals_between]
    refine Bool.and_eq_true_iff.mpr ⟨?_, ?_⟩
    · apply List.isEmpty_iff.mpr
      apply List.filter_eq_nil_iff.mpr
      rintro ⟨key, value⟩ hmem
      simpa using (current.mem_entries key value).mp hmem
    · apply List.isEmpty_iff.mpr
      apply List.filter_eq_nil_iff.mpr
      intro key hmem
      have hthere := (current.mem_keys_iff key).mp hmem
      simp [TextMap.contains, hthere]

end TagChange

/-! ### Differences -/

/-- Maps of one size, each desired tag of which is found in the other, are the same map. -/
theorem Tags.differ_eq_false_iff (desired latest : Tags) :
    desired.differ latest = false ↔ desired = latest := by
  constructor
  · intro h
    rw [differ, Bool.or_eq_false_iff] at h
    obtain ⟨hsize, hfound⟩ := h
    have hlength : latest.entries.length ≤ desired.entries.length := by
      have hequal : desired.size = latest.size := by simpa using hsize
      exact Nat.le_of_eq hequal.symm
    have hsubset : desired.entries ⊆ latest.entries := by
      rintro ⟨key, value⟩ hmem
      have hvalue := List.any_eq_false.mp hfound (key, value) hmem
      exact (latest.mem_entries key value).mpr (by simpa using hvalue)
    have hperm := (desired.entries_nodup.subperm hsubset).perm_of_length_le hlength
    apply TextMap.ext_get?
    intro key
    apply Option.ext
    intro value
    rw [← TextMap.mem_entries, ← TextMap.mem_entries]
    exact hperm.mem_iff
  · rintro rfl
    rw [differ, Bool.or_eq_false_iff]
    constructor
    · simp
    · apply List.any_eq_false.mpr
      rintro ⟨key, value⟩ hmem
      simpa using (desired.mem_entries key value).mp hmem

end ManagedPrometheus
