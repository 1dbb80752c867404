import ManagedPrometheus.Proofs.Differences

/-!
# The least tag change

A tag map may be led to another one in many ways, as a tag can be set that is there already and a
key be removed that is not. The change between two maps does only what every other way has to do as
well (`TagChange.Least`), so nothing can be left out of it. Its two halves are separate calls to the
backend. When the second one has not been made, the change between what is left then and the desired
tags is the second half again.
-/

namespace ManagedPrometheus

namespace TagChange

/-- The half of a change that removes keys. -/
def untagging (change : TagChange) : TagChange := ⟨.empty, change.removals⟩

/-- The half of a change that sets tags. -/
def tagging (change : TagChange) : TagChange := ⟨change.upserts, []⟩

/-- A change that leaves a key alone. -/
def without (change : TagChange) (key : String) : TagChange :=
  ⟨change.upserts.filterKeys (· ≠ key), change.removals.filter (· ≠ key)⟩

/-- A change that leads from one tag map to another and does nothing that another such change leaves
out. -/
structure Least (change : TagChange) (current desired : Tags) : Prop where
  leads : change.applyTo current = desired
  removals_subset : ∀ other : TagChange, other.applyTo current = desired →
    change.removals ⊆ other.removals
  upserts_subset : ∀ other : TagChange, other.applyTo current = desired →
    change.upserts.entries ⊆ other.upserts.entries

theorem get?_applyTo (change : TagChange) (tags : Tags) (key : String) :
    (change.applyTo tags).get? key
      = (change.upserts.get? key
          <|> if change.removals.contains key then none else tags.get? key) := by
  rw [applyTo, TextMap.get?_insertAll_entries, removeFrom, TextMap.get?_filterKeys]
  cases change.removals.contains key with
  | false => rfl
  | true => rfl

/-! ### The two halves -/

theorem applyTo_halves (change : TagChange) (tags : Tags) :
    change.tagging.applyTo (change.untagging.applyTo tags) = change.applyTo tags := by
  apply TextMap.ext_get?
  intro key
  rw [get?_applyTo, get?_applyTo, get?_applyTo]
  rfl

/-- With the keys removed, the tags that are desired by key stay. -/
theorem get?_untagged (current desired : Tags) (key : String) :
    ((between current desired).untagging.applyTo current).get? key
      = if desired.contains key then current.get? key else none := by
  rw [get?_applyTo]
  show (none <|> if (between current desired).removals.contains key then none
    else current.get? key) = _
  rw [contains_removals_between, TextMap.contains]
  rcases desired.get? key with _ | wanted
  · rcases current.get? key with _ | old
    · rfl
    · rfl
  · simp

/-- Once the keys are removed, what is left to do is to set the tags. -/
theorem between_untagged (current desired : Tags) :
    between ((between current desired).untagging.applyTo current) desired
      = (between current desired).tagging := by
  have hremovals : (between ((between current desired).untagging.applyTo current) desired).removals
      = [] := by
    rw [removals_between]
    apply List.filter_eq_nil_iff.mpr
    intro key hmem
    rw [TextMap.mem_keys_iff, get?_untagged] at hmem
    by_cases hdesired : desired.contains key = true
    · simp [hdesired]
    · simp [hdesired] at hmem
  have hupserts : (between ((between current desired).untagging.applyTo current) desired).upserts
      = (between current desired).upserts := by
    rw [upserts_between, upserts_between]
    apply TextMap.ext_get?
    intro key
    rw [TextMap.get?_filter, TextMap.get?_filter, get?_untagged]
    rcases hdesired : desired.get? key with _ | wanted
    · rfl
    · simp [TextMap.contains, hdesired]
  rw [tagging, ← hupserts, ← hremovals]

/-! ### Nothing to leave out -/

section Needed

variable {change other : TagChange} {current desired : Tags} {key : String}

theorem mem_removals_of_applyTo (hother : other.applyTo current = desired)
    (hcurrent : (current.get? key).isSome) (hdesired : desired.get? key = none) :
    key ∈ other.removals := by
  obtain ⟨old, hold⟩ := Option.isSome_iff_exists.mp hcurrent
  rw [← hother, get?_applyTo, hold] at hdesired
  by_cases hremoved : other.removals.contains key = true
  · exact List.contains_iff_mem.mp hremoved
  · rw [if_neg hremoved] at hdesired
    cases hupsert : other.upserts.get? key with
    | none => simp [hupsert] at hdesired
    | some set => simp [hupsert] at hdesired

theorem get?_upserts_of_applyTo {value : String} (hother : other.applyTo current = desired)
    (hdesired : desired.get? key = some value) (hcurrent : current.get? key ≠ some value) :
    other.upserts.get? key = some value := by
  rw [← hother, get?_applyTo] at hdesired
  cases hupsert : other.upserts.get? key with
  | some set => simpa [hupsert] using hdesired
  | none =>
    obtain ⟨-, hold⟩ : key ∉ other.removals ∧ current.get? key = some value := by
      simpa [hupsert] using hdesired
    exact absurd hold hcurrent

theorem between_least (current desired : Tags) :
    (between current desired).Least current desired where
  leads := applyTo_between current desired
  removals_subset other hother := by
    intro key hmem
    obtain ⟨hcurrent, hdesired⟩ := ((between_turns current desired).mem_removals_iff key).mp hmem
    exact mem_removals_of_applyTo hother hcurrent hdesired
  upserts_subset other hother := by
    rintro ⟨key, value⟩ hmem
    have hupsert := ((between current desired).upserts.mem_entries key value).mp hmem
    obtain ⟨hdesired, hcurrent⟩ :=
      ((between_turns current desired).get?_upserts_iff key value).mp hupsert
    apply (other.upserts.mem_entries key value).mpr
    exact get?_upserts_of_applyTo hother hdesired hcurrent

/-- A least change does not lead anywhere else without one of its keys. -/
theorem Least.needs (h : change.Least current desired)
    (hkey : key ∈ change.removals ∨ (change.upserts.get? key).isSome) :
    (change.without key).applyTo current ≠ desired := by
  intro hother
  rcases hkey with hremoval | hupsert
  · have hkept := h.removals_subset _ hother hremoval
    simp [without] at hkept
  · obtain ⟨value, hvalue⟩ := Option.isSome_iff_exists.mp hupsert
    have hkept := h.upserts_subset _ hother ((change.upserts.mem_entries key value).mpr hvalue)
    rw [TextMap.mem_entries, without, TextMap.get?_filterKeys] at hkept
    simp at hkept

/-- What is removed is not set. -/
theorem Turns.disjoint (h : change.Turns current desired) (hremoval : key ∈ change.removals) :
    change.upserts.get? key = none := by
  obtain ⟨-, hdesired⟩ := (h.mem_removals_iff key).mp hremoval
  rw [Option.eq_none_iff_forall_ne_some]
  intro value hupsert
  have hset := ((h.get?_upserts_iff key value).mp hupsert).1
  rw [hdesired] at hset
  cases hset

end Needed

/-! ### Agreement with the differences -/

/-- A difference in tags is recorded exactly if there is something to do about it. -/
theorem compareTags_eq_self_iff (delta : Delta) (path : String) (desired current : Tags) :
    delta.compareTags path desired current = delta ↔ (between current desired).isEmpty = true := by
  rw [isEmpty_between_iff, eq_comm (a := current), ← Tags.differ_eq_false_iff, Delta.compareTags]
  cases desired.differ current with
  | false => simp
  | true =>
    apply iff_of_false
    · intro h
      have hlength := congrArg (fun delta : Delta => delta.differences.length) h
      simp [Delta.add] at hlength
    · simp

theorem differentAt_tags_eq_false_iff {kind : Kind} {spec latest : Spec kind}
    {desired current : Tags} (hspec : spec.tags? = some desired)
    (hlatest : latest.tags? = some current) :
    (spec.compare latest).differentAt Field.tags.path = false ↔
      (between current desired).isEmpty = true := by
  rw [Spec.differentAt_compare, Spec.value_tags hspec, Spec.value_tags hlatest, FieldValue.differ,
    Tags.differ_eq_false_iff, isEmpty_between_iff, eq_comm]

/-- **The change between two tag maps.** It removes the keys that are not desired and sets the tags
that are not there, each once, and does nothing that another change to the same end could leave out.
It leads to the desired tags, at once or by its two halves, and what is left to do after the first
half is the second. It is empty exactly if the maps are the same, and exactly then a comparison of
the tags, or of two specs with these tags, records no difference in them. -/
theorem between_exact (current desired : Tags) :
    let change := between current desired
    let halfway := change.untagging.applyTo current
    change.Turns current desired ∧ change.Least current desired ∧
      (∀ key ∈ change.removals, change.upserts.get? key = none) ∧
      (∀ key, key ∈ change.removals ∨ (change.upserts.get? key).isSome →
        (change.without key).applyTo current ≠ desired) ∧
      change.tagging.applyTo halfway = desired ∧
      between halfway desired = change.tagging ∧
      (between halfway desired).applyTo halfway = desired ∧
      (change.isEmpty = true ↔ current = desired) ∧
      (∀ delta path,
        (delta : Delta).compareTags path desired current = delta ↔ change.isEmpty = true) ∧
      ∀ (kind : Kind) (spec latest : Spec kind),
        spec.tags? = some desired → latest.tags? = some current →
        ((spec.compare latest).differentAt Field.tags.path = false ↔ change.isEmpty = true) := by
  intro change halfway
  refine ⟨between_turns current desired, between_least current desired, ?_, ?_, ?_, ?_, ?_, ?_, ?_,
    ?_⟩
  · intro key hremoval
    exact (between_turns current desired).disjoint hremoval
  · intro key hkey
    exact (between_least current desired).needs hkey
  · exact (applyTo_halves change current).trans (applyTo_between current desired)
  · exact between_untagged current desired
  · exact applyTo_between halfway desired
  · exact isEmpty_between_iff current desired
  · intro delta path
    exact compareTags_eq_self_iff delta path desired current
  · intro kind spec latest hspec hlatest
    exact differentAt_tags_eq_false_iff hspec hlatest

theorem between_exact_renamed_team :
    let current : Tags := .ofList [("owner", "ops"), ("team", "infra")]
    let desired : Tags := .ofList [("team", "platform"), ("zone", "a")]
    let change := between current desired
    change.removals = ["owner"] ∧ change.upserts.entries = [("team", "platform"), ("zone", "a")] ∧
      (change.without "owner").applyTo current ≠ desired ∧
      (change.without "team").applyTo current ≠ desired ∧
      change.Least current desired ∧
      Delta.empty.compareTags Field.tags.path desired current ≠ Delta.empty := by
  intro current desired change
  obtain ⟨-, hleast, -, hneeds, -, -, -, -, hcompare, -⟩ := between_exact current desired
  refine ⟨by decide, by decide, hneeds "owner" (by decide), hneeds "team" (by decide), hleast, ?_⟩
  rw [ne_eq, hcompare]
  decide

end TagChange

end ManagedPrometheus
