import ManagedPrometheus.Proofs.TagChanges
import ManagedPrometheus.Spec

/-!
# Differences of specs

No path of a field lies below the path of another, so a question about a path is answered by the one
field that has it (`Spec.differentAt_compare`). Two specs have no differences exactly if every field
holds the same value in both.
-/

namespace ManagedPrometheus

variable {kind : Kind}

theorem Delta.isAtOrBelow_path (field other : Field) :
    Delta.isAtOrBelow field.path other.path = decide (field = other) := by
  cases field <;> cases other <;> decide

theorem FieldValue.differ_eq_false_iff (desired latest : FieldValue) :
    desired.differ latest = false ↔ desired = latest := by
  cases desired with
  | text value => cases latest <;> simp [differ]
  | tags value =>
    cases latest with
    | text => simp [differ]
    | tags other =>
      rw [differ, Tags.differ_eq_false_iff]
      exact ⟨congrArg FieldValue.tags, FieldValue.tags.inj⟩

theorem FieldValue.eq_of_not_differ {desired latest : FieldValue}
    (h : ¬ desired.differ latest = true) : desired = latest :=
  (differ_eq_false_iff desired latest).mp (Bool.eq_false_iff.mpr h)

namespace Spec

theorem value_of_notMem {field : Field} (h : field ∉ kind.fields) (spec : Spec kind) :
    spec.value field = .text none := by
  cases kind <;> cases field <;> first | rfl | exact absurd (by decide) h

theorem value_tags {spec : Spec kind} {tags : Tags} (h : spec.tags? = some tags) :
    spec.value .tags = .tags tags := by
  cases kind with
  | workspace => exact congrArg FieldValue.tags (Option.some.inj h)
  | ruleGroupsNamespace => exact congrArg FieldValue.tags (Option.some.inj h)
  | alertManagerDefinition => cases h
  | loggingConfiguration => cases h

/-- The differences of two specs answer for a path by comparing the field of the path. -/
theorem differentAt_compare (desired latest : Spec kind) (field : Field) :
    (desired.compare latest).differentAt field.path
      = (desired.value field).differ (latest.value field) := by
  rw [Bool.eq_iff_iff, Delta.differentAt, List.any_eq_true]
  constructor
  · rintro ⟨difference, hmem, hpath⟩
    obtain ⟨other, _, hother⟩ := List.mem_filterMap.mp hmem
    split at hother
    · rename_i hdiffer
      obtain rfl := Option.some.inj hother
      obtain rfl : field = other := by simpa [Delta.isAtOrBelow_path] using hpath
      exact hdiffer
    · cases hother
  · intro hdiffer
    by_cases hfield : field ∈ kind.fields
    · refine ⟨_, List.mem_filterMap.mpr ⟨field, hfield, if_pos hdiffer⟩, ?_⟩
      simp [Delta.isAtOrBelow_path]
    · rw [value_of_notMem hfield, value_of_notMem hfield] at hdiffer
      cases hdiffer

theorem compare_isEmpty_iff (desired latest : Spec kind) :
    (desired.compare latest).isEmpty = true ↔
      ∀ field, desired.value field = latest.value field := by
  rw [Delta.isEmpty, List.isEmpty_iff, compare, List.filterMap_eq_nil_iff]
  constructor
  · intro h field
    by_cases hfield : field ∈ kind.fields
    · rw [← FieldValue.differ_eq_false_iff]
      simpa using h field hfield
    · rw [value_of_notMem hfield, value_of_notMem hfield]
  · intro h field _
    rw [(FieldValue.differ_eq_false_iff _ _).mpr (h field)]
    rfl

end Spec

end ManagedPrometheus
