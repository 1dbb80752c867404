import ManagedPrometheus.Proofs.Finalizers

/-!
# Finalizers of others

A write of the finalizers carries the whole list, made from the one that the visit read, and no
precondition. So the reading decides what is stored afterwards (`finalizers_after_write`): if others
have changed their finalizers since, the write undoes it
(`finalizer_writes_undo_others`).
-/

namespace ManagedPrometheus

variable {σ : Type} {kind : Kind}

namespace Stored

/-- The finalizers that an object carries. -/
def finalizers (stored : Stored kind) : List String := stored.resource.metadata.finalizerList

def otherFinalizers (stored : Stored kind) : List String := stored.resource.metadata.otherFinalizers

theorem mem_otherFinalizers {stored : Stored kind} {name : String} :
    name ∈ stored.otherFinalizers ↔ name ∈ stored.finalizers ∧ name ≠ finalizerName := by
  rw [otherFinalizers, Metadata.otherFinalizers, List.mem_filter, decide_eq_true_eq]
  rfl

end Stored

/-- A step has set the finalizers and nothing else, and those of others to what was read. -/
structure Step.Resets (step : Step kind) (read : Stored kind) (names : List String) : Prop where
  after : step.after = step.before.withFinalizers names
  others : ∀ name, name ≠ finalizerName → (name ∈ step.after.finalizers ↔ name ∈ read.finalizers)

theorem Step.Resets.of_after {step : Step kind} {read : Stored kind} {names : List String}
    (hafter : step.after = step.before.withFinalizers names)
    (hnames : names.filter (fun name => name ≠ finalizerName) = read.otherFinalizers) :
    step.Resets read names := by
  refine ⟨hafter, ?_⟩
  intro name hother
  have hmem : name ∈ names.filter (fun name => name ≠ finalizerName)
      ↔ name ∈ read.otherFinalizers := by
    rw [hnames]
  rw [Stored.mem_otherFinalizers, List.mem_filter, decide_eq_true_eq] at hmem
  have hset : step.after.finalizers = names := by
    rw [hafter]
    rfl
  rw [hset]
  exact ⟨fun h => (hmem.mp ⟨h, hother⟩).1, fun h => (hmem.mpr ⟨h, hother⟩).1⟩

/-- What a step wrote, and whether this was reported as applied. -/
def Step.write? (step : Step kind) : Option (Write × Bool) :=
  match step.deed with
  | .called _ => none
  | .wrote write accepted => some (write, accepted)

theorem Step.deed_of_write? {step : Step kind} {write : Write} {accepted : Bool}
    (h : step.write? = some (write, accepted)) : step.deed = .wrote write accepted := by
  obtain ⟨deed, before, after⟩ := step
  cases deed with
  | called => cases h
  | wrote made reported =>
    obtain ⟨rfl, rfl⟩ := Prod.mk.inj (Option.some.inj h)
    rfl

/-- The first step of a visit, read off what it wrote and what was stored around it. -/
theorem VisitRecord.exists_first_write {record : VisitRecord kind} {write : Write} {accepted : Bool}
    {before after : List String}
    (h : (record.steps.head?.map fun step =>
      (step.write?, step.before.finalizers, step.after.finalizers))
        = some (some (write, accepted), before, after)) :
    ∃ step ∈ record.steps, step.deed = .wrote write accepted ∧ step.before.finalizers = before ∧
      step.after.finalizers = after := by
  obtain ⟨step, hstep, hshown⟩ := Option.map_eq_some_iff.mp h
  obtain ⟨hwrite, hlists⟩ := Prod.mk.inj hshown
  obtain ⟨hbefore, hafter⟩ := Prod.mk.inj hlists
  exact ⟨step, List.mem_of_head? hstep, Step.deed_of_write? hwrite, hbefore, hafter⟩

/-- A write that guards an object leaves the finalizers that were read with the controller's behind
them, and one that releases it those that were read without the controller's. This is what was
stored just before, with the one finalizer added or removed, exactly if the finalizers stored then
were those that were read. -/
theorem finalizers_after_write (backend : Backend σ) (settings : PassSettings)
    (turns : List (Turn kind)) (stored : Stored kind) (state : σ) :
    ∀ record ∈ watch backend settings turns stored state, ∀ step ∈ record.steps, ∀ accepted,
      (step.deed = .wrote record.read.resource.guardWrite accepted →
        (accepted = false ∧ step.after = step.before) ∨
          step.Resets record.read (record.read.finalizers ++ [finalizerName]) ∧
            (step.after.finalizers = step.before.finalizers ++ [finalizerName] ↔
              step.before.finalizers = record.read.finalizers)) ∧
      (step.deed = .wrote record.read.resource.releaseWrite accepted →
        (accepted = false ∧ step.after = step.before) ∨
          step.Resets record.read record.read.otherFinalizers ∧
            (step.after.finalizers = step.before.otherFinalizers ↔
              step.before.otherFinalizers = record.read.otherFinalizers)) := by
  intro record hrecord step hstep accepted
  obtain ⟨turn, -, hmade⟩ := madeIn_of_mem_watch hrecord
  constructor
  · intro hdeed
    obtain ⟨_, hsends⟩ := hmade.visits.sends hstep hdeed
    rcases hsends.after_of_finalizers (Resource.guardWrite_eq _) with hafter | hrefused
    · refine .inr ⟨.of_after hafter ?_, ?_⟩
      · rw [List.filter_append]
        simp [Stored.otherFinalizers, Metadata.otherFinalizers, Stored.finalizers]
      · rw [hafter]
        change Stored.finalizers _ ++ _ = _ ↔ _
        rw [List.append_cancel_right_eq, eq_comm]
    · exact .inl hrefused
  · intro hdeed
    obtain ⟨_, hsends⟩ := hmade.visits.sends hstep hdeed
    rcases hsends.after_of_finalizers (Resource.releaseWrite_eq _) with hafter | hrefused
    · refine .inr ⟨.of_after hafter ?_, ?_⟩
      · simp [Stored.otherFinalizers, Metadata.otherFinalizers, List.filter_filter]
      · rw [hafter]
        exact eq_comm
    · exact .inl hrefused

/-- Somebody else adds a finalizer between the visits. It is read before each write, so each write
leaves it as it is. -/
theorem finalizers_after_write_up_to_date :
    let settings := Settings.default.passSettings ⟨none, none⟩
    let metrics : Stored .workspace :=
      ⟨⟨{ Metadata.empty with name := some "metrics" }, ⟨some "metrics", none, .empty⟩, none⟩,
        by decide, by decide, by decide⟩
    let add : Stored .workspace → Stored .workspace := fun stored =>
      stored.withFinalizers (stored.finalizers ++ ["example.com/audit"])
    let mark : Stored .workspace → Stored .workspace := fun stored =>
      ⟨{ stored.resource with
          metadata := { stored.resource.metadata with
            deletionTimestamp := Timestamp.ofText? "2024-05-01T00:00:00Z" } },
        stored.named, stored.counted, stored.keyed⟩
    let turns : List (Turn .workspace) := [⟨add, "T1", false, []⟩, ⟨mark, "T2", false, []⟩]
    ∃ guarding releasing, watch scripted settings turns metrics .empty = [guarding, releasing] ∧
      (∃ step ∈ guarding.steps,
        step.Resets guarding.read (guarding.read.finalizers ++ [finalizerName]) ∧
          step.after.finalizers = step.before.finalizers ++ [finalizerName]) ∧
      ∃ step ∈ releasing.steps, step.Resets releasing.read releasing.read.otherFinalizers ∧
        step.after.finalizers = step.before.otherFinalizers := by
  intro settings metrics add mark turns
  obtain ⟨guarding, releasing, hrecords, hguard, hrelease⟩ : ∃ guarding releasing,
      watch scripted settings turns metrics .empty = [guarding, releasing] ∧
        (∃ step ∈ guarding.steps, step.deed = .wrote guarding.read.resource.guardWrite true ∧
          step.before.finalizers = guarding.read.finalizers ∧
            step.after.finalizers = ["example.com/audit", finalizerName]) ∧
        ∃ step ∈ releasing.steps, step.deed = .wrote releasing.read.resource.releaseWrite true ∧
          step.before.finalizers = releasing.read.finalizers ∧
            step.after.finalizers = ["example.com/audit"] :=
    ⟨_, _, rfl, VisitRecord.exists_first_write (by decide),
      VisitRecord.exists_first_write (by decide)⟩
  have hafter := finalizers_after_write scripted settings turns metrics .empty
  rw [hrecords] at hafter
  refine ⟨guarding, releasing, hrecords, ?_, ?_⟩
  · obtain ⟨step, hstep, hdeed, hbefore, -⟩ := hguard
    rcases (hafter guarding (by simp) step hstep true).1 hdeed with
      ⟨hrefused, -⟩ | ⟨hresets, hiff⟩
    · cases hrefused
    · exact ⟨step, hstep, hresets, hiff.mpr hbefore⟩
  · obtain ⟨step, hstep, hdeed, hbefore, -⟩ := hrelease
    have hothers : step.before.otherFinalizers = releasing.read.otherFinalizers :=
      congrArg (List.filter fun name => name ≠ finalizerName) hbefore
    rcases (hafter releasing (by simp) step hstep true).2 hdeed with
      ⟨hrefused, -⟩ | ⟨hresets, hiff⟩
    · cases hrefused
    · exact ⟨step, hstep, hresets, hiff.mpr hothers⟩

/-- While a visit is under way somebody else adds a finalizer, or removes one. The write that guards
the object drops the new one, and the write that releases it brings the old one back. -/
theorem finalizer_writes_undo_others :
    let settings := Settings.default.passSettings ⟨none, none⟩
    let spec : Spec .workspace := ⟨some "metrics", none, .empty⟩
    let fresh : Stored .workspace :=
      ⟨⟨{ Metadata.empty with name := some "metrics" }, spec, none⟩, by decide, by decide,
        by decide⟩
    let deleted : Stored .workspace :=
      ⟨⟨{ Metadata.empty with
          name := some "metrics"
          deletionTimestamp := Timestamp.ofText? "2024-05-01T00:00:00Z"
          finalizers := some [finalizerName, "example.com/audit"] }, spec, none⟩,
        by decide, by decide, by decide⟩
    let add : Delivery .workspace :=
      ⟨fun stored => stored.withFinalizers (stored.finalizers ++ ["example.com/audit"]), .accepted,
        false⟩
    let remove : Delivery .workspace :=
      ⟨fun stored => stored.withFinalizers
        (stored.finalizers.filter fun name => name ≠ "example.com/audit"), .accepted, false⟩
    let guarding := (Turn.run scripted settings ⟨id, "T", false, [add]⟩ fresh .empty).1
    let releasing := (Turn.run scripted settings ⟨id, "T", false, [remove]⟩ deleted .empty).1
    (∃ step ∈ guarding.steps, step.deed = .wrote fresh.resource.guardWrite true ∧
        step.before.finalizers = ["example.com/audit"] ∧
          step.after.finalizers = [finalizerName]) ∧
      ∃ step ∈ releasing.steps, step.deed = .wrote deleted.resource.releaseWrite true ∧
        step.before.finalizers = [finalizerName] ∧
          step.after.finalizers = ["example.com/audit"] := by
  intro settings spec fresh deleted add remove guarding releasing
  exact ⟨VisitRecord.exists_first_write (by decide), VisitRecord.exists_first_write (by decide)⟩

end ManagedPrometheus
