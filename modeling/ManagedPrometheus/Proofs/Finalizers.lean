import ManagedPrometheus.Proofs.Visits
import ManagedPrometheus.Script

/-!
# The finalizer

The finalizer stands for what the backend has been asked to make: the controller adds it before the
first call for an object and removes it once the backend does not know the resource any more
(`finalizer_protocol`). Between two visits, and between a visit's reading and each of its writes,
others may do what they like to the object as long as they keep their hands off this finalizer; any
write may be turned down, and any report of a write may get lost.

The invariant that carries the proof is that an object which carries the finalizer keeps it: a visit
that reads it so leaves it so, or has found the resource gone
(`guardedUntilGone_watch`).
-/

namespace ManagedPrometheus

variable {σ : Type} {kind : Kind}

/-- Whether an object carries the finalizer. -/
def Stored.guarded (stored : Stored kind) : Bool := stored.resource.isGuarded

/-! ### What a visit shows -/

/-- The exchange of a step that called the backend. -/
def Step.exchange? (step : Step kind) : Option Exchange :=
  match step.deed with
  | .called exchange => some exchange
  | .wrote _ _ => none

theorem Step.deed_of_exchange? {step : Step kind} {exchange : Exchange}
    (h : step.exchange? = some exchange) : step.deed = .called exchange := by
  obtain ⟨deed, before, after⟩ := step
  cases deed with
  | called made => rw [Option.some.inj h]
  | wrote => cases h

namespace VisitRecord

/-- The exchanges of a visit with the backend. -/
def exchanges (record : VisitRecord kind) : List Exchange := record.steps.filterMap (·.exchange?)

/-- The visit was of an object that is marked for deletion, and its pass ended in the finding that
the backend does not know the resource any more. -/
def FoundGone (settings : PassSettings) (record : VisitRecord kind) : Prop :=
  record.read.resource.isMarkedForDeletion = true ∧
    ∃ pass : PassRecord kind, pass.Lawful settings ∧ pass.task = .finalize ∧
      pass.now = record.now ∧ pass.input = record.read.resource ∧
        pass.exchanges = record.exchanges ∧ pass.result.outcome = .deleted

/-- A write of the object itself, as the visit may make it: it sets the finalizers and nothing
else. -/
structure SetsFinalizers (settings : PassSettings) (record : VisitRecord kind) (step : Step kind)
    (write : Write) (accepted : Bool) (names : List String) : Prop where
  write : write = record.read.resource.finalizersWrite names
  /-- The finalizers of others are those that were read, in their order. -/
  others : names.filter (fun name => name ≠ finalizerName)
    = record.read.resource.metadata.otherFinalizers
  /-- The finalizer is removed for one reason only. -/
  removal : finalizerName ∈ names ∨ record.FoundGone settings
  effect : step.after = step.before.withFinalizers names ∨
    accepted = false ∧ step.after = step.before

/-- How a visit deals with the finalizer. -/
structure Orderly (settings : PassSettings) (record : VisitRecord kind) : Prop where
  /-- The object is guarded before the first call. -/
  calls : ∀ earlier step later exchange, record.steps = earlier ++ step :: later →
    step.deed = .called exchange →
      record.read.guarded = true ∨
        ∃ first ∈ earlier, first.deed = .wrote record.read.resource.guardWrite true
  /-- What is marked for deletion and not guarded is left alone. -/
  skips : record.read.resource.isMarkedForDeletion = true → record.read.guarded = false →
    record.steps = [] ∧ record.left = record.read
  writes : ∀ step ∈ record.steps, ∀ write accepted, step.deed = .wrote write accepted →
    write.target = .object → ∃ names, record.SetsFinalizers settings step write accepted names

end VisitRecord

/-- Every object of a series of visits is guarded, up to the end of a pass that found the resource
gone. -/
def GuardedUntilGone (settings : PassSettings) : List (VisitRecord kind) → Prop
  | [] => True
  | record :: rest =>
    record.read.guarded = true ∧ (∀ step ∈ record.steps, step.before.guarded = true) ∧
      (record.FoundGone settings ∨
        (∀ step ∈ record.steps, step.after.guarded = true) ∧ record.left.guarded = true ∧
          GuardedUntilGone settings rest)

/-! ### What writes do to the finalizer -/

namespace Stored

theorem guarded_withFinalizers (stored : Stored kind) (names : List String) :
    (stored.withFinalizers names).guarded = names.contains finalizerName := rfl

theorem guarded_of_withStatus {stored after : Stored kind} {status? : Option Status}
    (h : after.resource = stored.resource.withStatus status?) :
    after.guarded = stored.guarded := by
  rw [guarded, h]
  rfl

end Stored

namespace Turn

variable {turn : Turn kind} {read stored left : Stored kind} {settings : PassSettings}

/-- A write of the status keeps the finalizer. -/
theorem Sends.guarded_of_status {write : Write} {accepted : Bool} {step : Step kind}
    (h : turn.Sends stored write accepted step) (htarget : write.target = .status)
    (hothers : turn.Leaves Stored.guarded) (hguarded : stored.guarded = true) :
    step.before.guarded = true ∧ step.after.guarded = true := by
  have hbefore : step.before.guarded = true := (h.kept hothers).trans hguarded
  refine ⟨hbefore, ?_⟩
  rcases h.effect with hafter | ⟨-, hafter⟩
  · obtain ⟨status?, hstatus⟩ := Stored.receive?_status htarget hafter
    rw [Stored.guarded_of_withStatus hstatus, hbefore]
  · rw [hafter, hbefore]

/-- Once a visit is open the object is guarded. -/
theorem Opens.guarded_stored {opening : List (Step kind)} (h : turn.Opens read opening stored) :
    stored.guarded = true := by
  cases h with
  | guarded hguarded => exact hguarded
  | guarding _ _ hsends =>
    rcases hsends.after_of_finalizers read.resource.guardWrite_eq with hafter | ⟨hrefused, -⟩
    · rw [hafter, Stored.guarded_withFinalizers]
      simp
    · cases hrefused

section Closes

variable {result : PassResult kind} {write? : Option Write} {opening closing : List (Step kind)}
  {visit : Visit kind}

/-- A write at the end that is one of the status keeps the finalizer. -/
theorem Closes.guarded_of_status
    (h : turn.Closes stored result write? closing left visit)
    (htarget : ∀ write ∈ write?, write.target = .status) (hothers : turn.Leaves Stored.guarded)
    (hguarded : stored.guarded = true) :
    (∀ step ∈ closing, step.before.guarded = true ∧ step.after.guarded = true) ∧
      left.guarded = true := by
  cases h with
  | quiet => exact ⟨by simp, hguarded⟩
  | accepted hsends =>
    have hkept := hsends.guarded_of_status (htarget _ rfl) hothers hguarded
    refine ⟨?_, hkept.2⟩
    intro step hstep
    rwa [List.mem_singleton.mp hstep]
  | refused hsends =>
    have hkept := hsends.guarded_of_status (htarget _ rfl) hothers hguarded
    refine ⟨?_, hkept.2⟩
    intro step hstep
    rwa [List.mem_singleton.mp hstep]

/-- The last write arrives at an object that is guarded. -/
theorem Closes.guarded_before (h : turn.Closes stored result write? closing left visit)
    (hothers : turn.Leaves Stored.guarded) (hguarded : stored.guarded = true) :
    ∀ step ∈ closing, step.before.guarded = true := by
  intro step hstep
  obtain ⟨write, accepted, -, hsends⟩ := h.sends hstep
  exact (hsends.kept hothers).trans hguarded

/-- From the end of the opening on, a visit acts on an object that is guarded. -/
theorem Closes.guarded_before_passed (h : turn.Closes stored result write? closing left visit)
    (hothers : turn.Leaves Stored.guarded) (hguarded : stored.guarded = true)
    (exchanges : List Exchange) :
    ∀ step ∈ exchanges.map (Step.ofExchange stored) ++ closing, step.before.guarded = true := by
  intro step hstep
  rcases List.mem_append.mp hstep with hcall | hclosing
  · obtain ⟨exchange, -, rfl⟩ := List.mem_map.mp hcall
    exact hguarded
  · exact h.guarded_before hothers hguarded step hclosing

/-- It stays guarded if the last write is one of the status. -/
theorem Closes.guarded_passed (h : turn.Closes stored result write? closing left visit)
    (htarget : ∀ write ∈ write?, write.target = .status) (hothers : turn.Leaves Stored.guarded)
    (hguarded : stored.guarded = true) (exchanges : List Exchange) :
    (∀ step ∈ exchanges.map (Step.ofExchange stored) ++ closing,
      step.before.guarded = true ∧ step.after.guarded = true) ∧ left.guarded = true := by
  obtain ⟨hclosing, hleft⟩ := h.guarded_of_status htarget hothers hguarded
  refine ⟨?_, hleft⟩
  intro step hstep
  rcases List.mem_append.mp hstep with hcall | hlast
  · obtain ⟨exchange, -, rfl⟩ := List.mem_map.mp hcall
    exact ⟨hguarded, hguarded⟩
  · exact hclosing step hlast

theorem Sends.exchange?_eq_none {write : Write} {accepted : Bool} {step : Step kind}
    (h : turn.Sends stored write accepted step) : step.exchange? = none := by
  rw [Step.exchange?, h.deed]

theorem Opens.exchange?_eq_none (h : turn.Opens read opening stored) :
    ∀ step ∈ opening, step.exchange? = none := by
  intro step hstep
  exact (h.sends hstep).exchange?_eq_none

theorem Closes.exchange?_eq_none (h : turn.Closes stored result write? closing left visit) :
    ∀ step ∈ closing, step.exchange? = none := by
  intro step hstep
  obtain ⟨write, accepted, -, hsends⟩ := h.sends hstep
  exact hsends.exchange?_eq_none

/-- The calls of a visit are those of its pass. -/
theorem exchanges_of_passed (hopens : turn.Opens read opening stored)
    (hcloses : turn.Closes stored result write? closing left visit) (exchanges : List Exchange) :
    (opening ++ exchanges.map (Step.ofExchange stored) ++ closing).filterMap (·.exchange?)
      = exchanges := by
  have hopening := List.filterMap_eq_nil_iff.mpr hopens.exchange?_eq_none
  have hclosing := List.filterMap_eq_nil_iff.mpr hcloses.exchange?_eq_none
  have hcalls : (exchanges.map (Step.ofExchange stored)).filterMap (·.exchange?) = exchanges := by
    rw [List.filterMap_map]
    exact List.filterMap_some
  rw [List.filterMap_append, List.filterMap_append, hopening, hclosing, hcalls, List.nil_append,
    List.append_nil]

/-- A visit whose pass over a marked resource ended in its deletion has found it gone. -/
theorem foundGone_of_passed (record : VisitRecord kind) {pass : PassRecord kind}
    (hopens : turn.Opens record.read opening stored)
    (hcloses : turn.Closes stored result write? closing left visit)
    (hsteps : record.steps
      = opening ++ pass.exchanges.map (Step.ofExchange stored) ++ closing)
    (htask : pass.task
      = if record.read.resource.isMarkedForDeletion then .finalize else .sync)
    (hnow : pass.now = record.now) (hinput : pass.input = record.read.resource)
    (hlawful : pass.Lawful settings) (hmarked : record.read.resource.isMarkedForDeletion = true)
    (hdeleted : pass.result.outcome = .deleted) : record.FoundGone settings := by
  refine ⟨hmarked, pass, hlawful, htask.trans (if_pos hmarked), hnow, hinput, ?_, hdeleted⟩
  rw [VisitRecord.exchanges, hsteps, exchanges_of_passed hopens hcloses]

end Closes

end Turn

theorem Visit.target_closingWrite? {read : Resource kind} {result : PassResult kind}
    (h : ¬ (read.isMarkedForDeletion = true ∧ result.outcome = .deleted)) :
    ∀ write ∈ Visit.closingWrite? read result, write.target = .status := by
  intro write hwrite
  obtain ⟨hmarked, hdeleted, -⟩ | ⟨-, rfl⟩ := Visit.closingWrite?_eq_some hwrite
  · exact absurd ⟨hmarked, hdeleted⟩ h
  · rfl

/-! ### One visit -/

/-- Only a pass over a resource that is to exist creates it. -/
theorem PassRecord.Lawful.task_ne_finalize {settings : PassSettings}
    {pass : PassRecord kind} (h : pass.Lawful settings)
    {request : Request} {result : (Call.create request).Result}
    (hmade : ⟨.create request, result⟩ ∈ pass.exchanges) : pass.task ≠ .finalize := by
  intro htask
  obtain ⟨decision, -, ⟨hsync, -⟩ | ⟨-, hdeletes⟩⟩ := h.exit
  · rw [htask] at hsync
    cases hsync
  · obtain ⟨key, -, hcall | hcall⟩ := hdeletes.mem_calls (List.mem_map_of_mem (f := (·.call)) hmade)
    · cases hcall
    · cases hcall

theorem mem_of_append_eq {β : Type} {xs ys earlier later : List β} {x : β}
    (h : xs ++ ys = earlier ++ x :: later) (hx : x ∉ xs) {y : β} (hy : y ∈ x :: later) :
    y ∈ ys := by
  rcases List.append_eq_append_iff.mp h with ⟨between, -, hys⟩ | ⟨between, hxs, hlater⟩
  · rw [hys]
    exact List.mem_append_right between hy
  · rcases between with _ | ⟨first, rest⟩
    · rw [← List.nil_append ys, ← hlater]
      exact hy
    · obtain ⟨rfl, -⟩ := List.cons.inj hlater
      exact absurd (hxs ▸ List.mem_append_right earlier List.mem_cons_self) hx

namespace VisitRecord

variable {turn : Turn kind} {settings : PassSettings} {record : VisitRecord kind}

/-- A visit that reads a guarded object leaves it guarded, unless it has found the resource gone. -/
theorem MadeIn.guarded (h : record.MadeIn turn settings) (hothers : turn.Leaves Stored.guarded)
    (hread : record.read.guarded = true) :
    (∀ step ∈ record.steps, step.before.guarded = true) ∧
      (record.FoundGone settings ∨
        (∀ step ∈ record.steps, step.after.guarded = true) ∧ record.left.guarded = true) := by
  obtain ⟨now, read, steps, left, visit⟩ := record
  have hnow : now = turn.now := h.now
  have hvisits : turn.Visits settings read steps left visit := h.visits
  cases hvisits with
  | skipped _ hunguarded => exact absurd hread (Bool.eq_false_iff.mp hunguarded)
  | unguarded _ hunguarded => exact absurd hread (Bool.eq_false_iff.mp hunguarded)
  | @passed opening closing stored _ _ pass hopens htask hpassNow hinput hlawful hcloses =>
    have hfound := Turn.foundGone_of_passed ⟨now, read, _, left, visit⟩ hopens hcloses rfl htask
      (hpassNow.trans hnow.symm) hinput hlawful
    have hguarded := hopens.guarded_stored
    cases hopens with
    | guarding _ hunguarded => exact absurd hread (Bool.eq_false_iff.mp hunguarded)
    | guarded =>
      by_cases hgone : read.resource.isMarkedForDeletion = true ∧ pass.result.outcome = .deleted
      · exact ⟨hcloses.guarded_before_passed hothers hguarded pass.exchanges,
          .inl (hfound hgone.1 hgone.2)⟩
      · obtain ⟨hsteps, hleft⟩ := hcloses.guarded_passed (Visit.target_closingWrite? hgone) hothers
          hguarded pass.exchanges
        exact ⟨fun step hstep => (hsteps step hstep).1,
          .inr ⟨fun step hstep => (hsteps step hstep).2, hleft⟩⟩

/-- A visit that creates the resource has guarded the object and leaves it so. -/
theorem MadeIn.guarded_from_create (h : record.MadeIn turn settings)
    (hothers : turn.Leaves Stored.guarded) {earlier later : List (Step kind)} {step : Step kind}
    {request : Request} {result : (Call.create request).Result}
    (hsteps : record.steps = earlier ++ step :: later)
    (hdeed : step.deed = .called ⟨.create request, result⟩) :
    (∀ other ∈ step :: later, other.before.guarded = true ∧ other.after.guarded = true) ∧
      record.left.guarded = true := by
  obtain ⟨now, read, steps, left, visit⟩ := record
  have hvisits : turn.Visits settings read steps left visit := h.visits
  replace hsteps : steps = earlier ++ step :: later := hsteps
  have hexchange : step.exchange? = some ⟨.create request, result⟩ := by
    rw [Step.exchange?, hdeed]
  have hstep : step ∈ steps := hsteps ▸ List.mem_append_right _ List.mem_cons_self
  cases hvisits with
  | skipped => cases hstep
  | unguarded _ _ hsends =>
    rw [List.mem_singleton.mp hstep, hsends.exchange?_eq_none] at hexchange
    cases hexchange
  | @passed opening closing stored _ _ pass hopens htask hpassNow hinput hlawful hcloses =>
    -- the create is a call of the pass, so it comes after the opening
    have hopening : step ∉ opening := by
      intro hmem
      rw [hopens.exchange?_eq_none step hmem] at hexchange
      cases hexchange
    have hmade : ⟨.create request, result⟩ ∈ pass.exchanges := by
      rw [← Turn.exchanges_of_passed hopens hcloses pass.exchanges]
      exact List.mem_filterMap.mpr ⟨step, hstep, hexchange⟩
    have hunmarked : ¬ (read.resource.isMarkedForDeletion = true ∧
        pass.result.outcome = .deleted) := by
      rintro ⟨hmarked, -⟩
      exact hlawful.task_ne_finalize hmade (htask.trans (if_pos hmarked))
    obtain ⟨hkept, hleft⟩ := hcloses.guarded_passed (Visit.target_closingWrite? hunmarked) hothers
      hopens.guarded_stored pass.exchanges
    rw [List.append_assoc] at hsteps
    exact ⟨fun other hother => hkept other (mem_of_append_eq hsteps hopening hother), hleft⟩

theorem setsFinalizers_of_guarding {stored : Stored kind} {write : Write} {accepted reported : Bool}
    {step : Step kind} (hsends : turn.Sends stored record.read.resource.guardWrite accepted step)
    (hdeed : step.deed = .wrote write reported) :
    ∃ names, record.SetsFinalizers settings step write reported names := by
  obtain ⟨rfl, rfl⟩ := Deed.wrote.inj (hdeed.symm.trans hsends.deed)
  refine ⟨_, record.read.resource.guardWrite_eq, ?_, .inl (by simp), ?_⟩
  · rw [List.filter_append, Metadata.otherFinalizers]
    simp
  · exact hsends.after_of_finalizers record.read.resource.guardWrite_eq

theorem setsFinalizers_of_releasing {stored : Stored kind} {write : Write}
    {accepted reported : Bool} {step : Step kind}
    (hsends : turn.Sends stored record.read.resource.releaseWrite accepted step)
    (hgone : record.FoundGone settings) (hdeed : step.deed = .wrote write reported) :
    ∃ names, record.SetsFinalizers settings step write reported names := by
  obtain ⟨rfl, rfl⟩ := Deed.wrote.inj (hdeed.symm.trans hsends.deed)
  refine ⟨_, record.read.resource.releaseWrite_eq, ?_, .inr hgone, ?_⟩
  · rw [Metadata.otherFinalizers, List.filter_filter]
    simp
  · exact hsends.after_of_finalizers record.read.resource.releaseWrite_eq

theorem MadeIn.setsFinalizers (h : record.MadeIn turn settings) {step : Step kind}
    (hstep : step ∈ record.steps) {write : Write} {reported : Bool}
    (hdeed : step.deed = .wrote write reported) (htarget : write.target = .object) :
    ∃ names, record.SetsFinalizers settings step write reported names := by
  obtain ⟨now, read, steps, left, visit⟩ := record
  have hnow : now = turn.now := h.now
  have hvisits : turn.Visits settings read steps left visit := h.visits
  replace hstep : step ∈ steps := hstep
  cases hvisits with
  | skipped => cases hstep
  | unguarded _ _ hsends =>
    obtain rfl := List.mem_singleton.mp hstep
    exact setsFinalizers_of_guarding hsends hdeed
  | @passed opening closing stored _ _ pass hopens htask hpassNow hinput hlawful hcloses =>
    rcases List.mem_append.mp hstep with hstep | hclosing
    · rcases List.mem_append.mp hstep with hopening | hcall
      · exact setsFinalizers_of_guarding (hopens.sends hopening) hdeed
      · obtain ⟨exchange, -, rfl⟩ := List.mem_map.mp hcall
        cases hdeed
    · obtain ⟨made, accepted, hclose, hsends⟩ := hcloses.sends hclosing
      obtain ⟨hmarked, hdeleted, rfl⟩ | ⟨-, rfl⟩ := Visit.closingWrite?_eq_some hclose
      · have hfound := Turn.foundGone_of_passed ⟨now, read, _, left, visit⟩ hopens hcloses rfl
          htask (hpassNow.trans hnow.symm) hinput hlawful hmarked hdeleted
        exact setsFinalizers_of_releasing hsends hfound hdeed
      · obtain ⟨rfl, -⟩ := Deed.wrote.inj (hdeed.symm.trans hsends.deed)
        cases htarget

/-- Before the first call of a visit the object was read as guarded, or the write that guards it was
reported as applied. -/
theorem MadeIn.guarded_or_guarding (h : record.MadeIn turn settings)
    {earlier later : List (Step kind)} {step : Step kind} {exchange : Exchange}
    (hsteps : record.steps = earlier ++ step :: later) (hdeed : step.deed = .called exchange) :
    record.read.guarded = true ∨
      ∃ first ∈ earlier, first.deed = .wrote record.read.resource.guardWrite true := by
  obtain ⟨now, read, steps, left, visit⟩ := record
  have hvisits : turn.Visits settings read steps left visit := h.visits
  replace hsteps : steps = earlier ++ step :: later := hsteps
  have hstep : step ∈ steps := hsteps ▸ List.mem_append_right _ List.mem_cons_self
  cases hvisits with
  | skipped => cases hstep
  | unguarded _ _ hsends =>
    obtain rfl := List.mem_singleton.mp hstep
    cases hsends.deed.symm.trans hdeed
  | @passed opening closing stored _ _ pass hopens htask hpassNow hinput hlawful hcloses =>
    cases hopens with
    | guarded hguarded => exact .inl hguarded
    | @guarding first _ _ hsends =>
      refine .inr ⟨first, ?_, hsends.deed⟩
      -- a call is not the first step, as this one is the write that guards the object
      rcases earlier with _ | ⟨head, rest⟩
      · obtain rfl : first = step := (List.cons.inj hsteps).1
        cases hsends.deed.symm.trans hdeed
      · obtain rfl : first = head := (List.cons.inj hsteps).1
        exact List.mem_cons_self

/-- What is marked for deletion and not guarded is left alone. -/
theorem MadeIn.skips (h : record.MadeIn turn settings)
    (hmarked : record.read.resource.isMarkedForDeletion = true)
    (hread : record.read.guarded = false) : record.steps = [] ∧ record.left = record.read := by
  obtain ⟨now, read, steps, left, visit⟩ := record
  have hvisits : turn.Visits settings read steps left visit := h.visits
  cases hvisits with
  | skipped => exact ⟨rfl, rfl⟩
  | unguarded hunmarked => exact absurd hmarked (Bool.eq_false_iff.mp hunmarked)
  | passed hopens =>
    cases hopens with
    | guarded hguarded => exact absurd hguarded (Bool.eq_false_iff.mp hread)
    | guarding hunmarked => exact absurd hmarked (Bool.eq_false_iff.mp hunmarked)

theorem MadeIn.orderly (h : record.MadeIn turn settings) : record.Orderly settings where
  calls := fun _ _ _ _ hsteps hdeed => h.guarded_or_guarding hsteps hdeed
  skips := h.skips
  writes := fun _ hstep _ _ hdeed htarget => h.setsFinalizers hstep hdeed htarget

end VisitRecord

/-! ### All visits -/

variable {settings : PassSettings}

theorem guardedUntilGone_watch (backend : Backend σ) {turns : List (Turn kind)}
    (hothers : ∀ turn ∈ turns, turn.Leaves Stored.guarded) {stored : Stored kind}
    (hguarded : stored.guarded = true) (state : σ) :
    GuardedUntilGone settings (watch backend settings turns stored state) := by
  induction turns generalizing stored state with
  | nil => exact trivial
  | cons turn rest ih =>
    have hturn := hothers turn List.mem_cons_self
    have hread : (turn.edit stored).guarded = true := (hturn.edit stored).trans hguarded
    obtain ⟨hbefore, hafter⟩ := (turn.run_madeIn backend stored state).guarded hturn hread
    refine ⟨hread, hbefore, hafter.imp_right ?_⟩
    rintro ⟨hsteps, hleft⟩
    exact ⟨hsteps, hleft, ih (fun other hother => hothers other (List.mem_cons_of_mem turn hother))
      hleft _⟩

/-- Every visit is orderly: it calls the backend for a guarded object only, leaves alone what is
marked for deletion and not guarded, keeps the finalizers of others, and removes the finalizer only
from an object that is marked for deletion and whose resource it has found gone. So an object for
which a create was issued is guarded from there on, until a visit finds its resource gone. -/
theorem finalizer_protocol (backend : Backend σ) (settings : PassSettings)
    (turns : List (Turn kind)) (stored : Stored kind) (state : σ)
    (hothers : ∀ turn ∈ turns, turn.Leaves Stored.guarded) :
    (∀ record ∈ watch backend settings turns stored state, record.Orderly settings) ∧
      ∀ before record after,
        watch backend settings turns stored state = before ++ record :: after →
        ∀ earlier step later request result, record.steps = earlier ++ step :: later →
          step.deed = .called ⟨.create request, result⟩ →
          (∀ other ∈ step :: later, other.before.guarded = true ∧ other.after.guarded = true) ∧
            record.left.guarded = true ∧ GuardedUntilGone settings after := by
  constructor
  · intro record hrecord
    obtain ⟨turn, -, hmade⟩ := madeIn_of_mem_watch hrecord
    exact hmade.orderly
  · intro before record after hsplit earlier step later request result hsteps hdeed
    obtain ⟨turn, hturn, rest, hrest, last, reached, rfl, rfl⟩ :=
      exists_turn_of_watch_eq backend settings hsplit
    obtain ⟨hlater, hleft⟩ := (turn.run_madeIn backend last reached).guarded_from_create
      (hothers turn hturn) hsteps hdeed
    exact ⟨hlater, hleft,
      guardedUntilGone_watch backend (fun other hother => hothers other (hrest other hother))
        hleft _⟩

/-- The workspace of an object is created while somebody else adds a finalizer. Then the object is
marked for deletion, and its workspace is found gone. -/
theorem finalizer_protocol_of_created :
    let metadata : Metadata := { Metadata.empty with name := some "metrics" }
    let metrics : Stored .workspace :=
      ⟨⟨metadata, ⟨some "metrics", none, .empty⟩, none⟩, by decide, by decide, by decide⟩
    let answer : WireObject := { WireObject.empty with workspaceId := some "ws-1" }
    let script : Script := { Script.empty with creates := [.ok answer] }
    let settings := Settings.default.passSettings ⟨none, none⟩
    let add : Stored .workspace → Stored .workspace := fun stored =>
      stored.withFinalizers ("example.com/audit" :: stored.resource.metadata.finalizerList)
    let mark : Stored .workspace → Stored .workspace := fun stored =>
      ⟨{ stored.resource with
          metadata := { stored.resource.metadata with
            deletionTimestamp := Timestamp.ofText? "2024-05-01T00:00:00Z" } },
        stored.named, stored.counted, stored.keyed⟩
    let turns : List (Turn .workspace) :=
      [⟨id, "T1", false, [.prompt, ⟨add, .accepted, false⟩]⟩, ⟨mark, "T2", false, []⟩]
    (∀ turn ∈ turns, turn.Leaves Stored.guarded) ∧
      ∃ created gone, watch scripted settings turns metrics script = [created, gone] ∧
        .create metrics.resource.createRequest ∈ created.exchanges.map (·.call) ∧
          created.left.guarded = true ∧ GuardedUntilGone settings [gone] := by
  intro metadata metrics answer script settings add mark turns
  have hadd : ∀ stored, (add stored).guarded = stored.guarded := by
    intro stored
    change
      ("example.com/audit" :: stored.resource.metadata.finalizerList).contains finalizerName = _
    rw [List.contains_cons, show (finalizerName == "example.com/audit") = false from by decide,
      Bool.false_or]
    rfl
  have hothers : ∀ turn ∈ turns, turn.Leaves Stored.guarded := by
    simp only [turns, List.forall_mem_cons]
    refine ⟨⟨fun _ => rfl, ?_⟩, ⟨fun _ => rfl, by simp⟩, by simp⟩
    simp only [List.forall_mem_cons]
    exact ⟨fun _ => rfl, hadd, by simp⟩
  obtain ⟨created, gone, hrecords, hcreate⟩ : ∃ created gone,
      watch scripted settings turns metrics script = [created, gone] ∧
        .create metrics.resource.createRequest ∈ created.exchanges.map (·.call) :=
    ⟨_, _, rfl, by decide⟩
  obtain ⟨⟨_, result⟩, hexchange, rfl⟩ := List.mem_map.mp hcreate
  obtain ⟨step, hstep, hexchange⟩ := List.mem_filterMap.mp hexchange
  obtain ⟨earlier, later, hsteps⟩ := List.append_of_mem hstep
  have hprotocol := finalizer_protocol scripted settings turns metrics script hothers
  have hguarded := hprotocol.2 [] created [gone] hrecords earlier step later _ _ hsteps
    (Step.deed_of_exchange? hexchange)
  exact ⟨hothers, created, gone, hrecords, hcreate, hguarded.2⟩

end ManagedPrometheus
