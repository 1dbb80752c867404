import ManagedPrometheus.Proofs.AssignedIdentity
import ManagedPrometheus.Proofs.Visits
import ManagedPrometheus.Script

/-!
# The stored status

A visit stores the status that its pass returned, whole: nothing of the status that was there before
is left over, although a merge patch removes no more than the fields that it names. This rests on
what a pass never does, namely lose what the backend has assigned (`PassRecord.Lawful.keeps`). So
after each visit the stored status is the one that was returned, and over any number of visits the
identity of the resource is never forgotten (`stored_status`).
-/

namespace ManagedPrometheus

variable {σ : Type} {kind : Kind} {settings : PassSettings}

namespace Status.Keeps

theorem covers {earlier later : Status} (h : earlier.Keeps later) : later.Covers earlier := by
  intro known metadata hknown hmetadata
  have harn := h.arn
  have hregion := h.region
  have howner := h.ownerAccountId
  simp only [arn?, region?, ownerAccountId?, hknown, hmetadata, Option.bind_some]
    at harn hregion howner
  refine ⟨harn, ?_, ?_⟩
  · intro hset
    obtain ⟨value, hvalue⟩ := Option.isSome_iff_exists.mp hset
    rw [howner value hvalue]
    rfl
  · intro hset
    obtain ⟨value, hvalue⟩ := Option.isSome_iff_exists.mp hset
    rw [hregion value hvalue]
    rfl

end Status.Keeps

/-- The status of an object as it is stored. -/
def Stored.status (stored : Stored kind) : Option Status := stored.resource.status

theorem Resource.Keeps.status_eq_none {earlier later : Resource kind} (h : earlier.Keeps later)
    (hlater : later.status = none) : earlier.status = none := by
  rcases hearlier : earlier.status with _ | status
  · rfl
  · have hsome := h.status (hearlier ▸ rfl)
    rw [hlater] at hsome
    cases hsome

theorem Resource.Keeps.of_status_eq {earlier later : Resource kind}
    (h : later.status = earlier.status) : earlier.Keeps later := by
  have hstatus : later.statusOrEmpty = earlier.statusOrEmpty := by
    rw [statusOrEmpty, statusOrEmpty, h]
  exact ⟨fun hsome => h ▸ hsome, hstatus ▸ .refl _⟩

theorem Resource.Keeps.covers {read returned : Resource kind} (h : read.Keeps returned)
    {next : Status} (hnext : returned.status = some next) :
    ∀ previous, read.status = some previous → next.Covers previous := by
  intro previous hprevious
  have hassigned := h.assigned
  rw [Resource.statusOrEmpty, Resource.statusOrEmpty, hprevious, hnext] at hassigned
  exact hassigned.covers

theorem PassRecord.Lawful.status_of_deleted {pass : PassRecord kind} (h : pass.Lawful settings)
    (hdeleted : pass.result.outcome = .deleted) :
    pass.result.resource.status = pass.input.status := by
  obtain ⟨decision, hresult, ⟨-, hsyncs⟩ | ⟨-, hdeletes⟩⟩ := h.exit
  · rw [hresult, Resource.conclude_outcome] at hdeleted
    exact absurd hdeleted hsyncs.outcome_ne_deleted
  · rw [hresult, Resource.conclude_outcome] at hdeleted
    rw [hresult, Resource.conclude_of_deleted _ hdeleted, hdeletes.resource_of_deleted hdeleted]

namespace Turn

variable {turn : Turn kind} {read stored left : Stored kind}

theorem Opens.status_eq {opening : List (Step kind)} (h : turn.Opens read opening stored)
    (hothers : turn.Leaves Stored.status) : stored.status = read.status := by
  cases h with
  | guarded => rfl
  | @guarding step _ _ hsends =>
    calc step.after.status = step.before.status := by
          rcases hsends.after_of_finalizers read.resource.guardWrite_eq with hafter | ⟨-, hafter⟩
          · rw [hafter]
            rfl
          · rw [hafter]
      _ = read.status := hsends.kept hothers

/-- The last write of a visit, where no write gets lost. -/
theorem Closes.ended_of_reliable {result : PassResult kind} {write : Write}
    {closing : List (Step kind)} {visit : Visit kind} {status? : Option Status}
    (h : turn.Closes stored result (some write) closing left visit) (hreliable : turn.Reliable)
    (hothers : turn.Leaves Stored.status)
    (happlies : ∀ before : Stored kind, before.status = stored.status →
      ∃ after, before.receive? write = some after ∧ after.status = status?) :
    visit = .ended result ∧ left.status = status? := by
  cases h with
  | @accepted _ step hsends =>
    obtain ⟨after, happlied, hstatus⟩ := happlies step.before (hsends.kept hothers)
    obtain ⟨-, hafter⟩ := hsends.accepted_of_reliable hreliable happlied
    exact ⟨rfl, hafter ▸ hstatus⟩
  | @refused _ step hsends =>
    obtain ⟨after, happlied, -⟩ := happlies step.before (hsends.kept hothers)
    obtain ⟨haccepted, -⟩ := hsends.accepted_of_reliable hreliable happlied
    cases haccepted

/-- What is stored at the end of a visit is the status that its pass returned. -/
theorem Closes.status_eq {pass : PassRecord kind} {closing : List (Step kind)} {visit : Visit kind}
    (h : turn.Closes stored pass.result (Visit.closingWrite? read.resource pass.result) closing left
      visit)
    (hreliable : turn.Reliable) (hothers : turn.Leaves Stored.status)
    (hstored : stored.status = read.status) (hlawful : pass.Lawful settings)
    (hinput : pass.input = read.resource) :
    visit = .ended pass.result ∧ left.status = pass.result.resource.status := by
  rcases hwrite : Visit.closingWrite? read.resource pass.result with _ | write
  · rw [hwrite] at h
    cases h with
    | quiet => exact ⟨rfl, hstored.trans (Visit.closingWrite?_eq_none hwrite)⟩
  · rw [hwrite] at h
    apply h.ended_of_reliable hreliable hothers
    intro before hbefore
    obtain ⟨-, hdeleted, rfl⟩ | ⟨hdiffer, rfl⟩ := Visit.closingWrite?_eq_some hwrite
    · refine ⟨_, before.receive?_finalizersWrite read.resource _, ?_⟩
      rw [hlawful.status_of_deleted hdeleted, hinput]
      exact hbefore.trans hstored
    · have hkeeps : read.resource.Keeps pass.result.resource := hinput ▸ hlawful.keeps
      rcases hnext : pass.result.resource.status with _ | next
      · -- a pass does not lose the status, so there was none before
        exact absurd ((hkeeps.status_eq_none hnext).trans hnext.symm) hdiffer
      · have hkeyed := hlawful.keyed (hinput ▸ read.keyed)
        rw [Resource.Keyed, Resource.statusOrEmpty, hnext] at hkeyed
        obtain ⟨after, hreceived, hafter⟩ := before.receive?_statusPatch read.resource
          (hbefore.trans hstored) hkeyed (hkeeps.covers hnext)
        exact ⟨after, hreceived, congrArg Resource.status hafter⟩

end Turn

/-! ### Visits -/

namespace VisitRecord

/-- What a visit has stored: the status that its pass returned. It is there already, or the patch
has made it from the one that was read. -/
structure Stores (record : VisitRecord kind) (result : PassResult kind) : Prop where
  left : record.left.status = result.resource.status
  patched : Status.json? record.left.status
    = if record.read.status = result.resource.status then Status.json? record.read.status
      else (Status.json? record.read.status).merge
        (Status.patchBody record.read.status result.resource.status)

variable {record : VisitRecord kind} {turn : Turn kind}

theorem MadeIn.stores (h : record.MadeIn turn settings) (hreliable : turn.Reliable)
    (hothers : turn.Leaves Stored.status) :
    record.visit = .skipped ∧ record.left = record.read ∨
      ∃ result, record.visit = .ended result ∧ record.Stores result ∧
        record.read.resource.Keeps result.resource := by
  obtain ⟨now, read, steps, left, visit⟩ := record
  have hvisits : turn.Visits settings read steps left visit := h.visits
  cases hvisits with
  | skipped => exact .inl ⟨rfl, rfl⟩
  | @unguarded step _ _ hsends =>
    obtain ⟨haccepted, -⟩ := hsends.accepted_of_reliable hreliable
      (step.before.receive?_finalizersWrite read.resource _)
    cases haccepted
  | @passed opening closing stored _ _ pass hopens _ _ hinput hlawful hcloses =>
    obtain ⟨rfl, hleft⟩ := hcloses.status_eq hreliable hothers (hopens.status_eq hothers) hlawful
      hinput
    have hkeeps : read.resource.Keeps pass.result.resource := hinput ▸ hlawful.keeps
    refine .inr ⟨pass.result, rfl, ⟨hleft, ?_⟩, hkeeps⟩
    change Status.json? left.status = _
    by_cases hsame : read.status = pass.result.resource.status
    · rw [if_pos hsame, hleft, hsame]
    · rw [if_neg hsame, hleft]
      rcases hnext : pass.result.resource.status with _ | next
      · exact absurd ((hkeeps.status_eq_none hnext).trans hnext.symm) hsame
      · exact (Status.merge_patchBody (hkeeps.covers hnext)).symm

end VisitRecord

theorem keeps_of_mem_watch (backend : Backend σ) {turns : List (Turn kind)}
    (hreliable : ∀ turn ∈ turns, turn.Reliable)
    (hothers : ∀ turn ∈ turns, turn.Leaves Stored.status)
    (stored : Stored kind) (state : σ) :
    ∀ record ∈ watch backend settings turns stored state,
      stored.resource.Keeps record.left.resource := by
  induction turns generalizing stored state with
  | nil => simp [watch]
  | cons turn rest ih =>
    have hread : stored.resource.Keeps (turn.edit stored).resource :=
      .of_status_eq ((hothers turn List.mem_cons_self).edit stored)
    have hleft :
        stored.resource.Keeps (turn.run backend settings stored state).1.left.resource := by
      rcases (turn.run_madeIn backend stored state).stores (hreliable turn List.mem_cons_self)
        (hothers turn List.mem_cons_self) with ⟨-, hsame⟩ | ⟨result, -, hstores, hkeeps⟩
      · rw [hsame]
        exact hread
      · exact (hread.trans hkeeps).trans (.of_status_eq hstores.left)
    intro record hrecord
    rcases List.mem_cons.mp hrecord with rfl | hrecord
    · exact hleft
    · exact hleft.trans (ih (fun other hother => hreliable other (List.mem_cons_of_mem turn hother))
        (fun other hother => hothers other (List.mem_cons_of_mem turn hother)) _ _ record hrecord)

theorem pairwise_keeps_watch (backend : Backend σ) {turns : List (Turn kind)}
    (hreliable : ∀ turn ∈ turns, turn.Reliable)
    (hothers : ∀ turn ∈ turns, turn.Leaves Stored.status)
    (stored : Stored kind) (state : σ) :
    (stored :: (watch backend settings turns stored state).map (·.left)).Pairwise
      fun earlier later => earlier.resource.Keeps later.resource := by
  induction turns generalizing stored state with
  | nil => exact List.pairwise_singleton _ _
  | cons turn rest ih =>
    apply List.pairwise_cons.mpr
    constructor
    · intro left hleft
      obtain ⟨record, hrecord, rfl⟩ := List.mem_map.mp hleft
      exact keeps_of_mem_watch backend hreliable hothers stored state record hrecord
    · exact ih (fun other hother => hreliable other (List.mem_cons_of_mem turn hother))
        (fun other hother => hothers other (List.mem_cons_of_mem turn hother)) _ _

/-- After every visit that makes a pass the stored status is the one that the pass returned, and in
all that is stored one after the other nothing that the backend has assigned is lost. -/
theorem stored_status (backend : Backend σ) (settings : PassSettings) (turns : List (Turn kind))
    (stored : Stored kind) (state : σ) (hreliable : ∀ turn ∈ turns, turn.Reliable)
    (hothers : ∀ turn ∈ turns, turn.Leaves Stored.status) :
    (∀ record ∈ watch backend settings turns stored state,
      record.visit = .skipped ∧ record.left = record.read ∨
        ∃ result, record.visit = .ended result ∧ record.Stores result) ∧
      (stored :: (watch backend settings turns stored state).map (·.left)).Pairwise
        fun earlier later => earlier.resource.Keeps later.resource := by
  refine ⟨?_, pairwise_keeps_watch backend hreliable hothers stored state⟩
  intro record hrecord
  obtain ⟨turn, hturn, hmade⟩ := madeIn_of_mem_watch hrecord
  rcases hmade.stores (hreliable turn hturn) (hothers turn hturn) with
    hskipped | ⟨result, hended, hstores, -⟩
  · exact .inl hskipped
  · exact .inr ⟨result, hended, hstores⟩

/-- The reason that came with the first code is gone from the status once the second is reported. -/
theorem stored_status_of_activated :
    let metrics : Stored .workspace :=
      ⟨⟨{ Metadata.empty with name := some "metrics" }, ⟨some "metrics", none, .empty⟩, none⟩,
        by decide, by decide, by decide⟩
    let creating : WireObject :=
      { WireObject.empty with
        arn := some "arn:1", workspaceId := some "ws-1"
        status := some ⟨"CREATING", some "queued"⟩ }
    let active : WireObject :=
      { WireObject.empty with
        workspaceAlias := some "metrics", workspaceId := some "ws-1"
        status := some ⟨"ACTIVE", none⟩ }
    let script : Script :=
      { Script.empty with creates := [.ok creating], describes := [.ok (some active)] }
    let settings := Settings.default.passSettings ⟨some "us-west-2", none⟩
    let add : Stored .workspace → Stored .workspace := fun stored =>
      stored.withFinalizers ("example.com/audit" :: stored.resource.metadata.finalizerList)
    let turns : List (Turn .workspace) :=
      [⟨id, "T1", false, [.prompt, ⟨add, .accepted, false⟩]⟩, ⟨id, "T2", false, []⟩]
    ((∀ turn ∈ turns, turn.Reliable) ∧ ∀ turn ∈ turns, turn.Leaves Stored.status) ∧
      ∃ first second result, watch scripted settings turns metrics script = [first, second] ∧
        first.left.status.bind (·.statusReason) = some "queued" ∧
          second.left.status.bind (·.statusReason) = none ∧
            second.visit = .ended result ∧ second.Stores result ∧
              first.left.resource.Keeps second.left.resource := by
  intro metrics creating active script settings add turns
  have hreliable : ∀ turn ∈ turns, turn.Reliable := by
    simp [turns, Turn.Reliable, Delivery.prompt]
  have hothers : ∀ turn ∈ turns, turn.Leaves Stored.status := by
    simp only [turns, List.forall_mem_cons]
    refine ⟨⟨fun _ => rfl, ?_⟩, ⟨fun _ => rfl, by simp⟩, by simp⟩
    simp only [List.forall_mem_cons]
    exact ⟨fun _ => rfl, fun _ => rfl, by simp⟩
  obtain ⟨first, second, hrecords, hfirst, hsecond, hmade⟩ : ∃ first second,
      watch scripted settings turns metrics script = [first, second] ∧
        first.left.status.bind (·.statusReason) = some "queued" ∧
          second.left.status.bind (·.statusReason) = none ∧ second.visit ≠ .skipped :=
    ⟨_, _, rfl, by decide, by decide, by decide⟩
  have hstored := stored_status scripted settings turns metrics script hreliable hothers
  rw [hrecords] at hstored
  obtain ⟨hvisits, hpairwise⟩ := hstored
  rcases hvisits second (by simp) with ⟨hskipped, -⟩ | ⟨result, hended, hstores⟩
  · exact absurd hskipped hmade
  · refine ⟨⟨hreliable, hothers⟩, first, second, result, hrecords, hfirst, hsecond, hended,
      hstores, ?_⟩
    have hlefts := (List.pairwise_cons.mp hpairwise).2
    exact (List.pairwise_cons.mp hlefts).1 second.left (by simp)

end ManagedPrometheus
