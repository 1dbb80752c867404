import ManagedPrometheus.Proofs.QuietPasses

/-!
# The phase in which a pass ends

A pass ends with `synced` when it takes the resource to be as its spec asks for. What decides this
is the phase that was last reported (`PassRecord.lastPhase`), but not by the same rule everywhere. A
pass that only reads sets apart the phases at work, those that have failed and the one that is not
known. Once a create or a change has been accepted, all that counts is whether the backend is at
work (`Syncs.synced_iff`). So a pass whose change is answered with a code that is not known, or with
that of a failure, ends with `synced` as well: `synced_after_unknown_code` has one of each.
-/

namespace ManagedPrometheus

variable {σ : Type} {kind : Kind} {now : String} {settings : PassSettings}

/-! ### Phases along a pass -/

/-- The phase after a report: the one of its code, if it has one. -/
def Phase.after (phase : Phase) (object : WireObject) : Phase :=
  match object.code? with
  | some code => ofCode (StatusCode.ofWire code)
  | none => phase

def Phase.afterAll (phase : Phase) (exchanges : List Exchange) : Phase :=
  (exchanges.filterMap (·.report?)).foldl Phase.after phase

/-- The phase that was last reported in a pass, or else the one that was stored before it. -/
def PassRecord.lastPhase (record : PassRecord kind) : Phase :=
  record.input.phase.afterAll record.exchanges

theorem observe_phase (status : Status) (object : WireObject) :
    (status.observe object).phase = status.phase.after object := by
  rcases hcode : object.code? with _ | code
  · have hstatus : object.status = none := Option.map_eq_none_iff.mp hcode
    simp [Phase.after, hcode, Status.phase, Status.observe, hstatus]
  · rw [observe_phase_of_code hcode, Phase.after, hcode]

namespace Resource

theorem phase_foldResponse (resource : Resource kind) (object : WireObject) :
    (resource.foldResponse object).phase = resource.phase.after object := by
  rw [← phase_statusOrEmpty resource, ← observe_phase]
  rfl

theorem phase_adoptCreated (desired : Resource kind) (object : WireObject) :
    (desired.adoptCreated object).phase = desired.phase.after object := by
  rw [← phase_foldResponse, adoptCreated]
  split <;> rfl

theorem phase_snapshot (desired : Resource kind) (key : ResourceKey) (object : WireObject) :
    (desired.snapshot now key object).phase = desired.phase.after object := by
  rw [snapshot_phase, observe_phase, phase_statusOrEmpty]

theorem settled_outcome_eq_synced_iff (resource : Resource kind) :
    resource.settled.outcome = .synced ↔ resource.phase.isTransient = false := by
  rw [settled]
  split
  · rename_i hphase
    simp [hphase]
  · rename_i hphase
    simpa using hphase

end Resource

theorem Applies.phase_eq {resource : Resource kind} {changes : List Mutation}
    {made : List Exchange} {decision : Decision kind} (h : Applies resource changes made decision) :
    decision.resource.phase = resource.phase.afterAll made := by
  induction h with
  | finished => rw [Resource.settled_resource]; rfl
  | refused => rfl
  | failed => rfl
  | silent _ ih => exact ih
  | reported _ ih => rw [ih, Resource.phase_foldResponse]; rfl

theorem Applies.synced_iff {resource : Resource kind} {changes : List Mutation}
    {made : List Exchange} {decision : Decision kind} (h : Applies resource changes made decision)
    (hsucceeds : ∀ failure, decision.outcome ≠ .failed failure) :
    decision.outcome = .synced ↔ decision.resource.phase.isTransient = false := by
  induction h with
  | finished =>
    rw [Resource.settled_outcome_eq_synced_iff, Resource.settled_resource]
  | refused => exact absurd rfl (hsucceeds _)
  | failed => exact absurd rfl (hsucceeds _)
  | silent _ ih => exact ih hsucceeds
  | reported _ ih => exact ih hsucceeds

/-! ### What makes a pass end with `synced` -/

/-- The phase lets a pass that asks for nothing end with `synced`. -/
def Phase.Settled (kind : Kind) (phase : Phase) : Prop :=
  MayChange kind phase ∧ phase.isFailed = false

theorem Phase.Settled.not_transient {phase : Phase} (h : phase.Settled kind) :
    phase.isTransient = false := by
  obtain ⟨⟨hknown, -⟩, -⟩ := h
  revert hknown
  cases phase <;> decide

theorem DecidesAtOnce.synced_iff {desired latest : Resource kind} {decision : Decision kind}
    (h : DecidesAtOnce desired latest decision)
    (hsucceeds : ∀ failure, decision.outcome ≠ .failed failure) :
    decision.outcome = .synced ↔ latest.phase.Settled kind := by
  cases h with
  | inProgress hphase =>
    have hknown : ¬ MayChange kind latest.phase := by
      rintro ⟨hnot, -⟩
      revert hphase hnot
      generalize latest.phase = phase
      cases phase <;> decide
    simp [Phase.Settled, hknown]
  | notActive hpolicy _ hphase =>
    have hknown : ¬ MayChange kind latest.phase := by
      rintro ⟨-, hactive, -⟩
      apply hphase
      apply hactive
      cases kind <;> first | rfl | cases hpolicy
    simp [Phase.Settled, hknown]
  | latched => exact absurd rfl (hsucceeds _)
  | fixedChanged => exact absurd rfl (hsucceeds _)
  | failedUnchanged => exact absurd rfl (hsucceeds _)
  | agreed hphase _ hfailed => simp [Phase.Settled, hphase, hfailed]

theorem DecidesAtOnce.resource_of_synced {desired latest : Resource kind} {decision : Decision kind}
    (h : DecidesAtOnce desired latest decision) (hsynced : decision.outcome = .synced) :
    decision.resource = desired.withStatusOf latest := by
  cases h with
  | agreed => rfl
  | _ => cases hsynced

/-- When a pass that does not fail ends with `synced`, and in which phase. -/
theorem Syncs.synced_iff {desired : Resource kind} {made : List Exchange}
    {decision : Decision kind} (h : Syncs now desired made decision)
    (hsucceeds : ∀ failure, decision.outcome ≠ .failed failure) :
    let last := desired.phase.afterAll made
    (decision.outcome = .synced → decision.resource.phase = last) ∧
      (decision.outcome = .synced ↔ last.isTransient = false ∧
        ((∀ call ∈ made.map (·.call), call.mutates = false) → last.Settled kind)) := by
  intro last
  cases h with
  | unread => exact absurd rfl (hsucceeds _)
  | creating hreads hcreates =>
    cases hcreates with
    | invalid => exact absurd rfl (hsucceeds _)
    | refused => exact absurd rfl (hsucceeds _)
    | failed => exact absurd rfl (hsucceeds _)
    | @created object =>
      have hlast : last = (desired.adoptCreated object).phase := by
        rw [Resource.phase_adoptCreated]
        cases hreads <;> rfl
      refine ⟨fun _ => by rw [Resource.settled_resource, hlast], ?_⟩
      rw [Resource.settled_outcome_eq_synced_iff, hlast]
      refine ⟨fun hphase => ⟨hphase, fun hquiet => ?_⟩, And.left⟩
      cases hquiet (.create desired.createRequest) (by simp)
  | @updating key object made _ haddress hupdates =>
    let latest := desired.snapshot now key object
    have hlast : last = latest.phase.afterAll made := by
      rw [Resource.phase_snapshot]
      rfl
    cases hupdates with
    | decided hdecided =>
      replace hlast : last = latest.phase := hlast
      have hdecides := DecidesAtOnce.of_decideAtOnce hdecided
      rw [hdecides.synced_iff hsucceeds, hlast]
      constructor
      · intro hsettled
        rw [hdecides.resource_of_synced ((hdecides.synced_iff hsucceeds).mpr hsettled),
          Resource.phase_withStatusOf]
      · refine ⟨fun hsettled => ⟨hsettled.not_transient, fun _ => hsettled⟩, fun h => h.2 ?_⟩
        intro call hmem
        obtain rfl := List.mem_singleton.mp hmem
        rfl
    | unidentified => exact absurd rfl (hsucceeds _)
    | @changing changes _ _ hopen hmutations happlies =>
      have hphase := happlies.phase_eq
      rw [Resource.phase_withStatusOf, ← hlast] at hphase
      refine ⟨fun _ => hphase, ?_⟩
      rw [happlies.synced_iff hsucceeds, hphase]
      refine ⟨fun htransient => ⟨htransient, fun hquiet => ?_⟩, And.left⟩
      -- an update that is not decided at once makes its first change
      rcases changes with _ | ⟨mutation, rest⟩
      · exact absurd hmutations (mutations_ne_nil hopen)
      · cases hquiet (.update mutation)
          (List.mem_cons_of_mem _ (happlies.mem_calls_of_cons (hsucceeds _)))

/-- **Which phases end in `synced`.** Take any pass of any history over a resource that is to exist.
If it ends with `synced`, the phase of the returned status is the one that was last reported. If it
does not fail, it ends with `synced` exactly if that phase is not one at work and, for a pass that
has asked for no change, is neither failed nor unknown nor, for a workspace, other than active. -/
theorem history_synced_phase (backend : Backend σ) (settings : PassSettings)
    (rounds : List (Round kind)) (resource : Resource kind) (state : σ) :
    ∀ record ∈ history backend settings rounds resource state, record.task = .sync →
      (record.result.outcome = .synced → record.result.resource.phase = record.lastPhase) ∧
      ((∀ failure, record.result.outcome ≠ .failed failure) →
        (record.result.outcome = .synced ↔ record.lastPhase.isTransient = false ∧
          ((∀ call ∈ record.calls, call.mutates = false) → record.lastPhase.Settled kind))) := by
  intro record hrecord htask
  have hlawful := history_lawful backend settings rounds resource state record hrecord
  obtain ⟨decision, hresult, ⟨-, hsyncs⟩ | ⟨hfinalize, -⟩⟩ := hlawful.exit
  · have houtcome : record.result.outcome = decision.outcome := by
      rw [hresult, Resource.conclude_outcome]
    rw [houtcome]
    constructor
    · intro hsynced
      rw [hresult, Resource.phase_conclude _ (by simp [hsynced])]
      exact (hsyncs.synced_iff (by simp [hsynced])).1 hsynced
    · intro hsucceeds
      exact (hsyncs.synced_iff hsucceeds).2
  · cases htask.symm.trans hfinalize

/-- A definition that has failed is changed, and is active by the answer. -/
theorem history_synced_phase_mended :
    let definition : Resource .alertManagerDefinition :=
      ⟨.empty, ⟨"ws-1", some "receivers: [a]"⟩, none⟩
    let found : WireObject :=
      { WireObject.empty with
        status := some ⟨"UPDATE_FAILED", none⟩, data := some (Utf8.encode "receivers: []") }
    let accepted : WireObject := { WireObject.empty with status := some ⟨"ACTIVE", none⟩ }
    let script : Script :=
      { Script.empty with describes := [.ok found], updates := [.ok accepted] }
    let settings := Settings.default.passSettings ⟨none, none⟩
    let rounds : List (Round .alertManagerDefinition) := [⟨id, .sync, "T", false⟩]
    ∃ record ∈ history scripted settings rounds definition script,
      record.task = .sync ∧ record.result.outcome = .synced ∧ record.lastPhase = .active ∧
        (record.result.outcome = .synced → record.result.resource.phase = record.lastPhase) ∧
        ((∀ failure, record.result.outcome ≠ .failed failure) →
          (record.result.outcome = .synced ↔ record.lastPhase.isTransient = false ∧
            ((∀ call ∈ record.calls, call.mutates = false) →
              record.lastPhase.Settled .alertManagerDefinition))) := by
  intro definition found accepted script settings rounds
  have hmem : (Round.run scripted settings ⟨id, .sync, "T", false⟩ definition script).1 ∈
      history scripted settings rounds definition script := List.mem_cons_self
  exact ⟨_, hmem, rfl, by decide, by decide,
    history_synced_phase scripted settings rounds definition script _ hmem rfl⟩

/-- A namespace is changed, and a definition created, and the answers report a code that is not
known and one of a failure: both passes end with `synced`. -/
theorem synced_after_unknown_code :
    let settings := Settings.default.passSettings ⟨none, none⟩
    let report : String → WireObject :=
      fun code => { WireObject.empty with status := some ⟨code, none⟩ }
    let rules : Resource .ruleGroupsNamespace :=
      ⟨.empty, ⟨"rules", "ws-1", some "groups: []", .empty⟩, none⟩
    let changed := (Round.run scripted settings ⟨id, .sync, "T", false⟩ rules
      { Script.empty with
        describes := [.ok (report "ACTIVE")], updates := [.ok (report "MIGRATING")] }).1
    let definition : Resource .alertManagerDefinition :=
      ⟨.empty, ⟨"ws-1", some "receivers: []"⟩, none⟩
    let created := (Round.run scripted settings ⟨id, .sync, "T", false⟩ definition
      { Script.empty with
        describes := [.ok none], creates := [.ok (report "CREATION_FAILED")] }).1
    (changed.result.outcome = .synced ∧ changed.result.resource.phase = .unrecognized) ∧
      created.result.outcome = .synced ∧ created.result.resource.phase = .creationFailed := by
  decide

end ManagedPrometheus
