import ManagedPrometheus.Proofs.Descriptions
import ManagedPrometheus.Proofs.QuietPasses
import ManagedPrometheus.Proofs.Signals
import ManagedPrometheus.Proofs.UpdateTrace

/-!
# Definitions whose validation fails

The backend validates an alert manager definition after it has accepted it. The pass that is told of
a failed validation reads the description as if it carried the configuration in place, so there is
nothing to change, and reports the reason as final (`decidesAtOnce_of_failed_validation`). What it
stores is a failed phase. Under that the next pass reads no configuration at all, and so puts the
one that is asked for by then (`puts_after_failed_validation`). The main statement,
`failed_validation_put_again`, is about both passes.
-/

namespace ManagedPrometheus

variable {σ : Type} {kind : Kind} {now : String} {settings : PassSettings}

/-! ### Passes that make changes -/

theorem CarriedOut.single {cancelled : Bool} {attempt : Attempt} {made : List Attempt}
    (h : CarriedOut cancelled [attempt] made) : made = if cancelled then [] else [attempt] := by
  cases cancelled with
  | true => exact h.refused rfl
  | false =>
    rcases List.prefix_cons_iff.mp h.isPrefix with rfl | ⟨rest, rfl, hrest⟩
    · cases h.complete rfl (by simp)
    · rw [List.prefix_nil.mp hrest]
      rfl

theorem run_sync_single (backend : Backend σ) (settings : PassSettings) (now : String)
    {resource : Resource kind} {key : ResourceKey} {object : WireObject} {mutation : Mutation}
    {state : σ} (haddress : resource.key? = some key)
    (hreply : (backend.answer kind (.describe key) state).1.reply = some (.ok (some object)))
    (hopen : resource.decideAtOnce (resource.snapshot now key object) = none)
    (hmutations : resource.mutations (resource.snapshot now key object) = .ok [mutation]) :
    (Round.run backend settings ⟨id, .sync, now, false⟩ resource state).1.calls
      = .describe key :: if (backend.answer kind (.describe key) state).1.cancels then []
          else [.update mutation] := by
  let answered := backend.answer kind (.describe key) state
  let heard : Session σ :=
    ⟨answered.2, answered.1.cancels, [⟨.describe key, .ok (some object)⟩]⟩
  have hresult : Session.resultOf ((Call.describe key).api kind) settings.callTimeout answered.1
      = .ok (some object) := Session.resultOf_eq_ok_iff.mpr hreply
  have hrun : (Session.start state false).run backend kind settings.callTimeout
        (resource.sync settings now)
      = heard.run backend kind settings.callTimeout
          (resource.reconcile settings now (some (resource.snapshot now key object))) := by
    rw [Resource.sync, Resource.readLatest, haddress, Plan.bind_ask, Session.start,
      Session.run_ask, hresult]
    rfl
  rw [run_reconcile, update_of_open hopen hmutations] at hrun
  obtain ⟨made, hcarried, hexchanges⟩ := run_applyAll backend settings.callTimeout
    (resource.withStatusOf (resource.snapshot now key object)) [mutation] heard
  have hmade : made = if answered.1.cancels then [] else [⟨.update mutation, _⟩] :=
    hcarried.single
  calc (Round.run backend settings ⟨id, .sync, now, false⟩ resource state).1.calls
    _ = (heard.exchanges ++ made.map (·.exchange kind settings.callTimeout)).map (·.call) := by
      rw [← hexchanges]
      exact congrArg (·.2.calls) hrun
    _ = .describe key :: if answered.1.cancels then [] else [.update mutation] := by
      rw [hmade]
      split <;> rfl

/-! ### Reading a failed validation -/

/-- A report of a failed phase whose reason is that what was submitted could not be validated. -/
def WireObject.FailsValidation (object : WireObject) (reason : String) : Prop :=
  isValidationFailure reason = true ∧ ∃ code, object.status = some ⟨code, some reason⟩ ∧
    (Phase.ofCode (StatusCode.ofWire code)).isFailed = true

namespace WireObject.FailsValidation

variable {object : WireObject} {reason : String}

theorem observe_isFailed (h : object.FailsValidation reason) (status : Status) :
    (status.observe object).phase.isFailed = true := by
  obtain ⟨-, code, hstatus, hfailed⟩ := h
  rw [observe_phase_of_code (by rw [WireObject.code?, hstatus]; rfl)]
  exact hfailed

theorem observe_statusReason (h : object.FailsValidation reason) (status : Status) :
    (status.observe object).statusReason = some reason := by
  obtain ⟨-, code, hstatus, -⟩ := h
  simp only [Status.observe, hstatus]

theorem validationFailure?_eq (h : object.FailsValidation reason) (status : Status)
    (key : ResourceKey) :
    Resource.validationFailure? .alertManagerDefinition false ((status.observe object).bind key)
      = some reason := by
  have hphase : ((status.observe object).bind key).phase.isFailed = true :=
    h.observe_isFailed status
  have hstored : ((status.observe object).bind key).statusReason = some reason :=
    h.observe_statusReason status
  rw [Resource.validationFailure?, hphase, hstored]
  simp [Kind.policy, h.1]

end WireObject.FailsValidation

/-- A resource that has failed may be changed exactly if its kind takes changes of such. -/
theorem mayChange_iff_of_failed {phase : Phase} (h : phase.isFailed = true) :
    MayChange kind phase ↔ kind.policy.failure = .allowUpdate := by
  unfold MayChange
  cases kind <;> cases phase <;> revert h <;> simp [Kind.policy, Phase.isFailed]

theorem mayChange_of_failed {phase : Phase} (h : phase.isFailed = true) :
    MayChange .alertManagerDefinition phase := (mayChange_iff_of_failed h).mpr rfl

theorem snapshot_statusReason (desired : Resource kind) (key : ResourceKey) (object : WireObject) :
    (desired.snapshot now key object).statusOrEmpty.statusReason
      = (desired.statusOrEmpty.observe object).statusReason := by
  simp only [Resource.snapshot, Resource.statusOrEmpty]
  split <;> rfl

/-- What a pass decides that is told of a failed validation. -/
def Resource.failedValidation (now : String) (definition : Resource .alertManagerDefinition)
    (key : ResourceKey) (object : WireObject) (reason : String) :
    Decision .alertManagerDefinition :=
  ⟨definition.withStatusOf (definition.snapshot now key object), .failed (.failedPhase reason)⟩

section

variable {definition : Resource .alertManagerDefinition} {key : ResourceKey} {object : WireObject}
  {reason : String}

theorem decidesAtOnce_of_failed_validation (now : String)
    (hsound : definition.phase.isFailed = false)
    (hworkspace : definition.spec.workspaceId = key.workspaceId)
    (hfails : object.FailsValidation reason) :
    DecidesAtOnce definition (definition.snapshot now key object)
      (definition.failedValidation now key object reason) := by
  let latest := definition.snapshot now key object
  -- the configuration in place counts as the latest one, so nothing is to be changed
  have hspec : definition.spec = latest.spec := by
    simp only [latest, Resource.snapshot, hsound, hfails.validationFailure?_eq, Spec.rekey,
      ← hworkspace]
    rfl
  have hfailed : latest.phase.isFailed = true := by
    rw [Resource.snapshot_phase]
    exact hfails.observe_isFailed _
  have hshown : latest.failureReason = reason := by
    rw [Resource.failureReason, snapshot_statusReason, hfails.observe_statusReason,
      Option.getD_some]
  rw [Resource.failedValidation, ← hshown]
  exact .failedUnchanged (mayChange_of_failed hfailed) hspec hfailed

/-- The pass that reports a failed validation stores a failed phase and the address, so the next one
puts whatever configuration the definition has by then. -/
theorem puts_after_failed_validation (settings : PassSettings) (now later : String)
    (haddress : definition.key? = some key)
    (hworkspace : definition.spec.workspaceId = key.workspaceId)
    (hfails : object.FailsValidation reason) {input : Resource .alertManagerDefinition}
    (hstored : input.status = (definition.conclude settings now
      (definition.failedValidation now key object reason)).resource.status)
    (hdeclared : input.spec.workspaceId = definition.spec.workspaceId)
    (hconfiguration : input.spec.configuration ≠ none) :
    input.key? = some key ∧ input.decideAtOnce (input.snapshot later key object) = none ∧
      input.mutations (input.snapshot later key object) = .ok [.put input.request] := by
  let decision := definition.failedValidation now key object reason
  have hended : decision.outcome ≠ .failed .cancelled := by
    simp [decision, Resource.failedValidation]
  constructor
  · have hbinding : (definition.conclude settings now decision).resource.binding
        = definition.binding.record key := by
      rw [Resource.binding_conclude hended, ← Resource.binding_snapshot definition key object]
      exact Resource.binding_withStatusOf _ _
    rw [Resource.key?, hstored]
    exact Resource.boundTo_of_record (Resource.fits_of_key? haddress) hbinding input.spec
  · have hphase : input.phase = (definition.statusOrEmpty.observe object).phase := by
      rw [Resource.phase, hstored, ← Resource.phase, Resource.phase_conclude _ hended,
        ← Resource.snapshot_phase definition key object]
      exact Resource.phase_withStatusOf _ _
    have hlatched : input.phase.isFailed = true := by
      rw [hphase]
      exact hfails.observe_isFailed _
    apply Resource.puts_of_failed later hlatched _ (hdeclared.trans hworkspace) hconfiguration
    exact mayChange_of_failed (hfails.observe_isFailed _)

end

/-! ### The pass that reports it and the one after it -/

def Resource.withConfiguration (text : String) (definition : Resource .alertManagerDefinition) :
    Resource .alertManagerDefinition :=
  { definition with spec := { definition.spec with configuration := some text } }

/-- **A failed validation is put again.** Take a definition that is not stored as failed and is
where its spec says, and let the backend describe it as failed because it could not be validated.
Whatever the description carries beside that, the pass changes nothing, keeps the spec, raises
`Terminal` with the backend's reason and is done. The next pass that is told the same makes one
change, unless it is cancelled before: it puts the configuration that is asked for by then, the same
or another, at the same address. -/
theorem failed_validation_put_again (backend : Backend σ) (settings : PassSettings)
    (definition : Resource .alertManagerDefinition) {object : WireObject} {reason : String}
    (now later next : String) (state again : σ)
    (hsound : definition.phase.isFailed = false)
    (haddress : definition.key? = some ⟨definition.spec.workspaceId, none⟩)
    (hfails : object.FailsValidation reason) :
    let key : ResourceKey := ⟨definition.spec.workspaceId, none⟩
    let described := fun state =>
      (backend.answer .alertManagerDefinition (.describe key) state).1
    let first := (Round.run backend settings ⟨id, .sync, now, false⟩ definition state).1
    let second := (Round.run backend settings ⟨.withConfiguration next, .sync, later, false⟩
      first.result.resource again).1
    (described state).reply = some (.ok (some object)) →
    (described again).reply = some (.ok (some object)) →
    (first.calls = [.describe key] ∧ first.result.resource.spec = definition.spec ∧
      first.result.resource.statusOrEmpty.conditions.Holds .terminal reason ∧
      first.result.resource.statusOrEmpty.isTrue .synced = true ∧
      first.result.requeue = .done) ∧
    ∃ request : Request, request.key = some key ∧ request.data = some (Utf8.encode next) ∧
      second.calls = .describe key ::
        if (described again).cancels then [] else [.update (.put request)] := by
  intro key described first second hreply hagain
  have hdecides : DecidesAtOnce definition (definition.snapshot now key object)
      (definition.failedValidation now key object reason) :=
    decidesAtOnce_of_failed_validation now hsound rfl hfails
  have hanswer : Session.resultOf Kind.alertManagerDefinition.describeApi settings.callTimeout
      (described state) = .ok (some object) := Session.resultOf_eq_ok_iff.mpr hreply
  obtain ⟨hexchanges, hresult⟩ := Settles.run_described (.decided hdecides) haddress hanswer
  replace hexchanges : first.exchanges = [⟨.describe key, .ok (some object)⟩] := hexchanges
  replace hresult : first.result = definition.conclude settings now
      (definition.failedValidation now key object reason) := hresult
  have hspec : first.result.resource.spec = definition.spec := by
    rw [hresult, Resource.spec_conclude _ hdecides.outcome_ne_cancelled]
    rfl
  constructor
  · have hcoherent : first.Coherent settings .zero := (Round.run_lawful _ _ _ _ _).coherent .zero
    have houtcome : first.result.outcome = .failed (.failedPhase reason) := by
      rw [hresult, Resource.conclude_outcome]
      rfl
    have hrequeue : first.result.requeue = .done := by
      rw [hresult, Resource.conclude_requeue]
      rfl
    refine ⟨by rw [PassRecord.calls, hexchanges]; rfl, hspec, ?_, ?_, hrequeue⟩
    · have hseverity : (Failure.failedPhase reason).severity
          Kind.alertManagerDefinition.policy.terminalCodes = .terminal := rfl
      exact (hcoherent.after_terminal _ houtcome (by simp [hseverity])).1
    · obtain ⟨condition, hsynced, -, hyes⟩ :=
        hcoherent.synced (by simp [PassRecord.Entered, houtcome])
      have hshown : first.result.resource.statusOrEmpty.conditions.get? .synced
          = some condition := hsynced
      rw [Status.isTrue, hshown]
      simp [hyes.mpr (.inl hrequeue)]
  · let input := first.result.resource.withConfiguration next
    have hdeclared : input.spec.workspaceId = definition.spec.workspaceId := by
      rw [← hspec]
      rfl
    obtain ⟨hfound, hopen, hput⟩ := puts_after_failed_validation settings now later haddress rfl
      hfails (congrArg (·.resource.status) hresult) hdeclared (Option.some_ne_none next)
    refine ⟨input.request, ?_, rfl, run_sync_single backend settings later hfound hagain hopen hput⟩
    rw [Resource.request_key, hfound]

/-- The backend still describes the configuration from before the update that failed. -/
theorem failed_validation_put_again_stale :
    let definition : Resource .alertManagerDefinition :=
      ⟨.empty, ⟨"ws-1", some "receivers: [a]"⟩, none⟩
    let found : WireObject :=
      { WireObject.empty with
        status := some ⟨"UPDATE_FAILED", some "error validating: route"⟩
        data := some (Utf8.encode "receivers: []") }
    let script : Script := { Script.empty with describes := [.ok found] }
    let settings := Settings.default.passSettings ⟨none, none⟩
    let first := (Round.run scripted settings ⟨id, .sync, "T", false⟩ definition script).1
    let second := (Round.run scripted settings
      ⟨.withConfiguration "receivers: [b]", .sync, "U", false⟩ first.result.resource script).1
    definition.phase.isFailed = false ∧ found.FailsValidation "error validating: route" ∧
      (first.calls = [.describe ⟨"ws-1", none⟩] ∧
        first.result.resource.spec = definition.spec ∧
        first.result.resource.statusOrEmpty.conditions.Holds .terminal "error validating: route" ∧
        first.result.resource.statusOrEmpty.isTrue .synced = true ∧
        first.result.requeue = .done) ∧
      ∃ request : Request, request.key = some ⟨"ws-1", none⟩ ∧
        request.data = some (Utf8.encode "receivers: [b]") ∧
        second.calls = [.describe ⟨"ws-1", none⟩, .update (.put request)] := by
  intro definition found script settings first second
  have hfails : found.FailsValidation "error validating: route" :=
    ⟨by decide, "UPDATE_FAILED", rfl, rfl⟩
  exact ⟨rfl, hfails, failed_validation_put_again scripted settings definition "T" "U"
    "receivers: [b]" script script rfl rfl hfails rfl rfl⟩

end ManagedPrometheus
