import ManagedPrometheus.Proofs.FailedValidation
import ManagedPrometheus.Proofs.LostAnswers
import ManagedPrometheus.Proofs.Signals
import ManagedPrometheus.Script

/-!
# The messages of terminal failures

A failure that is not retried is left to the condition `Terminal`, whose message is the text of the
failure and all that a reader has to go by. Such a text says something whatever the backend answers,
with one exception (`Failure.message_eq_empty_iff`): the reason that comes with a failed phase is
taken over as it is. A text of its own stands in only for a reason that is absent, and not for one
that is empty. Which passes end so is `PassRecord.FindsEmptyReason`, and `history_terminal_message`
says that there are no others.
-/

namespace ManagedPrometheus

variable {σ : Type} {kind : Kind} {limit : Duration} {now : String} {settings : PassSettings}

/-! ### Texts of failures -/

theorem append_ne_empty_of_left {s t : String} (h : s ≠ "") : s ++ t ≠ "" :=
  fun hempty => h (String.append_eq_empty_iff.mp hempty).1

theorem append_ne_empty_of_right {s t : String} (h : t ≠ "") : s ++ t ≠ "" :=
  fun hempty => h (String.append_eq_empty_iff.mp hempty).2

theorem Resource.failedPhaseText_ne_empty (kind : Kind) (phase : Phase) :
    Resource.failedPhaseText kind phase ≠ "" := append_ne_empty_of_right (by decide)

/-- Only the reason of a failed phase can be a text that says nothing. -/
theorem Failure.message_eq_empty_iff (failure : Failure) :
    failure.message = "" ↔ failure = .failedPhase "" := by
  have hmade : (∀ reason, failure ≠ .failedPhase reason) → failure.message ≠ "" := by
    intro hother
    cases failure with
    | failedPhase reason => exact absurd rfl (hother reason)
    | cancelled => decide
    | missingArn => decide
    | backend api cause =>
      exact append_ne_empty_of_left (append_ne_empty_of_right (by decide))
    | timeout api limit => exact append_ne_empty_of_right (by decide)
    | immutableFieldsChanged paths => exact append_ne_empty_of_left (by decide)
    | invalidSpec problem => exact append_ne_empty_of_left (by decide)
  constructor
  · intro hempty
    by_contra hother
    refine hmade ?_ hempty
    rintro reason rfl
    exact hother (congrArg Failure.failedPhase hempty)
  · rintro rfl
    rfl

theorem Resource.failureReason_eq_empty_iff (latest : Resource kind) :
    latest.failureReason = "" ↔ latest.statusOrEmpty.statusReason = some "" := by
  rw [failureReason]
  rcases latest.statusOrEmpty.statusReason with _ | reason
  · simp [failedPhaseText_ne_empty]
  · simp

/-! ### Where failures come from -/

/-- A call fails because the backend refuses it, for want of an answer, or as the pass is cancelled;
never for a failed phase. -/
theorem Exchange.Admissible.ne_failedPhase {call : Call} {failure : Failure} {reason : String}
    (h : Exchange.Admissible kind limit ⟨call, .error failure⟩) :
    failure ≠ .failedPhase reason := by
  obtain ⟨answer, hresult⟩ := h
  rintro rfl
  simp only [Session.resultOf] at hresult
  split at hresult
  · cases hresult
  · cases hresult
  · split at hresult <;> cases hresult

/-- A failure is that of a call, or of a call that was refused because the pass is cancelled. -/
def Failure.OfCalls (made : List Exchange) (failure : Failure) : Prop :=
  failure = .cancelled ∨ ∃ call, ⟨call, .error failure⟩ ∈ made

theorem Failure.OfCalls.ne_failedPhase {made : List Exchange} {failure : Failure}
    (h : failure.OfCalls made) (hadmissible : ∀ exchange ∈ made, exchange.Admissible kind limit)
    (reason : String) : failure ≠ .failedPhase reason := by
  rcases h with rfl | ⟨call, hmem⟩
  · rintro ⟨⟩
  · exact (hadmissible _ hmem).ne_failedPhase

theorem Failure.OfCalls.mono {made more : List Exchange} {failure : Failure}
    (h : failure.OfCalls made) (hsubset : made ⊆ more) : failure.OfCalls more :=
  h.imp_right fun ⟨call, hmem⟩ => ⟨call, hsubset hmem⟩

theorem Reads.failure_ofCalls {desired : Resource kind} {made : List Exchange} {failure : Failure}
    (h : Reads now desired made (.error failure)) : failure.OfCalls made := by
  cases h with
  | refused => exact .inl rfl
  | failed => exact .inr ⟨_, List.mem_singleton.mpr rfl⟩

theorem Resource.settled_outcome_ne_failed (resource : Resource kind) (failure : Failure) :
    resource.settled.outcome ≠ .failed failure := by
  unfold settled
  split <;> simp

theorem Applies.failure_ofCalls {resource : Resource kind} {changes : List Mutation}
    {made : List Exchange} {decision : Decision kind} (h : Applies resource changes made decision)
    {failure : Failure} (hfailed : decision.outcome = .failed failure) : failure.OfCalls made := by
  induction h with
  | finished => exact absurd hfailed (Resource.settled_outcome_ne_failed _ _)
  | refused =>
    obtain rfl := Outcome.failed.inj hfailed
    exact .inl rfl
  | failed =>
    obtain rfl := Outcome.failed.inj hfailed
    exact .inr ⟨_, List.mem_singleton.mpr rfl⟩
  | silent _ ih => exact (ih hfailed).mono (List.subset_cons_self _ _)
  | reported _ ih => exact (ih hfailed).mono (List.subset_cons_self _ _)

theorem Creates.failure_ofCalls {desired : Resource kind} {made : List Exchange}
    {decision : Decision kind} (h : Creates desired made decision) {failure : Failure}
    (hfailed : decision.outcome = .failed failure) :
    (∃ problem, failure = .invalidSpec problem) ∨ failure.OfCalls made := by
  cases h with
  | invalid =>
    obtain rfl := Outcome.failed.inj hfailed
    exact .inl ⟨_, rfl⟩
  | refused =>
    obtain rfl := Outcome.failed.inj hfailed
    exact .inr (.inl rfl)
  | failed =>
    obtain rfl := Outcome.failed.inj hfailed
    exact .inr (.inr ⟨_, List.mem_singleton.mpr rfl⟩)
  | created => exact absurd hfailed (Resource.settled_outcome_ne_failed _ _)

theorem Deletes.failure_ofCalls {resource : Resource kind} {made : List Exchange}
    {decision : Decision kind} (h : Deletes now resource made decision) {failure : Failure}
    (hfailed : decision.outcome = .failed failure) : failure.OfCalls made := by
  cases h with
  | unread hreads =>
    obtain rfl := Outcome.failed.inj hfailed
    exact hreads.failure_ofCalls
  | refused =>
    obtain rfl := Outcome.failed.inj hfailed
    exact .inl rfl
  | failed =>
    obtain rfl := Outcome.failed.inj hfailed
    exact .inr ⟨_, List.mem_cons_of_mem _ (List.mem_singleton.mpr rfl)⟩
  | unaddressed | absent | blocked | accepted => cases hfailed

/-! ### Passes that end on a failed phase -/

/-- What a pass that ends on a failed phase was told: the resource has failed, and either its kind
leaves it at that or it differs in nothing from what is asked for. -/
structure Resource.EndsOnPhase (desired latest : Resource kind) (reason : String) : Prop where
  failed : latest.phase.isFailed = true
  reason : (kind.policy.failure = .latch ∧ reason = Resource.failedPhaseText kind latest.phase) ∨
    (kind.policy.failure = .allowUpdate ∧ desired.spec = latest.spec ∧
      reason = latest.failureReason)

theorem DecidesAtOnce.endsOnPhase {desired latest : Resource kind} {decision : Decision kind}
    (h : DecidesAtOnce desired latest decision) {reason : String}
    (hfailed : decision.outcome = .failed (.failedPhase reason)) :
    desired.EndsOnPhase latest reason := by
  cases h with
  | latched hpolicy hphase =>
    obtain rfl := Failure.failedPhase.inj (Outcome.failed.inj hfailed)
    exact ⟨hphase, .inl ⟨hpolicy, rfl⟩⟩
  | failedUnchanged hmay hequal hphase =>
    obtain rfl := Failure.failedPhase.inj (Outcome.failed.inj hfailed)
    exact ⟨hphase, .inr ⟨(mayChange_iff_of_failed hphase).mp hmay, hequal, rfl⟩⟩
  | inProgress | notActive | fixedChanged | agreed => cases hfailed

theorem Syncs.endsOnPhase {desired : Resource kind} {made : List Exchange}
    {decision : Decision kind} (h : Syncs now desired made decision)
    (hadmissible : ∀ exchange ∈ made, exchange.Admissible kind limit) {reason : String}
    (hfailed : decision.outcome = .failed (.failedPhase reason)) :
    ∃ key object, ⟨.describe key, .ok (some object)⟩ ∈ made ∧
      desired.EndsOnPhase (desired.snapshot now key object) reason := by
  cases h with
  | unread hreads =>
    obtain rfl := Outcome.failed.inj hfailed
    exact absurd rfl (hreads.failure_ofCalls.ne_failedPhase hadmissible reason)
  | @creating read _ _ _ hcreates =>
    rcases hcreates.failure_ofCalls hfailed with ⟨problem, hproblem⟩ | hcalls
    · cases hproblem
    · have hmore := hcalls.mono (List.subset_append_right read _)
      exact absurd rfl (hmore.ne_failedPhase hadmissible reason)
  | updating _ hupdates =>
    refine ⟨_, _, List.mem_cons_self, ?_⟩
    cases hupdates with
    | decided hdecided => exact (DecidesAtOnce.of_decideAtOnce hdecided).endsOnPhase hfailed
    | unidentified _ hmutations =>
      obtain ⟨rfl, -⟩ := mutations_eq_error_iff.mp hmutations
      cases hfailed
    | changing _ _ happlies =>
      have hrest := fun exchange hmem => hadmissible exchange (List.mem_cons_of_mem _ hmem)
      exact absurd rfl ((happlies.failure_ofCalls hfailed).ne_failedPhase hrest reason)

/-! ### Messages that say nothing -/

/-- A pass over a resource whose kind takes changes of a failed one: it is told that the resource
has failed, for a reason that is empty, and finds no difference. -/
structure PassRecord.FindsEmptyReason (record : PassRecord kind) : Prop where
  policy : kind.policy.failure = .allowUpdate
  found : ∃ key object, record.Describes key object ∧
    (record.input.statusOrEmpty.observe object).phase.isFailed = true ∧
    (record.input.statusOrEmpty.observe object).statusReason = some "" ∧
    record.input.spec = (record.input.snapshot record.now key object).spec

namespace PassRecord

variable {record : PassRecord kind}

theorem FindsEmptyReason.outcome_eq (h : record.FindsEmptyReason)
    (hlawful : record.Lawful settings) :
    record.result.outcome = .failed (.failedPhase "") := by
  obtain ⟨hpolicy, key, object, hdescribes, hfailed, hreason, hequal⟩ := h
  let latest := record.input.snapshot record.now key object
  have hphase : latest.phase.isFailed = true := by
    rw [Resource.snapshot_phase]
    exact hfailed
  have hempty : latest.failureReason = "" := by
    rw [Resource.failureReason_eq_empty_iff, snapshot_statusReason]
    exact hreason
  have hdecides : DecidesAtOnce record.input latest
      ⟨record.input.withStatusOf latest, .failed (.failedPhase latest.failureReason)⟩ :=
    .failedUnchanged ((mayChange_iff_of_failed hphase).mpr hpolicy) hequal hphase
  obtain ⟨-, hresult, -⟩ := hlawful.of_decidesAtOnce hdescribes hdecides
  rw [hresult, Resource.conclude_outcome, hempty]

theorem Lawful.findsEmptyReason (h : record.Lawful settings)
    (houtcome : record.result.outcome = .failed (.failedPhase "")) : record.FindsEmptyReason := by
  obtain ⟨decision, hresult, hexit⟩ := h.exit
  have hfailed : decision.outcome = .failed (.failedPhase "") := by
    rw [← houtcome, hresult, Resource.conclude_outcome]
  have hadmissible := Course.admissible h
  rcases hexit with ⟨htask, hsyncs⟩ | ⟨-, hdeletes⟩
  · obtain ⟨key, object, hmem, hphase, hreason⟩ := hsyncs.endsOnPhase hadmissible hfailed
    rw [Resource.snapshot_phase] at hphase
    rcases hreason with ⟨-, htext⟩ | ⟨hpolicy, hequal, htext⟩
    · exact absurd htext.symm (Resource.failedPhaseText_ne_empty _ _)
    · rw [eq_comm, Resource.failureReason_eq_empty_iff, snapshot_statusReason] at htext
      exact ⟨hpolicy, key, object, ⟨htask, hmem⟩, hphase, htext, hequal⟩
  · exact absurd rfl ((hdeletes.failure_ofCalls hfailed).ne_failedPhase hadmissible "")

end PassRecord

/-- **Terminal failures explain themselves.** For every kind, all settings and every backend: each
pass of each history whose failure is not retried raises `Terminal` with the text of the failure.
That says something, unless the pass found a resource that has failed for an empty reason and
differs in nothing from what is asked for. -/
theorem history_terminal_message (backend : Backend σ) (settings : PassSettings)
    (rounds : List (Round kind)) (resource : Resource kind) (state : σ) :
    ∀ record ∈ history backend settings rounds resource state, ∀ failure,
      record.result.outcome = .failed failure →
      failure.severity kind.policy.terminalCodes ≠ .recoverable →
      ∃ message, record.result.resource.statusOrEmpty.conditions.Holds .terminal message ∧
        (message = "" ↔ record.FindsEmptyReason) := by
  intro record hrecord failure hfailed hseverity
  have hlawful := history_lawful backend settings rounds resource state record hrecord
  have hcoherent := hlawful.coherent .zero
  refine ⟨failure.message, (hcoherent.after_terminal failure hfailed hseverity).1, ?_⟩
  rw [Failure.message_eq_empty_iff]
  constructor
  · rintro rfl
    exact hlawful.findsEmptyReason hfailed
  · intro hempty
    exact Outcome.failed.inj (hfailed.symm.trans (hempty.outcome_eq hlawful))

/-- A logging configuration that has failed, for no reason that is given. -/
theorem history_terminal_message_no_reason :
    let logging : Resource .loggingConfiguration := ⟨.empty, ⟨"ws-1", "log-group"⟩, none⟩
    let found : WireObject :=
      { WireObject.empty with
        status := some ⟨"UPDATE_FAILED", none⟩, logGroupArn := some "log-group" }
    let script : Script := { Script.empty with describes := [.ok found] }
    let settings := Settings.default.passSettings ⟨none, none⟩
    let rounds : List (Round .loggingConfiguration) := [⟨id, .sync, "T", false⟩]
    let failure := Failure.failedPhase "Logging Configuration is in 'UPDATE_FAILED' status"
    ∃ record ∈ history scripted settings rounds logging script,
      record.result.outcome = .failed failure ∧
        failure.severity Kind.loggingConfiguration.policy.terminalCodes ≠ .recoverable ∧
        record.result.resource.condition? .terminal
          = some ⟨.terminal, .yes, some "T",
              some "Logging Configuration is in 'UPDATE_FAILED' status"⟩ ∧
        ∃ message, record.result.resource.statusOrEmpty.conditions.Holds .terminal message ∧
          (message = "" ↔ record.FindsEmptyReason) := by
  intro logging found script settings rounds failure
  let pass := (Round.run scripted settings ⟨id, .sync, "T", false⟩ logging script).1
  have hmem : pass ∈ history scripted settings rounds logging script := List.mem_cons_self
  have hfailed : pass.result.outcome = .failed failure := by decide
  exact ⟨pass, hmem, hfailed, by decide, by decide,
    history_terminal_message scripted settings rounds logging script _ hmem failure hfailed
      (by decide)⟩

/-- The reason that is given is empty: the failure is terminal and says nothing. -/
theorem empty_reason_taken_over :
    let logging : Resource .loggingConfiguration := ⟨.empty, ⟨"ws-1", "log-group"⟩, none⟩
    let found : WireObject :=
      { WireObject.empty with
        status := some ⟨"UPDATE_FAILED", some ""⟩, logGroupArn := some "log-group" }
    let script : Script := { Script.empty with describes := [.ok found] }
    let settings := Settings.default.passSettings ⟨none, none⟩
    let failed := (Round.run scripted settings ⟨id, .sync, "T", false⟩ logging script).1
    failed.result.outcome = .failed (.failedPhase "") ∧
      (Failure.failedPhase "").severity Kind.loggingConfiguration.policy.terminalCodes
        = .terminal ∧
      failed.result.resource.condition? .terminal = some ⟨.terminal, .yes, some "T", some ""⟩ := by
  decide

end ManagedPrometheus
