import ManagedPrometheus.Proofs.ServiceClient
import ManagedPrometheus.Proofs.Signals
import ManagedPrometheus.Proofs.UpdateTrace

/-!
# What counts as absent

A pass creates what it takes to be absent, and a resource that is to be gone is let go of once it is
taken to be absent. So an error that is mistaken for absence makes a second resource, or leaves one
behind that nobody knows of. Only one error code says that there is no such resource, and only two
calls take that for an answer: a description and a deletion.

`Amp.absent_only_if_not_found` is made for all clients of the service. A pass has its first answer
from the state at its start (`Session.result_of_first`), so what it takes to be absent is what the
client has said there.
-/

namespace ManagedPrometheus

variable {σ : Type} {kind : Kind} {now : String} {settings : PassSettings}

namespace Amp

/-! ### What the backend makes of what a client says -/

theorem isNotFound_reported (error : ClientError) :
    isNotFound error.reported = true ↔ error.IsNotFound := by
  unfold ClientError.IsNotFound ClientError.reported
  rcases error.code with _ | code
  · simp [isNotFound]
  · simp [isNotFound]

theorem isNotFound_of_uncoded {cause : BackendError} (h : cause.code? = none) :
    isNotFound cause = false := by
  cases cause with
  | api code message => cases h
  | transport text => rfl

/-- Whether a call takes absence for an answer. -/
def TakesAbsence : Call → Prop
  | .describe _ => True
  | .delete _ => True
  | .create _ => False
  | .update _ => False

theorem absorbNotFound_of_passed {call : Call} {cause : BackendError}
    (h : TakesAbsence call → isNotFound cause = false) :
    absorbNotFound call (.error cause) = .error cause := by
  cases call with
  | describe => simp [absorbNotFound, h trivial]
  | delete => simp [absorbNotFound, h trivial]
  | create => rfl
  | update => rfl

/-- No other error takes the place of one. -/
theorem absorbNotFound_eq_error {call : Call} {cause passed : BackendError}
    (h : absorbNotFound call (.error cause) = .error passed) : passed = cause := by
  cases call with
  | describe =>
    rw [absorbNotFound] at h
    split at h
    all_goals cases h
    rfl
  | delete =>
    rw [absorbNotFound] at h
    split at h
    all_goals cases h
    rfl
  | create =>
    cases h
    rfl
  | update =>
    cases h
    rfl

/-- Only an error that says that there is no such resource is taken for an answer. -/
theorem isNotFound_of_absorbed {call : Call} {error : ClientError} {output : call.Reply}
    (h : absorbNotFound call (.error error.reported) = .ok output) : error.IsNotFound := by
  by_cases hnotFound : error.IsNotFound
  · exact hnotFound
  · rw [absorbNotFound_of_passed fun _ =>
      Bool.eq_false_iff.mpr (mt (isNotFound_reported error).mp hnotFound)] at h
    cases h

theorem absorbNotFound_ok (call : Call) (output : call.Reply) :
    absorbNotFound call (.ok output) = .ok output := by
  cases call <;> rfl

section Replies

variable {client : Client σ} {call : Call} {state : σ}

theorem reply_of_refusal {refusal : BackendError} (h : refusal? kind call = some refusal) :
    ((overClient client).answer kind call state).1.reply = some (.error refusal) := by
  have hanswer : ((overClient client).answer kind call state).1.reply
      = some (absorbNotFound call (.error refusal)) := by
    simp only [overClient, h]
  rw [hanswer, absorbNotFound_of_passed fun _ => isNotFound_of_uncoded (code?_refusal h)]

theorem reply_of_asked (h : refusal? kind call = none) :
    ((overClient client).answer kind call state).1.reply
      = (client.said? kind call state).map fun said =>
          absorbNotFound call ((said.mapError ClientError.reported).map (taken kind call)) := by
  simp only [overClient, Client.said?, h]

theorem reply_of_output {output : call.Reply}
    (h : client.said? kind call state = some (.ok output)) :
    ((overClient client).answer kind call state).1.reply
      = some (.ok (taken kind call output)) := by
  rw [reply_of_asked (asked_of_said h), h]
  exact congrArg some (absorbNotFound_ok call _)

theorem reply_of_error {error : ClientError}
    (h : client.said? kind call state = some (.error error)) :
    ((overClient client).answer kind call state).1.reply
      = some (absorbNotFound call (.error error.reported)) := by
  rw [reply_of_asked (asked_of_said h), h]
  rfl

/-- Where a reply of the backend comes from. -/
theorem reply_cases {reply : Except BackendError call.Reply}
    (h : ((overClient client).answer kind call state).1.reply = some reply) :
    (∃ refusal, refusal? kind call = some refusal ∧ reply = .error refusal) ∨
      (∃ output, client.said? kind call state = some (.ok output) ∧
        reply = .ok (taken kind call output)) ∨
      ∃ error, client.said? kind call state = some (.error error) ∧
        reply = absorbNotFound call (.error error.reported) := by
  rcases hrefusal : refusal? kind call with _ | refusal
  · rcases hsaid : client.said? kind call state with _ | error | output
    · rw [reply_of_asked hrefusal, hsaid] at h
      cases h
    · rw [reply_of_error hsaid] at h
      exact .inr (.inr ⟨error, rfl, (Option.some.inj h).symm⟩)
    · rw [reply_of_output hsaid] at h
      exact .inr (.inl ⟨output, rfl, (Option.some.inj h).symm⟩)
  · rw [reply_of_refusal hrefusal] at h
    exact .inl ⟨refusal, rfl, (Option.some.inj h).symm⟩

/-- An error is passed on as it is, unless it says that there is no such resource and the call takes
that for an answer. -/
theorem reply_of_passed {error : ClientError}
    (h : client.said? kind call state = some (.error error))
    (hpassed : TakesAbsence call → ¬ error.IsNotFound) :
    ((overClient client).answer kind call state).1.reply = some (.error error.reported) := by
  rw [reply_of_error h, absorbNotFound_of_passed]
  intro htakes
  exact Bool.eq_false_iff.mpr (mt (isNotFound_reported error).mp (hpassed htakes))

/-- Every error of the backend is a refusal or an error of the client, with its code and message. -/
theorem error_inv {cause : BackendError}
    (h : ((overClient client).answer kind call state).1.reply = some (.error cause)) :
    (refusal? kind call = some cause ∧ cause.code? = none) ∨
      ∃ error, client.said? kind call state = some (.error error) ∧ cause = error.reported := by
  rcases reply_cases h with
    ⟨refusal, hrefusal, hreply⟩ | ⟨output, -, hreply⟩ | ⟨error, hsaid, hreply⟩
  · cases hreply
    exact .inl ⟨hrefusal, code?_refusal hrefusal⟩
  · cases hreply
  · exact .inr ⟨error, hsaid, absorbNotFound_eq_error hreply.symm⟩

/-- Every success of the backend is one of the client, or the client has said that there is no such
resource. -/
theorem ok_inv {output : call.Reply}
    (h : ((overClient client).answer kind call state).1.reply = some (.ok output)) :
    client.SaysNotFound kind call state ∨
      ∃ said, client.said? kind call state = some (.ok said) ∧ output = taken kind call said := by
  rcases reply_cases h with ⟨refusal, -, hreply⟩ | ⟨said, hsaid, hreply⟩ | ⟨error, hsaid, hreply⟩
  · cases hreply
  · exact .inr ⟨said, hsaid, Except.ok.inj hreply⟩
  · exact .inl ⟨error, hsaid, isNotFound_of_absorbed hreply.symm⟩

theorem describe_none_iff {key : ResourceKey} :
    ((overClient client).answer kind (.describe key) state).1.reply = some (.ok none)
      ↔ client.SaysAbsent kind key state := by
  constructor
  · intro h
    rcases ok_inv h with hnotFound | ⟨said, hsaid, hnone⟩
    · exact .inl hnotFound
    · cases hnone
      exact .inr hsaid
  · rintro (⟨error, hsaid, hnotFound⟩ | hsaid)
    · rw [reply_of_error hsaid, absorbNotFound, if_pos ((isNotFound_reported error).mpr hnotFound)]
    · exact reply_of_output hsaid

theorem delete_ok_iff {key : ResourceKey} :
    ((overClient client).answer kind (.delete key) state).1.reply = some (.ok ())
      ↔ client.SaysNotFound kind (.delete key) state ∨
          client.said? kind (.delete key) state = some (.ok ()) := by
  constructor
  · intro h
    rcases ok_inv h with hnotFound | ⟨said, hsaid, -⟩
    · exact .inl hnotFound
    · exact .inr hsaid
  · rintro (⟨error, hsaid, hnotFound⟩ | hsaid)
    · rw [reply_of_error hsaid, absorbNotFound, if_pos ((isNotFound_reported error).mpr hnotFound)]
    · exact reply_of_output hsaid

end Replies

end Amp

/-! ### Passes that take a resource to be absent -/

/-- A pass that creates, or that ends with a resource at an address being gone, has first been told
that there is none. -/
theorem PassRecord.Lawful.starts_absent {record : PassRecord kind} (h : record.Lawful settings)
    {key : ResourceKey} (haddress : record.input.key? = some key)
    (hends : (∃ request, .create request ∈ record.calls) ∨ record.result.outcome = .deleted) :
    ∃ rest, record.exchanges = ⟨.describe key, .ok none⟩ :: rest := by
  obtain ⟨decision, hresult, ⟨-, hsyncs⟩ | ⟨-, hdeletes⟩⟩ := h.exit
  · rcases hends with ⟨request, hcreate⟩ | hdeleted
    · exact hsyncs.eq_of_create haddress hcreate
    · rw [hresult, Resource.conclude_outcome] at hdeleted
      exact absurd hdeleted hsyncs.outcome_ne_deleted
  · rcases hends with ⟨request, hcreate⟩ | hdeleted
    · obtain ⟨_, _, hcall | hcall⟩ := hdeletes.mem_calls hcreate <;> cases hcall
    · rw [hresult, Resource.conclude_outcome] at hdeleted
      exact ⟨[], hdeletes.eq_of_deleted haddress hdeleted⟩

theorem Session.resultOf_of_error {α : Type} {api : String} {limit : Duration} {answer : Answer α}
    {cause : BackendError} (h : answer.reply = some (.error cause)) :
    resultOf api limit answer = .error (.backend api cause) := by
  rw [resultOf, h]

/-- Once the description has failed, a pass makes no other call and ends with that failure. -/
theorem Round.run_of_unread {round : Round kind} (hrunning : round.cancelled = false)
    (backend : Backend σ) (settings : PassSettings) {resource : Resource kind} {state : σ}
    {key : ResourceKey} {failure : Failure} (haddress : (round.edit resource).key? = some key)
    (hfailure : Session.resultOf ((Call.describe key).api kind) settings.callTimeout
      (backend.answer kind (.describe key) state).1 = .error failure) :
    (round.run backend settings resource state).1.calls = [.describe key] ∧
      (round.run backend settings resource state).1.result.outcome = .failed failure := by
  obtain ⟨edit, task, now, cancelled⟩ := round
  obtain rfl : cancelled = false := hrunning
  cases task with
  | sync =>
    simp only [Round.run, Task.pass, Resource.sync, Resource.readLatest, haddress, Plan.bind_ask,
      Session.start, Session.run_ask, hfailure]
    exact ⟨rfl, Resource.conclude_outcome _ _⟩
  | finalize =>
    simp only [Round.run, Task.pass, Resource.finalize, Resource.delete, Resource.readLatest,
      haddress, Plan.bind_ask, Session.start, Session.run_ask, hfailure]
    exact ⟨rfl, Resource.conclude_outcome _ _⟩

theorem Resource.refusal?_describe {resource : Resource kind} {key : ResourceKey}
    (haddress : resource.key? = some key) : Amp.refusal? kind (.describe key) = none := by
  rcases hrefusal : Amp.refusal? kind (.describe key) with _ | refusal
  · rfl
  · obtain ⟨rfl, hname, -⟩ := Amp.nameless?_eq_some hrefusal
    obtain ⟨-, name, hsome, -⟩ := Resource.fits_of_key? haddress
    cases hname.symm.trans hsome

namespace Amp

theorem Client.saysAbsent_of_first {client : Client σ} {limit : Duration} {α : Type} {pass : Pass α}
    {state : σ} {cancelled : Bool} {key : ResourceKey} {rest : List Exchange}
    (h : ((Session.start state cancelled).run (overClient client) kind limit pass).2.exchanges
      = ⟨.describe key, .ok none⟩ :: rest) : client.SaysAbsent kind key state :=
  describe_none_iff.mp (Session.resultOf_eq_ok_iff.mp
    (Session.result_of_first _ limit pass state cancelled h).symm)

theorem Client.saysAbsent_of_readLatest {client : Client σ} {limit : Duration} {now : String}
    {resource : Resource kind} {state : σ} {cancelled : Bool} {key : ResourceKey}
    (haddress : resource.key? = some key)
    (hread : ((Session.start state cancelled).run (overClient client) kind limit
      (resource.readLatest now)).1 = .ok none) : client.SaysAbsent kind key state := by
  have hcourse := @Course.of_run _ _ kind limit (overClient client) (resource.readLatest now) state
    cancelled
  rw [hread] at hcourse
  have hreads := Reads.of_course hcourse
  exact saysAbsent_of_first (hreads.eq_of_absent haddress)

theorem Client.saysAbsent_of_round {client : Client σ} {round : Round kind}
    {resource : Resource kind} {state : σ} {key : ResourceKey}
    (haddress : (round.edit resource).key? = some key)
    (hends : let record := (round.run (overClient client) settings resource state).1
      (∃ request, .create request ∈ record.calls) ∨ record.result.outcome = .deleted) :
    client.SaysAbsent kind key state := by
  have hlawful := round.run_lawful (overClient client) settings resource state
  obtain ⟨rest, hfirst⟩ := hlawful.starts_absent haddress hends
  exact saysAbsent_of_first hfirst

/-- Only a not-found of the service counts as absent, to the backend on top of any client: then a
description answers none, a deletion succeeds, and a resource at an address is created or let go of.
Every other error is passed on as it is. -/
theorem absent_only_if_not_found (client : Client σ) (kind : Kind) (state : σ) :
    (∀ key, ((overClient client).answer kind (.describe key) state).1.reply = some (.ok none)
      ↔ client.SaysAbsent kind key state) ∧
    (∀ key, ((overClient client).answer kind (.delete key) state).1.reply = some (.ok ())
      ↔ client.SaysNotFound kind (.delete key) state ∨
          client.said? kind (.delete key) state = some (.ok ())) ∧
    (∀ call error, client.said? kind call state = some (.error error) →
      (TakesAbsence call → ¬ error.IsNotFound) →
        ((overClient client).answer kind call state).1.reply = some (.error error.reported)) ∧
    (∀ call cause, ((overClient client).answer kind call state).1.reply = some (.error cause) →
      (refusal? kind call = some cause ∧ cause.code? = none) ∨
        ∃ error, client.said? kind call state = some (.error error) ∧
          cause.code? = error.code ∧
          ∀ code, error.code = some code → cause = .api code (error.message.getD "")) ∧
    (∀ limit now cancelled (resource : Resource kind) key, resource.key? = some key →
      ((Session.start state cancelled).run (overClient client) kind limit
        (resource.readLatest now)).1 = .ok none → client.SaysAbsent kind key state) ∧
    ∀ settings (round : Round kind) (resource : Resource kind) key,
      (round.edit resource).key? = some key →
        let record := (round.run (overClient client) settings resource state).1
        refusal? kind (.describe key) = none ∧
        ((∃ request, .create request ∈ record.calls) → client.SaysAbsent kind key state) ∧
        (record.result.outcome = .deleted → client.SaysAbsent kind key state) ∧
        ∀ error, round.cancelled = false →
          client.said? kind (.describe key) state = some (.error error) → ¬ error.IsNotFound →
            record.calls = [.describe key] ∧
              record.result.outcome = .failed (.backend kind.describeApi error.reported) := by
  refine ⟨fun key => describe_none_iff, fun key => delete_ok_iff,
    fun call error => reply_of_passed, ?_, ?_, ?_⟩
  · intro call cause hcause
    rcases error_inv hcause with hrefused | ⟨error, hsaid, hreported⟩
    · exact .inl hrefused
    · refine .inr ⟨error, hsaid, ?_⟩
      rw [hreported]
      exact ⟨error.code?_reported, fun code => error.reported_of_code⟩
  · intro limit now cancelled resource key haddress hread
    exact Client.saysAbsent_of_readLatest haddress hread
  · intro settings round resource key haddress record
    refine ⟨Resource.refusal?_describe haddress, ?_, ?_, ?_⟩
    · intro hcreate
      exact Client.saysAbsent_of_round haddress (.inl hcreate)
    · intro hdeleted
      exact Client.saysAbsent_of_round haddress (.inr hdeleted)
    · intro error hrunning hsaid hother
      apply Round.run_of_unread hrunning _ settings haddress
      exact Session.resultOf_of_error (reply_of_passed hsaid fun _ => hother)

/-- Through a client that fails every call with one error: if that says not-found, the resource is
created or let go of; if the service throttles, neither. -/
theorem absent_only_if_not_found_throttled :
    let client : Client ClientError := ⟨fun _ _ error => ((some (.error error), false), error)⟩
    let missing : ClientError :=
      ⟨some "ResourceNotFoundException", some "no alert manager", "service error"⟩
    let throttled : ClientError := ⟨some "ThrottlingException", some "slow down", "service error"⟩
    let resource : Resource .alertManagerDefinition := ⟨.empty, ⟨"ws-1", some "b"⟩, none⟩
    let settings := Settings.default.passSettings ⟨none, none⟩
    let pass (task : Task) (error : ClientError) :=
      (Round.run (overClient client) settings ⟨id, task, "T", false⟩ resource error).1
    let failure := Outcome.failed
      (.backend "DescribeAlertManagerDefinition" (.api "ThrottlingException" "slow down"))
    client.SaysAbsent .alertManagerDefinition ⟨"ws-1", none⟩ missing ∧
      .create resource.createRequest ∈ (pass .sync missing).calls ∧
      (pass .finalize missing).result.outcome = .deleted ∧
      ∀ task, (pass task throttled).calls = [.describe ⟨"ws-1", none⟩] ∧
        (pass task throttled).result.outcome = failure := by
  intro client missing throttled resource settings pass failure
  have hcreate : .create resource.createRequest ∈ (pass .sync missing).calls := by decide
  have hdeleted : (pass .finalize missing).result.outcome = .deleted := by decide
  obtain ⟨-, -, -, -, -, hmissing⟩ :=
    absent_only_if_not_found client .alertManagerDefinition missing
  obtain ⟨-, -, -, -, -, hthrottled⟩ :=
    absent_only_if_not_found client .alertManagerDefinition throttled
  have habsent := (hmissing settings ⟨id, .finalize, "T", false⟩ resource ⟨"ws-1", none⟩ rfl).2.2.1
    hdeleted
  refine ⟨habsent, hcreate, hdeleted, fun task => ?_⟩
  exact (hthrottled settings ⟨id, task, "T", false⟩ resource ⟨"ws-1", none⟩ rfl).2.2.2
    throttled rfl rfl (by decide)

end Amp

end ManagedPrometheus
