import ManagedPrometheus.Proofs.Binding
import ManagedPrometheus.Proofs.Conditions
import ManagedPrometheus.Proofs.Descriptions
import ManagedPrometheus.Visit

/-!
# Quiet passes

A pass is quiet if it asks the backend for nothing but a description. What it then decides is
decided on what it has read (`Settles`), and the status that it returns reflects that already. So
the pass that starts from there and is answered alike decides alike, and has nothing to enter in the
status and nothing to write (`quiet_pass_again`).

A kind that submits its configuration again after a failure has to be kept out of the failed phases:
there the second pass reads the configuration otherwise than the first.
-/

namespace ManagedPrometheus

variable {σ : Type} {kind : Kind} {now later : String} {settings : PassSettings}

/-! ### Decisions on what was read -/

/-- What a pass decides on what it has read, if it asks for nothing more. -/
inductive Settles (resource : Resource kind) :
    Task → Except Failure (Option (Resource kind)) → Decision kind → Prop
  | unread {task : Task} {failure : Failure} :
      Settles resource task (.error failure) ⟨resource, .failed failure⟩
  | invalid {problem : SpecProblem} (hproblem : resource.spec.problem? = some problem) :
      Settles resource .sync (.ok none) ⟨resource, .failed (.invalidSpec problem.message)⟩
  | decided {latest : Resource kind} {decision : Decision kind}
      (hdecides : DecidesAtOnce resource latest decision) :
      Settles resource .sync (.ok (some latest)) decision
  | unidentified {latest : Resource kind} (hopen : resource.decideAtOnce latest = none)
      (htags : latest.spec.tagsOrEmpty ≠ resource.spec.tagsOrEmpty)
      (harn : latest.statusOrEmpty.arn? = none) :
      Settles resource .sync (.ok (some latest))
        ⟨resource.withStatusOf latest, .failed .missingArn⟩
  | gone : Settles resource .finalize (.ok none) ⟨resource, .deleted⟩
  | blocked {latest : Resource kind} (hblocked : kind.policy.deletable latest.phase = false) :
      Settles resource .finalize (.ok (some latest))
        ⟨resource, .wait (.deleteBlocked latest.phase)⟩

theorem Applies.mem_calls_of_cons {resource : Resource kind} {mutation : Mutation}
    {rest : List Mutation} {made : List Exchange} {decision : Decision kind}
    (h : Applies resource (mutation :: rest) made decision)
    (hended : decision.outcome ≠ .failed .cancelled) :
    .update mutation ∈ made.map (·.call) := by
  cases h with
  | refused => exact absurd rfl hended
  | failed => exact List.mem_cons_self
  | silent => exact List.mem_cons_self
  | reported => exact List.mem_cons_self

/-- A quiet pass that is not cancelled decides on what it has read. -/
theorem PassRecord.Lawful.settles {record : PassRecord kind} (h : record.Lawful settings)
    (hquiet : ∀ call ∈ record.calls, call.mutates = false)
    (hended : record.result.outcome ≠ .failed .cancelled) :
    ∃ read decision, Reads record.now record.input record.exchanges read ∧
      Settles record.input record.task read decision ∧
      record.result = record.input.conclude settings record.now decision := by
  obtain ⟨decision, hresult, hexit⟩ := h.exit
  rw [hresult, Resource.conclude_outcome] at hended
  rw [PassRecord.calls] at hquiet
  rcases hexit with ⟨htask, hsyncs⟩ | ⟨htask, hdeletes⟩
  · rw [htask]
    generalize record.exchanges = exchanges at hquiet hsyncs ⊢
    cases hsyncs with
    | unread hreads => exact ⟨_, _, hreads, .unread, hresult⟩
    | creating hreads hcreates =>
      cases hcreates with
      | invalid hproblem => exact ⟨_, _, by simpa using hreads, .invalid hproblem, hresult⟩
      | refused => exact absurd rfl hended
      | failed => cases hquiet (.create record.input.createRequest) (by simp)
      | created => cases hquiet (.create record.input.createRequest) (by simp)
    | updating haddress hupdates =>
      cases hupdates with
      | decided hdecided =>
        exact ⟨_, _, .found haddress, .decided (.of_decideAtOnce hdecided), hresult⟩
      | unidentified hopen hmutations =>
        obtain ⟨rfl, htags, harn⟩ := mutations_eq_error_iff.mp hmutations
        exact ⟨_, _, .found haddress, .unidentified hopen htags harn, hresult⟩
      | @changing changes _ _ hopen hmutations happlies =>
        rcases changes with _ | ⟨mutation, rest⟩
        · exact absurd hmutations (mutations_ne_nil hopen)
        · -- not cancelled, so the first change was asked for
          cases hquiet _ (List.mem_cons_of_mem _ (happlies.mem_calls_of_cons hended))
  · rw [htask]
    generalize record.exchanges = exchanges at hquiet hdeletes ⊢
    cases hdeletes with
    | unaddressed haddress => exact ⟨_, _, .unaddressed haddress, .gone, hresult⟩
    | unread hreads => exact ⟨_, _, hreads, .unread, hresult⟩
    | absent haddress => exact ⟨_, _, .absent haddress, .gone, hresult⟩
    | blocked haddress hblocked => exact ⟨_, _, .found haddress, .blocked hblocked, hresult⟩
    | refused => exact absurd rfl hended
    | @failed key => cases hquiet (.delete key) (by simp)
    | @accepted key => cases hquiet (.delete key) (by simp)

/-! ### Passes that settle -/

namespace Settles

variable {resource : Resource kind} {task : Task} {decision : Decision kind}

theorem pass_of_unaddressed (h : Settles resource task (.ok none) decision)
    (haddress : resource.key? = none) (settings : PassSettings) (now : String) :
    task.pass settings now resource = .done (resource.conclude settings now decision) := by
  cases h with
  | invalid hproblem =>
    simp only [Task.pass, Resource.sync, Resource.readLatest, haddress, Plan.bind_done,
      Resource.reconcile, Resource.create, hproblem]
  | gone => simp only [Task.pass, Resource.finalize, Resource.delete, haddress, Plan.bind_done]

/-- A pass that settles on what it reads describes and ends. -/
theorem pass_eq {key : ResourceKey} (haddress : resource.key? = some key) (task : Task)
    (settings : PassSettings) (now : String) :
    ∃ next, task.pass settings now resource = .ask (.describe key) next ∧
      ∀ (result : (Call.describe key).Result) (decision : Decision kind),
        Settles resource task
            (result.map fun object? => object?.map (resource.snapshot now key)) decision →
          next result = .done (resource.conclude settings now decision) := by
  have hread : resource.readLatest now = .ask (.describe key) fun result =>
      .done (result.map fun object? => object?.map (resource.snapshot now key)) := by
    rw [Resource.readLatest, haddress]
  cases task with
  | sync =>
    refine ⟨_, by rw [Task.pass, Resource.sync, hread, Plan.bind_ask], ?_⟩
    intro result decision h
    rw [Plan.bind_done]
    generalize (result.map fun object? => object?.map (resource.snapshot now key)) = read at h
    cases h with
    | unread => rfl
    | invalid hproblem => simp only [Resource.reconcile, Resource.create, hproblem, Plan.bind_done]
    | decided hdecides =>
      simp only [Resource.reconcile, update_of_decided hdecides.decideAtOnce_eq, Plan.bind_done]
    | unidentified hopen htags harn =>
      simp only [Resource.reconcile, update_of_unidentified hopen (mutations_of_no_arn htags harn),
        Plan.bind_done]
  | finalize =>
    refine ⟨_, by simp only [Task.pass, Resource.finalize, Resource.delete, haddress, hread,
      Plan.bind_ask]; rfl, ?_⟩
    intro result decision h
    simp only [Plan.bind_done]
    generalize (result.map fun object? => object?.map (resource.snapshot now key)) = read at h
    cases h with
    | unread => rfl
    | gone => rfl
    | blocked hblocked => simp only [hblocked]; rfl

theorem outcome_of_error {failure : Failure} (h : Settles resource task (.error failure) decision) :
    decision.outcome = .failed failure := by
  cases h
  rfl

/-- Nothing is decided about but the resource that was passed, with the latest status or without. -/
theorem resource_eq {read : Except Failure (Option (Resource kind))}
    (h : Settles resource task read decision) :
    decision.resource = resource ∨
      ∃ latest, read = .ok (some latest) ∧ decision.resource = resource.withStatusOf latest := by
  cases h with
  | unread => exact .inl rfl
  | invalid => exact .inl rfl
  | decided hdecides =>
    exact (Resource.decideAtOnce_resource hdecides.decideAtOnce_eq).imp_right
      fun hresource => ⟨_, rfl, hresource⟩
  | unidentified => exact .inr ⟨_, rfl, rfl⟩
  | gone => exact .inl rfl
  | blocked => exact .inl rfl

end Settles

/-! ### Descriptions seen twice -/

/-- What a status says of code and reason, after a description has been observed, is the same if it
was observed before already. -/
theorem Status.observe_again {status again : Status} {object : WireObject}
    (h : (again.statusCode = status.statusCode ∧ again.statusReason = status.statusReason) ∨
      (again.statusCode = (status.observe object).statusCode ∧
        again.statusReason = (status.observe object).statusReason)) :
    (again.observe object).statusCode = (status.observe object).statusCode ∧
      (again.observe object).statusReason = (status.observe object).statusReason := by
  rcases hobject : object.status with _ | wire
  · simpa [observe, hobject] using h
  · simp [observe, hobject]

section

variable {input : Resource kind} {task : Task} {key : ResourceKey} {object : WireObject}
  {decision : Decision kind}

/-- A pass that leaves the status alone has not found a failed phase, if the kind submits again
after one. -/
theorem Settles.phase_or_withStatusOf {latest : Resource kind}
    (h : Settles input task (.ok (some latest)) decision)
    (hpreserves : kind.policy.preservesOnValidationFailure = true) :
    latest.phase.isFailed = false ∨ decision.resource = input.withStatusOf latest := by
  cases h with
  | decided hdecides =>
    cases hdecides with
    | inProgress hphase =>
      left
      rcases hphase with hphase | hphase
      · generalize latest.phase = phase at hphase
        cases phase <;> first | rfl | cases hphase
      · rw [hphase]
        rfl
    | notActive hpolicy =>
      cases kind <;>
        first
        | exact absurd hpolicy (by decide)
        | exact absurd hpreserves (by decide)
    | _ => exact .inr rfl
  | unidentified => exact .inr rfl
  | blocked hblocked =>
    left
    generalize latest.phase = phase at hblocked
    cases kind <;> cases phase <;> first | rfl | cases hblocked

/-- A settled pass has read its description plainly, if no failed phase is stored before or after
it. -/
theorem Settles.readsPlainly
    (h : Settles input task (.ok (some (input.snapshot now key object))) decision)
    (hcancelled : decision.outcome ≠ .failed .cancelled)
    (hsound : kind.policy.preservesOnValidationFailure = true →
      input.phase.isFailed = false ∧
        (input.conclude settings now decision).resource.phase.isFailed = false) :
    input.ReadsPlainly object := by
  intro hpreserves
  obtain ⟨hinput, hresult⟩ := hsound hpreserves
  refine ⟨hinput, ?_⟩
  rw [← input.snapshot_phase key object]
  rcases h.phase_or_withStatusOf hpreserves with hphase | hresource
  · exact hphase
  · rwa [input.phase_conclude hcancelled, hresource, Resource.phase_withStatusOf] at hresult

/-- The status that a settled pass returns says of code and reason what its description said. -/
theorem Settles.observe_result
    (h : Settles input task (.ok (some (input.snapshot now key object))) decision)
    (hdeleted : decision.outcome ≠ .deleted) (hcancelled : decision.outcome ≠ .failed .cancelled)
    (hplain : input.ReadsPlainly object) :
    let returned := (input.conclude settings now decision).resource.statusOrEmpty
    (returned.observe object).statusCode = (input.statusOrEmpty.observe object).statusCode ∧
      (returned.observe object).statusReason
        = (input.statusOrEmpty.observe object).statusReason := by
  apply Status.observe_again
  rw [input.conclude_statusOrEmpty hdeleted hcancelled, Resource.concludeStatus_statusCode,
    Resource.concludeStatus_statusReason]
  rcases h.resource_eq with hresource | ⟨latest, hread, hresource⟩
  · rw [hresource]
    exact .inl ⟨rfl, rfl⟩
  · obtain rfl := Option.some.inj (Except.ok.inj hread)
    rw [hresource, Resource.snapshot_of_plain hplain]
    exact .inr ⟨rfl, rfl⟩

/-- A resource that has been described and summed up, described alike once more, is itself. -/
theorem withStatusOf_snapshot_again
    (hresource : decision.resource = input.withStatusOf (input.snapshot now key object))
    (hdeleted : decision.outcome ≠ .deleted) (hcancelled : decision.outcome ≠ .failed .cancelled)
    (hplain : input.ReadsPlainly object) (later : String) :
    let again := (input.conclude settings now decision).resource
    again.ReadsPlainly object →
      again.withStatusOf (again.snapshot later key object) = again := by
  intro again hagain
  have hstatus : again.statusOrEmpty = _ := input.conclude_statusOrEmpty hdeleted hcancelled
  have hreflects : again.statusOrEmpty.Reflects object key := by
    rw [hstatus, hresource, Resource.snapshot_of_plain hplain]
    exact (Status.reflects_observe_bind _ object key).concludeStatus _ _ _ _
  have hsome : again.status = some again.statusOrEmpty := by
    simp only [again]
    rw [input.conclude_of_entered hdeleted hcancelled]
    rfl
  calc again.withStatusOf (again.snapshot later key object)
      = { again with status := some again.statusOrEmpty } := by
        rw [Resource.snapshot_of_plain hagain, hreflects.observe_bind_eq]
        rfl
    _ = again := by rw [← hsome]

theorem Settles.spec_result {read : Except Failure (Option (Resource kind))}
    (h : Settles input task read decision) (hcancelled : decision.outcome ≠ .failed .cancelled) :
    (input.conclude settings now decision).resource.spec = input.spec := by
  rw [input.spec_conclude hcancelled]
  rcases h.resource_eq with hresource | ⟨latest, _, hresource⟩
  · rw [hresource]
  · rw [hresource]
    rfl

theorem Settles.key?_of_unchanged {read : Except Failure (Option (Resource kind))}
    (h : Settles input task read decision) (hresource : decision.resource = input)
    (hcancelled : decision.outcome ≠ .failed .cancelled) :
    (input.conclude settings now decision).resource.key? = input.key? := by
  have hbinding : (input.conclude settings now decision).resource.binding = input.binding := by
    rw [Resource.binding_conclude hcancelled, hresource]
  rw [Resource.key?, h.spec_result hcancelled, Resource.key?_congr input.spec hbinding]
  rfl

theorem Settles.absent_again (h : Settles input task (.ok none) decision)
    (hcancelled : decision.outcome ≠ .failed .cancelled) :
    let again := (input.conclude settings now decision).resource
    Settles again task (.ok none) ⟨again, decision.outcome⟩ := by
  intro again
  have hspec : again.spec = input.spec := h.spec_result hcancelled
  cases h with
  | invalid hproblem => exact .invalid (hspec ▸ hproblem)
  | gone => exact .gone

/-- A pass that has settled on a description settles on it again, with the same outcome and nothing
to add to what it returned. -/
theorem Settles.found_again
    (h : Settles input task (.ok (some (input.snapshot now key object))) decision)
    (hcancelled : decision.outcome ≠ .failed .cancelled)
    (hsound : kind.policy.preservesOnValidationFailure = true →
      input.phase.isFailed = false ∧
        (input.conclude settings now decision).resource.phase.isFailed = false) (later : String) :
    let again := (input.conclude settings now decision).resource
    Settles again task (.ok (some (again.snapshot later key object)))
      ⟨again, decision.outcome⟩ := by
  intro again
  have hdeleted : decision.outcome ≠ .deleted := by
    cases h with
    | decided hdecides => exact hdecides.outcome_ne_deleted
    | unidentified => simp
    | blocked => simp
  have hplain : input.ReadsPlainly object := h.readsPlainly hcancelled hsound
  obtain ⟨hcode, hreason⟩ := h.observe_result hdeleted hcancelled hplain
  have hphase : (again.snapshot later key object).phase
      = (input.snapshot now key object).phase := by
    rw [Resource.snapshot_phase, Resource.snapshot_phase, Status.phase, hcode, ← Status.phase]
  have hagain : again.ReadsPlainly object := by
    intro hpreserves
    refine ⟨(hsound hpreserves).2, ?_⟩
    rw [Status.phase, hcode, ← Status.phase]
    exact (hplain hpreserves).2
  have hspec : again.spec = input.spec := h.spec_result hcancelled
  have hlatest : (again.snapshot later key object).spec = (input.snapshot now key object).spec := by
    rw [Resource.snapshot_of_plain hagain, Resource.snapshot_of_plain hplain, hspec]
  have hlatestReason : (again.snapshot later key object).statusOrEmpty.statusReason
      = (input.snapshot now key object).statusOrEmpty.statusReason := by
    rw [Resource.snapshot_of_plain hagain, Resource.snapshot_of_plain hplain]
    exact hreason
  -- if the first pass took over the status of the description, nothing is left to take over
  have hrefreshed : decision.resource = input.withStatusOf (input.snapshot now key object) →
      again.withStatusOf (again.snapshot later key object) = again := fun hresource =>
    withStatusOf_snapshot_again hresource hdeleted hcancelled hplain later hagain
  cases h with
  | decided hdecides =>
    obtain ⟨⟨resource, outcome⟩, hsecond, houtcome, hresource⟩ :=
      hdecides.transfer hspec hlatest hphase hlatestReason
    obtain rfl : outcome = decision.outcome := houtcome
    obtain rfl : resource = again := by
      rcases hresource with ⟨_, hsame⟩ | ⟨hfirst, hsame⟩
      · exact hsame
      · exact hsame.trans (hrefreshed hfirst)
    exact .decided hsecond
  | unidentified hopen htags harn =>
    have hsame := hrefreshed rfl
    have hopenAgain : again.decideAtOnce (again.snapshot later key object) = none := by
      rw [decideAtOnce_eq_none_iff, hphase, hspec, hlatest, ← decideAtOnce_eq_none_iff]
      exact hopen
    have harnAgain : (again.snapshot later key object).statusOrEmpty.arn? = none := by
      calc (again.snapshot later key object).statusOrEmpty.arn?
          = (again.withStatusOf (again.snapshot later key object)).statusOrEmpty.arn? := rfl
        _ = again.statusOrEmpty.arn? := by rw [hsame]
        _ = (input.snapshot now key object).statusOrEmpty.arn? := by
          rw [input.conclude_statusOrEmpty hdeleted hcancelled, Resource.concludeStatus_arn?]
          rfl
        _ = none := harn
    have hagain := Settles.unidentified hopenAgain (by rwa [hlatest, hspec]) harnAgain
    rwa [hsame] at hagain
  | blocked hblocked =>
    rw [← hphase] at hblocked ⊢
    exact .blocked hblocked

theorem Settles.again {result : (Call.describe key).Result}
    (h : Settles input task (result.map fun object? => object?.map (input.snapshot now key))
      decision)
    (hcancelled : decision.outcome ≠ .failed .cancelled)
    (hsound : kind.policy.preservesOnValidationFailure = true →
      input.phase.isFailed = false ∧
        (input.conclude settings now decision).resource.phase.isFailed = false) (later : String) :
    let again := (input.conclude settings now decision).resource
    Settles again task (result.map fun object? => object?.map (again.snapshot later key))
      ⟨again, decision.outcome⟩ := by
  intro again
  rcases result with failure | _ | object
  · cases h
    exact .unread
  · exact h.absent_again hcancelled
  · exact h.found_again hcancelled hsound later

theorem Settles.key?_result {result : (Call.describe key).Result}
    (h : Settles input task (result.map fun object? => object?.map (input.snapshot now key))
      decision)
    (haddress : input.key? = some key) (hcancelled : decision.outcome ≠ .failed .cancelled) :
    (input.conclude settings now decision).resource.key? = some key := by
  rw [Resource.key?, h.spec_result hcancelled]
  apply Resource.key?_conclude haddress hcancelled
  rcases h.resource_eq with hresource | ⟨latest, hread, hresource⟩
  · exact .inl hresource
  · rcases result with failure | _ | object
    · cases hread
    · cases hread
    · obtain rfl := Option.some.inj (Except.ok.inj hread)
      exact .inr ⟨object, hresource⟩

end

/-! ### The pass after a quiet pass -/

/-- A reading makes no exchange, is refused, or makes of its one exchange what it says. -/
theorem Reads.described {desired : Resource kind} {made : List Exchange}
    {read : Except Failure (Option (Resource kind))} (h : Reads now desired made read) :
    (desired.key? = none ∧ made = [] ∧ read = .ok none) ∨ read = .error .cancelled ∨
      ∃ (key : ResourceKey) (result : (Call.describe key).Result), desired.key? = some key ∧
        made = [⟨.describe key, result⟩] ∧
        read = result.map fun object? => object?.map (desired.snapshot now key) := by
  cases h with
  | unaddressed haddress => exact .inl ⟨haddress, rfl, rfl⟩
  | refused => exact .inr (.inl rfl)
  | @failed key failure haddress => exact .inr (.inr ⟨key, .error failure, haddress, rfl, rfl⟩)
  | @absent key haddress => exact .inr (.inr ⟨key, .ok none, haddress, rfl, rfl⟩)
  | @found key object haddress =>
    exact .inr (.inr ⟨key, .ok (some object), haddress, rfl, rfl⟩)

section

variable {resource : Resource kind} {task : Task} {decision : Decision kind}

theorem Settles.run_unaddressed (h : Settles resource task (.ok none) decision)
    (haddress : resource.key? = none) (backend : Backend σ) (settings : PassSettings)
    (now : String) (state : σ) :
    let record := (Round.run backend settings ⟨id, task, now, false⟩ resource state).1
    record.exchanges = [] ∧ record.result = resource.conclude settings now decision := by
  intro record
  have hrun : (Session.start state false).run backend kind settings.callTimeout
      (task.pass settings now resource)
        = (resource.conclude settings now decision, Session.start state false) := by
    rw [h.pass_of_unaddressed haddress, Session.run_done]
  exact ⟨congrArg (·.2.exchanges) hrun, congrArg (·.1) hrun⟩

theorem Settles.run_described {key : ResourceKey} {result : (Call.describe key).Result}
    (h : Settles resource task
      (result.map fun object? => object?.map (resource.snapshot now key)) decision)
    (haddress : resource.key? = some key) {backend : Backend σ} {state : σ}
    (hanswer : Session.resultOf kind.describeApi settings.callTimeout
      (backend.answer kind (.describe key) state).1 = result) :
    let record := (Round.run backend settings ⟨id, task, now, false⟩ resource state).1
    record.exchanges = [⟨.describe key, result⟩] ∧
      record.result = resource.conclude settings now decision := by
  intro record
  obtain ⟨next, hpass, hnext⟩ := Settles.pass_eq haddress task settings now
  let answered := backend.answer kind (.describe key) state
  have hrun : (Session.start state false).run backend kind settings.callTimeout
      (task.pass settings now resource) = (resource.conclude settings now decision,
        ⟨answered.2, answered.1.cancels, [⟨.describe key, result⟩]⟩) := by
    rw [hpass, Session.start, Session.run_ask]
    simp only [Call.api, hanswer, hnext result decision h, Session.run_done, List.nil_append,
      answered]
  exact ⟨congrArg (·.2.exchanges) hrun, congrArg (·.1) hrun⟩

end

/-- Starting from what a quiet pass returned, a pass that is described alike does the same. -/
theorem PassRecord.Lawful.again {record : PassRecord kind} (h : record.Lawful settings)
    (hquiet : ∀ call ∈ record.calls, call.mutates = false)
    (hended : record.result.outcome ≠ .failed .cancelled)
    (hsound : kind.policy.preservesOnValidationFailure = true →
      record.input.phase.isFailed = false ∧ record.result.resource.phase.isFailed = false)
    {backend : Backend σ} {state : σ}
    (hsame : ∀ (key : ResourceKey) (result : (Call.describe key).Result),
      ⟨.describe key, result⟩ ∈ record.exchanges →
        Session.resultOf kind.describeApi settings.callTimeout
          (backend.answer kind (.describe key) state).1 = result) (later : String) :
    let second := (Round.run backend settings ⟨id, record.task, later, false⟩
      record.result.resource state).1
    second.exchanges = record.exchanges ∧ second.result = record.result := by
  obtain ⟨read, decision, hreads, hsettles, hresult⟩ := h.settles hquiet hended
  obtain ⟨task, now, input, exchanges, result⟩ := record
  obtain rfl : result = input.conclude settings now decision := hresult
  have hcancelled : decision.outcome ≠ .failed .cancelled := by
    rwa [Resource.conclude_outcome] at hended
  intro second
  -- the second pass settles as the first one did, which leads to the same result
  rw [← input.conclude_again (input.conclude settings now decision).resource hcancelled now later]
  rcases hreads.described with ⟨haddress, hmade, rfl⟩ | rfl | ⟨key, result, haddress, hmade, rfl⟩
  · have hresource : decision.resource = input := by
      rcases hsettles.resource_eq with hresource | ⟨_, hread, _⟩
      · exact hresource
      · cases hread
    obtain ⟨hexchanges, hresult⟩ := (hsettles.absent_again hcancelled).run_unaddressed
      ((hsettles.key?_of_unchanged hresource hcancelled).trans haddress) backend settings later
      state
    exact ⟨hexchanges.trans hmade.symm, hresult⟩
  · exact absurd hsettles.outcome_of_error hcancelled
  · have hanswer := hsame key result (hmade ▸ List.mem_cons_self)
    obtain ⟨hexchanges, hresult⟩ := (hsettles.again hcancelled hsound later).run_described
      (hsettles.key?_result haddress hcancelled) hanswer
    exact ⟨hexchanges.trans hmade.symm, hresult⟩

/-- **A quiet pass is a fixpoint.** Let a pass ask for nothing but a description and end without
being cancelled. The same pass over the resource that it returned, described alike, makes the same
exchange and has the same result, transition times included, so there is no status to store. Of
alert manager definitions this is said outside the failed phases. -/
theorem quiet_pass_again (backend : Backend σ) (settings : PassSettings) (task : Task)
    (now later : String) (cancelled : Bool) (resource : Resource kind) (state again : σ) :
    let first := (Round.run backend settings ⟨id, task, now, cancelled⟩ resource state).1
    let second := (Round.run backend settings ⟨id, task, later, false⟩ first.result.resource
      again).1
    (∀ call ∈ first.calls, call.mutates = false) →
    first.result.outcome ≠ .failed .cancelled →
    (kind = .alertManagerDefinition →
      resource.phase.isFailed = false ∧ first.result.resource.phase.isFailed = false) →
    (∀ (key : ResourceKey) (result : (Call.describe key).Result),
      ⟨.describe key, result⟩ ∈ first.exchanges →
        Session.resultOf kind.describeApi settings.callTimeout
          (backend.answer kind (.describe key) again).1 = result) →
    second.exchanges = first.exchanges ∧ second.result = first.result ∧
      first.result.resource.statusWrite? second.result.resource.status = none := by
  intro first second hquiet hended hsound hsame
  have hlawful : first.Lawful settings := Round.run_lawful backend settings _ resource state
  have hsound : kind.policy.preservesOnValidationFailure = true →
      first.input.phase.isFailed = false ∧ first.result.resource.phase.isFailed = false := by
    intro hpreserves
    apply hsound
    cases kind <;> first | rfl | cases hpreserves
  obtain ⟨hexchanges, hresult⟩ := hlawful.again hquiet hended hsound hsame later
  refine ⟨hexchanges, hresult, ?_⟩
  have hstatus : second.result.resource.status = first.result.resource.status :=
    congrArg (·.resource.status) hresult
  rw [hstatus, Resource.statusWrite?, if_pos rfl]

/-- A failed phase that is final is reported once, and then found as it was reported. -/
theorem quiet_pass_again_latched :
    let rules : Resource .ruleGroupsNamespace :=
      ⟨.empty, ⟨"rules", "ws-1", some "groups: []", .empty⟩, none⟩
    let found : WireObject :=
      { WireObject.empty with arn := some "arn", status := some ⟨"UPDATE_FAILED", none⟩ }
    let script : Script := { Script.empty with describes := [.ok found] }
    let settings := Settings.default.passSettings ⟨none, none⟩
    let first := (Round.run scripted settings ⟨id, .sync, "T1", false⟩ rules script).1
    let second := (Round.run scripted settings ⟨id, .sync, "T2", false⟩ first.result.resource
      script).1
    first.calls = [.describe ⟨"ws-1", some "rules"⟩] ∧
      first.result.outcome
        = .failed (.failedPhase "Rule Groups Namespace is in 'UPDATE_FAILED' status") ∧
      second.exchanges = first.exchanges ∧ second.result = first.result ∧
      first.result.resource.statusWrite? second.result.resource.status = none := by
  intro rules found script settings first second
  have hexchanges : first.exchanges
      = [⟨.describe ⟨"ws-1", some "rules"⟩, .ok (some found)⟩] := rfl
  refine ⟨by decide, by decide, quiet_pass_again scripted settings .sync "T1" "T2" false rules
    script script (by decide) (by decide) (by decide) ?_⟩
  intro key result hmem
  rw [hexchanges] at hmem
  cases List.mem_singleton.mp hmem
  rfl

end ManagedPrometheus
