import ManagedPrometheus.Proofs.Binding
import ManagedPrometheus.Proofs.Descriptions

/-!
# Changes whose answer is lost

A change may reach the backend although its answer does not come back. The passes after it then find
the resource at work and wait, and later find it as the spec asks for. Nothing should be sent again.

Two things are handed on from pass to pass. One is the address: it stays the one that the pass with
the lost answer has described, so the identity fields agree with the spec (`Spec.Declares`). The
other is the code. A waiting pass returns the one that it was given and not the one that it has just
read (`PassRecord.Lawful.of_busy`), so what was read before the answer was lost is still there when
the resource is active again. Mostly this does no harm (`PassRecord.Lawful.of_agreement`). But a
definition that had been found in a failed phase still counts as failed, so its configuration counts
as absent and is put again (`PassRecord.Lawful.puts_again`). The main statement,
`lost_answer_not_sent_again`, says both; `lost_definition_sent_again` is a run of the second kind.
-/

namespace ManagedPrometheus

variable {σ : Type} {kind : Kind} {now : String} {settings : PassSettings}

/-! ### What the passes find -/

/-- An answer that does not come back: there is none in time, or it is lost on the way. -/
def Failure.LosesAnswer : Failure → Prop
  | .timeout _ _ => True
  | .backend _ (.transport _) => True
  | _ => False

namespace PassRecord

/-- The pass was to bring the resource about, and was told of it. -/
def Describes (record : PassRecord kind) (key : ResourceKey) (object : WireObject) : Prop :=
  record.task = .sync ∧ ⟨.describe key, .ok (some object)⟩ ∈ record.exchanges

/-- The pass asked for a change and did not hear the answer. -/
def LosesAnswer (record : PassRecord kind) : Prop :=
  record.task = .sync ∧ ∃ mutation failure,
    ⟨.update mutation, .error failure⟩ ∈ record.exchanges ∧ failure.LosesAnswer

/-- The pass found the resource in a failed phase. -/
def FindsFailed (record : PassRecord kind) : Prop :=
  ∃ key object, record.Describes key object ∧
    (record.input.statusOrEmpty.observe object).phase.isFailed = true

/-- The pass found the backend at work on the resource. -/
def FindsBusy (record : PassRecord kind) : Prop :=
  ∃ key object, record.Describes key object ∧
    (object.code? = some "CREATING" ∨ object.code? = some "UPDATING")

/-- The pass found the resource active, and as a spec asks for. -/
def FindsAgreement (record : PassRecord kind) (spec : Spec kind) : Prop :=
  ∃ key object, record.Describes key object ∧ object.code? = some "ACTIVE" ∧ object.Reports spec

/-- The pass asked for no change. -/
def Quiet (record : PassRecord kind) : Prop := ∀ call ∈ record.calls, call.mutates = false

/-- The workspace and the name that were reported are those of the address. -/
def NamesAddress (record : PassRecord kind) : Prop :=
  Faithful record.input.key? record.exchanges ∧
    ∀ exchange ∈ record.exchanges, ∀ object ∈ exchange.report?, ∀ name ∈ object.name,
      record.input.key?.bind (·.name) = some name

end PassRecord

/-! ### Identity fields -/

/-- The address of a spec under a status is the one that the spec declares. -/
def Spec.Declares (spec : Spec kind) (status : Option Status) : Prop :=
  ∀ key, spec.key? status = some key → spec.rekey key = spec

theorem Spec.declares_workspace (spec : Spec .workspace) (status : Option Status) :
    spec.Declares status := fun _ _ => rfl

theorem Spec.Declares.congr {spec : Spec kind} {status other : Option Status}
    (h : spec.Declares status) (haddress : spec.key? other = spec.key? status) :
    spec.Declares other := fun key hkey => h key (haddress.symm.trans hkey)

/-! ### Passes that are told of the resource -/

namespace PassRecord

variable {record : PassRecord kind}

theorem Lawful.updates_of_described (h : record.Lawful settings) {key : ResourceKey}
    {object : WireObject} (hdescribes : record.Describes key object) :
    record.input.key? = some key ∧
      ∃ decision rest, record.exchanges = ⟨.describe key, .ok (some object)⟩ :: rest ∧
        record.result = record.input.conclude settings record.now decision ∧
        Updates record.input (record.input.snapshot record.now key object) rest decision := by
  obtain ⟨htask, hmem⟩ := hdescribes
  obtain ⟨decision, hresult, ⟨_, hsyncs⟩ | ⟨hfinalize, _⟩⟩ := h.exit
  · obtain ⟨haddress, rest, hmade, hupdates⟩ := hsyncs.updates_of_described hmem
    exact ⟨haddress, decision, rest, hmade, hresult, hupdates⟩
  · cases htask.symm.trans hfinalize

theorem Lawful.described_unique (h : record.Lawful settings) {key other : ResourceKey}
    {object found : WireObject} (hdescribes : record.Describes key object)
    (hother : record.Describes other found) : object = found := by
  obtain ⟨_, _, _, hexchanges, _⟩ := h.updates_of_described hdescribes
  obtain ⟨_, _, _, hsame, _⟩ := h.updates_of_described hother
  cases hexchanges.symm.trans hsame
  rfl

/-- A pass that was told of the resource and decides at once makes no other call and keeps the
address. -/
theorem Lawful.of_decidesAtOnce (h : record.Lawful settings) {key : ResourceKey}
    {object : WireObject} (hdescribes : record.Describes key object) {decision : Decision kind}
    (hdecides : DecidesAtOnce record.input (record.input.snapshot record.now key object)
      decision) :
    record.Quiet ∧ record.result = record.input.conclude settings record.now decision ∧
      record.input.spec.key? record.result.resource.status = record.input.key? := by
  obtain ⟨haddress, taken, rest, hexchanges, hresult, hupdates⟩ :=
    h.updates_of_described hdescribes
  have hdecided := hdecides.decideAtOnce_eq
  cases hupdates with
  | decided htaken =>
    obtain rfl := Option.some.inj (htaken.symm.trans hdecided)
    refine ⟨?_, hresult, ?_⟩
    · intro call hmem
      rw [calls, hexchanges] at hmem
      obtain rfl := List.mem_singleton.mp hmem
      rfl
    · rw [hresult, haddress]
      apply Resource.key?_conclude haddress hdecides.outcome_ne_cancelled
      exact (Resource.decideAtOnce_resource hdecided).imp_right fun hresource => ⟨object, hresource⟩
  | unidentified hopen => cases hopen.symm.trans hdecided
  | changing hopen => cases hopen.symm.trans hdecided

/-- A pass that finds the backend at work asks for nothing, and keeps the code that was stored. -/
theorem Lawful.of_busy (h : record.Lawful settings) (hbusy : record.FindsBusy) :
    record.Quiet ∧ record.result.resource.phase = record.input.phase ∧
      record.input.spec.key? record.result.resource.status = record.input.key? := by
  obtain ⟨key, object, hdescribes, hcode⟩ := hbusy
  have hphase : (record.input.snapshot record.now key object).phase.isTransient = true := by
    rw [Resource.snapshot_phase]
    rcases hcode with hcode | hcode
    · rw [observe_phase_of_code hcode]
      rfl
    · rw [observe_phase_of_code hcode]
      rfl
  obtain ⟨hquiet, hresult, haddress⟩ := h.of_decidesAtOnce hdescribes (.inProgress (.inl hphase))
  refine ⟨hquiet, ?_, haddress⟩
  rw [hresult, Resource.phase_conclude _ (by simp)]

/-- A pass that finds the resource as the spec asks for asks for nothing, if nothing keeps it from
reading the configuration. It is in agreement if the resource is where the spec says. -/
theorem Lawful.of_agreement (h : record.Lawful settings)
    (hagreement : record.FindsAgreement record.input.spec)
    (hsound : kind.policy.preservesOnValidationFailure = true →
      record.input.phase.isFailed = false) :
    record.Quiet ∧ record.result.resource.phase = .active ∧
      record.input.spec.key? record.result.resource.status = record.input.key? ∧
      (record.input.spec.Declares record.input.status → record.result.outcome = .synced) := by
  obtain ⟨key, object, hdescribes, hcode, hreports⟩ := hagreement
  have hobserved : (record.input.statusOrEmpty.observe object).phase = .active :=
    observe_phase_of_code hcode _
  have hplain : record.input.ReadsPlainly object := by
    intro hpreserves
    exact ⟨hsound hpreserves, by rw [hobserved]; rfl⟩
  have hphase : (record.input.snapshot record.now key object).phase = .active := by
    rw [Resource.snapshot_phase, hobserved]
  have hshown : (record.input.snapshot record.now key object).spec
      = record.input.spec.shown key object := by
    rw [Resource.snapshot_of_plain hplain]
  -- an immutable field differs only under an address that the spec does not declare
  by_cases hfixed : record.input.spec.FixedAlike (record.input.spec.shown key object)
  · have hspec := hreports.eq_shown_of_fixedAlike hfixed
    obtain ⟨hquiet, hresult, haddress⟩ := h.of_decidesAtOnce hdescribes
      (.agreed (mayChange_of_active hphase) (hshown ▸ hspec) (by rw [hphase]; rfl))
    refine ⟨hquiet, ?_, haddress, fun _ => by rw [hresult, Resource.conclude_outcome]⟩
    rw [hresult, Resource.phase_conclude _ (by simp), Resource.phase_withStatusOf, hphase]
  · obtain ⟨hquiet, hresult, haddress⟩ := h.of_decidesAtOnce hdescribes
      (.fixedChanged (mayChange_of_active hphase) (hshown ▸ hfixed))
    refine ⟨hquiet, ?_, haddress, ?_⟩
    · rw [hresult, Resource.phase_conclude _ (by simp), Resource.phase_withStatusOf, hphase]
    · intro hdeclares
      have hkey := hdeclares key (h.updates_of_described hdescribes).1
      refine absurd ?_ hfixed
      rw [hreports.shown_eq hkey]
      exact fun _ _ => rfl

end PassRecord

/-! ### The pass that loses an answer -/

/-- How a pass that lost an answer has gone: it was told of the resource, went on to make changes,
and ended with the failure of one of them. -/
structure PassRecord.Lost (settings : PassSettings) (record : PassRecord kind) (key : ResourceKey)
    (object : WireObject) (made : List Exchange) (decision : Decision kind) : Prop where
  describes : record.Describes key object
  address : record.input.key? = some key
  exchanges : record.exchanges = ⟨.describe key, .ok (some object)⟩ :: made
  result : record.result = record.input.conclude settings record.now decision
  undecided : record.input.decideAtOnce (record.input.snapshot record.now key object) = none
  applies : ∃ changes,
    record.input.mutations (record.input.snapshot record.now key object) = .ok changes ∧
      Applies (record.input.withStatusOf (record.input.snapshot record.now key object)) changes
        made decision
  failed : ∃ mutation failure, ⟨.update mutation, .error failure⟩ ∈ made ∧ failure.LosesAnswer

theorem PassRecord.Lawful.exists_lost {record : PassRecord kind} (h : record.Lawful settings)
    (hlost : record.LosesAnswer) :
    ∃ key object made decision, record.Lost settings key object made decision := by
  obtain ⟨htask, mutation, failure, hmem, hloses⟩ := hlost
  obtain ⟨key, object, hdescribed⟩ : ∃ key object,
      ⟨.describe key, .ok (some object)⟩ ∈ record.exchanges := by
    obtain ⟨_, _, ⟨_, hsyncs⟩ | ⟨hfinalize, _⟩⟩ := h.exit
    · exact hsyncs.described_of_update (List.mem_map_of_mem (f := (·.call)) hmem)
    · cases htask.symm.trans hfinalize
  obtain ⟨haddress, decision, made, hexchanges, hresult, hupdates⟩ :=
    h.updates_of_described ⟨htask, hdescribed⟩
  have hmade : ⟨.update mutation, .error failure⟩ ∈ made := by
    rw [hexchanges] at hmem
    rcases List.mem_cons.mp hmem with hdescribe | hmade
    · cases hdescribe
    · exact hmade
  refine ⟨key, object, made, decision, ⟨htask, hdescribed⟩, haddress, hexchanges, hresult, ?_, ?_,
    ⟨mutation, failure, hmade, hloses⟩⟩
  · exact (hupdates.mem_calls (List.mem_map_of_mem (f := (·.call)) hmade)).1
  · cases hupdates with
    | decided => cases hmade
    | unidentified => cases hmade
    | changing _ hmutations happlies => exact ⟨_, hmutations, happlies⟩

namespace PassRecord.Lost

variable {record : PassRecord kind} {key : ResourceKey} {object : WireObject}
  {made : List Exchange} {decision : Decision kind}

theorem outcome_ne_cancelled (h : record.Lost settings key object made decision) :
    decision.outcome ≠ .failed .cancelled := by
  obtain ⟨_, _, happlies⟩ := h.applies
  obtain ⟨_, failure, hmade, hloses⟩ := h.failed
  rw [happlies.outcome_of_failed hmade]
  rintro ⟨⟩
  exact hloses

theorem resource_eq (h : record.Lost settings key object made decision)
    (htags : (record.input.snapshot record.now key object).spec.tagsOrEmpty
      = record.input.spec.tagsOrEmpty) :
    decision.resource
      = record.input.withStatusOf (record.input.snapshot record.now key object) := by
  obtain ⟨changes, hmutations, happlies⟩ := h.applies
  obtain ⟨_, _, hmade, _⟩ := h.failed
  obtain rfl := mutations_of_tags_agree h.undecided htags hmutations
  exact happlies.resource_of_single hmade

/-- The address that was described is recorded, if reports of a kind with tags name no other. -/
theorem binding_eq (h : record.Lost settings key object made decision)
    (hkind : kind ≠ .workspace) (hnames : kind = .ruleGroupsNamespace → record.NamesAddress) :
    decision.resource.binding = record.input.binding.record key := by
  have hfound : (record.input.withStatusOf
      (record.input.snapshot record.now key object)).binding
        = record.input.binding.record key := by
    rw [Resource.binding_withStatusOf, Resource.binding_snapshot]
  cases kind with
  | workspace => exact absurd rfl hkind
  | ruleGroupsNamespace =>
    -- changes of tags may have been answered before, but with nothing that moves the address
    obtain ⟨_, _, happlies⟩ := h.applies
    have hfaithful := (hnames rfl).1
    rw [h.address, h.exchanges] at hfaithful
    rw [happlies.binding_eq hfaithful.tail (by rw [hfound]; rfl), hfound]
  | alertManagerDefinition => rw [h.resource_eq rfl, hfound]
  | loggingConfiguration => rw [h.resource_eq rfl, hfound]

theorem declares (h : record.Lost settings key object made decision)
    (hnames : kind = .ruleGroupsNamespace → record.NamesAddress) :
    record.input.spec.Declares record.result.resource.status := by
  by_cases hkind : kind = .workspace
  · subst hkind
    exact Spec.declares_workspace _ _
  · have hbinding : record.result.resource.binding = record.input.binding.record key := by
      rw [h.result, Resource.binding_conclude h.outcome_ne_cancelled, h.binding_eq hkind hnames]
    have hbound := Resource.boundTo_of_record (Resource.fits_of_key? h.address) hbinding
    obtain ⟨-, hfixed, -⟩ := decideAtOnce_eq_none_iff.mp h.undecided
    intro other hother
    obtain rfl := Option.some.inj ((hbound record.input.spec).symm.trans hother)
    apply hfixed.rekey_eq
    intro hrules name hreported
    have hname := (hnames hrules).2 _ (h.exchanges ▸ List.mem_cons_self) object rfl name hreported
    rwa [h.address] at hname

theorem phase_eq {record : PassRecord .alertManagerDefinition}
    {decision : Decision .alertManagerDefinition}
    (h : record.Lost settings key object made decision) :
    record.result.resource.phase = (record.input.statusOrEmpty.observe object).phase := by
  rw [h.result, Resource.phase_conclude _ h.outcome_ne_cancelled, h.resource_eq rfl,
    Resource.phase_withStatusOf, Resource.snapshot_phase]

end PassRecord.Lost

namespace PassRecord

variable {record : PassRecord .alertManagerDefinition}

theorem Lawful.findsFailed_iff (h : record.Lawful settings) (hlost : record.LosesAnswer) :
    record.FindsFailed ↔ record.result.resource.phase.isFailed = true := by
  obtain ⟨key, object, _, _, hpass⟩ := h.exists_lost hlost
  rw [hpass.phase_eq]
  constructor
  · rintro ⟨other, found, hother, hfailed⟩
    rwa [h.described_unique hpass.describes hother]
  · intro hfailed
    exact ⟨key, object, hpass.describes, hfailed⟩

/-- A definition that is stored as failed is put again, however it is found. -/
theorem Lawful.puts_again (h : record.Lawful settings)
    (hvalid : record.input.spec.problem? = none)
    (hagreement : record.FindsAgreement record.input.spec)
    (hdeclares : record.input.spec.Declares record.input.status)
    (hfailed : record.input.phase.isFailed = true) :
    record.result.outcome = .failed .cancelled ∨
      ∃ key, record.calls = [.describe key, .update (.put record.input.request)] := by
  obtain ⟨key, object, hdescribes, hcode, -⟩ := hagreement
  obtain ⟨haddress, decision, rest, hexchanges, hresult, hupdates⟩ :=
    h.updates_of_described hdescribes
  have hphase : (record.input.statusOrEmpty.observe object).phase = .active :=
    observe_phase_of_code hcode _
  have hworkspace : record.input.spec.workspaceId = key.workspaceId :=
    (congrArg AlertManagerDefinitionSpec.workspaceId (hdeclares key haddress)).symm
  -- a valid spec has a configuration
  have hconfiguration : record.input.spec.configuration ≠ none := by
    intro hnone
    have hsome := (alertManagerDefinition_of_valid hvalid).2
    rw [hnone] at hsome
    cases hsome
  obtain ⟨hopen, hput⟩ := Resource.puts_of_failed record.now hfailed
    (mayChange_of_active hphase) hworkspace hconfiguration
  cases hupdates with
  | decided hdecided => cases hopen.symm.trans hdecided
  | unidentified _ hmutations => cases hput.symm.trans hmutations
  | changing _ hmutations happlies =>
    obtain rfl := Except.ok.inj (hput.symm.trans hmutations)
    cases happlies with
    | refused =>
      left
      rw [hresult, Resource.conclude_outcome]
    | failed => exact .inr ⟨key, by rw [calls, hexchanges]; rfl⟩
    | silent hrest =>
      cases hrest
      exact .inr ⟨key, by rw [calls, hexchanges]; rfl⟩
    | reported hrest =>
      cases hrest
      exact .inr ⟨key, by rw [calls, hexchanges]; rfl⟩

end PassRecord

/-! ### Runs -/

/-- The round makes a pass over a spec, and keeps the status that was returned. -/
def Round.Resubmits (round : Round kind) (spec : Spec kind) : Prop :=
  ∀ resource, (round.edit resource).spec = spec ∧ (round.edit resource).status = resource.status

/-- Passes over one spec, each of which starts from the status that the one before it returned. -/
def Carries (settings : PassSettings) (spec : Spec kind) :
    Option Status → List (PassRecord kind) → Prop
  | _, [] => True
  | status, record :: rest =>
    record.Lawful settings ∧ record.input.spec = spec ∧ record.input.status = status ∧
      Carries settings spec record.result.resource.status rest

theorem history_carries (backend : Backend σ) (settings : PassSettings) {spec : Spec kind}
    {rounds : List (Round kind)} (hrounds : ∀ round ∈ rounds, round.Resubmits spec)
    (resource : Resource kind) (state : σ) :
    Carries settings spec resource.status (history backend settings rounds resource state) := by
  induction rounds generalizing resource state with
  | nil => trivial
  | cons round rest ih =>
    obtain ⟨hspec, hstatus⟩ := hrounds round List.mem_cons_self resource
    exact ⟨round.run_lawful backend settings resource state, hspec, hstatus,
      ih (fun other hmem => hrounds other (List.mem_cons_of_mem round hmem)) _ _⟩

namespace Carries

variable {spec : Spec kind} {status : Option Status}

/-- Passes that find the backend at work ask for nothing, and hand on the code and the address that
they were given. -/
theorem of_busy {waiting settled : List (PassRecord kind)}
    (h : Carries settings spec status (waiting ++ settled))
    (hwaiting : ∀ record ∈ waiting, record.FindsBusy) :
    (∀ record ∈ waiting, record.Quiet) ∧
      ∃ carried, phaseOf carried = phaseOf status ∧ spec.key? carried = spec.key? status ∧
        Carries settings spec carried settled := by
  induction waiting generalizing status with
  | nil => exact ⟨by simp, status, rfl, rfl, h⟩
  | cons record rest ih =>
    obtain ⟨hlawful, rfl, rfl, hrest⟩ := h
    obtain ⟨hquiet, hphase, haddress⟩ := hlawful.of_busy (hwaiting record List.mem_cons_self)
    obtain ⟨hothers, carried, hsamePhase, hsameAddress, hsettled⟩ :=
      ih hrest fun other hmem => hwaiting other (List.mem_cons_of_mem record hmem)
    refine ⟨?_, carried, hsamePhase.trans hphase, hsameAddress.trans haddress, hsettled⟩
    intro other hmem
    rcases List.mem_cons.mp hmem with rfl | hmem
    · exact hquiet
    · exact hothers other hmem

/-- Passes that find the resource as the spec asks for ask for nothing, if the first of them is not
kept from reading the configuration. They are in agreement if the first finds the resource where the
spec says. -/
theorem of_agreement {settled : List (PassRecord kind)} (h : Carries settings spec status settled)
    (hsettled : ∀ record ∈ settled, record.FindsAgreement spec)
    (hsound : kind.policy.preservesOnValidationFailure = true →
      (phaseOf status).isFailed = false) :
    ∀ record ∈ settled,
      record.Quiet ∧ (spec.Declares status → record.result.outcome = .synced) := by
  induction settled generalizing status with
  | nil => simp
  | cons record rest ih =>
    obtain ⟨hlawful, rfl, rfl, hrest⟩ := h
    obtain ⟨hquiet, hphase, haddress, hsynced⟩ :=
      hlawful.of_agreement (hsettled record List.mem_cons_self) hsound
    have hothers := ih hrest (fun other hmem => hsettled other (List.mem_cons_of_mem record hmem))
      fun _ => congrArg Phase.isFailed hphase
    intro other hmem
    rcases List.mem_cons.mp hmem with rfl | hmem
    · exact ⟨hquiet, hsynced⟩
    · obtain ⟨hquiet, hsynced⟩ := hothers other hmem
      exact ⟨hquiet, fun hdeclares => hsynced (hdeclares.congr haddress)⟩

end Carries

/-- **A change whose answer is lost.** Let a pass over a valid spec lose the answer to a change, let
the passes after it find the backend at work, and those after them find the resource active and as
the spec asks for. None of them asks for anything, and the last ones are in agreement; for a
namespace this takes that what was reported to the first pass names the address. But if the resource
is a definition that was in a failed phase when the answer was lost, the first pass that finds it
active puts it again, unless it is cancelled. -/
theorem lost_answer_not_sent_again (backend : Backend σ) (settings : PassSettings)
    (spec : Spec kind) (hvalid : spec.problem? = none) (rounds : List (Round kind))
    (hrounds : ∀ round ∈ rounds, round.Resubmits spec) (resource : Resource kind) (state : σ)
    (lost : PassRecord kind) (waiting settled : List (PassRecord kind))
    (hhistory : history backend settings rounds resource state = lost :: (waiting ++ settled))
    (hlost : lost.LosesAnswer) (hwaiting : ∀ record ∈ waiting, record.FindsBusy)
    (hsettled : ∀ record ∈ settled, record.FindsAgreement spec) :
    (∀ record ∈ waiting, record.Quiet) ∧
      (¬ (kind = .alertManagerDefinition ∧ lost.FindsFailed) →
        ∀ record ∈ settled, record.Quiet ∧
          ((kind = .ruleGroupsNamespace → lost.NamesAddress) →
            record.result.outcome = .synced)) ∧
      (kind = .alertManagerDefinition → lost.FindsFailed → ∀ first rest, settled = first :: rest →
        first.result.outcome = .failed .cancelled ∨
          ∃ key, first.calls = [.describe key, .update (.put first.input.request)]) := by
  have hcarries := history_carries backend settings hrounds resource state
  rw [hhistory] at hcarries
  obtain ⟨hlawful, rfl, -, hrest⟩ := hcarries
  obtain ⟨_, _, _, _, hpass⟩ := hlawful.exists_lost hlost
  obtain ⟨hquiet, carried, hphase, haddress, hagrees⟩ := hrest.of_busy hwaiting
  refine ⟨hquiet, ?_, ?_⟩
  · intro hsound record hmem
    have hread : kind.policy.preservesOnValidationFailure = true →
        (phaseOf carried).isFailed = false := by
      intro hpreserves
      -- only a definition is read otherwise after a failed phase, and none was found
      have hkind : kind = .alertManagerDefinition := by
        cases kind <;> first | rfl | cases hpreserves
      subst hkind
      rw [hphase]
      by_contra hfailed
      exact hsound ⟨rfl, (hlawful.findsFailed_iff hlost).mpr (Bool.of_not_eq_false hfailed)⟩
    obtain ⟨hquiet, hsynced⟩ := hagrees.of_agreement hsettled hread record hmem
    exact ⟨hquiet, fun hnames => hsynced ((hpass.declares hnames).congr haddress)⟩
  · rintro rfl hfailed first rest rfl
    have hdeclares := (hpass.declares (by rintro ⟨⟩)).congr haddress
    obtain ⟨hfirst, hspec, rfl, -⟩ := hagrees
    rw [← hspec] at hvalid hsettled hdeclares
    refine hfirst.puts_again hvalid (hsettled first List.mem_cons_self) hdeclares ?_
    exact (congrArg Phase.isFailed hphase).trans ((hlawful.findsFailed_iff hlost).mp hfailed)

/-- A put of a namespace takes effect although it times out; it is waited for and then found. -/
theorem lost_answer_not_sent_again_rules :
    let spec : Spec .ruleGroupsNamespace := ⟨"rules", "ws-1", some "b", .empty⟩
    let found (code : String) (data : Bytes) : WireObject :=
      { WireObject.empty with status := some ⟨code, none⟩, data := some data }
    let script : Script :=
      { Script.empty with
        describes := [.ok (found "ACTIVE" [0x61]), .ok (found "UPDATING" [0x61]),
          .ok (found "ACTIVE" [0x62])]
        hanging := [2] }
    let settings := Settings.default.passSettings ⟨none, none⟩
    let round : Round .ruleGroupsNamespace :=
      ⟨fun resource => { resource with spec := spec }, .sync, "T", false⟩
    let first := round.run scripted settings ⟨.empty, spec, none⟩ script
    let second := round.run scripted settings first.1.result.resource first.2
    let third := round.run scripted settings second.1.result.resource second.2
    first.1.LosesAnswer ∧ second.1.FindsBusy ∧ third.1.FindsAgreement spec ∧
      second.1.Quiet ∧ third.1.Quiet ∧ third.1.result.outcome = .synced := by
  intro spec found script settings round first second third
  have hfirst : first.1.exchanges =
      [⟨.describe ⟨"ws-1", some "rules"⟩, .ok (some (found "ACTIVE" [0x61]))⟩,
        ⟨.update (.put first.1.input.request),
          .error (.timeout "PutRuleGroupsNamespace" settings.callTimeout)⟩] := by
    simp only [first, round, settings, script, found, spec]
    rfl
  have hsecond : second.1.exchanges =
      [⟨.describe ⟨"ws-1", some "rules"⟩, .ok (some (found "UPDATING" [0x61]))⟩] := by
    simp only [second, first, round, settings, script, found, spec]
    rfl
  have hthird : third.1.exchanges =
      [⟨.describe ⟨"ws-1", some "rules"⟩, .ok (some (found "ACTIVE" [0x62]))⟩] := by
    simp only [third, second, first, round, settings, script, found, spec]
    rfl
  have hlost : first.1.LosesAnswer := by
    refine ⟨rfl, _, _, hfirst ▸ List.mem_cons_of_mem _ List.mem_cons_self, ?_⟩
    trivial
  have hbusy : second.1.FindsBusy :=
    ⟨_, _, ⟨rfl, hsecond ▸ List.mem_cons_self⟩, .inr rfl⟩
  have hagreement : third.1.FindsAgreement spec :=
    ⟨_, _, ⟨rfl, hthird ▸ List.mem_cons_self⟩, rfl, rfl, by decide, rfl⟩
  obtain ⟨hquiet, hsettled, -⟩ := lost_answer_not_sent_again scripted settings spec (by decide)
    [round, round, round] (by simp [Round.Resubmits, round]) ⟨.empty, spec, none⟩ script first.1
    [second.1] [third.1] rfl hlost (by simpa using hbusy) (by simpa using hagreement)
  obtain ⟨hquiet', hsynced⟩ := hsettled (by simp) third.1 (by simp)
  have hnames : first.1.NamesAddress := by
    simp [PassRecord.NamesAddress, Faithful, hfirst, Exchange.report?, found, WireObject.empty]
  exact ⟨hlost, hbusy, hagreement, hquiet second.1 (by simp), hquiet', hsynced fun _ => hnames⟩

/-- A put of a definition that is in a failed phase takes effect although it times out. It is waited
for, and put once more when it is found. -/
theorem lost_definition_sent_again :
    let spec : Spec .alertManagerDefinition := ⟨"ws-1", some "b"⟩
    let found (code : String) (data : Bytes) : WireObject :=
      { WireObject.empty with status := some ⟨code, none⟩, data := some data }
    let script : Script :=
      { Script.empty with
        describes := [.ok (found "UPDATE_FAILED" [0x61]), .ok (found "UPDATING" [0x61]),
          .ok (found "ACTIVE" [0x62])]
        hanging := [2] }
    let settings := Settings.default.passSettings ⟨none, none⟩
    let round : Round .alertManagerDefinition :=
      ⟨fun resource => { resource with spec := spec }, .sync, "T", false⟩
    let first := round.run scripted settings ⟨.empty, spec, none⟩ script
    let second := round.run scripted settings first.1.result.resource first.2
    let third := round.run scripted settings second.1.result.resource second.2
    spec.problem? = none ∧
      history scripted settings [round, round, round] ⟨.empty, spec, none⟩ script =
        [first.1, second.1, third.1] ∧
      first.1.LosesAnswer ∧ second.1.FindsBusy ∧ third.1.FindsAgreement spec ∧
      third.1.calls =
        [.describe ⟨"ws-1", none⟩, .update (.put third.1.input.request)] := by
  intro spec found script settings round first second third
  have hfirst : first.1.exchanges =
      [⟨.describe ⟨"ws-1", none⟩, .ok (some (found "UPDATE_FAILED" [0x61]))⟩,
        ⟨.update (.put first.1.input.request),
          .error (.timeout "PutAlertManagerDefinition" settings.callTimeout)⟩] := by
    simp only [first, round, settings, script, found, spec]
    rfl
  have hsecond : second.1.exchanges =
      [⟨.describe ⟨"ws-1", none⟩, .ok (some (found "UPDATING" [0x61]))⟩] := by
    simp only [second, first, round, settings, script, found, spec]
    rfl
  have hthird : third.1.exchanges =
      [⟨.describe ⟨"ws-1", none⟩, .ok (some (found "ACTIVE" [0x62]))⟩,
        ⟨.update (.put third.1.input.request), .ok none⟩] := by
    simp only [third, second, first, round, settings, script, found, spec]
    rfl
  refine ⟨by decide, rfl, ⟨rfl, _, _, hfirst ▸ List.mem_cons_of_mem _ List.mem_cons_self, ?_⟩,
    ⟨_, _, ⟨rfl, hsecond ▸ List.mem_cons_self⟩, .inr rfl⟩,
    ⟨_, _, ⟨rfl, hthird ▸ List.mem_cons_self⟩, rfl, ?_⟩, ?_⟩
  · trivial
  · show some (Utf8.decode [0x62]) = some "b"
    decide
  · rw [PassRecord.calls, hthird]
    rfl

end ManagedPrometheus
