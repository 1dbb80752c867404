import ManagedPrometheus.Proofs.QuietPasses
import ManagedPrometheus.Proofs.Signals

/-!
# The freshest report wins

A pass hears of its resource up to four times: from the description, and from the answers to a
create or to changes. What it returns shows, of each thing that a report can say of the status, what
the last report said that spoke of it, also if a later call of the pass has failed. A code and its
reason are one such thing, so that neither is ever shown beside the other of another report.

A `StatusReading` is a thing that only reports change. How it fares along a pass is the same for all
of them (`PassRecord.Lawful.read_eq`): the exits that hand the input back are those that are
cancelled, and those that wait and have asked for nothing. What a create and changes do to it holds
of everything that `Follows` their answers.
-/

namespace ManagedPrometheus

variable {σ α : Type} {kind : Kind} {now : String} {settings : PassSettings}

/-! ### Last reports -/

/-- What was last said of a field by those of some reports that carry it. -/
def lastReported (field : WireObject → Option α) (reports : List WireObject) : Option α :=
  (reports.filterMap field).getLast?

theorem lastReported_cons (field : WireObject → Option α) (object : WireObject)
    (rest : List WireObject) :
    lastReported field (object :: rest) = (lastReported field rest <|> field object) := by
  rcases hfield : field object with _ | value
  · rw [lastReported, List.filterMap_cons_none hfield, ← lastReported]
    rcases lastReported field rest with _ | last <;> rfl
  · rw [lastReported, List.filterMap_cons_some hfield, List.getLast?_cons, ← lastReported]
    rcases lastReported field rest with _ | last <;> rfl

theorem getD_lastReported_cons (field : WireObject → Option α) (object : WireObject)
    (rest : List WireObject) (before : α) :
    (lastReported field (object :: rest)).getD before
      = (lastReported field rest).getD ((field object).getD before) := by
  rw [lastReported_cons]
  rcases lastReported field rest with _ | last <;> rfl

theorem lastReported_map {β : Type} (field : WireObject → Option α) (f : α → β)
    (reports : List WireObject) :
    lastReported (fun object => (field object).map f) reports
      = (lastReported field reports).map f := by
  rw [lastReported, lastReported, ← List.getLast?_map, List.map_filterMap]

theorem exists_of_lastReported {field : WireObject → Option α} {reports : List WireObject}
    {value : α} (h : lastReported field reports = some value) :
    ∃ object ∈ reports, field object = some value :=
  List.mem_filterMap.mp (List.mem_of_getLast? h)

/-- The reports that a pass has heard, in their order. -/
def PassRecord.reports (record : PassRecord kind) : List WireObject :=
  record.exchanges.filterMap Exchange.report?

/-- What a field holds after some exchanges: what the last report in them said that is heard and
carries it, or else what it held before. -/
def valueAfter (heard : Exchange → Option WireObject) (field : WireObject → Option α) (before : α)
    (exchanges : List Exchange) : α :=
  (lastReported field (exchanges.filterMap heard)).getD before

section

variable (heard : Exchange → Option WireObject) {field : WireObject → Option α}
variable {exchange : Exchange}

theorem valueAfter_cons_of_silent (h : heard exchange = none) (before : α)
    (rest : List Exchange) :
    valueAfter heard field before (exchange :: rest) = valueAfter heard field before rest := by
  rw [valueAfter, List.filterMap_cons_none h]
  rfl

theorem valueAfter_cons_of_heard {object : WireObject} (h : heard exchange = some object)
    (before : α) (rest : List Exchange) :
    valueAfter heard field before (exchange :: rest)
      = valueAfter heard field ((field object).getD before) rest := by
  rw [valueAfter, List.filterMap_cons_some h, getD_lastReported_cons]
  rfl

end

/-! ### Readings of a status -/

/-- A part of a status that a report replaces if it carries the field, and that nothing else
touches. -/
structure StatusReading (α : Type) where
  read : Status → α
  field : WireObject → Option α
  observe : ∀ status object, read (status.observe object) = (field object).getD (read status)
  bind : ∀ status key, read (status.bind key) = read status
  conditions : ∀ (status : Status) conditions, read { status with conditions } = read status
  withDefaults : ∀ status identity, read (status.withDefaults identity) = read status

namespace StatusReading

/-- The code with its reason. -/
def state : StatusReading (Option StatusCode × Option String) where
  read status := (status.statusCode, status.statusReason)
  field object := object.status.map fun wire => (some (.ofWire wire.code), wire.reason)
  observe status object := by
    rw [Status.observe]
    rcases object.status with _ | wire <;> rfl
  bind _ _ := rfl
  conditions _ _ := rfl
  withDefaults _ _ := rfl

/-- The backend's identifier. -/
def arn : StatusReading (Option String) where
  read := Status.arn?
  field object := object.arn.map some
  observe status object := by
    rw [Status.observe, Status.arn?]
    rcases object.arn with _ | arn <;> rfl
  bind _ _ := rfl
  conditions _ _ := rfl
  withDefaults := Status.arn?_withDefaults

/-- The endpoint that the backend has assigned. -/
def endpoint : StatusReading (Option String) where
  read := Status.prometheusEndpoint
  field object := object.prometheusEndpoint.map some
  observe status object := by
    rw [Status.observe]
    rcases object.prometheusEndpoint with _ | endpoint <;> rfl
  bind _ _ := rfl
  conditions _ _ := rfl
  withDefaults _ _ := rfl

variable (reading : StatusReading α)

/-- What a resource shows. -/
def of (resource : Resource kind) : α := reading.read resource.statusOrEmpty

@[simp] theorem of_foldResponse (resource : Resource kind) (object : WireObject) :
    reading.of (resource.foldResponse object) = (reading.field object).getD (reading.of resource) :=
  reading.observe resource.statusOrEmpty object

@[simp] theorem of_withStatusOf (desired latest : Resource kind) :
    reading.of (desired.withStatusOf latest) = reading.of latest := rfl

@[simp] theorem of_adoptCreated (desired : Resource kind) (object : WireObject) :
    reading.of (desired.adoptCreated object)
      = (reading.field object).getD (reading.of desired) := by
  rw [Resource.adoptCreated]
  split
  · exact (reading.bind _ _).trans (reading.of_foldResponse desired object)
  · exact reading.of_foldResponse desired object

@[simp] theorem of_snapshot (desired : Resource kind) (key : ResourceKey) (object : WireObject) :
    reading.of (desired.snapshot now key object)
      = (reading.field object).getD (reading.of desired) := by
  have hbound : reading.read ((desired.statusOrEmpty.observe object).bind key)
      = (reading.field object).getD (reading.of desired) := by
    rw [reading.bind, reading.observe]
    rfl
  simp only [Resource.snapshot, of, Resource.statusOrEmpty, Option.getD_some]
  split
  · exact (reading.conditions _ _).trans hbound
  · exact hbound

theorem of_conclude (input : Resource kind) {decision : Decision kind}
    (hcancelled : decision.outcome ≠ .failed .cancelled) :
    reading.of (input.conclude settings now decision).resource
      = reading.of decision.resource := by
  by_cases hdeleted : decision.outcome = .deleted
  · rw [Resource.conclude_of_deleted input hdeleted]
  · obtain ⟨conditions, hstatus⟩ := @Resource.exists_concludeStatus_eq kind settings now
      decision.outcome (settings.requeue.requeue kind.policy.terminalCodes decision.outcome)
      decision.resource.statusOrEmpty
    rw [of, Resource.conclude_statusOrEmpty input hdeleted hcancelled, hstatus,
      reading.withDefaults, reading.conditions]
    rfl

end StatusReading

/-! ### Waits that ask for nothing -/

theorem Settles.resource_of_wait {resource : Resource kind} {task : Task}
    {read : Except Failure (Option (Resource kind))} {decision : Decision kind}
    (h : Settles resource task read decision) {reason : WaitReason}
    (hwait : decision.outcome = .wait reason) : decision.resource = resource := by
  cases h with
  | unread => rfl
  | invalid => rfl
  | decided hdecides => exact hdecides.resource_of_wait hwait
  | unidentified => cases hwait
  | gone => rfl
  | blocked => rfl

/-- A pass that waits and has asked for nothing sums up its input. -/
theorem PassRecord.Lawful.result_of_quiet_wait {record : PassRecord kind}
    (h : record.Lawful settings) {reason : WaitReason}
    (hwait : record.result.outcome = .wait reason)
    (hquiet : ∀ call ∈ record.calls, call.mutates = false) :
    record.result
      = record.input.conclude settings record.now ⟨record.input, .wait reason⟩ := by
  have hended : record.result.outcome ≠ .failed .cancelled := by simp [hwait]
  obtain ⟨read, decision, -, hsettles, hresult⟩ := h.settles hquiet hended
  rw [hresult, Resource.conclude_outcome] at hwait
  have hresource := hsettles.resource_of_wait hwait
  obtain ⟨resource, outcome⟩ := decision
  obtain rfl : resource = record.input := hresource
  obtain rfl : outcome = .wait reason := hwait
  exact hresult

/-! ### Readings at the exits -/

/-- The answers to a create and to changes set what is read of a resource to what they report in a
field. -/
structure Follows (heard : Exchange → Option WireObject) (field : WireObject → Option α)
    (read : Resource kind → α) : Prop where
  hears : ∀ exchange : Exchange, exchange.call.mutates = true → heard exchange = exchange.report?
  foldResponse : ∀ resource object,
    read (resource.foldResponse object) = (field object).getD (read resource)
  adoptCreated : ∀ desired object,
    read (desired.adoptCreated object) = (field object).getD (read desired)

namespace Follows

variable {heard : Exchange → Option WireObject} {field : WireObject → Option α}
variable {read : Resource kind → α} {made : List Exchange} {decision : Decision kind}

theorem creates (hread : Follows heard field read) {desired : Resource kind}
    (h : Creates desired made decision) :
    read decision.resource = valueAfter heard field (read desired) made := by
  cases h with
  | invalid => rfl
  | refused => rfl
  | @failed failure _ =>
    have hsilent := hread.hears ⟨.create desired.createRequest, .error failure⟩ rfl
    rw [valueAfter_cons_of_silent heard hsilent]
    rfl
  | @created object _ =>
    have hheard := hread.hears ⟨.create desired.createRequest, .ok object⟩ rfl
    rw [Resource.settled_resource, hread.adoptCreated, valueAfter_cons_of_heard heard hheard]
    rfl

theorem applies (hread : Follows heard field read) {resource : Resource kind}
    {changes : List Mutation} (h : Applies resource changes made decision) :
    read decision.resource = valueAfter heard field (read resource) made := by
  induction h with
  | finished =>
    rw [Resource.settled_resource]
    rfl
  | refused => rfl
  | @failed _ mutation _ failure =>
    have hsilent := hread.hears ⟨.update mutation, .error failure⟩ rfl
    rw [valueAfter_cons_of_silent heard hsilent]
    rfl
  | @silent _ mutation _ _ _ _ ih =>
    have hsilent := hread.hears ⟨.update mutation, .ok none⟩ rfl
    rw [ih, valueAfter_cons_of_silent heard hsilent]
  | @reported _ mutation _ object _ _ _ ih =>
    have hheard := hread.hears ⟨.update mutation, .ok (some object)⟩ rfl
    rw [ih, hread.foldResponse, valueAfter_cons_of_heard heard hheard]

end Follows

theorem StatusReading.follows (reading : StatusReading α) :
    Follows Exchange.report? reading.field (reading.of : Resource kind → α) :=
  ⟨fun _ _ => rfl, reading.of_foldResponse, reading.of_adoptCreated⟩

/-- Whatever is decided at once, but for a wait, is decided with the latest status. -/
theorem DecidesAtOnce.resource_of_not_wait {desired latest : Resource kind}
    {decision : Decision kind} (h : DecidesAtOnce desired latest decision)
    (hacts : ∀ reason, decision.outcome ≠ .wait reason) :
    decision.resource = desired.withStatusOf latest := by
  cases h with
  | inProgress => exact absurd rfl (hacts _)
  | notActive => exact absurd rfl (hacts _)
  | latched => rfl
  | fixedChanged => rfl
  | failedUnchanged => rfl
  | agreed => rfl

/-- Some call of a series asks for a change. -/
def Acts (exchanges : List Exchange) : Prop :=
  ∃ call ∈ exchanges.map (·.call), call.mutates = true

theorem Syncs.read_eq {desired : Resource kind} {made : List Exchange} {decision : Decision kind}
    (h : Syncs now desired made decision) (reading : StatusReading α)
    (hacts : ∀ reason, decision.outcome = .wait reason → Acts made) :
    reading.of decision.resource
      = valueAfter Exchange.report? reading.field (reading.of desired) made := by
  cases h with
  | unread hreads => cases hreads <;> rfl
  | creating hreads hcreates =>
    rw [reading.follows.creates hcreates]
    cases hreads with
    | unaddressed => rfl
    | absent => rw [List.singleton_append, valueAfter_cons_of_silent Exchange.report? rfl]
  | @updating key object made _ _ hupdates =>
    let latest := desired.snapshot now key object
    have hlatest : reading.of (desired.withStatusOf latest)
        = (reading.field object).getD (reading.of desired) := reading.of_snapshot desired key object
    rw [valueAfter_cons_of_heard Exchange.report? rfl, ← hlatest]
    cases hupdates with
    | decided hdecided =>
      have hdecides := DecidesAtOnce.of_decideAtOnce hdecided
      rw [hdecides.resource_of_not_wait]
      · rfl
      · -- the description alone does not count as acting
        intro reason hwait
        obtain ⟨call, hcall, hmutates⟩ := hacts reason hwait
        obtain rfl := List.mem_singleton.mp hcall
        cases hmutates
    | unidentified => rfl
    | changing _ _ happlies => exact reading.follows.applies happlies

theorem Deletes.read_eq {resource : Resource kind} {made : List Exchange} {decision : Decision kind}
    (h : Deletes now resource made decision) (reading : StatusReading α)
    (hacts : ∀ reason, decision.outcome = .wait reason → Acts made) :
    reading.of decision.resource
      = valueAfter Exchange.report? reading.field (reading.of resource) made := by
  have hlatest (key : ResourceKey) (object : WireObject) :
      reading.of (resource.snapshot now key object)
        = valueAfter Exchange.report? reading.field (reading.of resource)
            [⟨.describe key, .ok (some object)⟩] := by
    rw [reading.of_snapshot, valueAfter_cons_of_heard Exchange.report? rfl]
    rfl
  cases h with
  | unaddressed => rfl
  | unread hreads => cases hreads <;> rfl
  | absent => rfl
  | blocked =>
    obtain ⟨call, hcall, hmutates⟩ := hacts _ rfl
    obtain rfl := List.mem_singleton.mp hcall
    cases hmutates
  -- the answer to the delete reports nothing
  | refused => exact hlatest _ _
  | failed => exact hlatest _ _
  | accepted => exact hlatest _ _

namespace PassRecord

variable {record : PassRecord kind}

theorem Lawful.read_eq (h : record.Lawful settings) (reading : StatusReading α)
    (hcancelled : record.result.outcome ≠ .failed .cancelled)
    (hacts : ∀ reason, record.result.outcome = .wait reason → Acts record.exchanges) :
    reading.of record.result.resource
      = valueAfter Exchange.report? reading.field (reading.of record.input) record.exchanges := by
  obtain ⟨decision, hresult, hexit⟩ := h.exit
  simp only [hresult, Resource.conclude_outcome] at hcancelled hacts
  rw [hresult, reading.of_conclude _ hcancelled]
  rcases hexit with ⟨-, hsyncs⟩ | ⟨-, hdeletes⟩
  · exact hsyncs.read_eq reading hacts
  · exact hdeletes.read_eq reading hacts

/-- However a pass ends, what it returns was read before it or reported in it. -/
theorem Lawful.read_or (h : record.Lawful settings) (reading : StatusReading α) :
    reading.of record.result.resource = reading.of record.input ∨
      ∃ object ∈ record.reports,
        reading.field object = some (reading.of record.result.resource) := by
  by_cases hcancelled : record.result.outcome = .failed .cancelled
  · obtain ⟨decision, hresult, -⟩ := h.exit
    rw [hresult, Resource.conclude_outcome] at hcancelled
    left
    rw [hresult, Resource.conclude_of_cancelled hcancelled]
  by_cases hacts : ∀ reason, record.result.outcome = .wait reason → Acts record.exchanges
  · have hread := h.read_eq reading hcancelled hacts
    rcases hlast : lastReported reading.field record.reports with _ | value
    · left
      rw [hread, valueAfter, ← reports, hlast, Option.getD_none]
    · right
      rw [hread, valueAfter, ← reports, hlast, Option.getD_some]
      exact exists_of_lastReported hlast
  · -- a wait that has asked for nothing hands the input back
    simp only [not_forall] at hacts
    obtain ⟨reason, hwait, hquiet⟩ := hacts
    left
    rw [h.result_of_quiet_wait hwait, reading.of_conclude _ (by simp)]
    intro call hcall
    by_contra hmutates
    exact hquiet ⟨call, hcall, Bool.of_not_eq_false hmutates⟩

/-- What a pass returns is what it was told last, or what it was given where it was told nothing. -/
structure ShowsLast (record : PassRecord kind) : Prop where
  state :
    (record.result.resource.statusOrEmpty.statusCode,
        record.result.resource.statusOrEmpty.statusReason)
      = match lastReported (·.status) record.reports with
        | some wire => (some (.ofWire wire.code), wire.reason)
        | none =>
          (record.input.statusOrEmpty.statusCode, record.input.statusOrEmpty.statusReason)
  arn : record.result.resource.statusOrEmpty.arn?
    = (lastReported (·.arn) record.reports <|> record.input.statusOrEmpty.arn?)
  endpoint : record.result.resource.statusOrEmpty.prometheusEndpoint
    = (lastReported (·.prometheusEndpoint) record.reports
        <|> record.input.statusOrEmpty.prometheusEndpoint)

/-- The code and the reason that a pass returns stood together before it, or in one report. -/
def PairsReason (record : PassRecord kind) : Prop :=
  let returned := record.result.resource.statusOrEmpty
  (returned.statusCode = record.input.statusOrEmpty.statusCode ∧
      returned.statusReason = record.input.statusOrEmpty.statusReason) ∨
    ∃ object ∈ record.reports, ∃ wire, object.status = some wire ∧
      returned.statusCode = some (.ofWire wire.code) ∧ returned.statusReason = wire.reason

theorem Lawful.showsLast (h : record.Lawful settings)
    (hcancelled : record.result.outcome ≠ .failed .cancelled)
    (hacts : ∀ reason, record.result.outcome = .wait reason → Acts record.exchanges) :
    record.ShowsLast := by
  have hread {α : Type} (reading : StatusReading α) :
      reading.of record.result.resource
        = (lastReported reading.field record.reports).getD (reading.of record.input) :=
    h.read_eq reading hcancelled hacts
  have hgetD (said before : Option String) : (said.map some).getD before = (said <|> before) := by
    cases said <;> rfl
  constructor
  case state =>
    refine (hread .state).trans ?_
    rw [show lastReported StatusReading.state.field record.reports
      = (lastReported (·.status) record.reports).map _ from lastReported_map _ _ _]
    rcases lastReported (·.status) record.reports with _ | wire <;> rfl
  case arn => exact (hread .arn).trans (by rw [← hgetD, ← lastReported_map]; rfl)
  case endpoint => exact (hread .endpoint).trans (by rw [← hgetD, ← lastReported_map]; rfl)

theorem Lawful.pairsReason (h : record.Lawful settings) : record.PairsReason := by
  rcases h.read_or .state with hsame | ⟨object, hobject, hreported⟩
  · exact .inl (Prod.mk.inj hsame)
  · obtain ⟨wire, hwire, hpair⟩ := Option.map_eq_some_iff.mp hreported
    obtain ⟨hcode, hreason⟩ := Prod.mk.inj hpair
    exact .inr ⟨object, hobject, wire, hwire, hcode.symm, hreason.symm⟩

end PassRecord

/-- **The freshest report wins, as a whole.** Take any pass of any history that is not cancelled
and does not wait without having asked for a change. The code and the reason that it returns are
those of the last report in it that had a code, also if a later call failed, and those it was given
if there was none; so are the identifier and the endpoint. No pass at all returns the code of one
report with the reason of another. -/
theorem history_showsLast (backend : Backend σ) (settings : PassSettings)
    (rounds : List (Round kind)) (resource : Resource kind) (state : σ) :
    ∀ record ∈ history backend settings rounds resource state,
      (record.result.outcome ≠ .failed .cancelled →
        (∀ reason, record.result.outcome = .wait reason →
          ∃ call ∈ record.calls, call.mutates = true) →
        record.ShowsLast) ∧
      record.PairsReason := by
  intro record hrecord
  have hlawful := history_lawful backend settings rounds resource state record hrecord
  exact ⟨hlawful.showsLast, hlawful.pairsReason⟩

/-- The description says one thing, the answer to the tags another, and the put after it fails. -/
theorem history_showsLast_refused_put :
    let rules : Resource .ruleGroupsNamespace :=
      ⟨.empty, ⟨"rules", "ws-1", some "groups: []", .ofList [("team", "infra")]⟩,
        some { Status.empty with prometheusEndpoint := some "https://aps/" }⟩
    let found : WireObject :=
      { WireObject.empty with arn := some "arn", status := some ⟨"ACTIVE", some "ready"⟩ }
    let tagged : WireObject := { WireObject.empty with status := some ⟨"UPDATING", none⟩ }
    let script : Script :=
      { Script.empty with
        describes := [.ok found]
        updates := [.ok (some tagged), .error (.api "ThrottlingException" "slow")] }
    let settings := Settings.default.passSettings ⟨none, none⟩
    let rounds : List (Round .ruleGroupsNamespace) := [⟨id, .sync, "T", false⟩]
    ∃ record ∈ history scripted settings rounds rules script,
      record.result.outcome
          = .failed (.backend "PutRuleGroupsNamespace" (.api "ThrottlingException" "slow")) ∧
        (let returned := record.result.resource.statusOrEmpty
        returned.statusCode = some .updating ∧ returned.statusReason = none ∧
          returned.arn? = some "arn" ∧ returned.prometheusEndpoint = some "https://aps/") ∧
        record.ShowsLast ∧ record.PairsReason := by
  intro rules found tagged script settings rounds
  have hmem : (Round.run scripted settings ⟨id, .sync, "T", false⟩ rules script).1 ∈
      history scripted settings rounds rules script := List.mem_cons_self
  have hfailed : (Round.run scripted settings ⟨id, .sync, "T", false⟩ rules script).1.result.outcome
      = .failed (.backend "PutRuleGroupsNamespace" (.api "ThrottlingException" "slow")) := by
    decide
  obtain ⟨hshows, hpairs⟩ := history_showsLast scripted settings rounds rules script _ hmem
  exact ⟨_, hmem, hfailed, by decide, hshows (by simp [hfailed]) (by simp [hfailed]), hpairs⟩

end ManagedPrometheus
