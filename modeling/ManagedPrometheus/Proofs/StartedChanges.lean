import ManagedPrometheus.Proofs.SyncedPhase

/-!
# Changes that the backend is at work on

A change that takes a while is answered with a phase at work, and until the work is done the backend
is not to be asked for another one. A pass looks at the phase before its first change and after its
last, but not in between. So it waits if the answer to its last change reports that the backend is
at work. If one of the changes before does, which is then a change of tags, the pass goes on to the
next change all the same (`GoesOn`), unless it is cancelled.
-/

namespace ManagedPrometheus

variable {σ : Type} {kind : Kind} {now : String} {settings : PassSettings} {phase : Phase}

/-- The phase that the backend is at work in by its answer to a create or a change. -/
def Exchange.started? (exchange : Exchange) : Option Phase :=
  if exchange.call.mutates then
    (exchange.report?.bind fun object =>
      object.code?.map fun code => Phase.ofCode (StatusCode.ofWire code)).filter (·.isTransient)
  else none

def Call.changesTags : Call → Bool
  | .update (.tag _ _) | .update (.untag _ _) => true
  | _ => false

/-- The mutating calls that a pass sets out to make once it has heard what there is. -/
def PassRecord.planned (record : PassRecord kind) : List Call :=
  match record.exchanges with
  | ⟨.describe key, .ok (some object)⟩ :: _ =>
    match record.input.mutations (record.input.snapshot record.now key object) with
    | .ok changes => changes.map .update
    | .error _ => []
  | _ => [.create record.input.createRequest]

/-- How a pass goes on when the backend has reported that it is at work and some calls are left. -/
inductive GoesOn (phase : Phase) : List Call → List Exchange → Outcome → Prop
  | waits : GoesOn phase [] [] (.wait (.inProgress phase))
  | cancelled {next : Call} {rest : List Call} :
      GoesOn phase (next :: rest) [] (.failed .cancelled)
  | asks {next : Call} {rest : List Call} {result : next.Result} {later : List Exchange}
      {outcome : Outcome} : GoesOn phase (next :: rest) (⟨next, result⟩ :: later) outcome

theorem GoesOn.eq_nil_iff {rest : List Call} {after : List Exchange} {outcome : Outcome}
    (h : GoesOn phase rest after outcome) :
    rest = [] ↔ after = [] ∧ outcome = .wait (.inProgress phase) := by
  cases h with
  | waits => simp
  | cancelled => simp
  | asks => simp

/-! ### Answers -/

theorem Exchange.exists_of_started {exchange : Exchange} (h : exchange.started? = some phase) :
    exchange.call.mutates = true ∧ phase.isTransient = true ∧
      ∃ object, exchange.report? = some object ∧ ∀ before : Phase, before.after object = phase := by
  rw [started?] at h
  split at h
  · rename_i hmutates
    obtain ⟨hreports, htransient⟩ := Option.filter_eq_some_iff.mp h
    obtain ⟨object, hreport, hcode⟩ := Option.bind_eq_some_iff.mp hreports
    obtain ⟨code, hsome, rfl⟩ := Option.map_eq_some_iff.mp hcode
    refine ⟨hmutates, htransient, object, hreport, ?_⟩
    intro before
    rw [Phase.after, hsome]
  · cases h

/-- It is not the answer to a reading. -/
theorem Exchange.notMem_of_started {exchange : Exchange} (h : exchange.started? = some phase)
    {desired : Resource kind} {read : List Exchange}
    {value : Except Failure (Option (Resource kind))} (hreads : Reads now desired read value) :
    exchange ∉ read := by
  intro hmem
  obtain ⟨key, -, hcall⟩ := hreads.mem_calls (List.mem_map_of_mem (f := (·.call)) hmem)
  have hmutates := (exchange.exists_of_started h).1
  rw [hcall] at hmutates
  cases hmutates

theorem Resource.settled_of_transient {resource : Resource kind} (hphase : resource.phase = phase)
    (htransient : phase.isTransient = true) :
    resource.settled.outcome = .wait (.inProgress phase) := by
  rw [settled, hphase, if_pos htransient]

/-! ### Creating and changing -/

theorem eq_of_singleton_eq_append {α : Type} {x y : α} {before after : List α}
    (h : [x] = before ++ y :: after) : before = [] ∧ y = x ∧ after = [] := by
  cases before with
  | nil =>
    obtain ⟨hx, hafter⟩ := List.cons.inj h
    exact ⟨rfl, hx.symm, hafter.symm⟩
  | cons => simp at h

/-- Nothing follows a create, so the pass waits. -/
theorem Creates.goesOn_of_started {desired : Resource kind} {made before after : List Exchange}
    {decision : Decision kind} {exchange : Exchange} (h : Creates desired made decision)
    (hmade : made = before ++ exchange :: after) (hstarted : exchange.started? = some phase) :
    before = [] ∧ exchange.call = .create desired.createRequest ∧
      GoesOn phase [] after decision.outcome := by
  obtain ⟨-, htransient, object, hreport, hafter⟩ := exchange.exists_of_started hstarted
  cases h with
  | invalid => simp at hmade
  | refused => simp at hmade
  | failed =>
    obtain ⟨rfl, rfl, rfl⟩ := eq_of_singleton_eq_append hmade
    cases hreport
  | created =>
    obtain ⟨rfl, rfl, rfl⟩ := eq_of_singleton_eq_append hmade
    obtain rfl := Option.some.inj hreport
    refine ⟨rfl, rfl, ?_⟩
    rw [Resource.settled_of_transient _ htransient]
    · exact .waits
    · rw [Resource.phase_adoptCreated, hafter]

/-- From a phase at work a series of changes goes on to its next one. -/
theorem Applies.goesOn {resource : Resource kind} {changes : List Mutation} {made : List Exchange}
    {decision : Decision kind} (h : Applies resource changes made decision)
    (hphase : resource.phase = phase) (htransient : phase.isTransient = true) :
    GoesOn phase (changes.map .update) made decision.outcome := by
  cases h with
  | finished =>
    rw [Resource.settled_of_transient hphase htransient]
    exact .waits
  | refused => exact .cancelled
  | failed => exact .asks
  | silent => exact .asks
  | reported => exact .asks

theorem Applies.goesOn_of_started {resource : Resource kind} {changes : List Mutation}
    {made : List Exchange} {decision : Decision kind} (h : Applies resource changes made decision)
    {before after : List Exchange} {exchange : Exchange}
    (hmade : made = before ++ exchange :: after) (hstarted : exchange.started? = some phase) :
    ∃ rest, changes.map .update = before.map (·.call) ++ exchange.call :: rest ∧
      GoesOn phase rest after decision.outcome := by
  obtain ⟨-, htransient, object, hreport, hafter⟩ := exchange.exists_of_started hstarted
  induction h generalizing before with
  | finished => simp at hmade
  | refused => simp at hmade
  | failed =>
    obtain ⟨rfl, rfl, rfl⟩ := eq_of_singleton_eq_append hmade
    cases hreport
  | silent _ ih =>
    cases before with
    | nil =>
      obtain ⟨rfl, rfl⟩ := List.cons.inj hmade
      cases hreport
    | cons first before =>
      obtain ⟨rfl, hrest⟩ := List.cons.inj hmade
      obtain ⟨rest, hchanges, hgoesOn⟩ := ih hrest
      exact ⟨rest, congrArg (List.cons _) hchanges, hgoesOn⟩
  | reported happlies ih =>
    cases before with
    | nil =>
      obtain ⟨rfl, rfl⟩ := List.cons.inj hmade
      obtain rfl := Option.some.inj hreport
      refine ⟨_, rfl, happlies.goesOn ?_ htransient⟩
      rw [Resource.phase_foldResponse, hafter]
    | cons first before =>
      obtain ⟨rfl, hrest⟩ := List.cons.inj hmade
      obtain ⟨rest, hchanges, hgoesOn⟩ := ih hrest
      exact ⟨rest, congrArg (List.cons _) hchanges, hgoesOn⟩

/-- Before the last of the changes that a pass sets out to make there are only changes of tags. -/
theorem changesTags_of_mem_dropLast {desired latest : Resource kind} {changes : List Mutation}
    (hmutations : desired.mutations latest = .ok changes) :
    ∀ call ∈ (changes.map Call.update).dropLast, call.changesTags = true := by
  obtain ⟨arn, rfl⟩ := exists_arn_of_mutations hmutations
  let change := TagChange.between latest.spec.tagsOrEmpty desired.spec.tagsOrEmpty
  have htags : ∀ mutation ∈ change.calls arn, (Call.update mutation).changesTags = true := by
    intro mutation hmem
    rcases List.mem_append.mp hmem with hmem | hmem
    · split at hmem
      · cases hmem
      · obtain rfl := List.mem_singleton.mp hmem
        rfl
    · split at hmem
      · cases hmem
      · obtain rfl := List.mem_singleton.mp hmem
        rfl
  have hinit : (desired.changes latest.spec arn).dropLast ⊆ change.calls arn := by
    rw [changes_eq]
    split
    · rw [List.append_nil]
      exact List.dropLast_subset _
    · rw [List.dropLast_concat]
      exact List.Subset.refl _
  intro call hcall
  rw [← List.map_dropLast] at hcall
  obtain ⟨mutation, hmem, rfl⟩ := List.mem_map.mp hcall
  exact htags mutation (hinit hmem)

/-! ### Whole passes -/

namespace PassRecord

variable {record : PassRecord kind} {before after : List Exchange} {exchange : Exchange}

/-- What has been read first is no part of what is answered later. -/
theorem exists_before_of_append {read made : List Exchange}
    (h : read ++ made = before ++ exchange :: after) (hread : exchange ∉ read) :
    ∃ others, before = read ++ others ∧ made = others ++ exchange :: after := by
  rcases List.append_eq_append_iff.mp h with ⟨others, hbefore, hmade⟩ | ⟨others, rfl, hmade⟩
  · exact ⟨others, hbefore, hmade⟩
  · cases others with
    | nil => exact ⟨[], by simp, hmade.symm⟩
    | cons first others =>
      obtain ⟨rfl, -⟩ := List.cons.inj hmade
      simp at hread

theorem planned_of_absent {read : List Exchange} (hreads : Reads now record.input read (.ok none))
    (hexchanges : record.exchanges = read ++ exchange :: after)
    (hcall : exchange.call = .create record.input.createRequest) :
    record.planned = [exchange.call] := by
  obtain ⟨call, result⟩ := exchange
  obtain rfl : call = .create record.input.createRequest := hcall
  rw [planned, hexchanges]
  cases hreads with
  | unaddressed => rfl
  | absent => rfl

theorem planned_of_found {key : ResourceKey} {object : WireObject} {made : List Exchange}
    {changes : List Mutation}
    (hexchanges : record.exchanges = ⟨.describe key, .ok (some object)⟩ :: made)
    (hmutations : record.input.mutations (record.input.snapshot record.now key object)
      = .ok changes) :
    record.planned = changes.map .update := by
  simp only [planned, hexchanges, hmutations]

theorem Lawful.goesOn (h : record.Lawful settings) (htask : record.task = .sync)
    (hexchanges : record.exchanges = before ++ exchange :: after)
    (hstarted : exchange.started? = some phase) :
    ∃ rest, record.planned
        = (before.map (·.call)).filter (·.mutates) ++ exchange.call :: rest ∧
      GoesOn phase rest after record.result.outcome ∧
      (rest ≠ [] → exchange.call.changesTags = true) := by
  obtain ⟨decision, hresult, ⟨-, hsyncs⟩ | ⟨hfinalize, -⟩⟩ := h.exit
  case inr => cases htask.symm.trans hfinalize
  rw [hresult, Resource.conclude_outcome]
  generalize hmade : record.exchanges = made at hsyncs
  rw [hmade] at hexchanges
  cases hsyncs with
  | unread hreads =>
    exact absurd (hexchanges ▸ List.mem_append_right before List.mem_cons_self)
      (exchange.notMem_of_started hstarted hreads)
  | creating hreads hcreates =>
    obtain ⟨others, rfl, hcreated⟩ :=
      exists_before_of_append hexchanges (exchange.notMem_of_started hstarted hreads)
    obtain ⟨rfl, hcall, hgoesOn⟩ := hcreates.goesOn_of_started hcreated hstarted
    refine ⟨[], ?_, hgoesOn, fun h => absurd rfl h⟩
    rw [hcreated] at hmade
    rw [planned_of_absent hreads hmade hcall]
    cases hreads with
    | unaddressed => rfl
    | absent => rfl
  | @updating key found made _ haddress hupdates =>
    have hsplit : [⟨.describe key, .ok (some found)⟩] ++ made = before ++ exchange :: after :=
      hexchanges
    have hreads : Reads record.now record.input [⟨.describe key, .ok (some found)⟩] _ :=
      .found haddress
    obtain ⟨others, rfl, hupdated⟩ :=
      exists_before_of_append hsplit (exchange.notMem_of_started hstarted hreads)
    cases hupdates with
    | decided => simp at hupdated
    | unidentified => simp at hupdated
    | @changing changes _ _ _ hmutations happlies =>
      obtain ⟨rest, hchanges, hgoesOn⟩ := happlies.goesOn_of_started hupdated hstarted
      have hplanned : record.planned = others.map (·.call) ++ exchange.call :: rest :=
        (planned_of_found hmade hmutations).trans hchanges
      refine ⟨rest, ?_, hgoesOn, ?_⟩
      · have hothers : ∀ call ∈ others.map (·.call), call.mutates = true := by
          intro call hmem
          have hplan : call ∈ changes.map Call.update := hchanges ▸ List.mem_append_left _ hmem
          obtain ⟨mutation, -, rfl⟩ := List.mem_map.mp hplan
          rfl
        rw [hplanned, List.map_append, List.filter_append, List.filter_eq_self.mpr hothers]
        rfl
      · intro hrest
        apply changesTags_of_mem_dropLast hmutations
        rw [hchanges, List.dropLast_append_of_ne_nil (List.cons_ne_nil _ _),
          List.dropLast_cons_of_ne_nil hrest]
        exact List.mem_append_right _ List.mem_cons_self

end PassRecord

/-- **What follows a change that the backend is at work on.** Take any pass of any history over a
resource that is to exist, and in it a create or a change that is answered with a phase at work. If
it is the last of the calls that the pass has set out to make, nothing is asked for after it and the
pass waits for that phase. Otherwise it is a change of tags, and the next of these calls is made
unless the pass is cancelled. -/
theorem history_goesOn (backend : Backend σ) (settings : PassSettings) (rounds : List (Round kind))
    (resource : Resource kind) (state : σ) :
    ∀ record ∈ history backend settings rounds resource state, record.task = .sync →
      ∀ before exchange after phase, record.exchanges = before ++ exchange :: after →
        exchange.started? = some phase →
        ∃ rest, record.planned
            = (before.map (·.call)).filter (·.mutates) ++ exchange.call :: rest ∧
          GoesOn phase rest after record.result.outcome ∧
          (rest = [] ↔ after = [] ∧ record.result.outcome = .wait (.inProgress phase)) ∧
          (rest ≠ [] → exchange.call.changesTags = true) := by
  intro record hrecord htask before exchange after phase hexchanges hstarted
  have hlawful := history_lawful backend settings rounds resource state record hrecord
  obtain ⟨rest, hplanned, hgoesOn, htags⟩ := hlawful.goesOn htask hexchanges hstarted
  exact ⟨rest, hplanned, hgoesOn, hgoesOn.eq_nil_iff, htags⟩

/-- The alias is changed, and the backend is at work on that: the pass waits. -/
theorem history_goesOn_put :
    let workspace : Resource .workspace := ⟨.empty, ⟨some "new", none, .empty⟩,
      some { Status.empty with workspaceId := some "ws-1" }⟩
    let found : WireObject :=
      { WireObject.empty with workspaceAlias := some "old", status := some ⟨"ACTIVE", none⟩ }
    let busy : WireObject := { WireObject.empty with status := some ⟨"UPDATING", none⟩ }
    let script : Script := { Script.empty with describes := [.ok found], updates := [.ok busy] }
    let settings := Settings.default.passSettings ⟨none, none⟩
    let rounds : List (Round .workspace) := [⟨id, .sync, "T", false⟩]
    ∃ record ∈ history scripted settings rounds workspace script,
      record.task = .sync ∧
        ∃ before exchange, record.exchanges = before ++ [exchange] ∧
          exchange.call = .update (.put record.input.request) ∧
          exchange.started? = some .updating ∧
          record.result.outcome = .wait (.inProgress .updating) := by
  intro workspace found busy script settings rounds
  let record := (Round.run scripted settings ⟨id, .sync, "T", false⟩ workspace script).1
  have hmem : record ∈ history scripted settings rounds workspace script := List.mem_cons_self
  have hexchanges : record.exchanges = [⟨.describe ⟨"ws-1", none⟩, .ok (some found)⟩] ++
      [⟨.update (.put record.input.request), .ok (some busy)⟩] := by
    simp only [record, settings, script, found, busy, workspace]
    rfl
  obtain ⟨rest, -, -, hstops, htags⟩ := history_goesOn scripted settings rounds workspace script
    record hmem rfl _ _ [] .updating hexchanges (by decide)
  have hlast : rest = [] := by
    apply Decidable.byContradiction
    intro hrest
    cases htags hrest
  exact ⟨record, hmem, rfl, _, _, hexchanges, rfl, by decide, (hstops.mp hlast).2⟩

/-- The tags of a workspace are set, the backend is at work on that, and the alias is changed all
the same. And between the two changes of tags of some rules it is no different. -/
theorem changes_after_started_tags :
    let settings := Settings.default.passSettings ⟨none, none⟩
    let busy : WireObject := { WireObject.empty with status := some ⟨"UPDATING", none⟩ }
    let workspace : Resource .workspace :=
      ⟨.empty, ⟨some "new", none, .ofList [("team", "infra")]⟩,
        some { Status.empty with workspaceId := some "ws-1" }⟩
    let found : WireObject :=
      { WireObject.empty with
        arn := some "arn", workspaceAlias := some "old", status := some ⟨"ACTIVE", none⟩ }
    let renamed := (Round.run scripted settings ⟨id, .sync, "T", false⟩ workspace
      { Script.empty with describes := [.ok found], updates := [.ok busy] }).1
    let rules : Resource .ruleGroupsNamespace :=
      ⟨.empty, ⟨"rules", "ws-1", some "groups: []", .ofList [("team", "infra")]⟩, none⟩
    let tagged : WireObject :=
      { WireObject.empty with
        arn := some "arn", status := some ⟨"ACTIVE", none⟩
        data := some (Utf8.encode "groups: []"), tags := some (.ofList [("owner", "ops")]) }
    let retagged := (Round.run scripted settings ⟨id, .sync, "T", false⟩ rules
      { Script.empty with describes := [.ok tagged], updates := [.ok busy] }).1
    (renamed.exchanges.map (·.started?) = [none, some .updating, none] ∧
      renamed.calls = [.describe ⟨"ws-1", none⟩, .update (.tag "arn" (.ofList [("team", "infra")])),
        .update (.put workspace.request)]) ∧
    retagged.exchanges.map (·.started?) = [none, some .updating, none] ∧
      retagged.calls = [.describe ⟨"ws-1", some "rules"⟩, .update (.untag "arn" ["owner"]),
        .update (.tag "arn" (.ofList [("team", "infra")]))] := by
  decide

end ManagedPrometheus
