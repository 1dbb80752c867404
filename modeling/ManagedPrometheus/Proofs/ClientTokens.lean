import ManagedPrometheus.Amp
import ManagedPrometheus.Proofs.Binding
import ManagedPrometheus.Proofs.JsonRecords
import ManagedPrometheus.Proofs.UpdateTrace
import ManagedPrometheus.Script

/-!
# Client tokens

A create whose answer got lost is sent again, and so is one whose answer was never stored. That this
makes no second workspace rests on the token of the request: it is the uid of the object, which no
pass changes, so it does not depend on the spec, on the status or on what came of the attempts
before. Every create of a workspace carries it, on each path that reaches the call.

What a service makes of tokens is said by `Backend.TellsRepeats`, of any backend that keeps an
account of the workspaces it has made. Against such a backend a whole history makes at most one
(`history_one_workspace`): `OneMore` compares the accounts before and after a call, and as it is
transitive, those before and after a pass and a history.
-/

namespace ManagedPrometheus

variable {σ α : Type} {kind : Kind} {now : String} {settings : PassSettings}

/-! ### The metadata of a resource -/

theorem Resource.metadata_adoptCreated (desired : Resource kind) (object : WireObject) :
    (desired.adoptCreated object).metadata = desired.metadata := by
  unfold adoptCreated
  split <;> rfl

theorem Creates.metadata_eq {desired : Resource kind} {made : List Exchange}
    {decision : Decision kind} (h : Creates desired made decision) :
    decision.resource.metadata = desired.metadata := by
  cases h with
  | invalid => rfl
  | refused => rfl
  | failed => rfl
  | created => rw [Resource.settled_resource, Resource.metadata_adoptCreated]

theorem Applies.metadata_eq {resource : Resource kind} {changes : List Mutation}
    {made : List Exchange} {decision : Decision kind} (h : Applies resource changes made decision) :
    decision.resource.metadata = resource.metadata := by
  induction h with
  | finished => rw [Resource.settled_resource]
  | refused => rfl
  | failed => rfl
  | silent _ ih => exact ih
  | reported _ ih => exact ih

theorem Updates.metadata_eq {desired latest : Resource kind} {made : List Exchange}
    {decision : Decision kind} (h : Updates desired latest made decision) :
    decision.resource.metadata = desired.metadata := by
  cases h with
  | decided hdecided =>
    rcases Resource.decideAtOnce_resource hdecided with hresource | hresource
    · rw [hresource]
    · rw [hresource]
      rfl
  | unidentified => rfl
  | changing _ _ happlies => exact happlies.metadata_eq

theorem Syncs.metadata_eq {desired : Resource kind} {made : List Exchange}
    {decision : Decision kind} (h : Syncs now desired made decision) :
    decision.resource.metadata = desired.metadata := by
  cases h with
  | unread => rfl
  | creating _ hcreates => exact hcreates.metadata_eq
  | updating _ hupdates => exact hupdates.metadata_eq

theorem Deletes.metadata_eq {resource : Resource kind} {made : List Exchange}
    {decision : Decision kind} (h : Deletes now resource made decision) :
    decision.resource.metadata = resource.metadata := by
  cases h <;> rfl

theorem Resource.metadata_conclude (input : Resource kind) {decision : Decision kind}
    (h : decision.resource.metadata = input.metadata) :
    (input.conclude settings now decision).resource.metadata = input.metadata := by
  by_cases hdeleted : decision.outcome = .deleted
  · rw [conclude_of_deleted input hdeleted, h]
  by_cases hcancelled : decision.outcome = .failed .cancelled
  · rw [conclude_of_cancelled hcancelled]
  · rw [conclude_of_entered input hdeleted hcancelled]
    exact h

/-- No pass changes the metadata of its resource. -/
theorem PassRecord.Lawful.metadata_eq {record : PassRecord kind} (h : record.Lawful settings) :
    record.result.resource.metadata = record.input.metadata := by
  obtain ⟨decision, hresult, ⟨-, hsyncs⟩ | ⟨-, hdeletes⟩⟩ := h.exit
  · rw [hresult]
    exact record.input.metadata_conclude hsyncs.metadata_eq
  · rw [hresult]
    exact record.input.metadata_conclude hdeletes.metadata_eq

/-! ### The token of a create -/

theorem PassRecord.Lawful.clientToken_eq {record : PassRecord kind} (h : record.Lawful settings)
    {request : Request} (hmem : .create request ∈ record.calls) :
    request.clientToken = record.input.metadata.uid := by
  obtain ⟨decision, -, ⟨-, hsyncs⟩ | ⟨-, hdeletes⟩⟩ := h.exit
  · obtain ⟨-, rfl⟩ := hsyncs.of_create_call hmem
    rfl
  · obtain ⟨_, _, hcall | hcall⟩ := hdeletes.mem_calls hmem <;> cases hcall

/-- A token is sent as it is, and not replaced by a fresh one. -/
theorem Amp.request_carries_token {request : Request} {token : String}
    (htoken : request.clientToken = some token) (freshToken : String) :
    ∃ sent body, Amp.request freshToken .workspace (.create request) = .ok sent ∧
      sent.body = some body ∧ body.get? "clientToken" = some (.text token) := by
  have hsent : Amp.request freshToken .workspace (.create request)
      = .ok ⟨.post, ["workspaces"], [], some (Json.recordSome [
          ("alias", request.workspaceAlias.map .text), ("kmsKeyArn", request.kmsKeyArn.map .text),
          Amp.tagsField request.tags,
          ("clientToken", some (.text (request.clientToken.getD freshToken)))])⟩ := rfl
  rw [htoken, Option.getD_some] at hsent
  refine ⟨_, _, hsent, rfl, ?_⟩
  rw [Json.get?, Json.findEntry_recordSome (by simp [Amp.tagsField])]
  simp [findEntry, Amp.tagsField]

/-- A round in which the object stays the one of a uid, whatever else of it is edited. -/
def Round.KeepsUid (uid : String) (round : Round kind) : Prop :=
  ∀ resource, resource.metadata.uid = some uid → (round.edit resource).metadata.uid = some uid

theorem Round.run_clientToken {round : Round kind} {uid : String} (hround : round.KeepsUid uid)
    {resource : Resource kind} (huid : resource.metadata.uid = some uid) (backend : Backend σ)
    (settings : PassSettings) (state : σ) {request : Request}
    (hmem : .create request ∈ (round.run backend settings resource state).1.calls) :
    request.clientToken = some uid := by
  rw [(round.run_lawful backend settings resource state).clientToken_eq hmem]
  exact hround resource huid

theorem Round.run_uid {round : Round kind} {uid : String} (hround : round.KeepsUid uid)
    {resource : Resource kind} (huid : resource.metadata.uid = some uid) (backend : Backend σ)
    (settings : PassSettings) (state : σ) :
    (round.run backend settings resource state).1.result.resource.metadata.uid = some uid := by
  rw [(round.run_lawful backend settings resource state).metadata_eq]
  exact hround resource huid

/-! ### Services that tell repeated creates -/

/-- A workspace that was made, with the token of the create that it was made for. -/
structure MadeWorkspace where
  token : Option String
  id : String
  deriving DecidableEq, Repr

/-- A backend tells repeated creates by their tokens; `made` is its account of the workspaces it has
made. Only a create makes one, and none if there is one for its token already. An answer to a create
with a token names the workspace that was made for the token. Whether a create takes effect and
whether its answer arrives is left open, and so is all that others do. -/
structure Backend.TellsRepeats (backend : Backend σ) (made : σ → List MadeWorkspace) : Prop where
  other : ∀ call state, (∀ request, call ≠ .create request) →
    made (backend.answer .workspace call state).2 = made state
  create : ∀ request state,
    made (backend.answer .workspace (.create request) state).2 = made state ∨
      (request.clientToken = none ∨
          ∀ workspace ∈ made state, workspace.token ≠ request.clientToken) ∧
        ∃ id, made (backend.answer .workspace (.create request) state).2
          = made state ++ [⟨request.clientToken, id⟩]
  answer : ∀ request state object token, request.clientToken = some token →
    (backend.answer .workspace (.create request) state).1.reply = some (.ok object) →
      ∃ workspace ∈ made (backend.answer .workspace (.create request) state).2,
        workspace.token = some token ∧ object.workspaceId = some workspace.id

/-- At most one workspace more, made for a token for which there was none. -/
def OneMore (token : String) (earlier later : List MadeWorkspace) : Prop :=
  later = earlier ∨
    (∀ workspace ∈ earlier, workspace.token ≠ some token) ∧
      ∃ id, later = earlier ++ [⟨some token, id⟩]

namespace OneMore

variable {token : String} {a b c : List MadeWorkspace}

theorem refl (a : List MadeWorkspace) : OneMore token a a := .inl rfl

theorem subset (h : OneMore token a b) : a ⊆ b := by
  rcases h with rfl | ⟨-, id, rfl⟩
  · exact List.Subset.refl _
  · exact List.subset_append_left a _

/-- After the one there is no further one, as there is one for the token now. -/
theorem trans (h : OneMore token a b) (h' : OneMore token b c) : OneMore token a c := by
  rcases h with rfl | ⟨hnone, id, rfl⟩
  · exact h'
  · rcases h' with rfl | ⟨hnone', -⟩
    · exact .inr ⟨hnone, id, rfl⟩
    · exact absurd rfl (hnone' ⟨some token, id⟩ (by simp))

end OneMore

/-- A create that succeeded was answered with a workspace of the account that was made for the
token. -/
def Exchange.NamesMade (token : String) (account : List MadeWorkspace) (exchange : Exchange) :
    Prop :=
  ∀ request object, exchange = ⟨.create request, .ok object⟩ →
    ∃ workspace ∈ account, workspace.token = some token ∧
      object.workspaceId = some workspace.id

theorem Exchange.NamesMade.mono {token : String} {earlier later : List MadeWorkspace}
    {exchange : Exchange} (h : exchange.NamesMade token earlier) (hsubset : earlier ⊆ later) :
    exchange.NamesMade token later := by
  intro request object hexchange
  obtain ⟨workspace, hmem, hnames⟩ := h request object hexchange
  exact ⟨workspace, hsubset hmem, hnames⟩

namespace Backend.TellsRepeats

variable {backend : Backend σ} {made : σ → List MadeWorkspace} {token : String}

/-- What one call does to the account. -/
theorem oneMore_answer (h : backend.TellsRepeats made) {call : Call}
    (htoken : ∀ request, call = .create request → request.clientToken = some token) (state : σ) :
    OneMore token (made state) (made (backend.answer .workspace call state).2) := by
  by_cases hcreate : ∃ request, call = .create request
  · obtain ⟨request, rfl⟩ := hcreate
    have hrequest := htoken request rfl
    rcases h.create request state with hsame | ⟨hnone | hnone, id, hmade⟩
    · exact .inl hsame
    · cases hrequest.symm.trans hnone
    · rw [hrequest] at hnone hmade
      exact .inr ⟨hnone, id, hmade⟩
  · exact .inl (h.other call state fun request hcall => hcreate ⟨request, hcall⟩)

theorem namesMade_answer (h : backend.TellsRepeats made) {call : Call}
    (htoken : ∀ request, call = .create request → request.clientToken = some token)
    (limit : Duration) (state : σ) :
    Exchange.NamesMade token (made (backend.answer .workspace call state).2)
      ⟨call, Session.resultOf (call.api .workspace) limit (backend.answer .workspace call state).1⟩
    := by
  intro request object hexchange
  obtain ⟨rfl, hresult⟩ := Exchange.mk.inj hexchange
  exact h.answer request state object token (htoken request rfl)
    (Session.resultOf_eq_ok_iff.mp (eq_of_heq hresult))

/-- What a pass does to the account, if its creates carry the token. -/
theorem run_pass (h : backend.TellsRepeats made) (limit : Duration) (pass : Pass α) (state : σ)
    (cancelled : Bool) :
    let ended := ((Session.start state cancelled).run backend .workspace limit pass).2
    (∀ request, .create request ∈ ended.calls → request.clientToken = some token) →
      OneMore token (made state) (made ended.backend) ∧
        ∀ exchange ∈ ended.exchanges, exchange.NamesMade token (made ended.backend) := by
  intro ended htoken
  apply Session.run_induction backend .workspace limit pass
    (motive := fun session => OneMore token (made state) (made session.backend) ∧
      ∀ exchange ∈ session.exchanges, exchange.NamesMade token (made session.backend))
  · constructor
    · exact .refl _
    · simp [Session.start]
  · rintro call hcall before hrunning ⟨honce, hnames⟩
    have hcreate : ∀ request, call = .create request → request.clientToken = some token := by
      intro request hrequest
      exact htoken request (hrequest ▸ hcall)
    have hmore := h.oneMore_answer hcreate before.backend
    have hperform : Session.perform backend .workspace limit call before
        = (Session.resultOf (call.api .workspace) limit
            (backend.answer .workspace call before.backend).1,
          ⟨(backend.answer .workspace call before.backend).2,
            (backend.answer .workspace call before.backend).1.cancels,
            before.exchanges ++ [⟨call, Session.resultOf (call.api .workspace) limit
              (backend.answer .workspace call before.backend).1⟩]⟩) := by
      simp [Session.perform, hrunning]
    rw [hperform]
    constructor
    · exact honce.trans hmore
    · intro exchange hexchange
      rcases List.mem_append.mp hexchange with hearlier | hlast
      · exact (hnames exchange hearlier).mono hmore.subset
      · obtain rfl := List.mem_singleton.mp hlast
        exact h.namesMade_answer hcreate limit before.backend

/-- What a round does to the account. -/
theorem run_round (h : backend.TellsRepeats made) {round : Round .workspace}
    (hround : round.KeepsUid token) {resource : Resource .workspace}
    (huid : resource.metadata.uid = some token) (settings : PassSettings) (state : σ) :
    OneMore token (made state) (made (round.run backend settings resource state).2) ∧
      ∀ exchange ∈ (round.run backend settings resource state).1.exchanges,
        exchange.NamesMade token (made (round.run backend settings resource state).2) := by
  apply h.run_pass settings.callTimeout
  intro request hcall
  exact round.run_clientToken hround huid backend settings state hcall

end Backend.TellsRepeats

/-! ### A registry of workspaces -/

/-- A service that makes workspaces and nothing else. -/
structure WorkspaceRegistry where
  made : List MadeWorkspace
  /-- Whether the answer to each create to come gets lost; those after the last arrive. -/
  losses : List Bool

namespace WorkspaceRegistry

/-- What is reported of a workspace. -/
def report (workspace : MadeWorkspace) : WireObject :=
  { WireObject.empty with
    workspaceId := some workspace.id
    status := some ⟨"ACTIVE", none⟩ }

/-- The workspace for a token, if one was made for it. -/
def lookup (registry : WorkspaceRegistry) : Option String → Option MadeWorkspace
  | some token => registry.made.find? fun workspace => workspace.token = some token
  | none => none

/-- The workspace that a create is answered with: the one that was made for its token, else a new
one. -/
def register (registry : WorkspaceRegistry) (token : Option String) :
    MadeWorkspace × List MadeWorkspace :=
  match registry.lookup token with
  | some workspace => (workspace, registry.made)
  | none =>
    let workspace : MadeWorkspace := ⟨token, "ws-" ++ toString registry.made.length⟩
    (workspace, registry.made ++ [workspace])

/-- Answers a call. A create takes effect also if its answer is lost. -/
def answer (registry : WorkspaceRegistry) : (call : Call) → Answer call.Reply × WorkspaceRegistry
  | .describe key =>
    let found := registry.made.find? fun workspace => workspace.id = key.workspaceId
    (⟨some (.ok (found.map report)), false⟩, registry)
  | .create request =>
    let (workspace, made) := registry.register request.clientToken
    let (lost, losses) := Script.next false registry.losses
    (⟨if lost then none else some (.ok (report workspace)), false⟩, ⟨made, losses⟩)
  | .update _ => (⟨some (.ok none), false⟩, registry)
  | .delete _ => (⟨some (.ok ()), false⟩, registry)

def backend : Backend WorkspaceRegistry := ⟨fun _ call registry => registry.answer call⟩

theorem lookup_eq_some {registry : WorkspaceRegistry} {token : Option String}
    {workspace : MadeWorkspace} (h : registry.lookup token = some workspace) :
    workspace ∈ registry.made ∧ workspace.token = token := by
  cases token with
  | none => cases h
  | some token =>
    constructor
    · exact List.mem_of_find?_eq_some h
    · simpa using List.find?_some h

theorem lookup_eq_none {registry : WorkspaceRegistry} {token : Option String}
    (h : registry.lookup token = none) :
    token = none ∨ ∀ workspace ∈ registry.made, workspace.token ≠ token := by
  cases token with
  | none => exact .inl rfl
  | some token =>
    right
    intro workspace hmem
    simpa using List.find?_eq_none.mp h workspace hmem

theorem tellsRepeats : backend.TellsRepeats made where
  other := by
    intro call registry hcall
    cases call with
    | create request => exact absurd rfl (hcall request)
    | describe => rfl
    | update => rfl
    | delete => rfl
  create := by
    intro request registry
    have hmade : made (backend.answer .workspace (.create request) registry).2
        = (registry.register request.clientToken).2 := rfl
    rw [hmade, register]
    rcases hfound : registry.lookup request.clientToken with _ | workspace
    · exact .inr ⟨lookup_eq_none hfound, _, rfl⟩
    · exact .inl rfl
  answer := by
    intro request registry object token htoken hreply
    have hmade : made (backend.answer .workspace (.create request) registry).2
        = (registry.register request.clientToken).2 := rfl
    have hobject : object = report (registry.register request.clientToken).1 := by
      have hanswer : (backend.answer .workspace (.create request) registry).1.reply
          = if (Script.next false registry.losses).1 then none
            else some (Except.ok (report (registry.register request.clientToken).1)) := rfl
      rw [hanswer] at hreply
      split at hreply
      · cases hreply
      · exact (Except.ok.inj (Option.some.inj hreply)).symm
    rw [hmade, hobject, htoken]
    refine ⟨(registry.register (some token)).1, ?_, ?_, rfl⟩
    all_goals
      rcases hfound : registry.lookup (some token) with _ | workspace
      · simp [register, hfound]
      · simp [register, hfound, lookup_eq_some hfound]

end WorkspaceRegistry

/-! ### Histories -/

/-- However passes over one workspace follow on each other, each create that is sent carries its uid
as the token, and a service that tells repeated creates by it makes one workspace at the most. The
answers to creates all name the one that was made for the uid. An edit may replace the spec, and may
put back the status that the resource had at first or after any pass. -/
theorem history_one_workspace (backend : Backend σ) (settings : PassSettings) {uid : String}
    (rounds : List (Round .workspace)) (hrounds : ∀ round ∈ rounds, round.KeepsUid uid)
    (resource : Resource .workspace) (huid : resource.metadata.uid = some uid) (state : σ) :
    (∀ record ∈ history backend settings rounds resource state,
      ∀ request, .create request ∈ record.calls →
        request.clientToken = some uid ∧
          ∀ freshToken, ∃ sent body,
            Amp.request freshToken .workspace (.create request) = .ok sent ∧
              sent.body = some body ∧ body.get? "clientToken" = some (.text uid)) ∧
      ∀ made, backend.TellsRepeats made →
        OneMore uid (made state) (made (stateAfter backend settings rounds resource state)) ∧
          ∀ record ∈ history backend settings rounds resource state,
            ∀ exchange ∈ record.exchanges,
              exchange.NamesMade uid (made (stateAfter backend settings rounds resource state)) := by
  induction rounds generalizing resource state with
  | nil =>
    constructor
    · simp [history]
    · intro made _
      constructor
      · exact .refl _
      · simp [history]
  | cons round rest ih =>
    have hround := hrounds round List.mem_cons_self
    obtain ⟨htokens, haccount⟩ := ih (fun other hother => hrounds other (.tail _ hother)) _
      (round.run_uid hround huid backend settings state)
      (round.run backend settings resource state).2
    constructor
    · intro record hrecord request hcall
      rcases List.mem_cons.mp hrecord with rfl | hrecord
      · have htoken := round.run_clientToken hround huid backend settings state hcall
        exact ⟨htoken, Amp.request_carries_token htoken⟩
      · exact htokens record hrecord request hcall
    · intro made htells
      obtain ⟨hmore, hnames⟩ := htells.run_round hround huid settings state
      obtain ⟨hrest, hothers⟩ := haccount made htells
      constructor
      · exact hmore.trans hrest
      · intro record hrecord exchange hexchange
        rcases List.mem_cons.mp hrecord with rfl | hrecord
        · exact (hnames exchange hexchange).mono hrest.subset
        · exact hothers record hrecord exchange hexchange

/-- The answer to the first create is lost and nothing is stored; the alias is edited meanwhile. The
second pass is told of the workspace, but its status is lost too. -/
theorem history_one_workspace_of_lost :
    let original : Resource .workspace :=
      ⟨{ Metadata.empty with uid := some "u" }, ⟨some "a", none, .empty⟩, none⟩
    let attempt (name : String) : Round .workspace :=
      ⟨fun resource => { resource with
        spec := { resource.spec with workspaceAlias := some name }, status := none },
        .sync, "T", false⟩
    let rounds := [attempt "a", attempt "b", attempt "c"]
    let settings := Settings.default.passSettings ⟨none, none⟩
    let records := history WorkspaceRegistry.backend settings rounds original ⟨[], [true]⟩
    let final := stateAfter WorkspaceRegistry.backend settings rounds original ⟨[], [true]⟩
    (∀ round ∈ rounds, round.KeepsUid "u") ∧
      original.metadata.uid = some "u" ∧
      WorkspaceRegistry.backend.TellsRepeats WorkspaceRegistry.made ∧
      OneMore "u" [] final.made ∧
      final.made = [⟨some "u", "ws-0"⟩] ∧
      records.map (·.calls.length) = [1, 1, 1] ∧
      records.map (·.result.outcome)
        = [.failed (.timeout "CreateWorkspace" settings.callTimeout), .synced, .synced] ∧
      ∀ record ∈ records, ∀ exchange ∈ record.exchanges, exchange.NamesMade "u" final.made := by
  intro original attempt rounds settings records final
  have hrounds : ∀ round ∈ rounds, round.KeepsUid "u" := by
    simp [rounds, attempt, Round.KeepsUid]
  obtain ⟨-, haccount⟩ :=
    history_one_workspace WorkspaceRegistry.backend settings rounds hrounds original rfl
      ⟨[], [true]⟩
  obtain ⟨hmore, hnames⟩ := haccount WorkspaceRegistry.made WorkspaceRegistry.tellsRepeats
  have hmade : final.made = [⟨some "u", "ws-0"⟩] := by
    simp only [final, rounds, attempt, settings, original]
    decide +kernel
  have hcalls : records.map (·.calls.length) = [1, 1, 1] := by
    simp only [records, rounds, attempt, settings, original]
    decide +kernel
  have houtcomes : records.map (·.result.outcome)
      = [.failed (.timeout "CreateWorkspace" settings.callTimeout), .synced, .synced] := by
    simp only [records, rounds, attempt, settings, original]
    decide +kernel
  exact ⟨hrounds, rfl, WorkspaceRegistry.tellsRepeats, hmore, hmade, hcalls, houtcomes, hnames⟩

end ManagedPrometheus
