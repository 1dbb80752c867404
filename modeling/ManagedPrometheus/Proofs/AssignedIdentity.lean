import ManagedPrometheus.Proofs.Signals

/-!
# What the backend has assigned

A pass forgets nothing that tells which resource of the backend an object stands for. The
identifier, the workspace, the name and the endpoint may change, but once they are set they stay
set; region and account do not even change. `Status.Keeps` says so of two statuses, and every
operation on statuses keeps it; so does every exit of a pass (`PassRecord.Lawful.keeps`).
-/

namespace ManagedPrometheus

variable {kind : Kind} {now : String} {settings : PassSettings}

namespace Status

/-- The region of a resource in the backend. -/
def region? (status : Status) : Option String := status.resourceMetadata.bind (·.region)

/-- The account that a resource in the backend belongs to. -/
def ownerAccountId? (status : Status) : Option String :=
  status.resourceMetadata.bind (·.ownerAccountId)

/-- A report may bring another ARN, and leaves the fields beside it. -/
theorem bind_observe {field : ResourceMetadata → Option String}
    (hfield : ∀ metadata arn, field { metadata with arn } = field metadata) {status : Status}
    {value : String} (h : status.resourceMetadata.bind field = some value) (object : WireObject) :
    (status.observe object).resourceMetadata.bind field = some value := by
  obtain ⟨metadata, hmetadata, hvalue⟩ := Option.bind_eq_some_iff.mp h
  rw [Status.observe]
  rcases object.arn with _ | arn
  · exact h
  · rw [hmetadata, Option.getD_some, Option.bind_some, hfield, hvalue]

theorem bind_withDefaults {field : ResourceMetadata → Option String} {identity : Identity}
    (hfield : ∀ metadata value, field metadata = some value →
      field { metadata with
        region := metadata.region <|> identity.region
        ownerAccountId := metadata.ownerAccountId <|> identity.accountId } = some value)
    {status : Status} {value : String} (h : status.resourceMetadata.bind field = some value) :
    (status.withDefaults identity).resourceMetadata.bind field = some value := by
  obtain ⟨metadata, hmetadata, hvalue⟩ := Option.bind_eq_some_iff.mp h
  rw [Status.withDefaults, hmetadata]
  exact hfield metadata value hvalue

/-- Nothing that the backend has assigned is lost from `earlier` to `later`. -/
structure Keeps (earlier later : Status) : Prop where
  arn : earlier.arn?.isSome → later.arn?.isSome
  workspaceId : earlier.workspaceId.isSome → later.workspaceId.isSome
  name : earlier.name.isSome → later.name.isSome
  prometheusEndpoint : earlier.prometheusEndpoint.isSome → later.prometheusEndpoint.isSome
  region : ∀ value, earlier.region? = some value → later.region? = some value
  ownerAccountId : ∀ value, earlier.ownerAccountId? = some value →
    later.ownerAccountId? = some value

namespace Keeps

theorem refl (status : Status) : status.Keeps status :=
  ⟨id, id, id, id, fun _ => id, fun _ => id⟩

theorem trans {a b c : Status} (h : a.Keeps b) (h' : b.Keeps c) : a.Keeps c where
  arn := h'.arn ∘ h.arn
  workspaceId := h'.workspaceId ∘ h.workspaceId
  name := h'.name ∘ h.name
  prometheusEndpoint := h'.prometheusEndpoint ∘ h.prometheusEndpoint
  region := fun value hvalue => h'.region value (h.region value hvalue)
  ownerAccountId := fun value hvalue => h'.ownerAccountId value (h.ownerAccountId value hvalue)

/-- The conditions do not matter. -/
theorem conditions (status : Status) (conditions : Conditions) :
    status.Keeps { status with conditions } :=
  ⟨id, id, id, id, fun _ => id, fun _ => id⟩

theorem observe (status : Status) (object : WireObject) : status.Keeps (status.observe object) := by
  have hor {reported? known? : Option String} (h : known?.isSome) :
      (reported? <|> known?).isSome := by
    rcases reported? with _ | reported
    · exact h
    · rfl
  have harn (h : status.arn?.isSome) : (status.observe object).arn?.isSome := by
    rw [arn?, Status.observe]
    rcases object.arn with _ | arn
    · exact h
    · rfl
  exact ⟨harn, hor, id, hor, fun _ h => bind_observe (fun _ _ => rfl) h object,
    fun _ h => bind_observe (fun _ _ => rfl) h object⟩

theorem bind (status : Status) (key : ResourceKey) : status.Keeps (status.bind key) := by
  refine ⟨id, fun _ => rfl, ?_, id, fun _ => id, fun _ => id⟩
  intro hname
  rw [Status.bind]
  rcases key.name with _ | name
  · exact hname
  · rfl

theorem withDefaults (status : Status) (identity : Identity) :
    status.Keeps (status.withDefaults identity) := by
  refine ⟨?_, id, id, id, ?_, ?_⟩
  · rw [arn?_withDefaults]
    exact id
  · intro value hregion
    exact bind_withDefaults (fun metadata set hset => by simp [hset]) hregion
  · intro value howner
    exact bind_withDefaults (fun metadata set hset => by simp [hset]) howner

end Keeps

end Status

/-! ### Resources -/

namespace Resource

/-- A status is not lost either. -/
structure Keeps (earlier later : Resource kind) : Prop where
  status : earlier.status.isSome → later.status.isSome
  assigned : earlier.statusOrEmpty.Keeps later.statusOrEmpty

namespace Keeps

variable {desired latest : Resource kind}

theorem refl (resource : Resource kind) : resource.Keeps resource :=
  ⟨id, .refl resource.statusOrEmpty⟩

theorem trans {a b c : Resource kind} (h : a.Keeps b) (h' : b.Keeps c) : a.Keeps c :=
  ⟨h'.status ∘ h.status, h.assigned.trans h'.assigned⟩

/-- A status put in place of one that it keeps. -/
theorem of_status {earlier later : Resource kind} {status : Status}
    (hlater : later.status = some status) (h : earlier.statusOrEmpty.Keeps status) :
    earlier.Keeps later := by
  have hstatus : later.statusOrEmpty = status := by
    rw [statusOrEmpty, hlater]
    rfl
  exact ⟨fun _ => hlater ▸ rfl, hstatus ▸ h⟩

theorem foldResponse (resource : Resource kind) (object : WireObject) :
    resource.Keeps (resource.foldResponse object) :=
  of_status rfl (.observe resource.statusOrEmpty object)

theorem adoptCreated (object : WireObject) : desired.Keeps (desired.adoptCreated object) := by
  rw [Resource.adoptCreated]
  split
  · exact of_status rfl ((Status.Keeps.observe desired.statusOrEmpty object).trans (.bind _ _))
  · exact foldResponse desired object

theorem snapshot (key : ResourceKey) (object : WireObject) :
    desired.Keeps (desired.snapshot now key object) := by
  apply of_status rfl
  have hreported : desired.statusOrEmpty.Keeps ((desired.statusOrEmpty.observe object).bind key) :=
    (Status.Keeps.observe desired.statusOrEmpty object).trans (.bind _ key)
  split
  · exact hreported.trans (.conditions _ _)
  · exact hreported

theorem withStatusOf (h : desired.Keeps latest) : desired.Keeps (desired.withStatusOf latest) :=
  of_status rfl h.assigned

end Keeps

end Resource

/-! ### Passes -/

theorem Creates.keeps {desired : Resource kind} {made : List Exchange} {decision : Decision kind}
    (h : Creates desired made decision) : desired.Keeps decision.resource := by
  cases h with
  | invalid => exact .refl desired
  | refused => exact .refl desired
  | failed => exact .refl desired
  | created =>
    rw [Resource.settled_resource]
    exact .adoptCreated _

theorem Applies.keeps {resource : Resource kind} {mutations : List Mutation}
    {made : List Exchange} {decision : Decision kind}
    (h : Applies resource mutations made decision) : resource.Keeps decision.resource := by
  induction h with
  | finished =>
    rw [Resource.settled_resource]
    exact .refl _
  | refused => exact .refl _
  | failed => exact .refl _
  | silent _ ih => exact ih
  | @reported resource _ _ object _ _ _ ih =>
    exact (Resource.Keeps.foldResponse resource object).trans ih

theorem Updates.keeps {desired latest : Resource kind} {made : List Exchange}
    {decision : Decision kind} (h : Updates desired latest made decision)
    (hlatest : desired.Keeps latest) : desired.Keeps decision.resource := by
  cases h with
  | decided hdecided =>
    rcases Resource.decideAtOnce_resource hdecided with hresource | hresource
    · rw [hresource]
      exact .refl desired
    · rw [hresource]
      exact hlatest.withStatusOf
  | unidentified => exact hlatest.withStatusOf
  | changing _ _ happlies => exact hlatest.withStatusOf.trans happlies.keeps

theorem Syncs.keeps {desired : Resource kind} {made : List Exchange} {decision : Decision kind}
    (h : Syncs now desired made decision) : desired.Keeps decision.resource := by
  cases h with
  | unread => exact .refl desired
  | creating _ hcreates => exact hcreates.keeps
  | updating _ hupdates => exact hupdates.keeps (.snapshot _ _)

theorem Deletes.keeps {resource : Resource kind} {made : List Exchange} {decision : Decision kind}
    (h : Deletes now resource made decision) : resource.Keeps decision.resource := by
  cases h with
  | unaddressed => exact .refl resource
  | unread => exact .refl resource
  | absent => exact .refl resource
  | blocked => exact .refl resource
  | refused => exact .snapshot _ _
  | failed => exact .snapshot _ _
  | accepted => exact .snapshot _ _

theorem Resource.conclude_keeps (input : Resource kind) {decision : Decision kind}
    (h : input.Keeps decision.resource) :
    input.Keeps (input.conclude settings now decision).resource := by
  by_cases hdeleted : decision.outcome = .deleted
  · rwa [conclude_of_deleted input hdeleted]
  by_cases hcancelled : decision.outcome = .failed .cancelled
  · rw [conclude_of_cancelled hcancelled]
    exact .refl input
  · rw [conclude_of_entered input hdeleted hcancelled]
    obtain ⟨conditions, hstatus⟩ := @exists_concludeStatus_eq kind settings now decision.outcome
      (settings.requeue.requeue kind.policy.terminalCodes decision.outcome)
      decision.resource.statusOrEmpty
    refine .of_status rfl (h.assigned.trans ?_)
    rw [hstatus]
    exact (Status.Keeps.conditions _ conditions).trans (.withDefaults _ settings.identity)

/-- No pass loses what the backend has assigned. -/
theorem PassRecord.Lawful.keeps {record : PassRecord kind} (h : record.Lawful settings) :
    record.input.Keeps record.result.resource := by
  obtain ⟨decision, hresult, ⟨-, hsyncs⟩ | ⟨-, hdeletes⟩⟩ := h.exit
  · rw [hresult]
    exact record.input.conclude_keeps hsyncs.keeps
  · rw [hresult]
    exact record.input.conclude_keeps hdeletes.keeps

end ManagedPrometheus
