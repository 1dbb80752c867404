import ManagedPrometheus.Proofs.Conditions
import ManagedPrometheus.Proofs.History

/-!
# Bindings

The address of a resource in the backend is made of what its status records and, where that records
nothing, of what its spec declares. The recorded part is the *binding* of the resource. A pass
changes it in two ways only: it records the address that it has just described or created under
(`Binding.record`), and it takes over a workspace that a report names (`Binding.adopt`). Conditions,
codes and identifiers do not touch it, so the binding of a returned resource is read off the exit
that the pass has taken.
-/

namespace ManagedPrometheus

variable {kind : Kind} {now : String} {settings : PassSettings}

/-- The parts of an address that a status records. -/
structure Binding where
  workspaceId : Option String
  name : Option String
  deriving DecidableEq, Repr

namespace Binding

/-- Records an address. -/
def record (binding : Binding) (key : ResourceKey) : Binding :=
  ⟨some key.workspaceId, key.name <|> binding.name⟩

/-- Takes over the workspace that a report names. -/
def adopt (binding : Binding) (object : WireObject) : Binding :=
  ⟨object.workspaceId <|> binding.workspaceId, binding.name⟩

theorem adopt_eq_self {binding : Binding} {object : WireObject}
    (h : ∀ id, object.workspaceId = some id → binding.workspaceId = some id) :
    binding.adopt object = binding := by
  obtain ⟨workspaceId, name⟩ := binding
  rcases hid : object.workspaceId with _ | id
  · simp [adopt, hid]
  · obtain rfl : workspaceId = some id := h id hid
    simp [adopt, hid]

end Binding

/-- The shape of a kind's addresses: no part that is declared is empty, and only rule groups
namespaces have a name. -/
def ResourceKey.Fits (key : ResourceKey) : Kind → Prop
  | .workspace => key.name = none
  | .ruleGroupsNamespace =>
    key.workspaceId ≠ "" ∧ ∃ name, key.name = some name ∧ name ≠ ""
  | .alertManagerDefinition | .loggingConfiguration => key.workspaceId ≠ "" ∧ key.name = none

/-! ### What the local checks promise -/

theorem ne_empty_of_requireText {text field : String} (h : requireText text field = none) :
    text ≠ "" := by
  rintro rfl
  simp [requireText, show isAllBlank "" = true by decide] at h

theorem isSome_of_requireConfiguration {configuration : Option String}
    (h : requireConfiguration configuration = none) : configuration.isSome = true := by
  cases configuration with
  | none => cases h
  | some text => rfl

theorem ruleGroupsNamespace_of_valid {spec : Spec .ruleGroupsNamespace}
    (h : spec.problem? = none) :
    spec.name ≠ "" ∧ spec.workspaceId ≠ "" ∧ spec.configuration.isSome = true := by
  simp only [Spec.problem?, Option.orElse_eq_orElse, Option.orElse_eq_or,
    Option.or_eq_none_iff] at h
  obtain ⟨hname, hworkspace, hconfiguration⟩ := h
  exact ⟨ne_empty_of_requireText hname, ne_empty_of_requireText hworkspace,
    isSome_of_requireConfiguration hconfiguration⟩

theorem alertManagerDefinition_of_valid {spec : Spec .alertManagerDefinition}
    (h : spec.problem? = none) : spec.workspaceId ≠ "" ∧ spec.configuration.isSome = true := by
  simp only [Spec.problem?, Option.orElse_eq_orElse, Option.orElse_eq_or,
    Option.or_eq_none_iff] at h
  exact ⟨ne_empty_of_requireText h.1, isSome_of_requireConfiguration h.2⟩

theorem loggingConfiguration_of_valid {spec : Spec .loggingConfiguration}
    (h : spec.problem? = none) : spec.workspaceId ≠ "" ∧ spec.logGroupArn ≠ "" := by
  simp only [Spec.problem?, Option.orElse_eq_orElse, Option.orElse_eq_or,
    Option.or_eq_none_iff] at h
  exact ⟨ne_empty_of_requireText h.1, ne_empty_of_requireText h.2⟩

/-! ### Bindings of statuses and resources -/

def Status.binding (status : Status) : Binding := ⟨status.workspaceId, status.name⟩

namespace Resource

def binding (resource : Resource kind) : Binding := resource.statusOrEmpty.binding

/-! ### Addresses -/

theorem request_key (resource : Resource kind) : resource.request.key = resource.key? := by
  cases kind <;> rfl

theorem createRequest_key (resource : Resource kind) :
    resource.createRequest.key = resource.key? := request_key resource

theorem bind_workspaceId (resource : Resource kind) :
    resource.status.bind (·.workspaceId) = resource.binding.workspaceId := by
  obtain ⟨metadata, spec, _ | status⟩ := resource <;> rfl

theorem bind_name (resource : Resource kind) :
    resource.status.bind (·.name) = resource.binding.name := by
  obtain ⟨metadata, spec, _ | status⟩ := resource <;> rfl

/-- A spec has an address under a resource's status that depends on the binding alone. -/
theorem key?_congr {a b : Resource kind} (spec : Spec kind) (h : a.binding = b.binding) :
    spec.key? a.status = spec.key? b.status := by
  cases kind <;> simp only [Spec.key?, bind_workspaceId, bind_name, h]

/-- A resource is bound to an address if that is its address whatever its spec says. -/
def BoundTo (resource : Resource kind) (key : ResourceKey) : Prop :=
  ∀ spec : Spec kind, spec.key? resource.status = some key

theorem BoundTo.key?_eq {resource : Resource kind} {key : ResourceKey}
    (h : resource.BoundTo key) : resource.key? = some key := h resource.spec

theorem BoundTo.congr {a b : Resource kind} {key : ResourceKey} (h : a.BoundTo key)
    (hbinding : b.binding = a.binding) : b.BoundTo key :=
  fun spec => (key?_congr spec hbinding).trans (h spec)

theorem fits_of_key? {resource : Resource kind} {key : ResourceKey}
    (h : resource.key? = some key) : key.Fits kind := by
  cases kind with
  | workspace =>
    obtain ⟨id, _, rfl⟩ := Option.map_eq_some_iff.mp h
    rfl
  | ruleGroupsNamespace =>
    simp only [key?, Spec.key?] at h
    split at h
    · cases h
    · rename_i hparts
      obtain rfl := Option.some.inj h
      simpa [ResourceKey.Fits] using hparts
  | alertManagerDefinition =>
    simp only [key?, Spec.key?] at h
    split at h
    · cases h
    · rename_i hparts
      obtain rfl := Option.some.inj h
      simpa [ResourceKey.Fits] using hparts
  | loggingConfiguration =>
    simp only [key?, Spec.key?] at h
    split at h
    · cases h
    · rename_i hparts
      obtain rfl := Option.some.inj h
      simpa [ResourceKey.Fits] using hparts

/-- An address that is recorded is the address from then on. -/
theorem boundTo_of_record {resource : Resource kind} {key : ResourceKey} {binding : Binding}
    (hfits : key.Fits kind) (hbinding : resource.binding = binding.record key) :
    resource.BoundTo key := by
  intro spec
  obtain ⟨workspaceId, name⟩ := key
  cases kind with
  | workspace =>
    obtain rfl : name = none := hfits
    simp [Spec.key?, bind_workspaceId, hbinding, Binding.record]
  | ruleGroupsNamespace =>
    obtain ⟨hworkspace, name, rfl, hname⟩ := hfits
    simp [Spec.key?, bind_workspaceId, bind_name, hbinding, Binding.record, hname, hworkspace]
  | alertManagerDefinition =>
    obtain ⟨hworkspace, rfl⟩ := hfits
    simp [Spec.key?, bind_workspaceId, hbinding, Binding.record, hworkspace]
  | loggingConfiguration =>
    obtain ⟨hworkspace, rfl⟩ := hfits
    simp [Spec.key?, bind_workspaceId, hbinding, Binding.record, hworkspace]

/-! ### What the parts of a pass do to the binding -/

@[simp] theorem binding_snapshot (desired : Resource kind) (key : ResourceKey)
    (object : WireObject) :
    (desired.snapshot now key object).binding = desired.binding.record key := by
  simp only [snapshot, binding, statusOrEmpty, Option.getD_some]
  split <;> rfl

@[simp] theorem binding_foldResponse (resource : Resource kind) (object : WireObject) :
    (resource.foldResponse object).binding = resource.binding.adopt object := rfl

@[simp] theorem binding_withStatusOf (desired latest : Resource kind) :
    (desired.withStatusOf latest).binding = latest.binding := rfl

@[simp] theorem settled_resource (resource : Resource kind) :
    resource.settled.resource = resource := by
  unfold settled
  split <;> rfl

/-- What the backend has accepted is not the result of a cancelled pass. -/
theorem settled_outcome_ne_cancelled (resource : Resource kind) :
    resource.settled.outcome ≠ .failed .cancelled := by
  unfold settled
  split
  · simp
  · simp

/-- A created resource is bound to the address that the request named, and to the workspace of the
answer if the request named none. -/
theorem binding_adoptCreated (desired : Resource kind) (object : WireObject) :
    (desired.adoptCreated object).binding =
      match desired.key? with
      | some key => desired.binding.record key
      | none => desired.binding.adopt object := by
  rcases haddress : desired.key? with _ | key
  · simp only [adoptCreated, createRequest_key, haddress]
    rfl
  · simp only [adoptCreated, createRequest_key, haddress]
    rfl

theorem binding_conclude {input : Resource kind} {decision : Decision kind}
    (h : decision.outcome ≠ .failed .cancelled) :
    (input.conclude settings now decision).resource.binding = decision.resource.binding := by
  simp only [conclude]
  split
  · rename_i hcancelled
    exact absurd hcancelled h
  · rfl
  · simp only [concludeStatus]
    split <;> rfl

/-- What is summed up with nothing taken over, or with the status of a description, keeps the
address that was described. -/
theorem key?_conclude {input : Resource kind} {key : ResourceKey} {decision : Decision kind}
    (haddress : input.key? = some key) (hcancelled : decision.outcome ≠ .failed .cancelled)
    (hresource : decision.resource = input ∨
      ∃ object, decision.resource = input.withStatusOf (input.snapshot now key object)) :
    input.spec.key? (input.conclude settings now decision).resource.status = some key := by
  have hbinding : (input.conclude settings now decision).resource.binding
      = decision.resource.binding := binding_conclude hcancelled
  rcases hresource with hresource | ⟨object, hresource⟩
  · rw [hresource] at hbinding
    exact (key?_congr input.spec hbinding).trans haddress
  · rw [hresource, binding_withStatusOf, binding_snapshot] at hbinding
    exact boundTo_of_record (fits_of_key? haddress) hbinding input.spec

theorem decideAtOnce_resource {desired latest : Resource kind} {decision : Decision kind}
    (h : desired.decideAtOnce latest = some decision) :
    decision.resource = desired ∨ decision.resource = desired.withStatusOf latest := by
  rcases hphase : desired.decideByPhase latest with _ | byPhase
  · have hdelta : desired.decideByDelta latest = some decision := by
      simpa [decideAtOnce, hphase] using h
    right
    simp only [decideByDelta] at hdelta
    split at hdelta
    · exact Option.some.inj hdelta ▸ rfl
    · split at hdelta
      · split at hdelta <;> exact Option.some.inj hdelta ▸ rfl
      · cases hdelta
  · obtain rfl : byPhase = decision := by simpa [decideAtOnce, hphase] using h
    simp only [decideByPhase] at hphase
    split at hphase
    · exact .inl (Option.some.inj hphase ▸ rfl)
    · split at hphase
      · split at hphase
        · exact .inr (Option.some.inj hphase ▸ rfl)
        · cases hphase
      · split at hphase
        · cases hphase
        · exact .inl (Option.some.inj hphase ▸ rfl)
      · cases hphase

end Resource

/-! ### Whole passes -/

/-- What a successful call reports of a resource. -/
def Exchange.report? : Exchange → Option WireObject
  | ⟨.describe _, .ok object?⟩ => object?
  | ⟨.create _, .ok object⟩ => some object
  | ⟨.update _, .ok object?⟩ => object?
  | _ => none

/-- Every report that names a workspace names the one of the address, if there is one. -/
def Faithful (address? : Option ResourceKey) (exchanges : List Exchange) : Prop :=
  ∀ exchange ∈ exchanges, ∀ object ∈ exchange.report?, ∀ id ∈ object.workspaceId,
    address?.map (·.workspaceId) = some id

instance (address? : Option ResourceKey) (exchanges : List Exchange) :
    Decidable (Faithful address? exchanges) :=
  inferInstanceAs (Decidable (∀ exchange ∈ exchanges, ∀ object ∈ exchange.report?,
    ∀ id ∈ object.workspaceId, address?.map (·.workspaceId) = some id))

theorem Faithful.tail {address? : Option ResourceKey} {exchange : Exchange}
    {rest : List Exchange} (h : Faithful address? (exchange :: rest)) : Faithful address? rest :=
  fun other hmem => h other (List.mem_cons_of_mem _ hmem)

/-- The binding of a resource is the one of `input`, or the address of `input` is recorded in it. -/
def Resource.Inherits (resource input : Resource kind) : Prop :=
  resource.binding = input.binding ∨
    ∃ key, input.key? = some key ∧ resource.binding = input.binding.record key

/-- Faithful reports leave a binding to the address as it is. -/
theorem Applies.binding_eq {resource : Resource kind} {changes : List Mutation}
    {made : List Exchange} {decision : Decision kind} (h : Applies resource changes made decision)
    {key : ResourceKey} (hfaithful : Faithful (some key) made)
    (hbinding : resource.binding.workspaceId = some key.workspaceId) :
    decision.resource.binding = resource.binding := by
  induction h with
  | finished => rw [Resource.settled_resource]
  | refused => rfl
  | failed => rfl
  | silent _ ih => exact ih hfaithful.tail hbinding
  | @reported resource _ _ object _ _ _ ih =>
    have hsame : (resource.foldResponse object).binding = resource.binding := by
      rw [Resource.binding_foldResponse]
      apply Binding.adopt_eq_self
      intro id hid
      rw [hbinding]
      exact hfaithful _ List.mem_cons_self object rfl id hid
    rw [ih hfaithful.tail (hsame ▸ hbinding), hsame]

theorem Syncs.inherits {desired : Resource kind} {made : List Exchange}
    {decision : Decision kind} (h : Syncs now desired made decision)
    (hfaithful : Faithful desired.key? made) : decision.resource.Inherits desired := by
  cases h with
  | unread => exact .inl rfl
  | @creating read _ _ hreads hcreates =>
    cases hcreates with
    | invalid => exact .inl rfl
    | refused => exact .inl rfl
    | failed => exact .inl rfl
    | @created object =>
      rw [Resource.settled_resource, Resource.Inherits, Resource.binding_adoptCreated]
      rcases haddress : desired.key? with _ | key
      · left
        apply Binding.adopt_eq_self
        intro id hid
        -- nothing is addressed, so the answer names no workspace
        have hnone := hfaithful ⟨.create desired.createRequest, .ok object⟩ (by simp) object rfl
          id hid
        rw [haddress] at hnone
        cases hnone
      · exact .inr ⟨key, rfl, rfl⟩
  | @updating key object made _ haddress hupdates =>
    have hlatest : (desired.withStatusOf (desired.snapshot now key object)).Inherits desired :=
      .inr ⟨key, haddress, by simp⟩
    cases hupdates with
    | decided hdecided =>
      rcases Resource.decideAtOnce_resource hdecided with hresource | hresource
      · exact .inl (congrArg Resource.binding hresource)
      · rw [hresource]
        exact hlatest
    | unidentified => exact hlatest
    | changing _ _ happlies =>
      rw [haddress] at hfaithful
      refine .inr ⟨key, haddress, ?_⟩
      rw [happlies.binding_eq hfaithful.tail]
      · simp
      · simp [Binding.record]

theorem Deletes.inherits {resource : Resource kind} {made : List Exchange}
    {decision : Decision kind} (h : Deletes now resource made decision) :
    decision.resource.Inherits resource := by
  cases h with
  | unaddressed => exact .inl rfl
  | unread => exact .inl rfl
  | absent => exact .inl rfl
  | blocked => exact .inl rfl
  | refused haddress => exact .inr ⟨_, haddress, Resource.binding_snapshot _ _ _⟩
  | failed haddress => exact .inr ⟨_, haddress, Resource.binding_snapshot _ _ _⟩
  | accepted haddress => exact .inr ⟨_, haddress, Resource.binding_snapshot _ _ _⟩

/-- A pass whose reports are faithful keeps the binding that it found or records the address that it
used. -/
theorem PassRecord.Lawful.inherits {record : PassRecord kind} (h : record.Lawful settings)
    (hfaithful : Faithful record.input.key? record.exchanges) :
    record.result.resource.Inherits record.input := by
  obtain ⟨decision, hresult, hexit⟩ := h.exit
  by_cases hcancelled : decision.outcome = .failed .cancelled
  · rw [hresult, Resource.conclude_of_cancelled hcancelled]
    exact .inl rfl
  · have hdecision : decision.resource.Inherits record.input := by
      rcases hexit with ⟨_, hsyncs⟩ | ⟨_, hdeletes⟩
      · exact hsyncs.inherits hfaithful
      · exact hdeletes.inherits
    rw [Resource.Inherits, hresult, Resource.binding_conclude hcancelled]
    exact hdecision

/-- After a create that has succeeded the result has the binding of the answer taken over. -/
theorem PassRecord.Lawful.binding_of_created {record : PassRecord kind}
    (h : record.Lawful settings) {request : Request} {object : WireObject}
    (hmem : ⟨.create request, .ok object⟩ ∈ record.exchanges) :
    request = record.input.createRequest ∧
      record.result.resource.binding = (record.input.adoptCreated object).binding := by
  obtain ⟨decision, hresult, ⟨_, hsyncs⟩ | ⟨_, hdeletes⟩⟩ := h.exit
  · obtain ⟨hrequest, rfl⟩ := hsyncs.of_created hmem
    refine ⟨hrequest, ?_⟩
    rw [hresult, Resource.binding_conclude (Resource.settled_outcome_ne_cancelled _),
      Resource.settled_resource]
  · obtain ⟨_, _, hcall | hcall⟩ :=
      hdeletes.mem_calls (List.mem_map_of_mem (f := (·.call)) hmem)
    · cases hcall
    · cases hcall

end ManagedPrometheus
