import ManagedPrometheus.Proofs.Binding
import ManagedPrometheus.Proofs.Mutations
import ManagedPrometheus.Script

/-!
# Stable bindings

A resource whose address is declared in its spec keeps to one backend resource, however its spec is
edited. Every create and put names an address; once a create under an address has succeeded, every
later call goes to that address; and a deletion is reported only if the backend has just said that
there is nothing under it (`history_binding_stable`).

Two invariants carry this. No part of a binding is empty (`Binding.NonEmpty`), so that a spec which
passes the local checks has an address; and a resource that is bound to an address stays bound to it
(`PassRecord.Lawful.boundTo`), as a pass records no address but the one that it uses.
-/

namespace ManagedPrometheus

variable {σ : Type} {kind : Kind} {settings : PassSettings}

/-! ### What a history is asked to keep to -/

/-- A round in which only the metadata and the spec are edited: the status belongs to the passes. -/
def Round.KeepsStatus (round : Round kind) : Prop :=
  ∀ resource, (round.edit resource).status = resource.status

/-- A create or put names an address. -/
def Call.CarriesKey : Call → Prop
  | .create request | .update (.put request) => ∃ key, request.key = some key
  | _ => True

/-- A call goes to an address. Tags are set and removed under the backend's identifier instead. -/
def Call.Addresses (key : ResourceKey) : Call → Prop
  | .describe other | .delete other => other = key
  | .create request | .update (.put request) => request.key = some key
  | .update (.tag _ _) | .update (.untag _ _) => True

/-- A create under an address has succeeded. -/
def Exchange.Creates (key : ResourceKey) (exchange : Exchange) : Prop :=
  ∃ request object, exchange = ⟨.create request, .ok object⟩ ∧ request.key = some key

/-- A deletion that is reported is one of an address at which the backend has just found nothing. -/
def PassRecord.DeletesOnlyAbsent (key : ResourceKey) (record : PassRecord kind) : Prop :=
  record.task = .finalize → record.result.outcome = .deleted →
    ⟨.describe key, .ok none⟩ ∈ record.exchanges

/-! ### Every call of a pass goes to the address of its input -/

theorem Updates.addresses {desired latest : Resource kind} {made : List Exchange}
    {decision : Decision kind} (h : Updates desired latest made decision) {key : ResourceKey}
    (haddress : desired.key? = some key) : ∀ call ∈ made.map (·.call), call.Addresses key := by
  intro call hmem
  cases h with
  | decided => simp at hmem
  | unidentified => simp at hmem
  | changing _ hmutations happlies =>
    obtain ⟨mutation, hchange, rfl⟩ := List.mem_map.mp (happlies.calls_isPrefix.subset hmem)
    cases mutation with
    | tag => trivial
    | untag => trivial
    | put request =>
      obtain rfl := eq_request_of_put_mem hmutations hchange
      exact (Resource.request_key desired).trans haddress

theorem PassRecord.Lawful.addresses {record : PassRecord kind} (h : record.Lawful settings)
    {key : ResourceKey} (haddress : record.input.key? = some key) :
    ∀ call ∈ record.calls, call.Addresses key := by
  have own : ∀ {other : ResourceKey}, record.input.key? = some other → other = key :=
    fun hother => Option.some.inj (hother.symm.trans haddress)
  intro call hmem
  unfold PassRecord.calls at hmem
  obtain ⟨decision, _, ⟨_, hsyncs⟩ | ⟨_, hdeletes⟩⟩ := h.exit
  · generalize record.exchanges = exchanges at hsyncs hmem
    cases hsyncs with
    | unread hreads =>
      obtain ⟨other, hother, rfl⟩ := hreads.mem_calls hmem
      exact own hother
    | creating hreads hcreates =>
      rw [List.map_append] at hmem
      rcases List.mem_append.mp hmem with hmem | hmem
      · obtain ⟨other, hother, rfl⟩ := hreads.mem_calls hmem
        exact own hother
      · obtain ⟨_, rfl⟩ := hcreates.mem_calls hmem
        exact (Resource.request_key record.input).trans haddress
    | updating hother hupdates =>
      rcases List.mem_cons.mp hmem with rfl | hmem
      · exact own hother
      · exact hupdates.addresses haddress call hmem
  · obtain ⟨other, hother, rfl | rfl⟩ := hdeletes.mem_calls hmem
    · exact own hother
    · exact own hother

/-- A finalize of a resource with an address reports a deletion only if nothing was described. -/
theorem PassRecord.Lawful.deletesOnlyAbsent {record : PassRecord kind}
    (h : record.Lawful settings) {key : ResourceKey} (haddress : record.input.key? = some key) :
    record.DeletesOnlyAbsent key := by
  intro htask houtcome
  obtain ⟨decision, hresult, ⟨hsync, _⟩ | ⟨_, hdeletes⟩⟩ := h.exit
  · rw [htask] at hsync
    cases hsync
  · rw [hresult, Resource.conclude_outcome] at houtcome
    rw [hdeletes.eq_of_deleted haddress houtcome]
    exact List.mem_singleton.mpr rfl

/-! ### No part of a binding is empty -/

/-- No recorded part is empty. -/
def Binding.NonEmpty (binding : Binding) : Prop :=
  binding.workspaceId ≠ some "" ∧ binding.name ≠ some ""

theorem Binding.NonEmpty.record {binding : Binding} (h : binding.NonEmpty) {key : ResourceKey}
    (hfits : key.Fits kind) (hkind : kind ≠ .workspace) : (binding.record key).NonEmpty := by
  obtain ⟨workspaceId, name⟩ := key
  cases kind with
  | workspace => exact absurd rfl hkind
  | ruleGroupsNamespace =>
    obtain ⟨hworkspace, name, rfl, hname⟩ := hfits
    simp [NonEmpty, Binding.record, hworkspace, hname]
  | alertManagerDefinition =>
    obtain ⟨hworkspace, rfl⟩ := hfits
    simpa [NonEmpty, Binding.record, hworkspace] using h.2
  | loggingConfiguration =>
    obtain ⟨hworkspace, rfl⟩ := hfits
    simpa [NonEmpty, Binding.record, hworkspace] using h.2

theorem Resource.Inherits.nonEmpty {resource input : Resource kind}
    (h : resource.Inherits input) (hkind : kind ≠ .workspace) (hinput : input.binding.NonEmpty) :
    resource.binding.NonEmpty := by
  rcases h with hsame | ⟨key, haddress, hrecord⟩
  · exact hsame ▸ hinput
  · exact hrecord ▸ hinput.record (Resource.fits_of_key? haddress) hkind

/-- A spec that passes the local checks has an address, as its own parts are not empty either. -/
theorem exists_key_of_valid {resource : Resource kind} (hkind : kind ≠ .workspace)
    (hbinding : resource.binding.NonEmpty) (hvalid : resource.spec.problem? = none) :
    ∃ key, resource.key? = some key := by
  have part : ∀ {recorded : Option String} {declared : String}, recorded ≠ some "" →
      declared ≠ "" → (recorded.getD declared).isEmpty = false := by
    intro recorded declared hrecorded hdeclared
    cases recorded with
    | none => simpa using hdeclared
    | some text => simpa using hrecorded
  cases kind with
  | workspace => exact absurd rfl hkind
  | ruleGroupsNamespace =>
    obtain ⟨hname, hworkspace, _⟩ := ruleGroupsNamespace_of_valid hvalid
    simp [Resource.key?, Spec.key?, Resource.bind_workspaceId, Resource.bind_name,
      part hbinding.1 hworkspace, part hbinding.2 hname]
  | alertManagerDefinition =>
    have hworkspace := part hbinding.1 (alertManagerDefinition_of_valid hvalid).1
    simp [Resource.key?, Spec.key?, Resource.bind_workspaceId, hworkspace]
  | loggingConfiguration =>
    have hworkspace := part hbinding.1 (loggingConfiguration_of_valid hvalid).1
    simp [Resource.key?, Spec.key?, Resource.bind_workspaceId, hworkspace]

theorem PassRecord.Lawful.carriesKey {record : PassRecord kind} (h : record.Lawful settings)
    (hkind : kind ≠ .workspace) (hbinding : record.input.binding.NonEmpty) :
    ∀ call ∈ record.calls, call.CarriesKey := by
  intro call hmem
  rcases haddress : record.input.key? with _ | key
  · -- nothing is addressed, so the spec is not valid and the only call there could be is not made
    exfalso
    unfold PassRecord.calls at hmem
    obtain ⟨decision, _, ⟨_, hsyncs⟩ | ⟨_, hdeletes⟩⟩ := h.exit
    · generalize record.exchanges = exchanges at hsyncs hmem
      cases hsyncs with
      | unread hreads =>
        obtain ⟨key, hkey, _⟩ := hreads.mem_calls hmem
        simp [haddress] at hkey
      | creating hreads hcreates =>
        rw [List.map_append] at hmem
        rcases List.mem_append.mp hmem with hmem | hmem
        · obtain ⟨key, hkey, _⟩ := hreads.mem_calls hmem
          simp [haddress] at hkey
        · obtain ⟨hvalid, _⟩ := hcreates.mem_calls hmem
          obtain ⟨key, hkey⟩ := exists_key_of_valid hkind hbinding hvalid
          simp [haddress] at hkey
      | updating hkey => simp [haddress] at hkey
    · obtain ⟨key, hkey, _⟩ := hdeletes.mem_calls hmem
      simp [haddress] at hkey
  · have haddressed := h.addresses haddress call hmem
    cases call with
    | describe => trivial
    | create => exact ⟨key, haddressed⟩
    | update mutation =>
      cases mutation with
      | tag => trivial
      | untag => trivial
      | put => exact ⟨key, haddressed⟩
    | delete => trivial

/-! ### A binding once made is kept -/

theorem PassRecord.Lawful.boundTo {record : PassRecord kind} (h : record.Lawful settings)
    (hfaithful : Faithful record.input.key? record.exchanges) {key : ResourceKey}
    (hbound : record.input.BoundTo key) : record.result.resource.BoundTo key := by
  rcases h.inherits hfaithful with hsame | ⟨other, haddress, hrecord⟩
  · exact hbound.congr hsame
  · obtain rfl := Option.some.inj (hbound.key?_eq.symm.trans haddress)
    exact Resource.boundTo_of_record (Resource.fits_of_key? haddress) hrecord

/-- A create that has succeeded was made under the address of the input and binds to it. -/
theorem PassRecord.Lawful.boundTo_of_creates {record : PassRecord kind}
    (h : record.Lawful settings) {key : ResourceKey} {exchange : Exchange}
    (hmem : exchange ∈ record.exchanges) (hcreates : exchange.Creates key) :
    record.input.key? = some key ∧ record.result.resource.BoundTo key := by
  obtain ⟨request, object, rfl, hkey⟩ := hcreates
  obtain ⟨rfl, hbinding⟩ := h.binding_of_created hmem
  have haddress : record.input.key? = some key :=
    (Resource.createRequest_key record.input).symm.trans hkey
  rw [Resource.binding_adoptCreated, haddress] at hbinding
  exact ⟨haddress, Resource.boundTo_of_record (Resource.fits_of_key? haddress) hbinding⟩

/-! ### Histories -/

variable {backend : Backend σ} {rounds : List (Round kind)} {resource : Resource kind} {state : σ}

theorem Round.KeepsStatus.binding_edit {round : Round kind} (h : round.KeepsStatus)
    (resource : Resource kind) : (round.edit resource).binding = resource.binding :=
  congrArg (fun status : Option Status => (status.getD .empty).binding) (h resource)

theorem Round.KeepsStatus.boundTo_edit {round : Round kind} (h : round.KeepsStatus)
    {key : ResourceKey} (hbound : resource.BoundTo key) : (round.edit resource).BoundTo key :=
  hbound.congr (h.binding_edit resource)

theorem history_carriesKey (hkind : kind ≠ .workspace)
    (hrounds : ∀ round ∈ rounds, round.KeepsStatus) (hbinding : resource.binding.NonEmpty)
    (hfaithful : ∀ record ∈ history backend settings rounds resource state,
      Faithful record.input.key? record.exchanges) :
    ∀ record ∈ history backend settings rounds resource state,
      ∀ call ∈ record.calls, call.CarriesKey := by
  induction rounds generalizing resource state with
  | nil => simp [history]
  | cons round rest ih =>
    rw [history] at hfaithful ⊢
    have hlawful := round.run_lawful backend settings resource state
    have hinput : (round.run backend settings resource state).1.input.binding.NonEmpty := by
      have hkeeps := hrounds round List.mem_cons_self
      exact (hkeeps.binding_edit resource).symm ▸ hbinding
    have hresult := (hlawful.inherits (hfaithful _ List.mem_cons_self)).nonEmpty hkind hinput
    intro record hrecord
    rcases List.mem_cons.mp hrecord with rfl | hrecord
    · exact hlawful.carriesKey hkind hinput
    · exact ih (fun other hother => hrounds other (List.mem_cons_of_mem _ hother)) hresult
        (fun other hother => hfaithful other (List.mem_cons_of_mem _ hother)) record hrecord

/-- Every pass of a history over a resource that is bound to an address keeps to the address. -/
theorem history_of_boundTo {key : ResourceKey} (hrounds : ∀ round ∈ rounds, round.KeepsStatus)
    (hbound : resource.BoundTo key)
    (hfaithful : ∀ record ∈ history backend settings rounds resource state,
      Faithful record.input.key? record.exchanges) :
    ∀ record ∈ history backend settings rounds resource state,
      (∀ call ∈ record.calls, call.Addresses key) ∧ record.DeletesOnlyAbsent key := by
  induction rounds generalizing resource state with
  | nil => simp [history]
  | cons round rest ih =>
    rw [history] at hfaithful ⊢
    have hlawful := round.run_lawful backend settings resource state
    have hinput : (round.run backend settings resource state).1.input.BoundTo key :=
      (hrounds round List.mem_cons_self).boundTo_edit hbound
    have hresult := hlawful.boundTo (hfaithful _ List.mem_cons_self) hinput
    intro record hrecord
    rcases List.mem_cons.mp hrecord with rfl | hrecord
    · exact ⟨hlawful.addresses hinput.key?_eq, hlawful.deletesOnlyAbsent hinput.key?_eq⟩
    · exact ih (fun other hother => hrounds other (List.mem_cons_of_mem _ hother)) hresult
        (fun other hother => hfaithful other (List.mem_cons_of_mem _ hother)) record hrecord

/-- The passes after one that has created under an address keep to the address. -/
theorem history_pairwise (hrounds : ∀ round ∈ rounds, round.KeepsStatus)
    (hfaithful : ∀ record ∈ history backend settings rounds resource state,
      Faithful record.input.key? record.exchanges) :
    (history backend settings rounds resource state).Pairwise fun earlier later =>
      ∀ key, (∃ exchange ∈ earlier.exchanges, exchange.Creates key) →
        (∀ call ∈ later.calls, call.Addresses key) ∧ later.DeletesOnlyAbsent key := by
  induction rounds generalizing resource state with
  | nil => exact List.Pairwise.nil
  | cons round rest ih =>
    rw [history] at hfaithful ⊢
    have hrest : ∀ other ∈ rest, other.KeepsStatus :=
      fun other hother => hrounds other (List.mem_cons_of_mem _ hother)
    have htail := fun other hother => hfaithful other (List.mem_cons_of_mem _ hother)
    refine List.pairwise_cons.mpr ⟨?_, ih hrest htail⟩
    intro later hlater key hcreated
    obtain ⟨exchange, hmem, hcreates⟩ := hcreated
    have hlawful := round.run_lawful backend settings resource state
    have hbound := (hlawful.boundTo_of_creates hmem hcreates).2
    exact history_of_boundTo hrest hbound htail later hlater

/-- All calls of a pass that has created under an address go to the address. -/
theorem PassRecord.Lawful.exchanges_pairwise {record : PassRecord kind}
    (h : record.Lawful settings) :
    record.exchanges.Pairwise fun earlier later =>
      ∀ key, earlier.Creates key → later.call.Addresses key := by
  apply List.pairwise_of_forall_mem_list
  intro earlier hearlier later hlater key hcreates
  have haddress := (h.boundTo_of_creates hearlier hcreates).1
  exact h.addresses haddress _ (List.mem_map_of_mem hlater)

/-- **Stable bindings.** Start from a resource without status and make passes in any order, with the
spec edited at will in between, against a backend whose reports name no workspace but the one that
is addressed. Then every create and put names an address, every call after a create that has
succeeded goes to the address of the create, and a deletion reported after it is one of an address
at which the backend has just found nothing. -/
theorem history_binding_stable (backend : Backend σ) (settings : PassSettings)
    (hkind : kind ≠ .workspace) (rounds : List (Round kind))
    (hrounds : ∀ round ∈ rounds, round.KeepsStatus) (resource : Resource kind)
    (hunbound : resource.status = none) (state : σ)
    (hfaithful : ∀ record ∈ history backend settings rounds resource state,
      Faithful record.input.key? record.exchanges) :
    (∀ record ∈ history backend settings rounds resource state,
        ∀ call ∈ record.calls, call.CarriesKey) ∧
      ((history backend settings rounds resource state).flatMap (·.exchanges)).Pairwise
        (fun earlier later => ∀ key, earlier.Creates key → later.call.Addresses key) ∧
      (history backend settings rounds resource state).Pairwise
        (fun earlier later => ∀ key, (∃ exchange ∈ earlier.exchanges, exchange.Creates key) →
          later.DeletesOnlyAbsent key) := by
  have hempty : resource.binding.NonEmpty := by
    have hstatus : resource.statusOrEmpty = .empty := by
      rw [Resource.statusOrEmpty, hunbound, Option.getD_none]
    rw [Resource.binding, hstatus]
    constructor
    · simp [Status.binding, Status.empty]
    · simp [Status.binding, Status.empty]
  have hpassages := history_pairwise hrounds hfaithful
  refine ⟨history_carriesKey hkind hrounds hempty hfaithful, ?_, ?_⟩
  · refine List.pairwise_flatMap.mpr ⟨?_, ?_⟩
    · intro record hrecord
      have hlawful := history_lawful backend settings rounds resource state record hrecord
      exact hlawful.exchanges_pairwise
    · apply hpassages.imp
      intro earlier later hlater exchange hexchange other hother key hcreates
      exact (hlater key ⟨exchange, hexchange, hcreates⟩).1 _ (List.mem_map_of_mem hother)
  · apply hpassages.imp
    intro earlier later hlater key hcreated
    exact (hlater key hcreated).2

/-- A namespace that is created, renamed in its spec and then deleted: the name that it was created
under is the one that is asked for and deleted. -/
theorem history_binding_stable_renamed :
    let renamed : Resource .ruleGroupsNamespace → Resource .ruleGroupsNamespace :=
      fun resource => { resource with spec := ⟨"other", "ws-2", none, .empty⟩ }
    let rounds : List (Round .ruleGroupsNamespace) :=
      [⟨id, .sync, "T1", false⟩, ⟨renamed, .sync, "T2", false⟩, ⟨id, .finalize, "T3", false⟩]
    let found : WireObject := { WireObject.empty with status := some ⟨"ACTIVE", none⟩ }
    let script : Script := { Script.empty with describes := [.ok none, .ok found, .ok found] }
    let records := history scripted (Settings.default.passSettings ⟨none, none⟩) rounds
      ⟨.empty, ⟨"rules", "ws-1", some "groups: []", .empty⟩, none⟩ script
    records.map (fun record => record.calls.map (·.api .ruleGroupsNamespace)) =
        [["DescribeRuleGroupsNamespace", "CreateRuleGroupsNamespace"],
          ["DescribeRuleGroupsNamespace"],
          ["DescribeRuleGroupsNamespace", "DeleteRuleGroupsNamespace"]] ∧
      (records.flatMap (·.exchanges)).Pairwise
        (fun earlier later => ∀ key, earlier.Creates key → later.call.Addresses key) := by
  intro renamed rounds found script records
  refine ⟨by decide, ?_⟩
  refine (history_binding_stable scripted _ (by decide) rounds ?_ _ rfl script (by decide)).2.1
  intro round hround resource
  simp only [rounds, List.mem_cons, List.not_mem_nil, or_false] at hround
  rcases hround with rfl | rfl | rfl <;> rfl

end ManagedPrometheus
