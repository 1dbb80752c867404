import ManagedPrometheus.Proofs.Descriptions
import ManagedPrometheus.Proofs.StableBinding

/-!
# Declared addresses

The workspace and the name that a spec declares are not to be changed. An update sees to it that
they agree with what was described before it makes a change. A create does not look at them: it
goes to the address that is recorded, and if that is gone from the backend while the spec declares
another, the resource is made at the old address (`recreated_at_old_address`).

`PassRecord.AddressesDeclared` says when the requests of a pass go to the address that the spec
declares: a create, if no recorded part differs from the spec (`Resource.key?_eq_declared_iff`); a
put, if no description has reported a name other than the one that was asked for
(`Spec.FixedAlike.declared_iff`).
-/

namespace ManagedPrometheus

variable {σ : Type} {kind : Kind} {now : String} {settings : PassSettings}

/-! ### What a spec declares -/

/-- The address that a spec declares by itself. -/
def Spec.declared? (spec : Spec kind) : Option ResourceKey := spec.key? none

/-- No recorded part of the address differs from the spec. -/
def Resource.KeepsIdentity : {kind : Kind} → Resource kind → Prop
  | .workspace, _ => True
  | .ruleGroupsNamespace, rules =>
    (∀ id ∈ rules.binding.workspaceId, id = rules.spec.workspaceId) ∧
      ∀ name ∈ rules.binding.name, name = rules.spec.name
  | .alertManagerDefinition, definition =>
    ∀ id ∈ definition.binding.workspaceId, id = definition.spec.workspaceId
  | .loggingConfiguration, logging =>
    ∀ id ∈ logging.binding.workspaceId, id = logging.spec.workspaceId

theorem getD_eq_iff {recorded : Option String} {declared : String} :
    recorded.getD declared = declared ↔ ∀ text ∈ recorded, text = declared := by
  cases recorded <;> simp

theorem addressOf_eq_iff {used declared : String} (hdeclared : declared ≠ "") :
    (if used.isEmpty then none else some (ResourceKey.mk used none))
      = (if declared.isEmpty then none else some (ResourceKey.mk declared none)) ↔
      used = declared := by
  by_cases hused : used = ""
  · simp [hused, hdeclared, hdeclared.symm]
  · simp [hused, hdeclared]

theorem namedAddressOf_eq_iff {used declared name declaredName : String} (hdeclared : declared ≠ "")
    (hname : declaredName ≠ "") :
    (if used.isEmpty || name.isEmpty then none else some (ResourceKey.mk used (some name)))
      = (if declared.isEmpty || declaredName.isEmpty then none
          else some (ResourceKey.mk declared (some declaredName))) ↔
      used = declared ∧ name = declaredName := by
  by_cases hused : used = ""
  · simp [hused, hdeclared, hname, hdeclared.symm]
  · by_cases hempty : name = ""
    · simp [hempty, hdeclared, hname, hname.symm]
    · simp [hused, hempty, hdeclared, hname]

theorem Resource.key?_eq_declared_iff {resource : Resource kind} (hkind : kind ≠ .workspace)
    (hvalid : resource.spec.problem? = none) :
    resource.key? = resource.spec.declared? ↔ resource.KeepsIdentity := by
  cases kind with
  | workspace => exact absurd rfl hkind
  | ruleGroupsNamespace =>
    obtain ⟨hname, hworkspace, -⟩ := ruleGroupsNamespace_of_valid hvalid
    rw [KeepsIdentity, ← getD_eq_iff, ← getD_eq_iff, key?, Spec.declared?, Spec.key?, Spec.key?,
      bind_workspaceId, bind_name]
    exact namedAddressOf_eq_iff hworkspace hname
  | alertManagerDefinition =>
    have hworkspace := (alertManagerDefinition_of_valid hvalid).1
    rw [KeepsIdentity, ← getD_eq_iff, key?, Spec.declared?, Spec.key?, Spec.key?, bind_workspaceId]
    exact addressOf_eq_iff hworkspace
  | loggingConfiguration =>
    have hworkspace := (loggingConfiguration_of_valid hvalid).1
    rw [KeepsIdentity, ← getD_eq_iff, key?, Spec.declared?, Spec.key?, Spec.key?, bind_workspaceId]
    exact addressOf_eq_iff hworkspace

theorem Spec.declared?_of_rekey {spec : Spec kind} {key : ResourceKey} (hkind : kind ≠ .workspace)
    (hfits : key.Fits kind) (hrekey : spec.rekey key = spec) : spec.declared? = some key := by
  obtain ⟨workspaceId, name⟩ := key
  rw [← hrekey, declared?]
  cases kind with
  | workspace => exact absurd rfl hkind
  | ruleGroupsNamespace =>
    obtain ⟨hworkspace, name, rfl, hname⟩ := hfits
    simp [rekey, key?, hworkspace, hname]
  | alertManagerDefinition =>
    obtain ⟨hworkspace, rfl⟩ := hfits
    simp [rekey, key?, hworkspace]
  | loggingConfiguration =>
    obtain ⟨hworkspace, rfl⟩ := hfits
    simp [rekey, key?, hworkspace]

theorem Spec.FixedAlike.declared_iff {desired : Resource kind} {key : ResourceKey}
    {object : WireObject} (hkind : kind ≠ .workspace) (hfits : key.Fits kind)
    (h : desired.spec.FixedAlike (desired.snapshot now key object).spec) :
    some key = desired.spec.declared? ↔
      (kind = .ruleGroupsNamespace → ∀ name ∈ object.name, key.name = some name) := by
  constructor
  · -- the name that was compared is the reported one, not that of the address
    rintro hdeclared rfl name hreported
    have hshown : desired.spec.name = object.name.getD (key.name.getD desired.spec.name) :=
      Option.some.inj (FieldValue.text.inj (h .name (by decide)))
    rw [hreported, Option.getD_some] at hshown
    rw [declared?, key?] at hdeclared
    split at hdeclared
    · cases hdeclared
    · rw [Option.some.inj hdeclared, ← hshown]
      rfl
  · intro hname
    exact (declared?_of_rekey hkind hfits (h.rekey_eq hname)).symm

/-! ### The requests of a pass -/

theorem Updates.of_put_call {desired latest : Resource kind} {made : List Exchange}
    {decision : Decision kind} (h : Updates desired latest made decision) {request : Request}
    (hmem : .update (.put request) ∈ made.map (·.call)) :
    desired.spec.FixedAlike latest.spec ∧ request = desired.request := by
  obtain ⟨hopen, -⟩ := h.mem_calls hmem
  refine ⟨(decideAtOnce_eq_none_iff.mp hopen).2.1, ?_⟩
  cases h with
  | decided => cases hmem
  | unidentified => cases hmem
  | changing _ hmutations happlies =>
    obtain ⟨mutation, hchange, hcall⟩ := List.mem_map.mp (happlies.calls_isPrefix.subset hmem)
    obtain rfl := Call.update.inj hcall
    exact eq_request_of_put_mem hmutations hchange

theorem Syncs.creates_of_absent {desired : Resource kind} {made : List Exchange}
    {decision : Decision kind} (h : Syncs now desired made decision) {key : ResourceKey}
    (habsent : ⟨.describe key, .ok none⟩ ∈ made) (hvalid : desired.spec.problem? = none)
    (hended : decision.outcome ≠ .failed .cancelled) :
    .create desired.createRequest ∈ made.map (·.call) := by
  cases h with
  | unread hreads =>
    cases hreads with
    | refused => cases habsent
    | failed => cases List.mem_singleton.mp habsent
  | creating hreads hcreates =>
    rw [List.map_append]
    apply List.mem_append_right
    cases hcreates with
    | invalid hproblem => cases hvalid.symm.trans hproblem
    | refused => exact absurd rfl hended
    | failed => exact List.mem_cons_self
    | created => exact List.mem_cons_self
  | updating _ hupdates =>
    rcases List.mem_cons.mp habsent with hsame | habsent
    · cases hsame
    · obtain ⟨_, _, hcall⟩ := hupdates.mem_calls (List.mem_map_of_mem (f := (·.call)) habsent)
      cases hcall

/-- To which addresses a pass sends its requests. -/
structure PassRecord.AddressesDeclared (record : PassRecord kind) : Prop where
  /-- A create goes to the declared address if no recorded part differs from the spec. -/
  creates : ∀ request, .create request ∈ record.calls →
    request.key = record.input.key? ∧
      (request.key = record.input.spec.declared? ↔ record.input.KeepsIdentity)
  /-- Whether one differs is not looked at before. -/
  recreates : record.task = .sync → record.input.spec.problem? = none →
    record.result.outcome ≠ .failed .cancelled →
      ∀ key, ⟨.describe key, .ok none⟩ ∈ record.exchanges →
        .create record.input.createRequest ∈ record.calls
  /-- A put goes to the declared address unless another name was reported. -/
  puts : ∀ request, .update (.put request) ∈ record.calls →
    ∃ key object, ⟨.describe key, .ok (some object)⟩ ∈ record.exchanges ∧
      request.key = some key ∧
      (request.key = record.input.spec.declared? ↔
        (kind = .ruleGroupsNamespace → ∀ name ∈ object.name, key.name = some name))

theorem PassRecord.Lawful.addressesDeclared {record : PassRecord kind}
    (h : record.Lawful settings) (hkind : kind ≠ .workspace) : record.AddressesDeclared := by
  obtain ⟨decision, hresult, ⟨-, hsyncs⟩ | ⟨hfinalize, hdeletes⟩⟩ := h.exit
  · constructor
    case creates =>
      intro request hmem
      obtain ⟨hvalid, rfl⟩ := hsyncs.of_create_call hmem
      rw [Resource.createRequest_key]
      exact ⟨rfl, Resource.key?_eq_declared_iff hkind hvalid⟩
    case recreates =>
      intro _ hvalid hended key habsent
      rw [hresult, Resource.conclude_outcome] at hended
      exact hsyncs.creates_of_absent habsent hvalid hended
    case puts =>
      intro request hmem
      obtain ⟨key, object, hdescribed⟩ := hsyncs.described_of_update hmem
      obtain ⟨haddress, rest, hexchanges, hupdates⟩ := hsyncs.updates_of_described hdescribed
      rw [calls, hexchanges] at hmem
      rcases List.mem_cons.mp hmem with hcall | hmem
      · cases hcall
      · obtain ⟨hfixed, rfl⟩ := hupdates.of_put_call hmem
        refine ⟨key, object, hdescribed, ?_⟩
        rw [Resource.request_key, haddress]
        exact ⟨rfl, hfixed.declared_iff hkind (Resource.fits_of_key? haddress)⟩
  · constructor
    case creates =>
      intro request hmem
      obtain ⟨_, _, hcall | hcall⟩ := hdeletes.mem_calls hmem <;> cases hcall
    case recreates =>
      intro hsync
      cases hsync.symm.trans hfinalize
    case puts =>
      intro request hmem
      obtain ⟨_, _, hcall | hcall⟩ := hdeletes.mem_calls hmem <;> cases hcall

/-- **Which requests go to the declared address.** Take a kind whose address its spec declares, and
any pass of any history. A create goes to the address that is in use, and that is the declared one
exactly if no recorded part of it differs from the spec; it is made all the same if one does. A put
goes to the address that was described, and that is the declared one exactly if no namespace was
reported under a name other than the one that was asked for. -/
theorem history_addressesDeclared (backend : Backend σ) (settings : PassSettings)
    (hkind : kind ≠ .workspace) (rounds : List (Round kind)) (resource : Resource kind)
    (state : σ) :
    ∀ record ∈ history backend settings rounds resource state, record.AddressesDeclared := by
  intro record hrecord
  exact (history_lawful backend settings rounds resource state record hrecord).addressesDeclared
    hkind

/-- A namespace that is gone from the backend is created at the address that it was bound to and
still declares. -/
theorem history_addressesDeclared_recreated :
    let rules : Resource .ruleGroupsNamespace :=
      ⟨.empty, ⟨"rules", "ws-1", some "groups: []", .empty⟩,
        some { Status.empty with workspaceId := some "ws-1", name := some "rules" }⟩
    let script : Script := { Script.empty with describes := [.ok none] }
    let settings := Settings.default.passSettings ⟨none, none⟩
    let rounds : List (Round .ruleGroupsNamespace) := [⟨id, .sync, "T", false⟩]
    Kind.ruleGroupsNamespace ≠ .workspace ∧
      ∃ record ∈ history scripted settings rounds rules script,
        record.calls = [.describe ⟨"ws-1", some "rules"⟩, .create rules.createRequest] ∧
          rules.createRequest.key = rules.spec.declared? ∧ record.AddressesDeclared := by
  intro rules script settings rounds
  have hmem : (Round.run scripted settings ⟨id, .sync, "T", false⟩ rules script).1 ∈
      history scripted settings rounds rules script := List.mem_cons_self
  exact ⟨by decide, _, hmem, by decide, by decide,
    history_addressesDeclared scripted settings (by decide) rounds rules script _ hmem⟩

/-- A definition moves to another workspace and the old one is gone: it is made there again. A
namespace takes another name, which the description of the old one reports: the old one is put. -/
theorem recreated_at_old_address :
    let settings := Settings.default.passSettings ⟨none, none⟩
    let definition : Resource .alertManagerDefinition :=
      ⟨.empty, ⟨"ws-new", some "receivers: []"⟩,
        some { Status.empty with workspaceId := some "ws-old" }⟩
    let created := (Round.run scripted settings ⟨id, .sync, "T", false⟩ definition
      { Script.empty with describes := [.ok none] }).1
    let rules : Resource .ruleGroupsNamespace :=
      ⟨.empty, ⟨"new", "ws-1", some "groups: []", .empty⟩,
        some { Status.empty with workspaceId := some "ws-1", name := some "old" }⟩
    let found : WireObject :=
      { WireObject.empty with name := some "new", status := some ⟨"ACTIVE", none⟩ }
    let changed := (Round.run scripted settings ⟨id, .sync, "T", false⟩ rules
      { Script.empty with describes := [.ok found] }).1
    (created.calls = [.describe ⟨"ws-old", none⟩, .create definition.createRequest] ∧
      definition.createRequest.key = some ⟨"ws-old", none⟩ ∧
      definition.spec.declared? = some ⟨"ws-new", none⟩) ∧
    changed.calls = [.describe ⟨"ws-1", some "old"⟩, .update (.put rules.request)] ∧
      rules.request.key = some ⟨"ws-1", some "old"⟩ ∧
      rules.spec.declared? = some ⟨"ws-1", some "new"⟩ := by
  decide

end ManagedPrometheus
