import ManagedPrometheus.Proofs.StableBinding

/-!
# The binding of a created workspace

Only the backend names a workspace, so a resource that was never bound takes over the name that a
create answers. A resource that is still bound, to a workspace that the backend no longer knows, is
created under its old address, and that address is recorded over the new name
(`history_created_workspace_key`). The workspace that was created is then never addressed again: the
next pass asks for the old one and creates once more.
-/

namespace ManagedPrometheus

variable {σ : Type} {settings : PassSettings}

theorem Resource.key?_workspace (resource : Resource .workspace) :
    resource.key? = resource.binding.workspaceId.map fun id => ⟨id, none⟩ := by
  rw [← Resource.bind_workspaceId]
  rfl

theorem PassRecord.Lawful.created_workspace_key {record : PassRecord .workspace}
    (h : record.Lawful settings) {request : Request} {object : WireObject}
    (hmem : ⟨.create request, .ok object⟩ ∈ record.exchanges) {id : String}
    (hid : object.workspaceId = some id) :
    record.result.resource.key? = some (record.input.key?.getD ⟨id, none⟩) := by
  rw [Resource.key?_workspace, (h.binding_of_created hmem).2, Resource.binding_adoptCreated]
  rcases haddress : record.input.key? with _ | key
  · simp [Binding.adopt, hid]
  · have hname : key.name = none := Resource.fits_of_key? haddress
    obtain ⟨workspaceId, name⟩ := key
    obtain rfl : name = none := hname
    rfl

/-- **The binding of a created workspace.** In every history of a workspace, against every backend:
once a create has answered with the name of the workspace, the address of the returned resource is
that workspace exactly if the resource had no address before or had this one. A resource with
another address keeps the other. Every call of a pass that starts from the returned status goes to
the address that was kept. -/
theorem history_created_workspace_key (backend : Backend σ) (settings : PassSettings)
    (rounds : List (Round .workspace)) (resource : Resource .workspace) (state : σ) :
    ∀ record ∈ history backend settings rounds resource state,
      ∀ (request : Request) (object : WireObject) (id : String),
        ⟨.create request, .ok object⟩ ∈ record.exchanges → object.workspaceId = some id →
          record.result.resource.key? = some (record.input.key?.getD ⟨id, none⟩) ∧
            (record.result.resource.key? = some ⟨id, none⟩ ↔
              record.input.key? = none ∨ record.input.key? = some ⟨id, none⟩) ∧
            ∀ later : PassRecord .workspace, later.Lawful settings →
              later.input.status = record.result.resource.status →
                ∀ call ∈ later.calls, call.Addresses (record.input.key?.getD ⟨id, none⟩) := by
  intro record hrecord request object id hmem hid
  have hlawful := history_lawful backend settings rounds resource state record hrecord
  have hkey := hlawful.created_workspace_key hmem hid
  refine ⟨hkey, ?_, ?_⟩
  · rw [hkey]
    rcases record.input.key? with _ | key
    · simp
    · simp
  · intro later hlater hstatus
    apply hlater.addresses
    -- the address of a workspace is read off its status alone
    rw [← hkey, Resource.key?_workspace, Resource.key?_workspace, Resource.binding,
      Resource.binding, Resource.statusOrEmpty, Resource.statusOrEmpty, hstatus]

/-- A workspace that was never bound is bound to what the backend made. -/
theorem history_created_workspace_key_unbound :
    let answer : WireObject := { WireObject.empty with workspaceId := some "ws-new" }
    let script : Script := { Script.empty with creates := [.ok answer] }
    let settings := Settings.default.passSettings ⟨none, none⟩
    let unbound : Resource .workspace := ⟨.empty, ⟨some "metrics", none, .empty⟩, none⟩
    let rounds : List (Round .workspace) := [⟨id, .sync, "T", false⟩]
    ∃ record ∈ history scripted settings rounds unbound script,
      record.result.resource.key? = some ⟨"ws-new", none⟩ := by
  intro answer script settings unbound rounds
  have hrecord : (Round.run scripted settings ⟨id, .sync, "T", false⟩ unbound script).1 ∈
      history scripted settings rounds unbound script := List.mem_cons_self
  have hcreated : ⟨.create unbound.createRequest, .ok answer⟩ ∈
      (Round.run scripted settings ⟨id, .sync, "T", false⟩ unbound script).1.exchanges :=
    List.mem_cons_self
  exact ⟨_, hrecord, (history_created_workspace_key scripted settings rounds unbound script _
    hrecord _ answer "ws-new" hcreated rfl).2.1.mpr (.inl rfl)⟩

/-- A workspace that is bound to one that the backend no longer knows stays bound to that one, and
is created again by the next pass. -/
theorem recreated_workspace_keeps_old_key :
    let answer : WireObject := { WireObject.empty with workspaceId := some "ws-new" }
    let script : Script := { Script.empty with creates := [.ok answer] }
    let settings := Settings.default.passSettings ⟨none, none⟩
    let bound : Resource .workspace :=
      ⟨.empty, ⟨some "metrics", none, .empty⟩,
        some { Status.empty with workspaceId := some "ws-old" }⟩
    let rounds : List (Round .workspace) := [⟨id, .sync, "T1", false⟩, ⟨id, .sync, "T2", false⟩]
    let records := history scripted settings rounds bound script
    (∃ record ∈ records, ⟨.create bound.createRequest, .ok answer⟩ ∈ record.exchanges ∧
        record.result.resource.key? = some ⟨"ws-old", none⟩) ∧
      records.map (fun record => record.calls.map (·.api .workspace)) =
        [["DescribeWorkspace", "CreateWorkspace"], ["DescribeWorkspace", "CreateWorkspace"]] := by
  intro answer script settings bound rounds records
  refine ⟨⟨_, List.mem_cons_self, List.mem_cons_of_mem _ List.mem_cons_self, ?_⟩, by decide⟩
  decide

end ManagedPrometheus
