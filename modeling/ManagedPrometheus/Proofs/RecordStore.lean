import ManagedPrometheus.Proofs.History
import ManagedPrometheus.Proofs.TagChanges

/-!
# A backend that keeps records

The plainest backend: a store of records under their addresses. A record that exists is active, a
description reports it, a create makes it of what the request carries, and each change does what it
says and reports nothing. No call fails. `Serves` is the run of a pass against such a store, stated
as a relation of the pass, the calls and the stores before and after, so that the runs of passes in
a row are put together from their parts.
-/

namespace ManagedPrometheus

variable {α β : Type} {kind : Kind} {settings : PassSettings}

/-! ### Records -/

/-- What the store keeps of a resource. -/
structure Record where
  /-- The identifier, under which tags are set and removed. -/
  arn : String
  tags : Tags
  workspaceAlias : Option String
  kmsKeyArn : Option String
  data : Option Bytes
  logGroupArn : Option String
  deriving DecidableEq

namespace Record

/-- The description of the record at an address. -/
def report (record : Record) (key : ResourceKey) : WireObject where
  arn := some record.arn
  workspaceId := some key.workspaceId
  name := key.name
  workspaceAlias := record.workspaceAlias
  status := some ⟨StatusCode.active.toText, none⟩
  data := record.data
  tags := some record.tags
  prometheusEndpoint := none
  kmsKeyArn := record.kmsKeyArn
  logGroupArn := record.logGroupArn

def ofRequest (arn : String) (request : Request) : Record where
  arn := arn
  tags := request.tags
  workspaceAlias := request.workspaceAlias
  kmsKeyArn := request.kmsKeyArn
  data := request.data
  logGroupArn := request.logGroupArn

/-- Replaces the attribute that the put call of a kind replaces. -/
def put (record : Record) (kind : Kind) (request : Request) : Record :=
  match kind with
  | .workspace => { record with workspaceAlias := request.workspaceAlias }
  | .ruleGroupsNamespace | .alertManagerDefinition => { record with data := request.data }
  | .loggingConfiguration => { record with logGroupArn := request.logGroupArn }

/-- What a change does to the record at an address. -/
def change (record : Record) (kind : Kind) (key : ResourceKey) : Mutation → Record
  | .tag arn tags =>
    if arn = record.arn then { record with tags := record.tags.insertAll tags.entries }
    else record
  | .untag arn names =>
    if arn = record.arn then
      { record with tags := record.tags.filterKeys fun name => !names.contains name }
    else record
  | .put request => if request.key = some key then record.put kind request else record

/-- What a series of changes does to the record at an address. -/
def changeAll (record : Record) (kind : Kind) (key : ResourceKey) (changes : List Mutation) :
    Record :=
  changes.foldl (fun record mutation => record.change kind key mutation) record

theorem changeAll_append (record : Record) (kind : Kind) (key : ResourceKey)
    (first second : List Mutation) :
    record.changeAll kind key (first ++ second)
      = (record.changeAll kind key first).changeAll kind key second :=
  List.foldl_append

end Record

/-! ### Stores -/

/-- The records under their addresses. -/
abbrev Store := ResourceKey → Option Record

/-- What the store assigns to a resource that it creates: its workspace, if the request names none,
and its identifier. -/
structure Assignment where
  workspaceId : String
  arn : String

namespace Store

variable (assign : Request → Assignment)

/-- The address at which a create puts its record. -/
def placeOf (request : Request) : ResourceKey :=
  request.key.getD ⟨(assign request).workspaceId, none⟩

def recordOf (request : Request) : Record := .ofRequest (assign request).arn request

/-- Makes a change at every address that it concerns. -/
def change (store : Store) (kind : Kind) (mutation : Mutation) : Store :=
  fun key => (store key).map fun record => record.change kind key mutation

/-- Makes a series of changes. -/
def changeAll (store : Store) (kind : Kind) (changes : List Mutation) : Store :=
  changes.foldl (fun store mutation => store.change kind mutation) store

/-- What the store answers to a call. -/
def reply (store : Store) : (call : Call) → call.Reply
  | .describe key => (store key).map fun record => record.report key
  | .create request => (recordOf assign request).report (placeOf assign request)
  | .update _ => none
  | .delete _ => ()

def after (store : Store) (kind : Kind) : Call → Store
  | .describe _ => store
  | .create request =>
    fun key => if key = placeOf assign request then some (recordOf assign request) else store key
  | .update mutation => store.change kind mutation
  | .delete gone => fun key => if key = gone then none else store key

theorem changeAll_apply {store : Store} {key : ResourceKey} {record : Record}
    (h : store key = some record) (kind : Kind) (changes : List Mutation) :
    store.changeAll kind changes key = some (record.changeAll kind key changes) := by
  induction changes generalizing store record with
  | nil => exact h
  | cons mutation rest ih =>
    have hhead : store.change kind mutation key = some (record.change kind key mutation) := by
      rw [change, h, Option.map_some]
    exact ih hhead

end Store

def recordStore (assign : Request → Assignment) : Backend Store where
  answer kind call store :=
    (⟨some (.ok (store.reply assign call)), false⟩, store.after assign kind call)

/-! ### Runs -/

/-- A pass is served by a store: each call is answered, and the pass ends with a value. -/
inductive Serves (assign : Request → Assignment) (kind : Kind) :
    Pass α → Store → List Call → α → Store → Prop
  | done (value : α) (store : Store) : Serves assign kind (.done value) store [] value store
  | ask {call : Call} {next : call.Result → Pass α} {store ended : Store} {calls : List Call}
      {value : α} :
      Serves assign kind (next (.ok (store.reply assign call))) (store.after assign kind call)
        calls value ended →
      Serves assign kind (.ask call next) store (call :: calls) value ended

namespace Serves

variable {assign : Request → Assignment}

theorem bind {pass : Pass α} {next : α → Pass β} {store middle ended : Store}
    {first second : List Call} {value : α} {result : β}
    (hfirst : Serves assign kind pass store first value middle)
    (hsecond : Serves assign kind (next value) middle second result ended) :
    Serves assign kind (pass.bind next) store (first ++ second) result ended := by
  induction hfirst with
  | done => exact hsecond
  | ask _ ih => exact .ask (ih hsecond)

/-- A session against the store runs as the pass is served. -/
theorem run_eq {pass : Pass α} {store ended : Store} {calls : List Call} {value : α}
    (h : Serves assign kind pass store calls value ended) (limit : Duration)
    (before : List Exchange) :
    ∃ made, made.map (·.call) = calls ∧
      Session.run (recordStore assign) kind limit pass ⟨store, false, before⟩
        = (value, ⟨ended, false, before ++ made⟩) := by
  induction h generalizing before with
  | done value store => exact ⟨[], rfl, by simp [Session.run]⟩
  | @ask call next store ended calls value _ ih =>
    let exchange : Exchange := ⟨call, .ok (store.reply assign call)⟩
    obtain ⟨made, hcalls, hrun⟩ := ih (before ++ [exchange])
    refine ⟨exchange :: made, by rw [List.map_cons, hcalls], ?_⟩
    rw [List.append_cons]
    exact hrun

/-- A round of a history against the store. -/
theorem round_run {settings : PassSettings} {now : String} {desired : Resource kind}
    {store ended : Store} {calls : List Call} {result : PassResult kind}
    (h : Serves assign kind (desired.sync settings now) store calls result ended) :
    let made := Round.run (recordStore assign) settings ⟨id, .sync, now, false⟩ desired store
    made.1.result = result ∧ made.1.calls = calls ∧ made.2 = ended := by
  obtain ⟨exchanges, hcalls, hrun⟩ := h.run_eq settings.callTimeout []
  intro made
  have hmade : made = (⟨.sync, now, desired, exchanges, result⟩, ended) := by
    show (_, _) = _
    simp only [Session.start, Task.pass, id_eq, hrun, List.nil_append]
  rw [hmade]
  exact ⟨rfl, hcalls, rfl⟩

end Serves

end ManagedPrometheus
