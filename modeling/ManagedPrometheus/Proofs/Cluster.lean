import ManagedPrometheus.Proofs.History
import ManagedPrometheus.Proofs.StatusPatch

/-!
# Visits in a cluster

The controller shares its objects with others. A visit reads an object as it is stored, and each of
its writes arrives as a merge patch at what is stored by then: others may have changed the object
since, the write may be turned down, and the report that it was applied may be lost. A `Turn` says
all of this for one visit, and `watch` is a series of visits of one object against one backend whose
state runs through.

What the writes of the controller do to the object that they arrive at is said here; when they are
made is the matter of `Visits`.
-/

namespace ManagedPrometheus

variable {σ α : Type} {kind : Kind}

/-! ### Finalizers -/

def Metadata.otherFinalizers (metadata : Metadata) : List String :=
  metadata.finalizerList.filter fun name => name ≠ finalizerName

theorem Resource.guardWrite_eq (resource : Resource kind) :
    resource.guardWrite
      = resource.finalizersWrite (resource.metadata.finalizerList ++ [finalizerName]) := rfl

theorem Resource.releaseWrite_eq (resource : Resource kind) :
    resource.releaseWrite = resource.finalizersWrite resource.metadata.otherFinalizers := rfl

/-! ### Stored objects -/

instance (metadata : Metadata) : Decidable metadata.Counted :=
  inferInstanceAs (Decidable (∀ n ∈ metadata.generation, Json.int64? (.int n) = some n))

/-- An object as a cluster stores it: it has a name, and it can be read from its manifest. -/
structure Stored (kind : Kind) where
  resource : Resource kind
  named : resource.metadata.nameAny ≠ ""
  counted : resource.metadata.Counted
  keyed : resource.Keyed

namespace Stored

/-- A resource as it is stored, none if it cannot be. -/
def of? (resource : Resource kind) : Option (Stored kind) :=
  if h : resource.metadata.nameAny ≠ "" ∧ resource.metadata.Counted ∧ resource.Keyed then
    some ⟨resource, h.1, h.2.1, h.2.2⟩
  else none

def withFinalizers (stored : Stored kind) (names : List String) : Stored kind :=
  ⟨stored.resource.withFinalizers names, stored.named, stored.counted, stored.keyed⟩

theorem of?_resource (stored : Stored kind) : of? stored.resource = some stored :=
  dif_pos ⟨stored.named, stored.counted, stored.keyed⟩

theorem resource_of_of? {resource : Resource kind} {stored : Stored kind}
    (h : of? resource = some stored) : stored.resource = resource := by
  rw [of?] at h
  split at h
  · cases h
    rfl
  · cases h

theorem ofJson?_toJson (stored : Stored kind) :
    Resource.ofJson? kind stored.resource.toJson = some stored.resource :=
  (Resource.ofJson?_toJson_iff stored.resource).mpr ⟨stored.counted, stored.keyed⟩

/-- What becomes of an object by a write: its manifest is patched and read again. A write of the
status takes over no more than the status, and one of the object leaves the status. -/
def receive? (stored : Stored kind) (write : Write) : Option (Stored kind) :=
  (Resource.ofJson? kind (stored.resource.toJson.merge write.body)).bind fun patched =>
    match write.target with
    | .object => of? (patched.withStatus stored.resource.status)
    | .status => of? (stored.resource.withStatus patched.status)

theorem receive?_finalizersWrite (stored : Stored kind) (read : Resource kind)
    (names : List String) :
    stored.receive? (read.finalizersWrite names) = some (stored.withFinalizers names) := by
  rw [receive?, Resource.finalizersWrite, Resource.writeTo, Resource.merge_finalizers]
  rw [show Resource.ofJson? kind (stored.resource.withFinalizers names).toJson = _ from
    (stored.withFinalizers names).ofJson?_toJson, Option.bind_some]
  exact (stored.withFinalizers names).of?_resource

/-- A patch from the status that is stored to one that keeps its identifiers stores this status. -/
theorem receive?_statusPatch (stored : Stored kind) (read : Resource kind)
    (hread : stored.resource.status = read.status) {next : Status}
    (hnext : next.conditions.Keyed)
    (hcovers : ∀ previous, read.status = some previous → next.Covers previous) :
    ∃ after, stored.receive? (read.writeTo .status (Status.patch read.status (some next)))
      = some after ∧ after.resource = stored.resource.withStatus (some next) := by
  have hbody : Status.patchBody read.status (some next) ≠ .null := by
    obtain ⟨changes, hchanges, -⟩ := Status.patchBody_eq_object read.status next
    rw [hchanges]
    simp
  have hmerge : (Status.json? stored.resource.status).merge
      (Status.patchBody read.status (some next)) = next.toJson := by
    rw [hread]
    exact Status.merge_patchBody hcovers
  let after : Stored kind :=
    ⟨stored.resource.withStatus (some next), stored.named, stored.counted, hnext⟩
  refine ⟨after, ?_, rfl⟩
  rw [receive?, Resource.writeTo, Status.patch, Resource.merge_status _ hbody hmerge]
  rw [show Resource.ofJson? kind (stored.resource.withStatus (some next)).toJson = _ from
    after.ofJson?_toJson, Option.bind_some]
  exact after.of?_resource

/-- A write of the status leaves all else as it is. -/
theorem receive?_status {stored after : Stored kind} {write : Write}
    (htarget : write.target = .status) (h : stored.receive? write = some after) :
    ∃ status?, after.resource = stored.resource.withStatus status? := by
  rw [receive?, htarget] at h
  obtain ⟨patched, -, hafter⟩ := Option.bind_eq_some_iff.mp h
  exact ⟨patched.status, resource_of_of? hafter⟩

end Stored

/-! ### Turns -/

/-- What becomes of a write on its way. -/
inductive Fate
  | accepted
  | refused
  /-- The write is applied, but reported as failed. -/
  | lost
  deriving DecidableEq

/-- What surrounds one write. -/
structure Delivery (kind : Kind) where
  /-- What others change before the write arrives. -/
  meanwhile : Stored kind → Stored kind
  fate : Fate
  /-- Whether the controller is told to stop meanwhile. -/
  cancels : Bool

namespace Delivery

/-- A write that arrives at once. -/
def prompt : Delivery kind := ⟨id, .accepted, false⟩

/-- Whether a write is reported as applied, and what is stored after it. -/
def bring (delivery : Delivery kind) (stored : Stored kind) (write : Write) : Bool × Stored kind :=
  match delivery.fate, (delivery.meanwhile stored).receive? write with
  | .accepted, some after => (true, after)
  | .lost, some after => (false, after)
  | _, _ => (false, delivery.meanwhile stored)

end Delivery

/-- What a visit has done. -/
inductive Deed
  | called (exchange : Exchange)
  | wrote (write : Write) (accepted : Bool)

/-- A deed, with what was stored just before it and after it. -/
structure Step (kind : Kind) where
  deed : Deed
  before : Stored kind
  after : Stored kind

/-- A call changes nothing in the cluster. -/
def Step.ofExchange (stored : Stored kind) (exchange : Exchange) : Step kind :=
  ⟨.called exchange, stored, stored⟩

/-- The state of a visit. -/
structure Scene (σ : Type) (kind : Kind) where
  backend : σ
  cancelled : Bool
  stored : Stored kind
  /-- What surrounds the next writes; all others arrive at once. -/
  deliveries : List (Delivery kind)
  steps : List (Step kind)

namespace Scene

/-- What surrounds the next write. -/
def delivery (scene : Scene σ kind) : Delivery kind := scene.deliveries.headD .prompt

def write (scene : Scene σ kind) (write : Write) : Bool × Scene σ kind :=
  let brought := scene.delivery.bring scene.stored write
  (brought.1, {
    backend := scene.backend
    cancelled := scene.cancelled || scene.delivery.cancels
    stored := brought.2
    deliveries := scene.deliveries.tail
    steps := scene.steps
      ++ [⟨.wrote write brought.1, scene.delivery.meanwhile scene.stored, brought.2⟩] })

/-- Goes on from what a session has done. -/
def resume (scene : Scene σ kind) (session : Session σ) : Scene σ kind :=
  { scene with
    backend := session.backend
    cancelled := session.cancelled
    steps := scene.steps ++ session.exchanges.map (Step.ofExchange scene.stored) }

/-- Answers what a visit asks for. -/
def answer (backend : Backend σ) (limit : Duration) :
    (errand : Errand) → Scene σ kind → errand.Answer × Scene σ kind
  | .call call, scene =>
    let answered := Session.perform backend kind limit call
      (Session.start scene.backend scene.cancelled)
    (answered.1, scene.resume answered.2)
  | .write write, scene => scene.write write

end Scene

/-- One visit and what surrounds it. -/
structure Turn (kind : Kind) where
  /-- What others change before the visit. -/
  edit : Stored kind → Stored kind
  now : String
  /-- Whether the controller is told to stop before the visit begins. -/
  cancelled : Bool
  /-- What surrounds the writes of the visit; all others arrive at once. -/
  deliveries : List (Delivery kind)

/-- A visit that was made: what it read, what it did, what was stored at its end, and how it
ended. -/
structure VisitRecord (kind : Kind) where
  now : String
  read : Stored kind
  steps : List (Step kind)
  left : Stored kind
  visit : Visit kind

/-- Makes the visit of a turn. -/
def Turn.run (backend : Backend σ) (settings : PassSettings) (turn : Turn kind)
    (stored : Stored kind) (state : σ) : VisitRecord kind × σ :=
  let read := turn.edit stored
  let ended := (Visit.plan settings turn.now read.resource).run
    (Scene.answer backend settings.callTimeout)
    ⟨state, turn.cancelled, read, turn.deliveries, []⟩
  (⟨turn.now, read, ended.2.steps, ended.2.stored, ended.1⟩, ended.2.backend)

/-- The visits of a series of turns. -/
def watch (backend : Backend σ) (settings : PassSettings) :
    List (Turn kind) → Stored kind → σ → List (VisitRecord kind)
  | [], _, _ => []
  | turn :: rest, stored, state =>
    let made := turn.run backend settings stored state
    made.1 :: watch backend settings rest made.1.left made.2

end ManagedPrometheus
