import ManagedPrometheus.Phase

/-!
# Status and conditions

The status of a resource: what the backend last reported of it, the address it is bound to, and
three conditions that sum up the last pass. `Synced` says that nothing is pending, `Terminal` that
the last failure is not retried, `Recoverable` that it is. A condition's transition time moves only
when the condition appears or its value flips.
-/

namespace ManagedPrometheus

/-! ### Conditions -/

/-- The conditions that a pass maintains. -/
inductive ConditionType
  | synced
  | terminal
  | recoverable
  deriving DecidableEq, Repr

namespace ConditionType

/-- All condition types, in the order in which a status lists them. -/
def all : List ConditionType := [.synced, .terminal, .recoverable]

/-- The name in manifests. -/
def name : ConditionType → String
  | .synced => "ResourceSynced"
  | .terminal => "Terminal"
  | .recoverable => "Recoverable"

/-- Reads the name of manifests. -/
def ofName? (name : String) : Option ConditionType := all.find? fun type => type.name = name

end ConditionType

/-- Whether a condition holds. -/
inductive ConditionValue
  | yes
  | no
  | unknown
  deriving DecidableEq, Repr

namespace ConditionValue

/-- The name in manifests. -/
def name : ConditionValue → String
  | .yes => "True"
  | .no => "False"
  | .unknown => "Unknown"

/-- Reads the name of manifests. -/
def ofName? (name : String) : Option ConditionValue :=
  [ConditionValue.yes, .no, .unknown].find? fun value => value.name = name

def ofBool : Bool → ConditionValue
  | true => .yes
  | false => .no

end ConditionValue

/-- What is known of one condition. -/
structure Condition where
  type : ConditionType
  value : ConditionValue
  lastTransitionTime : Option String
  message : Option String
  deriving DecidableEq, Repr

/-- A map from types to conditions. A condition also has a type of its own, which nothing here ties
to the one that it is stored under. -/
structure Conditions where
  synced : Option Condition
  terminal : Option Condition
  recoverable : Option Condition
  deriving DecidableEq, Repr

namespace Conditions

def empty : Conditions := ⟨none, none, none⟩

/-- The condition that is stored under a type. -/
def get? (conditions : Conditions) : ConditionType → Option Condition
  | .synced => conditions.synced
  | .terminal => conditions.terminal
  | .recoverable => conditions.recoverable

/-- Stores a condition under a type, in place of the one that is there. -/
def put (conditions : Conditions) (type : ConditionType) (condition : Condition) : Conditions :=
  match type with
  | .synced => { conditions with synced := some condition }
  | .terminal => { conditions with terminal := some condition }
  | .recoverable => { conditions with recoverable := some condition }

/-- The conditions that are stored, in the order of the types. -/
def values (conditions : Conditions) : List Condition := ConditionType.all.filterMap conditions.get?

@[simp] theorem get?_empty (type : ConditionType) : empty.get? type = none := by
  cases type <;> rfl

@[simp] theorem get?_put (conditions : Conditions) (type other : ConditionType)
    (condition : Condition) :
    (conditions.put type condition).get? other
      = if other = type then some condition else conditions.get? other := by
  cases type <;> cases other <;> rfl

theorem ext_get? {a b : Conditions} (h : ∀ type, a.get? type = b.get? type) : a = b := by
  cases a
  cases b
  simp only [Conditions.mk.injEq]
  exact ⟨h .synced, h .terminal, h .recoverable⟩

/-- Every condition is stored under its own type. -/
def Keyed (conditions : Conditions) : Prop :=
  ∀ type condition, conditions.get? type = some condition → condition.type = type

theorem keyed_empty : empty.Keyed := by
  intro type condition h
  rw [get?_empty] at h
  cases h

theorem Keyed.put {conditions : Conditions} (h : conditions.Keyed) {type : ConditionType}
    {condition : Condition} (htype : condition.type = type) :
    (conditions.put type condition).Keyed := by
  intro other found hfound
  rw [get?_put] at hfound
  split at hfound
  case isTrue hsame =>
    obtain rfl := Option.some.inj hfound
    exact htype.trans hsame.symm
  case isFalse => exact h other found hfound

instance (conditions : Conditions) : Decidable conditions.Keyed :=
  decidable_of_iff
    (∀ type ∈ ConditionType.all, ∀ condition ∈ conditions.get? type, condition.type = type) <| by
    constructor
    · intro h type condition hcondition
      exact h type (by cases type <;> decide) condition hcondition
    · intro h type _ condition hcondition
      exact h type condition hcondition

/-- What is stored under a type once it is set at the time `now`: a new condition, or the one that
is there, which keeps its own type, and its time unless its value changes. -/
def entry (conditions : Conditions) (now : String) (type : ConditionType) (value : ConditionValue)
    (message : Option String) : Condition :=
  match conditions.get? type with
  | some old =>
    { old with
      value, message
      lastTransitionTime := if old.value = value then old.lastTransitionTime else some now }
  | none => { type, value, lastTransitionTime := some now, message }

/-- Sets a condition at the time `now`. -/
def set (conditions : Conditions) (now : String) (type : ConditionType) (value : ConditionValue)
    (message : Option String) : Conditions :=
  conditions.put type (conditions.entry now type value message)

/-- Sets a condition to false, if there is one. -/
def clear (conditions : Conditions) (now : String) (type : ConditionType) : Conditions :=
  if (conditions.get? type).isSome then conditions.set now type .no none else conditions

end Conditions

/-! ### Status -/

/-- Identifiers that the backend assigns. -/
structure ResourceMetadata where
  arn : Option String
  ownerAccountId : Option String
  region : Option String
  deriving DecidableEq, Repr

def ResourceMetadata.empty : ResourceMetadata := ⟨none, none, none⟩

/-- The status of a resource. -/
structure Status where
  resourceMetadata : Option ResourceMetadata
  statusCode : Option StatusCode
  statusReason : Option String
  conditions : Conditions
  /-- The workspace that the resource is bound to. -/
  workspaceId : Option String
  /-- The name that the resource is bound to. -/
  name : Option String
  prometheusEndpoint : Option String
  deriving DecidableEq, Repr

namespace Status

def empty : Status := ⟨none, none, none, .empty, none, none, none⟩

/-- The phase of the last code. -/
def phase (status : Status) : Phase := Phase.ofCode? status.statusCode

/-- The backend's identifier of the resource. -/
def arn? (status : Status) : Option String := status.resourceMetadata.bind (·.arn)

/-- Whether there is a condition of the type and it is true. -/
def isTrue (status : Status) (type : ConditionType) : Bool :=
  match status.conditions.get? type with
  | some condition => condition.value == .yes
  | none => false

end Status

/-- The phase of a status that may be absent. -/
def phaseOf (status? : Option Status) : Phase :=
  match status? with
  | some status => status.phase
  | none => .notFound

/-! ### What an operation does to the conditions -/

/-- How an operation ended, as far as the conditions show it. -/
inductive Verdict
  | success
  | recoverable (message : String)
  | terminal (message : String)
  deriving DecidableEq, Repr

namespace Status

/-- Sets a condition at the time `now`. -/
def setCondition (status : Status) (now : String) (type : ConditionType) (value : ConditionValue)
    (message : Option String) : Status :=
  { status with conditions := status.conditions.set now type value message }

/-- Enters a verdict. A terminal failure raises `Terminal` and leaves `Recoverable`; a recoverable
one raises `Recoverable` and clears `Terminal`; success clears both. -/
def enter (status : Status) (now : String) (verdict : Verdict) : Status :=
  { status with
    conditions :=
      match verdict with
      | .terminal message => status.conditions.set now .terminal .yes (some message)
      | .recoverable message =>
        (status.conditions.set now .recoverable .yes (some message)).clear now .terminal
      | .success => (status.conditions.clear now .terminal).clear now .recoverable }

def setSynced (status : Status) (now : String) (synced : Bool) (message : Option String) :
    Status :=
  status.setCondition now .synced (ConditionValue.ofBool synced) message

/-- A status that was made of another one, and whether it differs from it. -/
def reported (before after : Status) : Status × Bool := (after, after != before)

/-- Enters a verdict, and reports whether this changes anything. -/
def fold (status : Status) (now : String) (verdict : Verdict) : Status × Bool :=
  status.reported (status.enter now verdict)

/-- Sets the `Synced` condition, and reports whether this changes anything. -/
def foldSynced (status : Status) (now : String) (synced : Bool) (message : Option String) :
    Status × Bool :=
  status.reported (status.setSynced now synced message)

@[simp] theorem fold_fst (status : Status) (now : String) (verdict : Verdict) :
    (status.fold now verdict).1 = status.enter now verdict := rfl

@[simp] theorem foldSynced_fst (status : Status) (now : String) (synced : Bool)
    (message : Option String) :
    (status.foldSynced now synced message).1 = status.setSynced now synced message := rfl

end Status

end ManagedPrometheus
