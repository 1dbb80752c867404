/-!
# Status codes and phases

The backend reports the state of a resource as a code. The codes that are known have a constructor
of `StatusCode`; every other text reads as `unknown`, so that a code of a later backend is kept
apart from no code at all. A stored status names its code by a rule of its own, the name of the code
in capitals. A `Phase` is what a pass makes of the last code: it decides whether the resource may be
changed or deleted.
-/

namespace ManagedPrometheus

/-- A name in capitals, with an underscore before each word but the first. -/
def inCapitals : List Char → List Char
  | [] => []
  | first :: rest =>
    first.toUpper :: rest.flatMap fun c => if c.isUpper then ['_', c] else [c.toUpper]

/-- The state of a resource as the backend reports it. -/
inductive StatusCode
  | creating
  | active
  | updating
  | deleting
  | creationFailed
  | updateFailed
  | unknown
  deriving DecidableEq, Repr

namespace StatusCode

def toText : StatusCode → String
  | .creating => "CREATING"
  | .active => "ACTIVE"
  | .updating => "UPDATING"
  | .deleting => "DELETING"
  | .creationFailed => "CREATION_FAILED"
  | .updateFailed => "UPDATE_FAILED"
  | .unknown => "UNKNOWN"

/-- Reads the code of a backend answer. -/
def ofWire (code : String) : StatusCode :=
  if code = "CREATING" then .creating
  else if code = "ACTIVE" then .active
  else if code = "UPDATING" then .updating
  else if code = "DELETING" then .deleting
  else if code = "CREATION_FAILED" then .creationFailed
  else if code = "UPDATE_FAILED" then .updateFailed
  else .unknown

/-- The codes that a stored status can name. -/
def all : List StatusCode :=
  [.creating, .active, .updating, .deleting, .creationFailed, .updateFailed, .unknown]

def name : StatusCode → String
  | .creating => "Creating"
  | .active => "Active"
  | .updating => "Updating"
  | .deleting => "Deleting"
  | .creationFailed => "CreationFailed"
  | .updateFailed => "UpdateFailed"
  | .unknown => "Unknown"

/-- The text of a code in a stored status. -/
def storedText (code : StatusCode) : String := String.ofList (inCapitals code.name.toList)

/-- Reads the code of a stored status: the code of that text, or `unknown`. -/
def ofStored (text : String) : StatusCode :=
  (all.find? fun code => code.storedText = text).getD .unknown

end StatusCode

/-- Where a resource stands in its life. -/
inductive Phase
  /-- No code has been seen. -/
  | notFound
  | creating
  | updating
  | deleting
  | active
  | creationFailed
  | updateFailed
  /-- The code is none that is known. -/
  | unrecognized
  deriving DecidableEq, Repr

namespace Phase

def all : List Phase :=
  [.notFound, .creating, .updating, .deleting, .active, .creationFailed, .updateFailed,
    .unrecognized]

def ofCode : StatusCode → Phase
  | .creating => .creating
  | .active => .active
  | .updating => .updating
  | .deleting => .deleting
  | .creationFailed => .creationFailed
  | .updateFailed => .updateFailed
  | .unknown => .unrecognized

/-- The phase of the last code, if one has been seen. -/
def ofCode? : Option StatusCode → Phase
  | some code => ofCode code
  | none => .notFound

/-- The backend is still at work on the resource, so no change may be asked for. -/
def isTransient : Phase → Bool
  | .creating | .updating | .deleting => true
  | _ => false

/-- The backend gave up on what it was asked. -/
def isFailed : Phase → Bool
  | .creationFailed | .updateFailed => true
  | _ => false

/-- The backend accepts a deletion only of a resource that is active or failed. -/
def allowsDelete (phase : Phase) : Bool := phase == .active || phase.isFailed

/-- The code in messages. -/
def codeText : Phase → String
  | .notFound => "NOT_FOUND"
  | .creating => StatusCode.creating.toText
  | .updating => StatusCode.updating.toText
  | .deleting => StatusCode.deleting.toText
  | .active => StatusCode.active.toText
  | .creationFailed => StatusCode.creationFailed.toText
  | .updateFailed => StatusCode.updateFailed.toText
  | .unrecognized => StatusCode.unknown.toText

def name : Phase → String
  | .notFound => "not-found"
  | .creating => "creating"
  | .updating => "updating"
  | .deleting => "deleting"
  | .active => "active"
  | .creationFailed => "creation-failed"
  | .updateFailed => "update-failed"
  | .unrecognized => "unrecognized"

end Phase

end ManagedPrometheus
