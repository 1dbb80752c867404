import ManagedPrometheus.TextMap

/-!
# Tag changes

What turns one tag map into another: the tags to set and the keys to remove. A change is applied by
removing first and setting after, as the backend is asked to do.
-/

namespace ManagedPrometheus

/-- The tags of a resource. -/
abbrev Tags := TextMap String

/-- Tags to set and keys to remove, both ascending. -/
structure TagChange where
  upserts : Tags
  removals : List String
  deriving DecidableEq

namespace TagChange

/-- Nothing to set and nothing to remove. -/
def empty : TagChange := ⟨.empty, []⟩

/-- Adds what a tag of the current map needs: its key is removed if `desired` lacks it, and set if
`desired` holds it with another value. -/
def addCurrent (desired : Tags) (change : TagChange) (tag : String × String) : TagChange :=
  match desired.get? tag.1 with
  | none => { change with removals := change.removals ++ [tag.1] }
  | some wanted =>
    if wanted = tag.2 then change
    else { change with upserts := change.upserts.insert tag.1 wanted }

/-- Adds what a tag of the desired map needs: it is set if `current` lacks its key. -/
def addDesired (current : Tags) (change : TagChange) (tag : String × String) : TagChange :=
  if current.contains tag.1 then change
  else { change with upserts := change.upserts.insert tag.1 tag.2 }

/-- What turns `current` into `desired`, collected from the tags of the one and then of the other. -/
def between (current desired : Tags) : TagChange :=
  desired.entries.foldl (addDesired current) (current.entries.foldl (addCurrent desired) empty)

def isEmpty (change : TagChange) : Bool := change.upserts.isEmpty && change.removals.isEmpty

/-- Removes the keys. -/
def removeFrom (change : TagChange) (tags : Tags) : Tags :=
  tags.filterKeys fun key => !change.removals.contains key

/-- Removes the keys, then sets the tags. -/
def applyTo (change : TagChange) (tags : Tags) : Tags :=
  (change.removeFrom tags).insertAll change.upserts.entries

end TagChange

/-- Whether two tag maps differ, told by their sizes and by looking each desired tag up. -/
def Tags.differ (desired latest : Tags) : Bool :=
  desired.size ≠ latest.size || desired.entries.any fun e => latest.get? e.1 ≠ some e.2

end ManagedPrometheus
