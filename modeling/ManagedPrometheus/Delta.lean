import ManagedPrometheus.Json
import ManagedPrometheus.TagChange

/-!
# Differences

What differs between the desired and the latest state of a resource: for each path at which they
differ, both values. A path is a list of names between dots, and a question about a path is also
answered by the differences below it.
-/

namespace ManagedPrometheus

/-- A path at which two states differ, with the two values. -/
structure Difference where
  path : String
  desired : Json
  latest : Json
  deriving DecidableEq

/-- The differences of two states, in the order in which they were found. -/
structure Delta where
  differences : List Difference
  deriving DecidableEq

namespace Delta

def empty : Delta := ⟨[]⟩

def isEmpty (delta : Delta) : Bool := delta.differences.isEmpty

/-- The paths that differ. -/
def paths (delta : Delta) : List String := delta.differences.map (·.path)

def add (delta : Delta) (path : String) (desired latest : Json) : Delta :=
  ⟨delta.differences ++ [⟨path, desired, latest⟩]⟩

def compareValues (delta : Delta) (path : String) (desired latest : Json) : Delta :=
  if desired = latest then delta else delta.add path desired latest

def compareTags (delta : Delta) (path : String) (desired latest : Tags) : Delta :=
  if desired.differ latest then delta.add path (Json.ofMap desired) (Json.ofMap latest) else delta

/-- Whether `lower` is `upper` or a path below it. -/
def isAtOrBelow (upper lower : String) : Bool :=
  lower == upper || (upper.toList ++ ['.']).isPrefixOf lower.toList

/-- Whether there is a difference at a path or below it. -/
def differentAt (delta : Delta) (path : String) : Bool :=
  delta.differences.any fun difference => isAtOrBelow path difference.path

end Delta

end ManagedPrometheus
