import ManagedPrometheus.Manifest

/-!
# Merge patches

A JSON merge patch changes a value: an object sets the members it names and removes those
it names with null, and any other value takes the place of what was there. `Status.patch` is the
patch that makes a stored status the next one.
-/

namespace ManagedPrometheus

namespace Json

mutual

/-- Applies a merge patch to a value. -/
def merge (target : Json) : Json → Json
  | .object changes => .object (mergeMembers target.members changes)
  | patch => patch

/-- Applies the changes to the members of an object, from left to right. -/
def mergeMembers (members : List (String × Json)) :
    List (String × Json) → List (String × Json)
  | [] => members
  | (name, .null) :: rest => mergeMembers (dropEntry name members) rest
  | (name, change) :: rest =>
    mergeMembers (setEntry name (merge ((findEntry name members).getD .null) change) members) rest

end

end Json

/-- The status of an object, null for none. -/
def Status.json? : Option Status → Json
  | some status => status.toJson
  | none => .null

/-- What a patch sets a status to: the fields of the next status, and null for those that only the
previous one has. -/
def Status.patchBody (previous? next? : Option Status) : Json :=
  match previous?, next? with
  | some previous, some next =>
    .object <| previous.toJson.members.foldl
      (fun fields m =>
        if (findEntry m.1 fields).isSome then fields else setEntry m.1 .null fields)
      next.toJson.members
  | _, _ => Status.json? next?

/-- The merge patch that turns a previous status into the next. -/
def Status.patch (previous? next? : Option Status) : Json :=
  Json.record [("status", Status.patchBody previous? next?)]

end ManagedPrometheus
