import ManagedPrometheus.Json

/-!
# JSON pointers

A pointer names a value inside a value by the names and positions on the way to it. In a
name `~1` stands for a slash and `~0` for a tilde; a position has no leading zeros.
-/

namespace ManagedPrometheus

namespace Json

/-- The parts of a text between slashes. -/
def splitSlashes : List Char → List (List Char)
  | [] => [[]]
  | '/' :: rest => [] :: splitSlashes rest
  | c :: rest =>
    match splitSlashes rest with
    | part :: more => (c :: part) :: more
    | [] => [[c]]

/-- A name as it is meant. -/
def unescapeName : List Char → List Char
  | '~' :: '1' :: rest => '/' :: unescapeName rest
  | '~' :: '0' :: rest => '~' :: unescapeName rest
  | c :: rest => c :: unescapeName rest
  | [] => []

/-- The position that a name writes. -/
def position? (name : List Char) : Option Nat :=
  if name.isEmpty || !name.all Char.isDigit || (name.head? = some '0' && name.length ≠ 1) then none
  else some (name.foldl (fun n c => n * 10 + (c.toNat - '0'.toNat)) 0)

/-- One step into a value. -/
def step? (value : Json) (name : List Char) : Option Json :=
  match value with
  | .object _ => value.get? (String.ofList name)
  | .list items => (position? name).bind fun n => items[n]?
  | _ => none

def at? (value : Json) (pointer : String) : Option Json :=
  match pointer.toList with
  | [] => some value
  | '/' :: rest => ((splitSlashes rest).map unescapeName).foldlM step? value
  | _ => none

end Json

end ManagedPrometheus
