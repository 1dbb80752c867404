import ManagedPrometheus.TextMap

/-!
# JSON values

A value as it is written: an object keeps its members in the order of the text, repeated names
included, because a reader of manifests has to see a repeated field. Values that the library makes
are ordered instead: `Json.record` and `Json.ofMap` write members in ascending order of name, each
name once, so that equal contents give equal values. `Json.ordered` brings any value into that form,
where of repeated members the last counts.
-/

namespace ManagedPrometheus

/-- A JSON value. A number is an integer or a decimal `coefficient * 10 ^ exponent`. -/
inductive Json
  | null
  | bool (value : Bool)
  | int (value : Int)
  | decimal (coefficient exponent : Int)
  | text (value : String)
  | list (items : List Json)
  | object (members : List (String × Json))
  /-- What holds a string that stands for no text. -/
  | illFormed
  deriving Inhabited

namespace Json

/-! ### Equality -/

mutual

/-- Equality of values is decidable: same shape and equal parts. -/
def decideEq : (a b : Json) → Decidable (a = b)
  | .null, .null | .illFormed, .illFormed => isTrue rfl
  | .bool a, .bool b => if h : a = b then isTrue (h ▸ rfl) else isFalse fun e => h (by injection e)
  | .int a, .int b => if h : a = b then isTrue (h ▸ rfl) else isFalse fun e => h (by injection e)
  | .decimal a m, .decimal b n =>
    if h : a = b ∧ m = n then isTrue (h.1 ▸ h.2 ▸ rfl)
    else isFalse fun e => h (by injection e with h1 h2; exact ⟨h1, h2⟩)
  | .text a, .text b => if h : a = b then isTrue (h ▸ rfl) else isFalse fun e => h (by injection e)
  | .list a, .list b =>
    match decideEqItems a b with
    | isTrue h => isTrue (h ▸ rfl)
    | isFalse h => isFalse fun e => h (by injection e)
  | .object a, .object b =>
    match decideEqMembers a b with
    | isTrue h => isTrue (h ▸ rfl)
    | isFalse h => isFalse fun e => h (by injection e)
  | .null, .bool _ | .null, .int _ | .null, .decimal _ _ | .null, .text _ | .null, .list _
  | .null, .object _ | .bool _, .null | .bool _, .int _ | .bool _, .decimal _ _ | .bool _, .text _
  | .bool _, .list _ | .bool _, .object _ | .int _, .null | .int _, .bool _
  | .int _, .decimal _ _ | .int _, .text _ | .int _, .list _ | .int _, .object _
  | .decimal _ _, .null | .decimal _ _, .bool _ | .decimal _ _, .int _ | .decimal _ _, .text _
  | .decimal _ _, .list _ | .decimal _ _, .object _ | .text _, .null | .text _, .bool _
  | .text _, .int _ | .text _, .decimal _ _ | .text _, .list _ | .text _, .object _
  | .list _, .null | .list _, .bool _ | .list _, .int _ | .list _, .decimal _ _
  | .list _, .text _ | .list _, .object _ | .object _, .null | .object _, .bool _
  | .object _, .int _ | .object _, .decimal _ _ | .object _, .text _ | .object _, .list _
  | .illFormed, .null | .illFormed, .bool _ | .illFormed, .int _ | .illFormed, .decimal _ _
  | .illFormed, .text _ | .illFormed, .list _ | .illFormed, .object _ | .null, .illFormed
  | .bool _, .illFormed | .int _, .illFormed | .decimal _ _, .illFormed | .text _, .illFormed
  | .list _, .illFormed | .object _, .illFormed =>
    isFalse fun e => by injection e

def decideEqItems : (a b : List Json) → Decidable (a = b)
  | [], [] => isTrue rfl
  | x :: xs, y :: ys =>
    match decideEq x y, decideEqItems xs ys with
    | isTrue h1, isTrue h2 => isTrue (h1 ▸ h2 ▸ rfl)
    | isFalse h, _ => isFalse fun e => h (by injection e)
    | _, isFalse h => isFalse fun e => h (by injection e)
  | [], _ :: _ | _ :: _, [] => isFalse fun e => by injection e

def decideEqMembers : (a b : List (String × Json)) → Decidable (a = b)
  | [], [] => isTrue rfl
  | (m, x) :: xs, (n, y) :: ys =>
    if hn : m = n then
      match decideEq x y, decideEqMembers xs ys with
      | isTrue h1, isTrue h2 => isTrue (hn ▸ h1 ▸ h2 ▸ rfl)
      | isFalse h, _ => isFalse fun e => h (by injection e with e _; injection e)
      | _, isFalse h => isFalse fun e => h (by injection e)
    else isFalse fun e => hn (by injection e with e _; injection e)
  | [], _ :: _ | _ :: _, [] => isFalse fun e => by injection e

end

instance : DecidableEq Json := decideEq

/-! ### Making and taking apart -/

/-- The members of an object; any other value has none. -/
def members : Json → List (String × Json)
  | .object members => members
  | _ => []

/-- The first member of a name. -/
def get? (value : Json) (name : String) : Option Json := findEntry name value.members

/-- The object with the given members in ascending order of name; of two with one name the last
stays. -/
def record (members : List (String × Json)) : Json :=
  .object (members.foldl (fun made m => setEntry m.1 m.2 made) [])

def recordSome (fields : List (String × Option Json)) : Json :=
  record (fields.filterMap fun field => field.2.map fun value => (field.1, value))

/-- An object with one member for each entry of a map. -/
def ofMap (map : TextMap String) : Json :=
  .object (map.entries.map fun e => (e.1, .text e.2))

/-- A text, or `null` for none. -/
def ofText? : Option String → Json
  | some value => .text value
  | none => .null

def ofNat (n : Nat) : Json := .int n

def ofTexts (texts : List String) : Json := .list (texts.map .text)

mutual

/-- Brings every object into ascending order of name, keeping the last of repeated members. -/
def ordered : Json → Json
  | .list items => .list (orderedItems items)
  | .object members => .object (orderedMembers members [])
  | value => value

/-- Brings each item into order. -/
def orderedItems : List Json → List Json
  | [] => []
  | item :: rest => ordered item :: orderedItems rest

/-- Enters the members, from left to right, into an ascending list. -/
def orderedMembers : List (String × Json) → List (String × Json) → List (String × Json)
  | [], made => made
  | (name, value) :: rest, made => orderedMembers rest (setEntry name (ordered value) made)

end

end Json

end ManagedPrometheus
