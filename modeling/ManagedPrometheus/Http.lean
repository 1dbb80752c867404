import ManagedPrometheus.JsonText
import ManagedPrometheus.Utf8

/-!
# HTTP messages

Requests to a service and its replies. The parts of a path and of a query are percent-encoded: every
byte but those of unreserved characters is written as two hexadecimal digits.
-/

namespace ManagedPrometheus

/-- The methods that requests use. -/
inductive Method
  | get
  | post
  | put
  | delete
  deriving DecidableEq, Repr

def Method.name : Method → String
  | .get => "GET"
  | .post => "POST"
  | .put => "PUT"
  | .delete => "DELETE"

/-- A request: the parts of its path and query as they are meant, and a JSON body. -/
structure HttpRequest where
  method : Method
  path : List String
  query : List (String × String)
  body : Option Json
  deriving DecidableEq

structure HttpReply where
  status : Nat
  headers : List (String × String)
  body : String
  deriving DecidableEq, Repr

/-! ### Targets -/

/-- Whether a byte stands for itself in a target: letters, digits and four marks. -/
def isUnreserved (b : UInt8) : Bool :=
  let c := Char.ofNat b.toNat
  b.toNat < 128 && (c.isAlphanum || c == '-' || c == '_' || c == '.' || c == '~')

/-- A byte in a target. -/
def encodeByte (b : UInt8) : List Char :=
  if isUnreserved b then [Char.ofNat b.toNat]
  else ['%', (Json.hexDigit (b.toNat / 16)).toUpper, (Json.hexDigit (b.toNat % 16)).toUpper]

/-- A part of a target. -/
def encodePart (text : String) : String := String.ofList ((Utf8.encode text).flatMap encodeByte)

namespace HttpRequest

/-- The path and query as they are sent. -/
def target (request : HttpRequest) : String :=
  String.join (request.path.map fun part => "/" ++ encodePart part)
    ++ match request.query with
      | [] => ""
      | query =>
        "?" ++ String.intercalate "&" (query.map fun q => encodePart q.1 ++ "=" ++ encodePart q.2)

end HttpRequest

namespace HttpReply

def succeeded (reply : HttpReply) : Bool := 200 ≤ reply.status && reply.status < 300

/-- The first header of a name, which is in lower case; case does not matter in headers. -/
def header? (reply : HttpReply) (name : String) : Option String :=
  (reply.headers.find? fun h => h.1.toList.map Char.toLower = name.toList).map (·.2)

/-- The body as JSON; an empty one stands for an object without members. -/
def json? (reply : HttpReply) : Option Json :=
  if reply.body.isEmpty then some (.object []) else (Json.read? reply.body).map Json.ordered

end HttpReply

end ManagedPrometheus
