import ManagedPrometheus.Backend
import ManagedPrometheus.Base64
import ManagedPrometheus.Http
import ManagedPrometheus.Manifest

/-!
# Replies of the service

What the service's reply to each call says. A success reports some of a resource's fields; one that
has to be there and is not counts as empty. A failure is named by an error code, in a header or in
the body; without a code, or without a reply that can be read, the call failed on the way.
-/

namespace ManagedPrometheus

namespace Amp

/-! ### Reports -/

/-- Whether a report has a field. -/
inductive Presence
  | never
  | maybe
  | always
  deriving DecidableEq, Repr

/-- The fields of a report. Every report has a status. -/
structure ReportShape where
  arn : Presence := .never
  workspaceId : Presence := .never
  name : Presence := .never
  workspaceAlias : Presence := .never
  prometheusEndpoint : Presence := .never
  kmsKeyArn : Presence := .never
  logGroupArn : Presence := .never
  tags : Presence := .never
  data : Presence := .never
  /-- Whether the status comes with a reason. -/
  reason : Presence := .maybe

/-- A field of a report, where `empty` stands for one that has to be there and is not. -/
def Presence.read {α : Type} (presence : Presence) (read : Json → Option α) (empty : α)
    (name : String) (members : List (String × Json)) : Option (Option α) :=
  match presence with
  | .never => some none
  | .maybe => Json.optional read name members
  | .always => (Json.optional read name members).map fun value? => some (value?.getD empty)

/-- The code of a status that has none. -/
def missingCode : String := "no value was set"

def readStatus (reason : Presence) : Json → Option WireStatus
  | .object members => do
    let code ← Json.optional Json.text? "statusCode" members
    let reason ← reason.read Json.text? "" "statusReason" members
    return ⟨code.getD missingCode, reason⟩
  | _ => none

def readData (value : Json) : Option Bytes := value.text? >>= Base64.decode?

def ReportShape.read (shape : ReportShape) : Json → Option WireObject
  | .object members => do
    return {
      arn := ← shape.arn.read Json.text? "" "arn" members
      workspaceId := ← shape.workspaceId.read Json.text? "" "workspaceId" members
      name := ← shape.name.read Json.text? "" "name" members
      workspaceAlias := ← shape.workspaceAlias.read Json.text? "" "alias" members
      status := ← Presence.always.read (readStatus shape.reason) ⟨missingCode, none⟩ "status" members
      data := ← shape.data.read readData [] "data" members
      tags := ← shape.tags.read Json.textMap? .empty "tags" members
      prometheusEndpoint :=
        ← shape.prometheusEndpoint.read Json.text? "" "prometheusEndpoint" members
      kmsKeyArn := ← shape.kmsKeyArn.read Json.text? "" "kmsKeyArn" members
      logGroupArn := ← shape.logGroupArn.read Json.text? "" "logGroupArn" members }
  | _ => none

/-- The member of a description that holds the report. -/
def descriptionMember : Kind → String
  | .workspace => "workspace"
  | .ruleGroupsNamespace => "ruleGroupsNamespace"
  | .alertManagerDefinition => "alertManagerDefinition"
  | .loggingConfiguration => "loggingConfiguration"

/-- What a description reports; tags that it leaves out are no tags. -/
def descriptionShape : Kind → ReportShape
  | .workspace =>
    { arn := .always, workspaceId := .always, workspaceAlias := .maybe, prometheusEndpoint := .maybe
      kmsKeyArn := .maybe, tags := .always, reason := .never }
  | .ruleGroupsNamespace => { arn := .always, name := .always, tags := .always, data := .always }
  | .alertManagerDefinition => { data := .always }
  | .loggingConfiguration => { logGroupArn := .always }

/-- What the answer to a create reports, and to a change that reports anything. -/
def answerShape : Kind → ReportShape
  | .workspace =>
    { arn := .always, workspaceId := .always, kmsKeyArn := .maybe, tags := .maybe, reason := .never }
  | .ruleGroupsNamespace => { arn := .always, name := .always, tags := .maybe }
  | .alertManagerDefinition | .loggingConfiguration => {}

def readDescription (kind : Kind) : Json → Option WireObject
  | .object members =>
    match findEntry (descriptionMember kind) members with
    | none | some .null => (descriptionShape kind).read (.object [])
    | some value => (descriptionShape kind).read value
  | _ => none

/-! ### Errors -/

/-- The bare code of an error: without the namespace before `#` and what follows a colon. -/
def bareCode (code : String) : String :=
  let chars := code.toList.takeWhile (· ≠ ':')
  String.ofList (if chars.contains '#' then (chars.dropWhile (· ≠ '#')).drop 1 else chars)

/-- A member that holds a text. -/
def textMember? (value : Json) (name : String) : Option String := (value.get? name).bind Json.text?

def errorCode? (reply : HttpReply) (body : Json) : Option String :=
  (reply.header? "x-amzn-errortype" <|> textMember? body "__type" <|> textMember? body "code").map
    bareCode

def errorMessage (body : Json) : String :=
  (textMember? body "message" <|> textMember? body "Message").getD ""

/-- The text of a call to which there is no reply that can be read. -/
def noReply : String := "the service gave no answer that could be read"

def readError (reply : HttpReply) : BackendError :=
  match reply.json? with
  | none => .transport noReply
  | some body =>
    match errorCode? reply body with
    | some code => .api code (errorMessage body)
    | none => .transport noReply

/-! ### Replies -/

/-- A report that could not be read. -/
def orUnreadable {α : Type} : Option α → Except BackendError α
  | some value => .ok value
  | none => .error (.transport noReply)

/-- What the reply to a successful call says. -/
def readSuccess (kind : Kind) (reply : HttpReply) : (call : Call) → Except BackendError call.Reply
  | .describe _ => (orUnreadable (reply.json? >>= readDescription kind)).map some
  | .create _ => orUnreadable (reply.json? >>= (answerShape kind).read)
  | .update (.put _) =>
    match kind with
    | .workspace => .ok none
    | _ => (orUnreadable (reply.json? >>= (answerShape kind).read)).map some
  | .update _ => .ok none
  | .delete _ => .ok ()

/-- What the reply to a call says. -/
def readReply (kind : Kind) (call : Call) : Option HttpReply → Except BackendError call.Reply
  | none => .error (.transport noReply)
  | some reply => if reply.succeeded then readSuccess kind reply call else .error (readError reply)

end Amp

end ManagedPrometheus
