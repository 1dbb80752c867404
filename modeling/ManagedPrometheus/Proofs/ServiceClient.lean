import ManagedPrometheus.Amp

/-!
# Clients of the service

Requests are sent by a client library, which answers with an output or an error. A `Client` is what
is relied on of it: an error may come with the code and the message of the service, and has a text
in any case. `Amp.overClient` is the backend on top of any such client.

The service as a backend is that one with a client over HTTP, which says that there is no such
resource where the reply does: where it reports a failure whose code is the one
(`Amp.backend_overClient`). Neither a call that cannot be sent nor a reply that cannot be read has a
code (`Amp.Uncoded`).
-/

namespace ManagedPrometheus

variable {σ : Type} {kind : Kind}

namespace Amp

/-! ### Clients -/

/-- Why a client reports that a call failed. -/
structure ClientError where
  /-- The code of the error, if the service has answered with one. -/
  code : Option String
  message : Option String
  /-- The error as it is displayed, with its causes. -/
  text : String
  deriving DecidableEq, Repr

/-- What a client says to a call: what its output holds of the resource, or an error. -/
abbrev Said (call : Call) : Type := Except ClientError call.Reply

/-- A client with states `σ`. It may never answer, and the pass may be cancelled meanwhile. -/
structure Client (σ : Type) where
  send : Kind → (call : Call) → σ → (Option (Said call) × Bool) × σ

/-- An error as the backend passes it on. -/
def ClientError.reported (error : ClientError) : BackendError :=
  match error.code with
  | some code => .api code (error.message.getD "")
  | none => .transport error.text

theorem ClientError.reported_of_code {error : ClientError} {code : String}
    (h : error.code = some code) : error.reported = .api code (error.message.getD "") := by
  rw [reported, h]

theorem ClientError.code?_reported (error : ClientError) : error.reported.code? = error.code := by
  unfold reported
  rcases error.code with _ | code
  · rfl
  · rfl

/-- Whether an error says that there is no such resource. -/
def ClientError.IsNotFound (error : ClientError) : Prop :=
  error.code = some resourceNotFoundException

instance (error : ClientError) : Decidable error.IsNotFound :=
  inferInstanceAs (Decidable (error.code = some resourceNotFoundException))

/-! ### The backend on top of a client -/

/-- The refusal of a call whose address has to have a name and has none. -/
def nameless? (kind : Kind) (key : ResourceKey) : Option BackendError :=
  if kind = .ruleGroupsNamespace ∧ key.name = none then some (.transport noName) else none

/-- The refusal of a call that has to carry an address and has none, or an incomplete one. -/
def addressless? (kind : Kind) (request : Request) : Option BackendError :=
  match request.key with
  | some key => nameless? kind key
  | none => some (.transport noKey)

/-- Why a call is refused before a client is asked, none if it is not. -/
def refusal? (kind : Kind) : Call → Option BackendError
  | .describe key => nameless? kind key
  | .delete key => nameless? kind key
  | .create request => if kind = .workspace then none else addressless? kind request
  | .update (.put request) => addressless? kind request
  | .update _ => none

/-- What is made of an output: some changes are taken to report nothing. -/
def taken (kind : Kind) : (call : Call) → call.Reply → call.Reply
  | .update (.put _), output => if kind = .workspace then none else output
  | .update _, _ => none
  | .describe _, output => output
  | .create _, output => output
  | .delete _, output => output

/-- The backend on top of a client. -/
def overClient (client : Client σ) : Backend σ where
  answer kind call state :=
    match refusal? kind call with
    | some refusal => (⟨some (absorbNotFound call (.error refusal)), false⟩, state)
    | none =>
      let ((said?, cancels), state) := client.send kind call state
      (⟨said?.map fun said =>
        absorbNotFound call ((said.mapError ClientError.reported).map (taken kind call)), cancels⟩,
        state)

/-! ### The client over HTTP -/

/-- An error of a client over HTTP. -/
def clientError : BackendError → ClientError
  | .api code message => ⟨some code, some message, code ++ ": " ++ message⟩
  | .transport text => ⟨none, none, text⟩

/-- The client that sends HTTP requests through `exchange`. -/
def httpClient (freshToken : String) (exchange : HttpRequest → σ → Option HttpReply × σ) :
    Client σ where
  send kind call state :=
    match request freshToken kind call with
    | .error cause => ((some (.error (clientError cause)), false), state)
    | .ok request =>
      let (reply?, state) := exchange request state
      ((some ((readReply kind call reply?).mapError clientError), false), state)

theorem reported_clientError (cause : BackendError) : (clientError cause).reported = cause := by
  cases cause with
  | api code message => rfl
  | transport text => rfl

/-! ### Calls that are refused -/

theorem nameless?_eq_some {key : ResourceKey} {refusal : BackendError}
    (h : nameless? kind key = some refusal) :
    kind = .ruleGroupsNamespace ∧ key.name = none ∧ refusal = .transport noName := by
  unfold nameless? at h
  split at h
  case isTrue hnameless =>
    cases h
    exact ⟨hnameless.1, hnameless.2, rfl⟩
  case isFalse => cases h

theorem path_of_nameless {key : ResourceKey} {refusal : BackendError}
    (h : nameless? kind key = some refusal) : path kind key = .error refusal := by
  obtain ⟨rfl, hname, rfl⟩ := nameless?_eq_some h
  rw [path, requireName, hname]
  rfl

theorem addressless?_eq_some {request : Request} {refusal : BackendError}
    (h : addressless? kind request = some refusal) :
    (request.key = none ∧ refusal = .transport noKey) ∨
      ∃ key, request.key = some key ∧ nameless? kind key = some refusal := by
  unfold addressless? at h
  split at h
  case h_1 key hkey => exact .inr ⟨key, hkey, h⟩
  case h_2 hkey =>
    cases h
    exact .inl ⟨hkey, rfl⟩

theorem putRequest_of_addressless {request : Request} {refusal : BackendError}
    (h : addressless? kind request = some refusal) (freshToken : String) :
    putRequest freshToken kind request = .error refusal := by
  rcases addressless?_eq_some h with ⟨hkey, rfl⟩ | ⟨key, hkey, hname⟩
  · rw [putRequest, requireKey, hkey]
    rfl
  · rw [putRequest, requireKey, hkey]
    simp only [bind, Except.bind, path_of_nameless hname]

theorem createRequest_of_addressless {request : Request} {refusal : BackendError}
    (hkind : kind ≠ .workspace) (h : addressless? kind request = some refusal)
    (freshToken : String) : createRequest freshToken kind request = .error refusal := by
  rcases addressless?_eq_some h with ⟨hkey, rfl⟩ | ⟨key, hkey, hname⟩
  · unfold createRequest requireKey
    rw [hkey]
    cases kind with
    | workspace => exact absurd rfl hkind
    | ruleGroupsNamespace => rfl
    | alertManagerDefinition => rfl
    | loggingConfiguration => rfl
  · obtain ⟨rfl, hnone, rfl⟩ := nameless?_eq_some hname
    unfold createRequest requireKey
    simp only [hkey, bind, Except.bind, requireName, hnone]

theorem request_of_refusal {call : Call} {refusal : BackendError}
    (h : refusal? kind call = some refusal) (freshToken : String) :
    request freshToken kind call = .error refusal := by
  cases call with
  | describe key =>
    rw [request, path_of_nameless h]
    rfl
  | delete key =>
    rw [request, path_of_nameless h]
    rfl
  | create request =>
    rw [refusal?] at h
    split at h
    case isTrue => cases h
    case isFalse hkind => exact createRequest_of_addressless hkind h freshToken
  | update mutation =>
    cases mutation with
    | tag => cases h
    | untag => cases h
    | put request => exact putRequest_of_addressless h freshToken

/-! ### The service as a backend -/

/-- The outputs that a client over HTTP makes of replies say no more than is taken. -/
theorem taken_readSuccess {kind : Kind} {call : Call} {reply : HttpReply} {output : call.Reply}
    (h : readSuccess kind reply call = .ok output) : taken kind call output = output := by
  cases call with
  | describe => rfl
  | create => rfl
  | delete => rfl
  | update mutation =>
    cases mutation with
    | tag =>
      cases h
      rfl
    | untag =>
      cases h
      rfl
    | put =>
      cases kind with
      | workspace =>
        cases h
        rfl
      | ruleGroupsNamespace => rfl
      | alertManagerDefinition => rfl
      | loggingConfiguration => rfl

theorem taken_readReply (kind : Kind) (call : Call) (reply? : Option HttpReply) :
    (((readReply kind call reply?).mapError clientError).mapError ClientError.reported).map
      (taken kind call) = readReply kind call reply? := by
  rcases hread : readReply kind call reply? with cause | output
  · exact congrArg Except.error (reported_clientError cause)
  · unfold readReply at hread
    split at hread
    case h_1 => cases hread
    case h_2 reply =>
      split at hread
      case isTrue => exact congrArg Except.ok (taken_readSuccess hread)
      case isFalse => cases hread

/-- The service as a backend is the one on top of the client over HTTP. -/
theorem backend_eq (freshToken : String) (exchange : HttpRequest → σ → Option HttpReply × σ) :
    backend freshToken exchange = overClient (httpClient freshToken exchange) := by
  unfold backend overClient httpClient call
  congr 1
  funext kind asked state
  dsimp only
  rcases hrefusal : refusal? kind asked with _ | refusal
  · rcases hrequest : request freshToken kind asked with cause | sent
    · have hpassed : ((Except.error (clientError cause)).mapError ClientError.reported).map
          (taken kind asked) = .error cause :=
        congrArg Except.error (reported_clientError cause)
      simp [hpassed]
    · simp [taken_readReply]
  · rw [request_of_refusal hrefusal]

/-! ### What a client says -/

namespace Client

/-- What a client says to a call, none if it is not asked or does not answer. -/
def said? (client : Client σ) (kind : Kind) (call : Call) (state : σ) : Option (Said call) :=
  match refusal? kind call with
  | some _ => none
  | none => (client.send kind call state).1.1

/-- The client says that there is no such resource. -/
def SaysNotFound (client : Client σ) (kind : Kind) (call : Call) (state : σ) : Prop :=
  ∃ error, client.said? kind call state = some (.error error) ∧ error.IsNotFound

/-- The client says that there is nothing under an address, or describes nothing. -/
def SaysAbsent (client : Client σ) (kind : Kind) (key : ResourceKey) (state : σ) : Prop :=
  client.SaysNotFound kind (.describe key) state ∨
    client.said? kind (.describe key) state = some (.ok none)

end Client

theorem said?_of_asked {client : Client σ} {call : Call} {state : σ}
    (h : refusal? kind call = none) :
    client.said? kind call state = (client.send kind call state).1.1 := by
  rw [Client.said?, h]

theorem asked_of_said {client : Client σ} {call : Call} {state : σ} {said : Said call}
    (h : client.said? kind call state = some said) :
    refusal? kind call = none := by
  unfold Client.said? at h
  split at h
  case h_1 => cases h
  case h_2 hasked => exact hasked

theorem asked_of_request {call : Call} {freshToken : String} {sent : HttpRequest}
    (h : request freshToken kind call = .ok sent) : refusal? kind call = none := by
  rcases hrefusal : refusal? kind call with _ | refusal
  · rfl
  · cases (request_of_refusal hrefusal freshToken).symm.trans h

/-! ### Errors without a code -/

/-- A computation whose errors come without a code. -/
def Uncoded {α : Type} (result : Except BackendError α) : Prop :=
  ∀ cause, result = .error cause → cause.code? = none

theorem uncoded_ok {α : Type} (value : α) : Uncoded (.ok value) := by
  intro cause hcause
  cases hcause

theorem Uncoded.map {α β : Type} {result : Except BackendError α} (h : Uncoded result) (f : α → β) :
    Uncoded (result.map f) := by
  intro cause hcause
  rcases result with earlier | value
  · cases hcause
    exact h cause rfl
  · cases hcause

theorem Uncoded.bind {α β : Type} {result : Except BackendError α}
    {next : α → Except BackendError β} (h : Uncoded result)
    (hnext : ∀ value, Uncoded (next value)) : Uncoded (result >>= next) := by
  intro cause hcause
  rcases result with earlier | value
  · cases hcause
    exact h cause rfl
  · exact hnext value cause hcause

theorem uncoded_send (method : Method) (path : List String) (query : List (String × String))
    (body : Option Json) : Uncoded (send method path query body) := by
  intro cause hcause
  unfold send at hcause
  split at hcause
  all_goals cases hcause
  rfl

theorem uncoded_requireKey (request : Request) : Uncoded (requireKey request) := by
  intro cause hcause
  unfold requireKey at hcause
  split at hcause
  all_goals cases hcause
  rfl

theorem uncoded_requireName (key : ResourceKey) : Uncoded (requireName key) := by
  intro cause hcause
  unfold requireName at hcause
  split at hcause
  all_goals cases hcause
  rfl

theorem uncoded_path (kind : Kind) (key : ResourceKey) : Uncoded (path kind key) := by
  cases kind with
  | workspace | alertManagerDefinition | loggingConfiguration => exact uncoded_ok _
  | ruleGroupsNamespace => exact (uncoded_requireName key).map _

theorem uncoded_createRequest (freshToken : String) (kind : Kind) (request : Request) :
    Uncoded (createRequest freshToken kind request) := by
  cases kind with
  | workspace => exact uncoded_send _ _ _ _
  | ruleGroupsNamespace =>
    apply (uncoded_requireKey request).bind
    intro key
    apply (uncoded_requireName key).bind
    intro name
    exact uncoded_send _ _ _ _
  | alertManagerDefinition | loggingConfiguration =>
    apply (uncoded_requireKey request).bind
    intro key
    apply (uncoded_path _ key).bind
    intro path
    exact uncoded_send _ _ _ _

theorem uncoded_putRequest (freshToken : String) (kind : Kind) (request : Request) :
    Uncoded (putRequest freshToken kind request) := by
  apply (uncoded_requireKey request).bind
  intro key
  apply (uncoded_path kind key).bind
  intro path
  cases kind
  all_goals exact uncoded_send _ _ _ _

/-- A call that cannot be sent fails without a code. -/
theorem uncoded_request (freshToken : String) (kind : Kind) (call : Call) :
    Uncoded (request freshToken kind call) := by
  cases call with
  | describe key =>
    apply (uncoded_path kind key).bind
    intro path
    exact uncoded_send _ _ _ _
  | delete key =>
    apply (uncoded_path kind key).bind
    intro path
    exact uncoded_send _ _ _ _
  | create request => exact uncoded_createRequest freshToken kind request
  | update mutation =>
    cases mutation with
    | tag => exact uncoded_send _ _ _ _
    | untag => exact uncoded_send _ _ _ _
    | put request => exact uncoded_putRequest freshToken kind request

theorem code?_refusal {call : Call} {refusal : BackendError}
    (h : refusal? kind call = some refusal) : refusal.code? = none :=
  uncoded_request "" kind call refusal (request_of_refusal h "")

/-- What a client over HTTP says of a result that comes without a code is no not-found. -/
theorem Uncoded.not_isNotFound {α : Type} {result : Except BackendError α} (h : Uncoded result)
    {error : ClientError} (herror : result.mapError clientError = .error error) :
    ¬ error.IsNotFound := by
  rcases result with cause | value
  · cases herror
    have hcode := h cause rfl
    cases cause with
    | api code message => cases hcode
    | transport text => rintro ⟨⟩
  · cases herror

theorem isNotFound_clientError_iff (cause : BackendError) :
    (clientError cause).IsNotFound ↔ cause.code? = some resourceNotFoundException := by
  cases cause with
  | api code message => exact Iff.rfl
  | transport text => exact Iff.rfl

theorem code?_readError (reply : HttpReply) :
    (readError reply).code? = reply.json?.bind (errorCode? reply) := by
  unfold readError
  rcases reply.json? with _ | body
  · rfl
  · rcases hcode : errorCode? reply body with _ | code
    · simp [hcode, BackendError.code?]
    · simp [hcode, BackendError.code?]

theorem uncoded_orUnreadable {α : Type} (value? : Option α) : Uncoded (orUnreadable value?) := by
  intro cause hcause
  rcases value? with _ | value
  · cases hcause
    rfl
  · cases hcause

/-- A reply that reports success fails, if at all, without a code. -/
theorem uncoded_readSuccess (kind : Kind) (reply : HttpReply) (call : Call) :
    Uncoded (readSuccess kind reply call) := by
  cases call with
  | describe => exact (uncoded_orUnreadable _).map some
  | create => exact uncoded_orUnreadable _
  | delete => exact uncoded_ok ()
  | update mutation =>
    cases mutation with
    | tag => exact uncoded_ok none
    | untag => exact uncoded_ok none
    | put =>
      cases kind with
      | workspace => exact uncoded_ok none
      | ruleGroupsNamespace | alertManagerDefinition | loggingConfiguration =>
        exact (uncoded_orUnreadable _).map some

/-! ### A not-found over HTTP -/

/-- Over HTTP it is the reply that says so: it reports a failure of that code. -/
theorem httpClient_saysNotFound_iff (freshToken : String)
    (exchange : HttpRequest → σ → Option HttpReply × σ) (call : Call) (state : σ) :
    (httpClient freshToken exchange).SaysNotFound kind call state ↔
      ∃ sent reply, request freshToken kind call = .ok sent ∧
        (exchange sent state).1 = some reply ∧ reply.succeeded = false ∧
        reply.json?.bind (errorCode? reply) = some resourceNotFoundException := by
  constructor
  · rintro ⟨error, hsaid, hnotFound⟩
    rw [said?_of_asked (asked_of_said hsaid)] at hsaid
    rcases hrequest : request freshToken kind call with cause | sent
    · simp only [httpClient, hrequest] at hsaid
      refine absurd hnotFound ((uncoded_request freshToken kind call).not_isNotFound ?_)
      cases hsaid
      rw [hrequest]
      rfl
    · simp only [httpClient, hrequest] at hsaid
      have hread := Option.some.inj hsaid
      rcases hreply : (exchange sent state).1 with _ | reply
      · rw [hreply] at hread
        cases hread
        cases hnotFound
      · rw [hreply, readReply] at hread
        split at hread
        case isTrue =>
          exact absurd hnotFound ((uncoded_readSuccess kind reply call).not_isNotFound hread)
        case isFalse hfailed =>
          cases hread
          rw [isNotFound_clientError_iff, code?_readError] at hnotFound
          exact ⟨sent, reply, rfl, hreply, Bool.eq_false_iff.mpr hfailed, hnotFound⟩
  · rintro ⟨sent, reply, hrequest, hreply, hfailed, hcode⟩
    refine ⟨clientError (readError reply), ?_, ?_⟩
    · rw [said?_of_asked (asked_of_request hrequest)]
      simp [httpClient, hrequest, hreply, readReply, hfailed]
      rfl
    · rw [isNotFound_clientError_iff, code?_readError, hcode]

/-- The service over HTTP is a backend on top of a client, which says that there is no such resource
where the reply to the request of a call does. -/
theorem backend_overClient (freshToken : String)
    (exchange : HttpRequest → σ → Option HttpReply × σ) :
    backend freshToken exchange = overClient (httpClient freshToken exchange) ∧
      ∀ kind call state, (httpClient freshToken exchange).SaysNotFound kind call state ↔
        ∃ sent reply, request freshToken kind call = .ok sent ∧
          (exchange sent state).1 = some reply ∧ reply.succeeded = false ∧
          reply.json?.bind (errorCode? reply) = some resourceNotFoundException := by
  constructor
  · exact backend_eq freshToken exchange
  · intro kind call state
    exact httpClient_saysNotFound_iff freshToken exchange call state

end Amp

end ManagedPrometheus
